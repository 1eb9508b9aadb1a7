import Conform.Rule

/-!
# Options of runs and models
-/

namespace Conform

/-- The options of one run. -/
structure ValidateOptions where
  /-- A path from the place of the call to the target of the run. -/
  scope : Option String := none
  /-- Commit only where the caller has set the value. -/
  onlyDirtyRefs : Bool := false
  coerceTypes : Bool := false
  removeAdditional : Bool := false
  markAsValidated : Bool := true

/-- What holds for every run of a model. A run can add flags but take none away. -/
structure ModelConfig where
  messages : Messages := {}
  coerceTypes : Bool := false
  removeAdditional : Bool := false
  onlyDirtyRefs : Bool := false

namespace ValidateOptions

def withConfig (o : ValidateOptions) (c : ModelConfig) : ValidateOptions :=
  { o with
    onlyDirtyRefs := o.onlyDirtyRefs || c.onlyDirtyRefs
    coerceTypes := o.coerceTypes || c.coerceTypes
    removeAdditional := o.removeAdditional || c.removeAdditional }

def evaluation (o : ValidateOptions) (messages : Messages) : EvalOptions :=
  { coerceTypes := o.coerceTypes, removeAdditional := o.removeAdditional, messages }

def ofValue? (v : Value) : Option ValidateOptions := do
  let r ← Record.of? 5 v
  let scope ← r.optional? 0 "scope" Value.string?
  let onlyDirtyRefs ← r.flag? 1 "onlyDirtyRefs" false
  let coerceTypes ← r.flag? 2 "coerceTypes" false
  let removeAdditional ← r.flag? 3 "removeAdditional" false
  let markAsValidated ← r.flag? 4 "markAsValidated" true
  pure { scope, onlyDirtyRefs, coerceTypes, removeAdditional, markAsValidated }

end ValidateOptions

namespace ModelConfig

/-- The options that every run of the model starts from. -/
def validateOptions (c : ModelConfig) : ValidateOptions :=
  { onlyDirtyRefs := c.onlyDirtyRefs
    coerceTypes := c.coerceTypes
    removeAdditional := c.removeAdditional }

def ofValue? (v : Value) : Option ModelConfig := do
  let r ← Record.of? 5 v
  let errors ← r.get? 0 "errors" [] Value.texts?
  let warnings ← r.get? 1 "warnings" [] Value.texts?
  let coerceTypes ← r.flag? 2 "coerceTypes" false
  let removeAdditional ← r.flag? 3 "removeAdditional" false
  let onlyDirtyRefs ← r.flag? 4 "onlyDirtyRefs" false
  pure { messages := { errors, warnings }, coerceTypes, removeAdditional, onlyDirtyRefs }

end ModelConfig

end Conform

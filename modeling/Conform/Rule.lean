import Conform.Pattern
import Conform.Walk

/-!
# Rules

A rule is the compiled form of one schema node: its checks in the order in which they run, the
annotations first, with the texts of its own that replace those of the checks. A check is a leaf,
which looks at its own place alone, or leads on to rules nested in it.

A rule is plain syntax. What it does is said by its walk.
-/

namespace Conform

/-- Texts by the keyword whose text they replace. -/
structure Messages where
  errors : Dict String := []
  warnings : Dict String := []

/-- The texts of a schema node. The single ones outweigh those by keyword. -/
structure NodeMessages extends Messages where
  error : Option String := none
  warning : Option String := none

structure EvalOptions where
  /-- Whether `type` turns values into the declared type. -/
  coerceTypes : Bool := false
  /-- Whether `additionalProperties: false` deletes keys instead of failing. -/
  removeAdditional : Bool := false
  messages : Messages := {}

def EvalOptions.ofValue? (v : Value) : Option EvalOptions := do
  let r ← Record.of? 4 v
  let coerceTypes ← r.flag? 0 "coerceTypes" false
  let removeAdditional ← r.flag? 1 "removeAdditional" false
  let errors ← r.get? 2 "errors" [] Value.texts?
  let warnings ← r.get? 3 "warnings" [] Value.texts?
  pure { coerceTypes, removeAdditional, messages := { errors, warnings } }

/-- The text for a keyword, if there is a keyword and a text for it. -/
def messageFor (texts : Dict String) (keyword : Option String) : Option String :=
  keyword.bind texts.get?

/-- The node's own text comes first, then its text for the keyword, then the caller's; an outcome
for which there is none keeps the text it has. Warnings replace only warnings. -/
def NodeMessages.resolve (node : NodeMessages) (caller : Messages) (o : Outcome) : Outcome :=
  let text := match o.valid with
    | some false =>
      node.error <|> messageFor node.errors o.keyword <|> messageFor caller.errors o.keyword
    | some true =>
      if o.message.isSome then
        node.warning <|> messageFor node.warnings o.keyword
          <|> messageFor caller.warnings o.keyword
      else none
    | none => none
  { o with message := text <|> o.message }

/-- A change of values that the `filter` annotation names. -/
structure Filter where
  name : String
  apply : Value → Value

inductive Bound where
  | minimum | maximum | exclusiveMinimum | exclusiveMaximum | multipleOf
  deriving DecidableEq

/-- A limit from below or from above. -/
inductive Side where
  | atLeast | atMost
  deriving DecidableEq

/-- The checks that look at one place and at nothing below it. -/
inductive Leaf where
  /-- Fills in the default, applies the filters, and says what the node says of every value. -/
  | annotations (default : Option Value) (filters : List Filter) (constant : Outcome)
  /-- The schema that allows no value. -/
  | never
  | type (kinds : List Kind)
  | enum (allowed : List Value)
  | const (expected : Value)
  | bound (b : Bound) (limit : Number)
  | length (side : Side) (limit : Nat)
  | pattern (source : String) (p : Pattern)
  | itemCount (side : Side) (limit : Nat)
  | uniqueItems (enabled : Bool)
  /-- The value itself must be there, if `needed`. -/
  | present (needed : Bool)
  /-- Named properties must be there. -/
  | requiredNames (names : List String)
  /-- Keys other than those known are refused or removed, unless they are `allowed`. -/
  | additionalKeys (known : List String) (allowed : Bool)

def Bound.name : Bound → String
  | minimum => "minimum"
  | maximum => "maximum"
  | exclusiveMinimum => "exclusiveMinimum"
  | exclusiveMaximum => "exclusiveMaximum"
  | multipleOf => "multipleOf"

/-- How a message puts the limit. -/
def Bound.phrase : Bound → String
  | minimum => ">="
  | maximum => "<="
  | exclusiveMinimum => ">"
  | exclusiveMaximum => "<"
  | multipleOf => "a multiple of"

def Side.lengthName : Side → String
  | atLeast => "minLength"
  | atMost => "maxLength"

def Side.itemsName : Side → String
  | atLeast => "minItems"
  | atMost => "maxItems"

def Side.phrase : Side → String
  | atLeast => "at least"
  | atMost => "at most"

def Side.holds (limit n : Nat) : Side → Bool
  | atLeast => limit ≤ n
  | atMost => n ≤ limit

def Leaf.keyword : Leaf → String
  | annotations .. => "annotations"
  | never => "false"
  | type _ => "type"
  | enum _ => "enum"
  | const _ => "const"
  | bound b _ => b.name
  | length side _ => side.lengthName
  | pattern .. => "pattern"
  | itemCount side _ => side.itemsName
  | uniqueItems _ => "uniqueItems"
  | present _ => "required"
  | requiredNames _ => "required"
  | additionalKeys .. => "additionalProperties"

/-- A rule as a check that holds it sees it: what it declares, and its walk at any place. -/
structure Walker where
  declaration : Declaration
  walk : Mode → Route → Walk

/-- What a keyword from outside does at a place, given the walkers of the rules nested in it. -/
abbrev CustomRun := EvalOptions → List Walker → Mode → Route → Walk

mutual

inductive Rule where
  | node (location : String) (checks : List Check) (messages : NodeMessages)
      (declaration : Declaration)

inductive Check where
  | leaf (l : Leaf)
  | properties (children : List Property)
  /-- Every key that is not known is visited. -/
  | additional (known : List String) (rule : Rule)
  | items (rule : Rule)
  /-- One rule for each place of an array, from the front. -/
  | tuple (rules : List Rule)
  | allOf (branches : List Rule)
  | anyOf (branches : List Rule)
  | oneOf (branches : List Rule)
  | excluded (rule : Rule)
  | conditional (condition : Rule) (met unmet : Option Rule)
  /-- A keyword from outside. One that is `compound` leads to places below. -/
  | custom (keyword : String) (compound : Bool) (rules : List Rule) (run : CustomRun)

inductive Property where
  | mk (key : String) (required : Bool) (rule : Rule)

end

def Check.keyword : Check → String
  | leaf l => l.keyword
  | properties _ => "properties"
  | additional .. => "additionalProperties"
  | items _ => "items"
  | tuple _ => "items"
  | allOf _ => "allOf"
  | anyOf _ => "anyOf"
  | oneOf _ => "oneOf"
  | excluded _ => "not"
  | conditional .. => "if"
  | custom k _ _ _ => k

/-- Whether the check leads to places below and so runs in structural mode too. -/
def Check.isCompound : Check → Bool
  | leaf _ => false
  | excluded _ => false
  | custom _ compound _ _ => compound
  | _ => true

def Rule.location : Rule → String
  | node location _ _ _ => location

def Rule.keywords : Rule → List String
  | node _ checks _ _ => checks.map Check.keyword

def Rule.declaration : Rule → Declaration
  | node _ _ _ declaration => declaration

/-- The paths that this node itself depends on. -/
def Rule.dependsOn (r : Rule) : List String := r.declaration.dependsOn

/-- Whether this node or a rule nested in it depends on other places. -/
def Rule.declaresDependents (r : Rule) : Bool := r.declaration.declaresDependents

end Conform

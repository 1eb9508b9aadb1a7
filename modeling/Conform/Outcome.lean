import Conform.Record

/-!
# Outcomes

An outcome is what a check says about one place of the data: a verdict or none, a text, and what
it adds to the description of the place. The outcomes of all checks of a place are folded into
one. A failure outweighs every pass, and the text of the first failure stands; among passes the
first text stands; no verdict at all stays no verdict.
-/

namespace Conform

structure Outcome where
  /-- No verdict means that no check applies, which counts as passing. -/
  valid : Option Bool := none
  /-- The error of a failure or the warning of a pass. -/
  message : Option String := none
  /-- The keyword that gave the verdict or the text. -/
  keyword : Option String := none
  required : Bool := false
  readOnly : Bool := false
  writeOnly : Bool := false
  /-- Paths, seen from this place, whose change makes this place worth another look. -/
  dependsOn : List String := []
  annotations : Dict Value := []

namespace Outcome

/-- Nothing to say: no verdict and no description. -/
def silent : Outcome := {}

def pass : Outcome := { valid := some true }

def warn (text : String) : Outcome := { valid := some true, message := some text }

def fail (text : String) : Outcome := { valid := some false, message := some text }

def check (ok : Bool) (text : String) : Outcome := if ok then pass else fail text

def annotate (o : Outcome) (k : String) (v : Value) : Outcome :=
  { o with annotations := o.annotations.insert k v }

def isInvalid (o : Outcome) : Bool := o.valid = some false

def passes (o : Outcome) : Bool := !o.isInvalid

/-- An outcome that names no keyword is attributed to `keyword`. -/
def attributed (keyword : String) (o : Outcome) : Outcome :=
  { o with keyword := o.keyword <|> some keyword }

/-- Whether the verdict and text of `o` replace those gathered in `m`. -/
def supersedes (m o : Outcome) : Bool :=
  match m.valid, o.valid with
  | none, some true => true
  | some true, some true => m.message.isNone && o.message.isSome
  | none, some false => true
  | some true, some false => true
  | _, _ => false

/-- One more outcome folded into those gathered so far. -/
def add (m o : Outcome) : Outcome :=
  let v := if m.supersedes o then o else m
  { valid := v.valid
    message := v.message
    keyword := v.keyword
    required := m.required || o.required
    readOnly := m.readOnly || o.readOnly
    writeOnly := m.writeOnly || o.writeOnly
    dependsOn := m.dependsOn ++ o.dependsOn
    annotations := m.annotations.overlay o.annotations }

def merge (os : List Outcome) : Outcome := os.foldl add silent

@[simp] theorem merge_nil : merge [] = silent := rfl

theorem merge_concat (os : List Outcome) (o : Outcome) : merge (os ++ [o]) = (merge os).add o := by
  simp [merge]

/-- Nothing said changes nothing. -/
@[simp] theorem add_silent (m : Outcome) : m.add silent = m := by
  have h : m.supersedes silent = false := by
    simp only [supersedes, silent]
    split <;> simp_all
  rw [add, h]
  simp [silent, Dict.overlay]

@[simp] theorem pass_isInvalid : pass.isInvalid = false := rfl

@[simp] theorem fail_isInvalid (t : String) : (fail t).isInvalid = true := rfl

def ofValue? (v : Value) : Option Outcome := do
  let r ← Record.of? 8 v
  let valid ← r.optional? 0 "valid" Value.bool?
  let message ← r.optional? 1 "message" Value.string?
  let keyword ← r.optional? 2 "keyword" Value.string?
  let required ← r.flag? 3 "required" false
  let readOnly ← r.flag? 4 "readOnly" false
  let writeOnly ← r.flag? 5 "writeOnly" false
  let dependsOn ← r.get? 6 "dependsOn" [] Value.strings?
  let annotations ← r.get? 7 "meta" [] fun
    | .object d => some d
    | _ => none
  pure { valid, message, keyword, required, readOnly, writeOnly, dependsOn, annotations }

/-- The field of a value that is there. -/
def optionalField {α : Type} (name : String) (encode : α → Value) : Option α → Dict Value
  | some a => [(name, encode a)]
  | none => []

def toValue (o : Outcome) : Value :=
  .object <|
    optionalField "valid" .bool o.valid
    ++ optionalField "message" .string o.message
    ++ optionalField "keyword" .string o.keyword
    ++ [("required", .bool o.required), ("readOnly", .bool o.readOnly),
      ("writeOnly", .bool o.writeOnly)]
    ++ (if o.dependsOn.isEmpty then [] else [("dependsOn", .strings o.dependsOn)])
    ++ (if o.annotations.isEmpty then [] else [("meta", .object o.annotations)])

end Outcome

end Conform

import Conform.Schema.Registry

/-!
# Annotations

The keys of a schema node that are no keywords: what they say of every value of the node, the
default and the filters, and the node's own texts. They are read in a fixed order, so that of two
wrong ones the same is always reported.
-/

namespace Conform

/-- The part of a location that stands for a key. -/
def pointerToken (key : String) : String :=
  String.ofList <| key.toList.flatMap fun c =>
    if c = '~' then ['~', '0'] else if c = '/' then ['~', '1'] else [c]

/-- The location one key further down. -/
def locationBelow (location key : String) : String := location ++ "/" ++ pointerToken key

/-- The location of an entry of a payload. The empty key adds nothing to the payload's own. -/
def entryLocation (location key : String) : String :=
  if key = "" then location else locationBelow location key

structure Annotations where
  default : Option Value
  filters : List Filter
  constant : Outcome
  dependsOn : List String
  messages : NodeMessages

namespace Annotations

def keys : List String :=
  ["title", "description", "default", "filter", "readOnly", "writeOnly", "error", "errors",
    "warning", "warnings", "dependencies", "dependsOn"]

section

variable (node : Dict Value) (location : String)

/-- An annotation that `decode` reads, with the value that stands for its absence. -/
def field {α : Type} (key expected : String) (absent : α) (decode : Value → Option α) :
    Except CompileError α :=
  match node.get? key with
  | none => .ok absent
  | some v =>
    match decode v with
    | some a => .ok a
    | none => .error (.invalidPayload key (locationBelow location key) expected)

def string? (key : String) : Except CompileError (Option String) :=
  field node location key "a string" none fun v => v.string?.map some

def flag (key : String) : Except CompileError Bool :=
  field node location key "a boolean" false Value.bool?

/-- A string counts as a list of one. -/
def strings (key : String) : Except CompileError (List String) :=
  field node location key "a string or an array of strings" [] fun
    | .string s => some [s]
    | v => v.strings?

def texts (key : String) : Except CompileError (Dict String) :=
  field node location key "an object of strings" [] Value.texts?

end

def namedFilters (r : Registry) (location : String) : List String →
    Except CompileError (List Filter)
  | [] => .ok []
  | name :: names =>
    match r.filter? name with
    | none => .error (.unknownFilter name (locationBelow location "filter"))
    | some f => (namedFilters r location names).map (f :: ·)

/-- What the node says of every value. -/
def constantOutcome (readOnly writeOnly : Bool) (dependsOn dependencies : List String)
    (title description : Option String) : Outcome :=
  { readOnly, writeOnly, dependsOn
    annotations :=
      Outcome.optionalField "title" .string title
        ++ Outcome.optionalField "description" .string description
        ++ (if dependencies.isEmpty then [] else [("dependencies", .strings dependencies)]) }

def parse (r : Registry) (node : Dict Value) (location : String) :
    Except CompileError Annotations := do
  let filters ← namedFilters r location (← strings node location "filter")
  let dependsOn ← strings node location "dependsOn"
  let dependencies ← strings node location "dependencies"
  let readOnly ← flag node location "readOnly"
  let writeOnly ← flag node location "writeOnly"
  let title ← string? node location "title"
  let description ← string? node location "description"
  let error ← string? node location "error"
  let warning ← string? node location "warning"
  let errors ← texts node location "errors"
  let warnings ← texts node location "warnings"
  pure
    { default := node.get? "default"
      filters
      constant := constantOutcome readOnly writeOnly dependsOn dependencies title description
      dependsOn
      messages := { errors, warnings, error, warning } }

def check (a : Annotations) : Check := .leaf (.annotations a.default a.filters a.constant)

/-- What the node declares; `raised` says whether a rule within the node depends on other places. -/
def declaration (a : Annotations) (raised : Bool) : Declaration where
  dependsOn := a.dependsOn
  declaresDependents := !a.dependsOn.isEmpty || raised

end Annotations

end Conform

import Conform.Json.Reader
import Conform.Model.Options
import Conform.Yaml.Reader

/-!
# Documents

A document is JSON or YAML, as the name of its file says. A configuration is read from the document
itself, not from the value that the document has: a scalar that would be a number is a text where
a text is asked for, and a setting that stands twice spoils the configuration.
-/

namespace Conform

inductive Format where
  | json
  | yaml
  deriving DecidableEq

namespace Format

def name : Format → String
  | json => "JSON"
  | yaml => "YAML"

/-- The last piece of a file's path, if it is a name. -/
def fileName? (path : String) : Option (List Char) :=
  match ((slashPieces path.toList).filter fun p => p ≠ [] ∧ p ≠ ['.']).getLast? with
  | some p => if p = ['.', '.'] then none else some p
  | none => none

/-- What stands behind the last point of a name. A name whose only point is its first character has
nothing behind it. -/
def extension? (path : String) : Option String :=
  match fileName? path with
  | none => none
  | some name =>
    let behind := name.reverse.takeWhile (· ≠ '.')
    match name.reverse.drop behind.length with
    | _ :: _ :: _ => some (String.ofList behind.reverse)
    | _ => none

def ofPath (path : String) : Format :=
  if extension? path = some "yaml" ∨ extension? path = some "yml" then yaml else json

def readValue? (f : Format) (text : String) : Option Value :=
  match f with
  | json => Json.read? text
  | yaml => (Yaml.Reader.read? text).bind Yaml.Tree.value?

end Format

namespace ModelConfig

def settings : List String :=
  ["errors", "warnings", "coerceTypes", "removeAdditional", "onlyDirtyRefs"]

def repeatsSetting (keys : List String) : Bool := settings.any fun k => 1 < keys.count k

def yamlTexts? (t : Yaml.Tree) (n : Yaml.Node) : Option (Dict String) :=
  (t.entries? n).bind fun es => (Dict.traverse? t.text? es).map Dict.ofEntries

def ofYaml? (t : Yaml.Tree) : Option ModelConfig := do
  let es ← t.entries? t.root
  if repeatsSetting (es.map Prod.fst) then none
  else
    let flag (k : String) : Option Bool :=
      match es.lookup k with
      | none => some false
      | some n => t.bool? n
    let texts (k : String) : Option (Dict String) :=
      match es.lookup k with
      | none => some []
      | some n => yamlTexts? t n
    let errors ← texts "errors"
    let warnings ← texts "warnings"
    let coerceTypes ← flag "coerceTypes"
    let removeAdditional ← flag "removeAdditional"
    let onlyDirtyRefs ← flag "onlyDirtyRefs"
    pure { messages := { errors, warnings }, coerceTypes, removeAdditional, onlyDirtyRefs }

def read? (f : Format) (text : String) : Option ModelConfig :=
  match f with
  | .json =>
    if repeatsSetting (Json.keys text) then none else (Json.read? text).bind ofValue?
  | .yaml => (Yaml.Reader.read? text).bind ofYaml?

end ModelConfig

end Conform

import Conform.Rule
import Conform.Text.Blank
import Conform.Text.Casing

/-!
# Keywords and filters

The names that a schema may use. The built-in keywords and filters are always there; a registry
adds keywords and filters from outside, which replace those of the same name.
-/

namespace Conform

inductive CompileError where
  /-- A key is neither an annotation nor a keyword. -/
  | unknownKeyword (keyword location : String)
  | invalidPayload (keyword location expected : String)
  | invalidSchema (location : String) (found : Kind)
  | unknownFilter (filter location : String)
  | invalidPattern (location : String)
  deriving DecidableEq

/-- The message of an invalid pattern leaves the place of the reason to be filled in. -/
def CompileError.message : CompileError → String
  | unknownKeyword keyword location => "unknown keyword '" ++ keyword ++ "' at '" ++ location ++ "'"
  | invalidPayload keyword location expected =>
    "invalid payload for '" ++ keyword ++ "' at '" ++ location ++ "': expected " ++ expected
  | invalidSchema location found =>
    "invalid schema at '" ++ location ++ "': expected an object or boolean, found " ++ found.name
  | unknownFilter filter location => "unknown filter '" ++ filter ++ "' at '" ++ location ++ "'"
  | invalidPattern location => "invalid pattern at '" ++ location ++ "': <reason>"

/-- A built-in keyword. -/
inductive BuiltIn where
  | type | enum | const
  | bound (b : Bound)
  | length (side : Side)
  | pattern
  | itemCount (side : Side)
  | uniqueItems | items
  | properties | required | additionalProperties
  | allOf | anyOf | oneOf | excluded | conditional
  deriving DecidableEq

namespace BuiltIn

/-- All of them, in the order of their names. -/
def all : List BuiltIn :=
  [additionalProperties, allOf, anyOf, const, enum, bound .exclusiveMaximum,
    bound .exclusiveMinimum, conditional, items, itemCount .atMost, length .atMost,
    bound .maximum, itemCount .atLeast, length .atLeast, bound .minimum, bound .multipleOf,
    excluded, oneOf, pattern, properties, required, type, uniqueItems]

def name : BuiltIn → String
  | type => "type"
  | enum => "enum"
  | const => "const"
  | bound b => b.name
  | length side => side.lengthName
  | pattern => "pattern"
  | itemCount side => side.itemsName
  | uniqueItems => "uniqueItems"
  | items => "items"
  | properties => "properties"
  | required => "required"
  | additionalProperties => "additionalProperties"
  | allOf => "allOf"
  | anyOf => "anyOf"
  | oneOf => "oneOf"
  | excluded => "not"
  | conditional => "if"

def named? (s : String) : Option BuiltIn := all.find? (·.name = s)

/-- The keys beside it that belong to a keyword. -/
def reserves : BuiltIn → List String
  | conditional => ["then", "else"]
  | _ => []

end BuiltIn

/-- A keyword from outside. -/
structure Keyword where
  name : String
  reserves : List String
  compound : Bool
  /-- The entries of the payload that hold schemas, or what was expected instead of the payload. A
  schema that is missing counts as null. -/
  nested : Value → Except String (List String)
  /-- What to do with a payload whose schemas have compiled, or what was expected instead of it. -/
  build : Value → Except String CustomRun

namespace Filter

/-- Changes strings and leaves other values alone. -/
def onStrings (name : String) (f : String → String) : Filter :=
  ⟨name, fun
    | .string s => .string (f s)
    | v => v⟩

def builtIn : List Filter :=
  [onStrings "trim" Text.trim, onStrings "lowercase" Text.lowercase,
    onStrings "uppercase" Text.uppercase]

end Filter

structure Registry where
  keywords : List Keyword
  filters : List Filter

namespace Registry

/-- Nothing but what is built in. -/
def standard : Registry := ⟨[], []⟩

/-- A keyword that a name stands for. -/
inductive Entry where
  | builtIn (k : BuiltIn)
  | custom (k : Keyword)

def find? (r : Registry) (name : String) : Option Entry :=
  match r.keywords.find? (·.name = name) with
  | some k => some (.custom k)
  | none => (BuiltIn.named? name).map .builtIn

def Entry.reserves : Entry → List String
  | builtIn k => k.reserves
  | custom k => k.reserves

def contains (r : Registry) (name : String) : Bool := (r.find? name).isSome

def filter? (r : Registry) (name : String) : Option Filter :=
  (r.filters ++ Filter.builtIn).find? (·.name = name)

/-- The names of all keywords in increasing order, each once. -/
def names (r : Registry) : List String :=
  let own := (r.keywords.map Keyword.name).eraseDups
  ((BuiltIn.all.map BuiltIn.name).filter (!own.contains ·) ++ own).mergeSort (· ≤ ·)

end Registry

end Conform

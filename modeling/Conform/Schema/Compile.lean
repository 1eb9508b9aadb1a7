import Conform.Json.Printer
import Conform.Pattern.Meaning
import Conform.Schema.Annotation

/-!
# Compiling schemas

A schema is a boolean or an object. The schema `false` allows no value and `true` is the empty
object. Of an object, the annotations are read first; every other key must name a keyword, unless a
keyword beside it has it for its own. The first error met ends the compilation, and its location
points at the culprit.

A keyword gets at the schemas in its payload through `Nested`: each is compiled when the keyword
asks for it, at the location that it has there. While the keywords of a node are compiled, a flag of
the node is handed on from one to the next. Every schema whose rule declares dependents raises it,
whichever keyword has asked for the schema, and the rule of the node keeps it.
-/

namespace Conform

/-- The compilation of a part of a node. It is given the flag of the node, and leaves it as it is or
raised. -/
abbrev Compiling (α : Type) := StateT Bool (Except CompileError) α

/-- A schema within the node: the flag is raised if its rule declares dependents. -/
def Compiling.nest (compiled : Except CompileError Rule) : Compiling Rule := do
  let rule ← compiled
  if rule.declaresDependents then set true
  pure rule

/-- The ways in which a payload holds schemas. -/
structure Nested where
  /-- The payload itself, as a schema. -/
  whole : String → Compiling Rule
  /-- The items of an array, in order, at their places below the location given. -/
  items : String → Compiling (List Rule)
  /-- The fields of an object, in order, at their places below the location given. -/
  fields : String → Compiling (List (String × Rule))
  /-- One field of an object at its place below the location given, null if it is missing. -/
  field : String → String → Compiling Rule

/-- A keyword in its node. -/
structure Site where
  /-- The key it stands under. -/
  keyword : String
  /-- Where its payload is. -/
  location : String
  /-- The node that holds it. -/
  node : Dict Value
  /-- The schema under another key of the node, compiled at its own location. -/
  sibling : String → Compiling (Option Rule)

def Site.invalid {α : Type} (s : Site) (expected : String) : Except CompileError α :=
  .error (.invalidPayload s.keyword s.location expected)

namespace Compile

/-- The names in the `required` of a node, if it is a list. -/
def requiredNames (node : Dict Value) : List String :=
  match node.get? "required" with
  | some (.array items) => items.filterMap Value.string?
  | _ => []

/-- The names in the `properties` of a node. -/
def propertyNames (node : Dict Value) : List String :=
  match node.get? "properties" with
  | some (.object fields) => Dict.keys fields
  | _ => []

def typeNames : Value → Option (List String)
  | .string s => some [s]
  | v => v.strings?

def enumCheck (s : Site) (payload : Value) : Except CompileError Check :=
  match payload with
  | .array allowed => .ok (.leaf (.enum allowed))
  | _ => s.invalid "an array of values"

def uniqueCheck (s : Site) (payload : Value) : Except CompileError Check :=
  match payload with
  | .bool b => .ok (.leaf (.uniqueItems b))
  | _ => s.invalid "a boolean"

def typeCheck (s : Site) (payload : Value) : Except CompileError Check :=
  match typeNames payload with
  | none => s.invalid "a type name or an array of type names"
  | some names =>
    match names.mapM Kind.named? with
    | some (k :: ks) => .ok (.leaf (.type (k :: ks)))
    | _ =>
      s.invalid ("type names among " ++ Json.joined ", " (Kind.all.map Kind.name))

def boundCheck (s : Site) (b : Bound) (payload : Value) : Except CompileError Check :=
  match payload.number? with
  | none => s.invalid "a number"
  | some n =>
    if b = .multipleOf ∧ n.toDouble.le (.ofInt 0) then s.invalid "a positive number"
    else .ok (.leaf (.bound b n))

def countOf (s : Site) (payload : Value) : Except CompileError Nat :=
  match payload.nat? with
  | some n => .ok n
  | none => s.invalid "a non-negative integer"

def patternCheck (s : Site) (payload : Value) : Except CompileError Check :=
  match payload.string? with
  | none => s.invalid "a regular expression string"
  | some source =>
    match Pattern.ofText? source with
    | none => .error (.invalidPattern s.location)
    | some p => .ok (.leaf (.pattern source p))

def requiredCheck (s : Site) (payload : Value) : Except CompileError Check :=
  match payload with
  | .bool b => .ok (.leaf (.present b))
  | v =>
    match v.strings? with
    | some names => .ok (.leaf (.requiredNames names))
    | none => s.invalid "a boolean or an array of property names"

def propertiesCheck (s : Site) (payload : Value) (nested : Nested) : Compiling Check :=
  match payload with
  | .object _ =>
    (fun rules => .properties
        (rules.map fun p => .mk p.1 ((requiredNames s.node).contains p.1) p.2)) <$>
      nested.fields s.location
  | _ => s.invalid "an object of schemas"

def additionalCheck (s : Site) (payload : Value) (nested : Nested) : Compiling Check :=
  match payload with
  | .bool allowed => pure (.leaf (.additionalKeys (propertyNames s.node) allowed))
  | .object _ => .additional (propertyNames s.node) <$> nested.whole s.location
  | _ => s.invalid "a boolean or a schema"

def itemsCheck (s : Site) (payload : Value) (nested : Nested) : Compiling Check :=
  match payload with
  | .array _ => .tuple <$> nested.items s.location
  | .object _ => .items <$> nested.whole s.location
  | .bool _ => .items <$> nested.whole s.location
  | _ => s.invalid "a schema or an array of schemas"

def branches (s : Site) (payload : Value) (nested : Nested) : Compiling (List Rule) :=
  match payload with
  | .array (_ :: _) => nested.items s.location
  | _ => s.invalid "a non-empty array of schemas"

def conditionalCheck (s : Site) (nested : Nested) : Compiling Check := do
  let condition ← nested.whole s.location
  let met ← s.sibling "then"
  let unmet ← s.sibling "else"
  pure (.conditional condition met unmet)

def builtInCheck (s : Site) (payload : Value) (nested : Nested) : BuiltIn → Compiling Check
  | .type => typeCheck s payload
  | .enum => enumCheck s payload
  | .const => pure (.leaf (.const payload))
  | .bound b => boundCheck s b payload
  | .length side => (countOf s payload).map fun n => .leaf (.length side n)
  | .pattern => patternCheck s payload
  | .itemCount side => (countOf s payload).map fun n => .leaf (.itemCount side n)
  | .uniqueItems => uniqueCheck s payload
  | .items => itemsCheck s payload nested
  | .properties => propertiesCheck s payload nested
  | .required => requiredCheck s payload
  | .additionalProperties => additionalCheck s payload nested
  | .allOf => .allOf <$> branches s payload nested
  | .anyOf => .anyOf <$> branches s payload nested
  | .oneOf => .oneOf <$> branches s payload nested
  | .excluded => .excluded <$> nested.whole s.location
  | .conditional => conditionalCheck s nested

def customCheck (s : Site) (payload : Value) (nested : Nested) (k : Keyword) : Compiling Check :=
  match k.nested payload with
  | .error expected => s.invalid expected
  | .ok names => do
    let rules ← names.mapM fun name => nested.field name s.location
    match k.build payload with
    | .error expected => s.invalid expected
    | .ok run => pure (.custom s.keyword k.compound rules run)

def checkOf (s : Site) (payload : Value) (nested : Nested) : Registry.Entry → Compiling Check
  | .builtIn k => builtInCheck s payload nested k
  | .custom k => customCheck s payload nested k

/-- The keys of a node that are no keywords there. -/
def reservedKeys (r : Registry) (node : Dict Value) : List String :=
  Annotations.keys ++ (Dict.keys node).flatMap fun k => ((r.find? k).map (·.reserves)).getD []

end Compile

section

variable (registry : Registry)

mutual

/-- The rule of a schema that stands at a location. -/
def compileAt (schema : Value) (location : String) : Except CompileError Rule :=
  match schema with
  | .bool true => do
    let a ← Annotations.parse registry [] location
    pure (.node location [a.check] a.messages (a.declaration false))
  | .bool false => .ok (.node location [.leaf .never] {} {})
  | .object fields => do
    let a ← Annotations.parse registry fields location
    let (checks, raised) ← (compileChecks fields location
      (fun key => compileSibling fields location key) (Compile.reservedKeys registry fields)
      fields).run false
    pure (.node location (a.check :: checks) a.messages (a.declaration raised))
  | .null => .error (.invalidSchema location .null)
  | .number n => .error (.invalidSchema location (Value.number n).kind)
  | .string _ => .error (.invalidSchema location .string)
  | .array _ => .error (.invalidSchema location .array)

/-- The checks of the keywords in a list of entries of a node. -/
def compileChecks (node : Dict Value) (location : String)
    (sibling : String → Compiling (Option Rule)) (reserved : List String)
    (entries : List (String × Value)) : Compiling (List Check) :=
  match entries with
  | [] => pure []
  | (key, payload) :: rest =>
    if reserved.contains key then compileChecks node location sibling reserved rest
    else
      match registry.find? key with
      | none => throw (.unknownKeyword key location)
      | some entry => do
        let check ← Compile.checkOf ⟨key, locationBelow location key, node, sibling⟩ payload
          ⟨fun location => .nest (compileAt payload location), compileItems payload,
            compileFields payload, compileField payload⟩
          entry
        let checks ← compileChecks node location sibling reserved rest
        pure (check :: checks)

/-- The schema under a key, if the key is there. -/
def compileSibling (entries : List (String × Value)) (location key : String) :
    Compiling (Option Rule) :=
  match entries with
  | [] => pure none
  | (k, schema) :: rest =>
    if k = key then some <$> .nest (compileAt schema (locationBelow location key))
    else compileSibling rest location key

def compileItems (payload : Value) (location : String) : Compiling (List Rule) :=
  match payload with
  | .array schemas => compileList schemas location 0
  | _ => pure []

def compileList (schemas : List Value) (location : String) (i : Nat) : Compiling (List Rule) :=
  match schemas with
  | [] => pure []
  | schema :: rest => do
    let rule ← .nest (compileAt schema (location ++ "/" ++ toString i))
    let rules ← compileList rest location (i + 1)
    pure (rule :: rules)

def compileFields (payload : Value) (location : String) : Compiling (List (String × Rule)) :=
  match payload with
  | .object entries => compileEntries entries location
  | _ => pure []

def compileEntries (entries : List (String × Value)) (location : String) :
    Compiling (List (String × Rule)) :=
  match entries with
  | [] => pure []
  | (key, schema) :: rest => do
    let rule ← .nest (compileAt schema (entryLocation location key))
    let rules ← compileEntries rest location
    pure ((key, rule) :: rules)

def compileField (payload : Value) (name location : String) : Compiling Rule :=
  match payload with
  | .object entries => do
    match ← compileSibling entries location name with
    | some rule => pure rule
    | none => throw (.invalidSchema (locationBelow location name) .null)
  | _ => throw (.invalidSchema (locationBelow location name) .null)

end

/-- The rule of a root schema. -/
def compile (schema : Value) : Except CompileError Rule := compileAt registry schema "#"

end

end Conform

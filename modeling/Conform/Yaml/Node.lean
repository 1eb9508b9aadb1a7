import Conform.Dict
import Conform.Yaml.Plain
import Conform.Yaml.Scalar

/-!
# YAML nodes

A document before its scalars are given kinds: the same plain scalar is the number `5` where any
value may stand and the text `5` where a text is asked for. Quoted scalars are texts, unless a tag
says otherwise.

An alias stands for the node under an anchor, which may be around it, so a document may be deeper
than any value. Following aliases ends at a greatest depth and at a greatest number of them.
-/

namespace Conform.Yaml

structure Scalar where
  text : String
  style : ScalarStyle
  tag : Option String

inductive Node where
  | scalar (s : Scalar)
  | sequence (tag : Option String) (items : List Node)
  /-- Entries in the order written; a key may stand twice, and any node may be written as one. -/
  | mapping (tag : Option String) (entries : List (Node × Node))
  /-- What stands under the anchor with a number. -/
  | reference (anchor : Nat)

/-- A document and its anchored nodes. -/
structure Tree where
  root : Node
  anchored : List (Nat × Node)

/-- A tag of the standard kinds. -/
def standardTag (kind : String) : String := "tag:yaml.org,2002:" ++ kind

/-- A tag that only the writer knows. Nothing is known of what it marks. -/
def isOwnTag (tag : Option String) : Bool := tag.any fun t => t.toList.head? = some '!'

namespace Scalar

/-- What stands where nothing is written. -/
def empty : Scalar := ⟨"", .plain, none⟩

def value? (s : Scalar) : Option Value :=
  match s.tag with
  | none => if s.style = .plain then Plain.value? s.text else some (.string s.text)
  | some t =>
    if isOwnTag t then none
    else if t = standardTag "bool" then (Plain.bool? s.text).map .bool
    else if t = standardTag "int" then Plain.integerValue? s.text
    else if t = standardTag "float" then Plain.doubleValue? s.text
    else if t = standardTag "null" then
      if Plain.isNull s.text ∧ s.text ≠ "" then some .null else none
    else some (.string s.text)

/-- The truth value of a scalar that may be nothing else. -/
def bool? (s : Scalar) : Option Bool :=
  if s.style = .plain ∨ (s.style = .literal ∧ s.tag = some (standardTag "bool")) then
    Plain.bool? s.text
  else none

end Scalar

namespace Node

def empty : Node := scalar .empty

mutual

/-- The number of marks that a node is made of: one for a scalar or an alias, and two around what a
container holds. -/
def marks : Node → Nat
  | scalar _ => 1
  | sequence _ items => marksOfItems items + 2
  | mapping _ entries => marksOfEntries entries + 2
  | reference _ => 1

def marksOfItems : List Node → Nat
  | [] => 0
  | n :: ns => n.marks + marksOfItems ns

def marksOfEntries : List (Node × Node) → Nat
  | [] => 0
  | (k, n) :: es => k.marks + n.marks + marksOfEntries es

end

end Node

namespace Tree

/-- The node that a node stands for. -/
def resolve (t : Tree) : Node → Node
  | .reference id => (t.anchored.lookup id).getD .empty
  | n => n

/-- The greatest depth of a document. -/
def depthLimit : Nat := 128

/-- The greatest number of aliases that are followed for each mark of a document. -/
def aliasesPerMark : Nat := 100

/-- The node that a node stands for and the number of aliases that may still be followed. -/
def follow? (t : Tree) (left : Nat) : Node → Option (Node × Nat)
  | .reference id => if left = 0 then none else some (t.resolve (.reference id), left - 1)
  | n => some (n, left)

/-- Reads each of some parts while aliases may be followed. -/
def each? {α β : Type} (read : Nat → α → Option (β × Nat)) :
    Nat → List α → Option (List β × Nat)
  | left, [] => some ([], left)
  | left, a :: as =>
    match read left a with
    | none => none
    | some (b, left) => (each? read left as).map fun p => (b :: p.1, p.2)

def key? (t : Tree) (left : Nat) (n : Node) : Option (String × Nat) :=
  match t.follow? left n with
  | some (.scalar s, left) => some (s.text, left)
  | _ => none

/-- The value of a node no deeper than a number of containers. Of a key that stands twice the last
value counts. -/
def valueWithin? (t : Tree) : Nat → Nat → Node → Option (Value × Nat)
  | depth, left, n =>
    match t.follow? left n, depth with
    | some (.scalar s, left), _ => s.value?.map (·, left)
    | some (.sequence tag items, left), depth + 1 =>
      if isOwnTag tag then none
      else
        (each? (t.valueWithin? depth) left items).map fun p => (.array p.1, p.2)
    | some (.mapping tag entries, left), depth + 1 =>
      let entry (left : Nat) (e : Node × Node) : Option ((String × Value) × Nat) :=
        match t.key? left e.1 with
        | none => none
        | some (k, left) => (t.valueWithin? depth left e.2).map fun p => ((k, p.1), p.2)
      if isOwnTag tag then none
      else (each? entry left entries).map fun p => (.object (Dict.ofEntries p.1), p.2)
    | _, _ => none

/-- The value of a document. -/
def value? (t : Tree) : Option Value :=
  (t.valueWithin? depthLimit (aliasesPerMark * t.root.marks) t.root).map Prod.fst

/-- The text of a scalar, whatever it would be elsewhere. -/
def text? (t : Tree) (n : Node) : Option String :=
  match t.resolve n with
  | .scalar s => some s.text
  | _ => none

def bool? (t : Tree) (n : Node) : Option Bool :=
  match t.resolve n with
  | .scalar s => s.bool?
  | _ => none

/-- The entries of a mapping; where nothing is written there are none. -/
def entries? (t : Tree) (n : Node) : Option (List (String × Node)) :=
  match t.resolve n with
  | .mapping _ entries => entries.mapM fun e => (t.text? e.1).map fun k => (k, e.2)
  | .scalar s => if s.text = "" ∧ s.style = .plain then some [] else none
  | _ => none

end Tree

end Conform.Yaml

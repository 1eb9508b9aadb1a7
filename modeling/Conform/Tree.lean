import Conform.Route
import Conform.Value

/-!
# Data trees

A tree is a value that may be undefined, read and written by routes. Reading follows keys into
objects and indices into arrays; an index also reads the field of an object that has its text as a
key. Writing makes the containers that are missing on the way, an array before an index and an
object before a key, where the place is undefined or null. A write that is refused keeps the
containers it has made.
-/

namespace Conform

inductive PathError where
  /-- The holder of a segment is neither an object nor an array. -/
  | notAContainer (path holder : Route) (found : Kind)
  | keyIntoArray (path : Route) (key : String)
  | indexOutOfRange (path : Route) (index length : Nat)
  deriving DecidableEq

def PathError.message : PathError → String
  | notAContainer path holder found =>
    "cannot write '" ++ path.text ++ "': '" ++ holder.text ++ "' holds a " ++ found.name
      ++ ", not a container"
  | keyIntoArray path key =>
    "cannot write '" ++ path.text ++ "': key '" ++ key ++ "' does not index an array"
  | indexOutOfRange path index length =>
    "cannot write '" ++ path.text ++ "': index " ++ toString index
      ++ " is out of range for an array of length " ++ toString length

abbrev Tree := Option Value

namespace Tree

/-- The direct child of a value. -/
def childOf? : Value → Segment → Option Value
  | .object d, s => Dict.get? s.text d
  | .array items, .index i => items[i]?
  | _, _ => none

def valueAt? : Value → Route → Option Value
  | v, [] => some v
  | v, s :: r =>
    match childOf? v s with
    | some w => valueAt? w r
    | none => none

def get? (t : Tree) (r : Route) : Option Value := t.bind (valueAt? · r)

/-- The most null items that one write adds to an array, the new item included. -/
def paddingLimit : Nat := Nat.pow 2 16

/-- The empty container that a segment leads into. -/
def containerFor : Segment → Value
  | .index _ => .array []
  | .key _ => .object []

/-- A null place is opened for the segment below it. -/
def openedFor (s : Segment) : Value → Value
  | .null => containerFor s
  | v => v

/-- What a write leaves, and why it was refused if it was. -/
structure Written (α : Type) where
  result : α
  refusal : Option PathError

/-- Writes below one child of a holder. `change` says what becomes of the child that is there, if
there is one; a child that becomes undefined is erased from an object and null in an array. -/
def changeChild (path above : Route) (holder : Value) (s : Segment)
    (change : Option Value → Written (Option Value)) : Written Value :=
  match holder, s with
  | .object d, s =>
    let w := change (Dict.get? s.text d)
    match w.result with
    | some v => ⟨.object (Dict.insert s.text v d), w.refusal⟩
    | none => ⟨.object (Dict.erase s.text d), w.refusal⟩
  | .array items, .index i =>
    if h : i < items.length then
      let w := change (some items[i])
      ⟨.array (items.set i (w.result.getD .null)), w.refusal⟩
    else
      let w := change (some .null)
      match w.result with
      | none => ⟨.array items, none⟩
      | some v =>
        if i + 1 - items.length ≤ paddingLimit then
          ⟨.array (items ++ List.replicate (i - items.length) .null ++ [v]), w.refusal⟩
        else ⟨.array items, some (.indexOutOfRange path i items.length)⟩
  | .array items, .key k => ⟨.array items, some (.keyIntoArray path k)⟩
  | v, _ => ⟨v, some (.notAContainer path above v.kind)⟩

/-- Writes `value` at `rest` below the holder that lies at `above`; `path` is the whole route. -/
def setBelow (path : Route) (value : Option Value) :
    Route → Value → Route → Written Value
  | _, holder, [] => ⟨value.getD holder, none⟩
  | above, holder, [s] => changeChild path above holder s fun _ => ⟨value, none⟩
  | above, holder, s :: t :: rest =>
    changeChild path above holder s fun child =>
      let w := setBelow path value (above ++ [s]) (openedFor t (child.getD .null)) (t :: rest)
      ⟨some w.result, w.refusal⟩

/-- Writes a value at a route, or removes the one there. Removing below an undefined parent does
nothing. -/
def set (t : Tree) (r : Route) (value : Option Value) : Written Tree :=
  match r with
  | [] => ⟨value, none⟩
  | s :: _ =>
    if value.isNone ∧ (get? t r.dropLast).isNone then ⟨t, none⟩
    else
      let w := setBelow r value [] (openedFor s (t.getD .null)) r
      ⟨some w.result, w.refusal⟩

/-- The number of items of an array. -/
def length? (t : Tree) (r : Route) : Option Nat :=
  match get? t r with
  | some (.array items) => some items.length
  | _ => none

theorem valueAt?_append (v : Value) (r q : Route) :
    valueAt? v (r ++ q) = (valueAt? v r).bind (valueAt? · q) := by
  induction r generalizing v with
  | nil => rfl
  | cons s r ih =>
    simp only [List.cons_append, valueAt?]
    split
    · exact ih _
    · rfl

theorem get?_append (t : Tree) (r q : Route) : get? t (r ++ q) = get? (get? t r) q := by
  cases t with
  | none => rfl
  | some v => exact valueAt?_append v r q

@[simp] theorem get?_root (t : Tree) : get? t [] = t := by cases t <;> rfl

@[simp] theorem get?_none (r : Route) : get? none r = none := rfl

@[simp] theorem set_root (t : Tree) (v : Option Value) : set t [] v = ⟨v, none⟩ := rfl

end Tree

end Conform

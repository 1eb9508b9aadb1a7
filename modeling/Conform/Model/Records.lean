import Conform.Model.State
import Conform.Route
import Std.Data.TreeMap

/-!
# The records of a model

Records are kept by path, in the order of paths. Beside them stands, for each scope that a run has
cleared, the newest run that cleared it: an older run that is still at work must not bring back
what was forgotten there.
-/

namespace Conform

structure Records where
  entries : Std.TreeMap String Entry := {}
  /-- The newest run that evicted records under a scope. -/
  evicted : Std.TreeMap String Nat := {}

namespace Records

def get? (r : Records) (path : String) : Option Entry := r.entries[path]?

/-- The record of a path, or that of a place nothing is known of. -/
def get (r : Records) (path : String) : Entry := (r.get? path).getD {}

/-- Changes the record of a path, which is made if it is not there. -/
def update (r : Records) (path : String) (f : Entry → Entry) : Records :=
  { r with entries := r.entries.insert path (f (r.get path)) }

/-- Whether a run newer than `valLock` has evicted a scope that covers the path. -/
def superseded (r : Records) (path : String) (valLock : Nat) : Bool :=
  r.evicted.toList.any fun s => valLock < s.2 && Path.isAtOrUnder path s.1

/-- Puts a state back if the record still belongs to run `valLock`. -/
def rollBack (r : Records) (path : String) (valLock : Nat) (previous : State) : Records :=
  match r.get? path with
  | some e =>
    if e.state.valLock = valLock then r.update path fun e => { e with state := previous } else r
  | none => r

/-- Forgets the records under some scopes that are not to be kept, unless a newer run wrote them,
and notes who did so. -/
def evict (r : Records) (valLock : Nat) (scopes : List String) (keep : String → Bool) : Records :=
  { entries := r.entries.filter fun path e =>
      valLock < e.state.valLock || keep path || !scopes.any (Path.isAtOrUnder path)
    evicted := scopes.foldl
      (fun evicted scope => evicted.insert scope (max (evicted[scope]?.getD 0) valLock)) r.evicted }

def paths (r : Records) : List String := r.entries.keys

/-- The records at or under a path, in the order of paths. -/
def under (r : Records) (path : String) : List (String × Entry) :=
  r.entries.toList.filter fun e => Path.isAtOrUnder e.1 path

theorem get?_update_self (r : Records) (path : String) (f : Entry → Entry) :
    (r.update path f).get? path = some (f (r.get path)) := by
  simp [update, get?]

theorem get?_update_ne (r : Records) {path other : String} (h : path ≠ other)
    (f : Entry → Entry) : (r.update path f).get? other = r.get? other := by
  simp [update, get?, Std.TreeMap.getElem?_insert, h]

end Records

end Conform

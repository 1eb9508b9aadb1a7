import Conform.Model.Options
import Conform.Model.Records
import Conform.Schema.Registry

/-!
# Models

A model holds a data tree, the tree it began with, the rule for it, and the records of its places.
Runs and failures are numbered by two counters. Every change of a value and of a state is told in
the model's journal.
-/

namespace Conform

inductive ModelEvent where
  | beforeValidation (run : Nat) (path : String) (scopes : List String)
  | stateChanged (path : String) (state : State)
  | valueChanged (path : String) (value : Option Value)
  | afterValidation (run : Nat) (path : String) (valid : Bool)

structure Model where
  tree : Tree
  initial : Tree
  rule : Rule
  config : ModelConfig := {}
  records : Records := {}
  runs : Nat := 0
  errors : Nat := 0
  /-- All events, the newest first. -/
  journal : List ModelEvent := []

namespace Model

def ofRule (rule : Rule) (data : Tree) (config : ModelConfig) : Model :=
  { tree := data, initial := data, rule, config }

def publish (m : Model) (e : ModelEvent) : Model := { m with journal := e :: m.journal }

/-- What a write did, unless it was refused: whether it changed anything. -/
structure Written where
  model : Model
  result : Except PathError Bool

/-- Writes a value unless it is there already. -/
def write (m : Model) (r : Route) (value : Option Value) : Written :=
  if sameValue? (m.tree.get? r) value then ⟨m, .ok false⟩
  else
    let w := Tree.set m.tree r value
    let m := { m with tree := w.result }
    match w.refusal with
    | some e => ⟨m, .error e⟩
    | none => ⟨m.publish (.valueChanged r.text value), .ok true⟩

def entry (m : Model) (path : String) : Entry := m.records.get path

def update (m : Model) (path : String) (f : Entry → Entry) : Model :=
  { m with records := m.records.update path f }

/-- Whether run `valLock` may write a state at a path: no newer run has written there or cleared a
scope around it. -/
def mayCommit (m : Model) (path : String) (valLock : Nat) : Bool :=
  !m.records.superseded path valLock && (m.entry path).state.valLock ≤ valLock

/-- Writes a state on behalf of the run that it names, or drops it. -/
def commit (m : Model) (path : String) (s : State) : Model :=
  if m.mayCommit path s.valLock then
    (m.update path fun e => { e with state := s }).publish (.stateChanged path s)
  else m

def rollBack (m : Model) (path : String) (valLock : Nat) (previous : State) : Model :=
  { m with records := m.records.rollBack path valLock previous }

def evict (m : Model) (valLock : Nat) (scopes : List String) (keep : String → Bool) : Model :=
  { m with records := m.records.evict valLock scopes keep }

def value (m : Model) (r : Route) : Option Value := m.tree.get? r

def initialValue (m : Model) (r : Route) : Option Value := m.initial.get? r

def state (m : Model) (r : Route) : State := (m.entry r.text).state

/-- Sets a value. A place where that changes something is dirty from then on. -/
def setValue (m : Model) (r : Route) (value : Option Value) : Model × Option PathError :=
  let w := m.write r value
  match w.result with
  | .error e => (w.model, some e)
  | .ok false => (w.model, none)
  | .ok true => (w.model.update r.text fun e => { e with dirty := true }, none)

/-- Restores the first value and clears the flags of the place. -/
def reset (m : Model) (r : Route) : Model × Option PathError :=
  let w := m.write r (m.initialValue r)
  match w.result with
  | .error e => (w.model, some e)
  | .ok _ =>
    (w.model.update r.text fun e =>
      { e with dirty := false, touched := false, validated := false }, none)

def touch (m : Model) (r : Route) : Model := m.update r.text fun e => { e with touched := true }

/-- Whether the value differs from the first one. -/
def changed (m : Model) (r : Route) : Bool := !sameValue? (m.value r) (m.initialValue r)

/-- Earlier failures come first; what has no number comes last. -/
def errorOrder (a b : String × Entry) : Bool :=
  match a.2.state.errLock, b.2.state.errLock with
  | some i, some j => i < j || (i = j && a.1 ≤ b.1)
  | some _, none => true
  | none, some _ => false
  | none, none => a.1 ≤ b.1

/-- The failures at or under a place, the earliest first. -/
def errorsUnder (m : Model) (r : Route) : List Route :=
  (((m.records.under r.text).filter fun e => e.2.state.status = .error).mergeSort
    errorOrder).map fun e => Route.parse e.1

/-- The earliest failure at or under a place. -/
def firstError? (m : Model) (r : Route) : Option Route := (m.errorsUnder r).head?

end Model

end Conform

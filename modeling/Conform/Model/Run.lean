import Conform.Model.Basic
import Std.Data.TreeSet.Basic

/-!
# Runs

A run walks the model's rule from the root and commits the state of the places it enters. Its
target and what the target depends on are the first of its scopes; a place that declares a
dependency on the target joins them when the walk reaches it. A place is

* entered in full if it lies at or under a scope, and its state committed,
* gone through if it lies above a scope or has dependents somewhere below, without a trace,
* passed over otherwise.

Where only dirty places are to be committed, the others are entered all the same, since their
verdict still counts for their parents.

A commit is dropped if a newer run has written there. When the walk is over, the run forgets the
records under its scopes that it has not visited. A run that fails puts back the states that it
found at the places it was still in, and forgets nothing.
-/

namespace Conform

structure Run where
  ordinal : Nat
  target : Route
  /-- The options with the flags of the model. -/
  options : ValidateOptions
  scopes : List Route
  visited : Std.TreeSet String := {}
  /-- The verdict on the target, once its rule has run. -/
  computed : Option Bool := none

/-- How the walk meets a place. -/
inductive Scope where
  /-- The target, what lies under it, or another scope itself. -/
  | validating
  /-- Under a scope that is not the target. -/
  | preparing
  | parent
  | unrelated
  deriving DecidableEq

/-- A place that a run has entered and not yet left. -/
structure Ticket where
  route : Route
  /-- Whether the run commits here. -/
  commits : Bool
  /-- The state it found. -/
  previous : State

/-- A run together with the model it works on. -/
structure Progress where
  run : Run
  model : Model

namespace Run

def fromRoot (r : Run) : Bool := r.target.isEmpty

/-- Whether a rule at a place depends on the target or on something that holds it. -/
def dependsOnTarget (r : Run) (route : Route) (d : Declaration) : Bool :=
  d.dependsOn.any fun path => r.target.startsWith (route.resolve path)

def addScope (scopes : List Route) (route : Route) : List Route :=
  if scopes.contains route then scopes else scopes ++ [route]

/-- A place that depends on the target joins the scopes. -/
def discover (r : Run) (route : Route) (d : Declaration) : Run :=
  if !r.fromRoot ∧ r.dependsOnTarget route d then { r with scopes := addScope r.scopes route }
  else r

def classify (r : Run) (route : Route) (d : Declaration) : Scope :=
  if r.fromRoot || route.startsWith r.target then .validating
  else if r.scopes.contains route then .validating
  else if r.scopes.any route.startsWith then .preparing
  else if r.scopes.any (·.startsWith route) || d.declaresDependents then .parent
  else .unrelated

def visit (r : Run) (path : String) : Run := { r with visited := r.visited.insert path }

end Run

namespace Progress

/-- Begins a visit in full: makes the record, marks it, and commits that the run is at work here.
Where a newer run has cleared the ground, the records are left alone. -/
def enter (p : Progress) (route : Route) (scope : Scope) : Progress × Ticket :=
  let path := route.text
  let run := p.run.visit path
  if p.model.records.superseded path p.run.ordinal then (⟨run, p.model⟩, ⟨route, false, {}⟩)
  else
    let found := p.model.entry path
    let commits := !p.run.options.onlyDirtyRefs || found.dirty
    let marks := commits && scope = .validating && p.run.options.markAsValidated
    let model := p.model.update path fun e => { e with validated := e.validated || marks }
    let working : State :=
      { found.state with status := .validating, valLock := p.run.ordinal }
    (⟨run, if commits then model.commit path working else model⟩, ⟨route, commits, found.state⟩)

inductive Admission where
  | passed
  | through
  | entered (ticket : Ticket)

/-- Decides how the walk meets a place, and begins the visit if it is entered. -/
def meet (p : Progress) (route : Route) (d : Declaration) : Progress × Admission :=
  let run := p.run.discover route d
  match run.classify route d with
  | .unrelated => (⟨run, p.model⟩, .passed)
  | .parent => (⟨run, p.model⟩, .through)
  | scope =>
    let (p, ticket) := enter ⟨run, p.model⟩ route scope
    (p, .entered ticket)

/-- Ends a visit with an outcome. A failure takes its number even if its commit is dropped. -/
def settle (p : Progress) (t : Ticket) (o : Outcome) : Progress :=
  let model :=
    if !t.commits then p.model
    else
      let errors := if o.isInvalid then p.model.errors + 1 else p.model.errors
      let errLock := if o.isInvalid then some errors else none
      { p.model with errors }.commit t.route.text (State.settled p.run.ordinal errLock o)
  let run := if t.route = p.run.target then { p.run with computed := some o.passes } else p.run
  ⟨run, model⟩

/-- Ends a visit that broke off. -/
def rollBack (p : Progress) (t : Ticket) : Progress :=
  if t.commits then
    { p with model := p.model.rollBack t.route.text p.run.ordinal t.previous }
  else p

/-- The scopes under which the run forgets what it has not visited. -/
def evictionScopes (p : Progress) : List String :=
  if p.run.fromRoot then [Route.root.text] else p.run.scopes.map Route.text

/-- The verdict of a finished run: what this run or a newer one committed at the target, else what
this run computed there, else whether an earlier run left a success. -/
def verdict (p : Progress) : Bool :=
  let s := p.model.state p.run.target
  if p.run.ordinal ≤ s.valLock ∧ s.status ≠ .validating then s.status ≠ .error
  else
    match p.run.computed with
    | some valid => valid
    | none => s.status = .success

/-- Ends a run whose walk is over. -/
def finish (p : Progress) : Model × Bool :=
  let p := { p with
    model := p.model.evict p.run.ordinal p.evictionScopes p.run.visited.contains }
  (p.model.publish (.afterValidation p.run.ordinal p.run.target.text p.verdict), p.verdict)

end Progress

end Conform

import Conform.Outcome
import Conform.Tree

/-!
# Walks

A walk is one evaluation of a rule over a data tree, seen from the side of the data: a finite tree
of requests that ends in an outcome or an error. It reads and writes places, waits for gates, and
asks for each place below whether and how much of that place's rule is to run. Who serves the
requests decides what they mean: a run of a model keeps a record of every place it lets the walk
enter, a scratch copy keeps none.
-/

namespace Conform

/-- Why a rule could not give an outcome. An invalid value is an outcome and no error. -/
inductive RuleError where
  | failed (keyword : String) (route : Route) (reason : String)
  | storage (cause : PathError)

def RuleError.message : RuleError → String
  | failed keyword route reason =>
    "keyword '" ++ keyword ++ "' failed at '" ++ route.text ++ "': " ++ reason
  | storage cause => "storage error: " ++ cause.message

/-- How much of a rule runs. -/
inductive Mode where
  | full
  /-- Only checks that lead to places below run, and what they say is dropped. -/
  | structural
  deriving DecidableEq

/-- What a rule tells about itself before it runs. -/
structure Declaration where
  dependsOn : List String := []
  /-- Whether the rule or one nested in it depends on other places. -/
  declaresDependents : Bool := false

inductive Walk where
  | done (outcome : Outcome)
  | fail (error : RuleError)
  | read (route : Route) (next : Option Value → Walk)
  /-- A write that is refused ends the walk. -/
  | write (route : Route) (value : Option Value) (next : Walk)
  /-- Goes on once the gate is open. -/
  | await (gate : String) (next : Walk)
  /-- Runs the rule of a place below, as `body` in the mode that is granted, or passes it over. The
  outcome is joined behind `hint`, what the parent has to say about the place. -/
  | visit (route : Route) (declaration : Declaration) (hint : Outcome) (body : Mode → Walk)
      (next : Outcome → Walk)

namespace Walk

/-- Goes on with the outcome of a walk. -/
def andThen (k : Outcome → Walk) : Walk → Walk
  | done o => k o
  | fail e => fail e
  | read r next => read r fun v => (next v).andThen k
  | write r v next => write r v (next.andThen k)
  | await g next => await g (next.andThen k)
  | visit r d h body next => visit r d h body fun o => (next o).andThen k

@[simp] theorem andThen_done (o : Outcome) (k : Outcome → Walk) : (done o).andThen k = k o := rfl

@[simp] theorem andThen_fail (e : RuleError) (k : Outcome → Walk) :
    (fail e).andThen k = fail e := rfl

/-- The walk that runs `w` on a private copy of the tree below `base`. Places there are read from
and written to the copy, places elsewhere are read from outside and never written, and every place
below is entered in full with no trace. Of the walk outside, only reads and gates are left. -/
def shield (base : Route) (k : Outcome → Tree → Walk) : Walk → Tree → Walk
  | done o, t => k o t
  | fail e, _ => fail e
  | read r next, t =>
    match Route.below? base r with
    | some q => (next (t.get? q)).shield base k t
    | none => read r fun v => (next v).shield base k t
  | write r v next, t =>
    match Route.below? base r with
    | some q =>
      let w := Tree.set t q v
      match w.refusal with
      | some e => fail (.storage e)
      | none => next.shield base k w.result
    | none => next.shield base k t
  | await g next, t => await g (next.shield base k t)
  | visit _ _ h body next, t =>
    (body .full).shield base (fun o t => (next (Outcome.merge [h, o])).shield base k t) t

/-- Tries a walk on a copy of the value at `base` and goes on with its outcome. -/
def probe (base : Route) (w : Walk) (k : Outcome → Walk) : Walk :=
  read base fun v => w.shield base (fun o _ => k o) v

inductive Detached where
  | finished (outcome : Outcome) (tree : Tree)
  | failed (error : RuleError)
  /-- Stopped at a gate that is closed. -/
  | pending (gate : String)

/-- Serves a walk from a tree that nothing else sees; `isOpen` says which gates are open. -/
def detached (isOpen : String → Bool) : Walk → Tree → Detached
  | done o, t => .finished o t
  | fail e, _ => .failed e
  | read r next, t => (next (t.get? r)).detached isOpen t
  | write r v next, t =>
    let w := Tree.set t r v
    match w.refusal with
    | some e => .failed (.storage e)
    | none => next.detached isOpen w.result
  | await g next, t => if isOpen g then next.detached isOpen t else .pending g
  | visit _ _ h body next, t =>
    match (body .full).detached isOpen t with
    | .finished o t => (next (Outcome.merge [h, o])).detached isOpen t
    | .failed e => .failed e
    | .pending g => .pending g

end Walk

end Conform

import Conform.Outcome

/-!
# Records of places

What a model remembers of one place: the state that the last run committed there, and the flags
that belong to the place itself.
-/

namespace Conform

inductive Status where
  /-- Never judged, or forgotten since. -/
  | pristine
  /-- A run is at work here. -/
  | validating
  | success
  | error
  deriving DecidableEq

def Status.name : Status → String
  | pristine => "PRISTINE"
  | validating => "VALIDATING"
  | success => "SUCCESS"
  | error => "ERROR"

structure State where
  status : Status := .pristine
  /-- The run that wrote the state; runs are numbered from 1. -/
  valLock : Nat := 0
  /-- The number of the failure, if the place failed; failures are numbered from 1. -/
  errLock : Option Nat := none
  required : Bool := false
  readOnly : Bool := false
  writeOnly : Bool := false
  message : Option String := none
  annotations : Dict Value := []

namespace State

/-- The paths under the `dependencies` annotation. -/
def dependencies (s : State) : List String :=
  match s.annotations.get? "dependencies" with
  | some (.array items) => items.filterMap Value.string?
  | _ => []

/-- The state of a place that run `valLock` has judged. -/
def settled (valLock : Nat) (errLock : Option Nat) (o : Outcome) : State :=
  { status := if o.isInvalid then .error else .success
    valLock
    errLock
    required := o.required
    readOnly := o.readOnly
    writeOnly := o.writeOnly
    message := o.message
    annotations := o.annotations }

def fields (s : State) : Dict Value :=
  [("status", .string s.status.name), ("valLock", .nat s.valLock)]
    ++ Outcome.optionalField "errLock" .nat s.errLock
    ++ [("required", .bool s.required), ("readOnly", .bool s.readOnly),
      ("writeOnly", .bool s.writeOnly)]
    ++ Outcome.optionalField "message" .string s.message
    ++ (if s.annotations.isEmpty then [] else [("meta", .object s.annotations)])

end State

structure Entry where
  state : State := {}
  /-- Set by the caller since the start or the last reset. -/
  dirty : Bool := false
  touched : Bool := false
  validated : Bool := false

end Conform

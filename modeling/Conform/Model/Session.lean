import Conform.Model.Validate

/-!
# Sessions

A session is a model in use: its suspended runs in the order in which they were started, the gates
that are open, and how much of the journal has been looked at. Runs overlap when one is started
while another waits at a gate.
-/

namespace Conform

structure Session where
  model : Model
  /-- Suspended runs with the names they were given. -/
  suspended : List (String × Active) := []
  gates : List String := []
  /-- How many events have been read. -/
  seen : Nat := 0

/-- The answer to the call of a run. -/
inductive RunAnswer where
  | finished (valid : Bool)
  | failed (error : RuleError)
  | pending

namespace Session

def isOpen (s : Session) (gate : String) : Bool := s.gates.contains gate

/-- Keeps what a run has done, and the run itself if it waits. -/
def keep (s : Session) (id : String) (r : Model × RunResult) : Session × RunAnswer :=
  let s := { s with model := r.1 }
  match r.2 with
  | .finished valid => (s, .finished valid)
  | .failed e => (s, .failed e)
  | .suspended w => ({ s with suspended := s.suspended ++ [(id, w)] }, .pending)

def validate (s : Session) (id : String) (r : Route) (options : ValidateOptions) :
    Session × RunAnswer :=
  s.keep id (s.model.validate r options s.isOpen)

def prepare (s : Session) (id : String) (r : Route) (options : ValidateOptions) :
    Session × RunAnswer :=
  s.keep id (s.model.prepare r options s.isOpen)

/-- Resumes runs once each, in order, and lists those that ended. -/
def resumeAll : List (String × Active) → Session → Session × List (String × RunAnswer)
  | [], s => (s, [])
  | (id, w) :: rest, s =>
    let (s, answer) := s.keep id (w.resume s.isOpen s.model)
    let (s, answers) := resumeAll rest s
    match answer with
    | .pending => (s, answers)
    | a => (s, (id, a) :: answers)

/-- Opens a gate and resumes every suspended run. -/
def openGate (s : Session) (gate : String) : Session × List (String × RunAnswer) :=
  let gates := if s.isOpen gate then s.gates else gate :: s.gates
  resumeAll s.suspended { s with gates, suspended := [] }

/-- Closes a gate and says whether it was open. -/
def closeGate (s : Session) (gate : String) : Session × Bool :=
  ({ s with gates := s.gates.filter (· ≠ gate) }, s.isOpen gate)

/-- Drops the suspended runs of a name and says how many they were. -/
def abandon (s : Session) (id : String) : Session × Nat :=
  let kept := s.suspended.filter (·.1 ≠ id)
  ({ s with suspended := kept }, s.suspended.length - kept.length)

/-- How many events wait to be read; of more, the oldest are lost. -/
def feedCapacity : Nat := 1024

/-- The events published since the last reading, the oldest first, and how many were lost. -/
def readEvents (s : Session) : Session × List ModelEvent × Nat :=
  let published := s.model.journal.length
  let unread := published - s.seen
  ({ s with seen := published },
    (s.model.journal.take (min unread feedCapacity)).reverse, unread - feedCapacity)

end Session

end Conform

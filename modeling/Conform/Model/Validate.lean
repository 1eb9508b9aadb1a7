import Conform.Model.Active
import Conform.Rule.Evaluation

/-!
# Validating

The calls that start a run at a place of a model, and what they answer.
-/

namespace Conform

inductive RunResult where
  | finished (valid : Bool)
  | failed (error : RuleError)
  /-- The run waits for a gate, to be resumed on the model as it is then. -/
  | suspended (a : Active)

/-- Ends the run if its walk is over. -/
def Stop.result : Stop → Model × RunResult
  | done _ p =>
    let (m, valid) := p.finish
    (m, .finished valid)
  | failed e p => (p.model, .failed e)
  | waiting rest frames p => (p.model, .suspended ⟨p.run, rest, frames⟩)

/-- Goes on with a run as far as the open gates allow. -/
def Active.resume (a : Active) (isOpen : String → Bool) (m : Model) : Model × RunResult :=
  (a.drive isOpen m).result

namespace Model

/-- The place that a run called at a place is to judge. -/
def runTarget (r : Route) (options : ValidateOptions) : Route :=
  match options.scope with
  | some path => r.resolve path
  | none => r

/-- The scopes that a run begins with: the target and what the target was found to depend on. -/
def initialScopes (m : Model) (target : Route) : List Route :=
  (m.state target).dependencies.foldl
    (fun scopes path => Run.addScope scopes (target.resolve path)) [target]

/-- The walk of a run: a visit of the root. -/
def rootWalk (m : Model) (options : ValidateOptions) : Walk :=
  (m.rule.walker ((options.withConfig m.config).evaluation m.config.messages)).visit []
    Outcome.silent .done

/-- Takes the next number for a run and announces it. -/
def beginRun (m : Model) (r : Route) (options : ValidateOptions) : Active × Model :=
  let target := runTarget r options
  let run : Run :=
    { ordinal := m.runs + 1
      target
      options := options.withConfig m.config
      scopes := m.initialScopes target }
  (⟨run, m.rootWalk options, []⟩, { m with runs := m.runs + 1 }.publish
    (.beforeValidation run.ordinal target.text (run.scopes.map Route.text)))

/-- Starts a run and drives it as far as the open gates allow. -/
def run (m : Model) (r : Route) (options : ValidateOptions) (isOpen : String → Bool) :
    Model × RunResult :=
  let (a, m) := m.beginRun r options
  a.resume isOpen m

/-- Marks a place as touched and validated. -/
def mark (m : Model) (r : Route) : Model :=
  m.update r.text fun e => { e with touched := true, validated := true }

/-- Marks the target and runs. -/
def validate (m : Model) (r : Route) (options : ValidateOptions) (isOpen : String → Bool) :
    Model × RunResult :=
  (m.mark (runTarget r options)).run r options isOpen

/-- Validates with every gate open, so that the run does not wait. -/
def validateNow (m : Model) (r : Route) (options : ValidateOptions) :
    Model × Except RuleError Bool :=
  match m.validate r options fun _ => true with
  | (m, .finished valid) => (m, .ok valid)
  | (m, .failed e) => (m, .error e)
  | (m, .suspended _) => (m, .ok false)

/-- Runs without marking anything as validated. -/
def prepare (m : Model) (r : Route) (options : ValidateOptions) (isOpen : String → Bool) :
    Model × RunResult :=
  m.run r { options with markAsValidated := false } isOpen

end Model

end Conform

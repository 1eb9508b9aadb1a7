import Conform.Proofs.Journal
import Conform.Proofs.OwnRecords
import Conform.Proofs.Rerun

/-!
# Runs one after the other

A run is alone if no other is under way on its model from its start to its end. Whatever the caller
does with the references in between, such a run is the newest, so nothing keeps it from committing,
and no record goes while it is at work. Models that are used by one run after the other, each of
which has returned or failed, are `Sequential`.
-/

namespace Conform

namespace Model

/-- What may be done with the references of a model. -/
inductive Used (m : Model) : Model → Prop where
  | set (r : Route) (v : Option Value) : m.Used (m.setValue r v).1
  | reset (r : Route) : m.Used (m.reset r).1
  | touch (r : Route) : m.Used (m.touch r)

/-- The verdicts that have been told of, with the numbers of their runs and the targets. -/
def verdicts (m : Model) : List (Nat × String × Bool) :=
  m.journal.filterMap fun
    | .afterValidation run path valid => some (run, path, valid)
    | _ => none

variable {m m' : Model}

theorem Used.states (h : m.Used m') : m.SameStates m' := by
  cases h with
  | set r v => exact m.setValue_states r v
  | reset r => exact m.reset_states r
  | touch r => exact m.touch_states r

theorem Used.step (h : m.Used m') (as : List Active) :
    Overlap.Step ⟨m, as⟩ .referenced ⟨m', as⟩ := by
  cases h with
  | set r v => exact .set m as r v
  | reset r => exact .reset m as r
  | touch r => exact .touch m as r

theorem write_verdicts (m : Model) (r : Route) (v : Option Value) :
    (m.write r v).model.verdicts = m.verdicts := by
  unfold write
  split
  · rfl
  · dsimp only
    split <;> rfl

theorem Used.verdicts (h : m.Used m') : m'.verdicts = m.verdicts := by
  cases h with
  | set r v =>
    unfold setValue
    dsimp only
    split <;> exact m.write_verdicts r v
  | reset r =>
    unfold Model.reset
    dsimp only
    split <;> exact m.write_verdicts r _
  | touch r => rfl

section

variable {path : String}
  (h : m'.state? path = m.state? path ∨ m.state? path = none ∧ m'.state? path = some {})

include h

theorem isSome_of_states (known : (m.state? path).isSome = true) :
    (m'.state? path).isSome = true := by
  rcases h with he | ⟨-, he⟩
  · rw [he, known]
  · rw [he, Option.isSome_some]

theorem entry_state_of_states : (m'.entry path).state = (m.entry path).state := by
  rw [Model.entry_state, Model.entry_state]
  rcases h with he | ⟨he, he'⟩
  · rw [he]
  · rw [he, he']
    rfl

end

end Model

namespace Active

/-- The steps of a run that no other overlaps. Between them the caller may use the references. -/
inductive Alone (s : Active × Model) : Active × Model → Prop where
  | refl : Alone s s
  | step {t u : Active × Model} (before : Alone s t) (next : t.1.next? t.2 = some u) : Alone s u
  | used {a : Active} {m m' : Model} (before : Alone s (a, m)) (used : m.Used m') : Alone s (a, m')

/-- A run that is the only one under way, and no other has been started since. -/
structure Sole (a : Active) (m : Model) : Prop where
  numbered : Overlap.Numbered ⟨m, [a]⟩
  newest : a.run.ordinal = m.runs

namespace Sole

variable {a a' : Active} {m m' : Model}

theorem foremost (h : a.Sole m) : Progress.Foremost ⟨a.run, m⟩ where
  newest q st hst := by
    rw [h.newest]
    exact h.numbered.stamp_le q st hst
  open_ q := by
    rw [h.newest]
    exact h.numbered.open_ q

theorem next (h : a.Sole m) (hn : a.next? m = some (a', m')) : a'.Sole m' where
  numbered := h.numbered.step (.work [] [] hn)
  newest := by rw [(effect hn).ordinal, (effect hn).kept.runs, h.newest]

theorem used (h : a.Sole m) (hu : m.Used m') : a.Sole m' where
  numbered := h.numbered.step (hu.step _)
  newest := by rw [hu.states.runs, h.newest]

end Sole

section

variable {a a' : Active} {m m' : Model}

theorem Effect.isSome {act : Act} (h : Effect a m act a' m') {path : String}
    (known : (m.state? path).isSome = true) : (m'.state? path).isSome = true := by
  cases h.change path with
  | same same => rw [same, known]
  | made _ after => rw [after, Option.isSome_some]
  | marked after => rw [after, Option.isSome_some]
  | settled after => rw [after, Option.isSome_some]
  | restored _ _ after => rw [after, Option.isSome_some]

theorem verdicts_next (h : a.next? m = some (a', m')) : m'.verdicts = m.verdicts := by
  cases moved h with
  | settled settle =>
    rw [← settle]
    exact Progress.settle_journal _ (fun _ _ => rfl) _ _
  | rolledBack rollBack =>
    rw [← rollBack, Progress.rollBack]
    split <;> rfl
  | refused | written => exact Model.write_verdicts _ _ _
  | @entered run r d hint body next frames scope t p meet enter =>
    rw [show p = (Progress.enter ⟨run.discover r d, _⟩ r scope).1 by rw [enter]]
    exact Progress.enter_journal _ _ _ fun _ _ => rfl
  | _ => rfl

end

theorem Steps.advance (n : Nat) (a : Active) (m : Model) : Steps (a, m) (a.advance n m).2 := by
  induction n generalizing a m with
  | zero => exact .refl _
  | succ n ih =>
    rw [Active.advance]
    cases hn : a.next? m with
    | none => exact .refl _
    | some s => exact .head hn (ih s.1 s.2)

namespace Alone

variable {s t u : Active × Model}

theorem trans (h : Alone s t) (h' : Alone t u) : Alone s u := by
  induction h' with
  | refl => exact h
  | step _ next ih => exact ih.step next
  | used _ used ih => exact ih.used used

theorem of_steps (h : Steps s t) : Alone s t := by
  induction h with
  | refl => exact .refl
  | head next _ ih => exact (refl.step next).trans ih

theorem sole (h : Alone s t) (sole : s.1.Sole s.2) : t.1.Sole t.2 := by
  induction h with
  | refl => exact sole
  | step _ next ih => exact ih.next next
  | used _ used ih => exact ih.used used

theorem kept (h : Alone s t) : s.2.Kept t.2 := by
  induction h with
  | refl => exact .refl _
  | step _ next ih => exact ih.trans (effect next).kept
  | used _ used ih => exact ih.trans used.states.toKept

theorem failing (h : Alone s t) (hf : s.1.failing = true) : t.1.failing = true := by
  induction h with
  | refl => exact hf
  | step _ next ih => exact (effect next).failing_of ih
  | used _ _ ih => exact ih

theorem trace (h : Alone s t) : ∃ es, Overlap.Trace ⟨s.2, [s.1]⟩ es ⟨t.2, [t.1]⟩ := by
  induction h with
  | refl => exact ⟨[], .nil _⟩
  | step _ next ih =>
    obtain ⟨es, hes⟩ := ih
    exact ⟨_, hes.snoc (.work [] [] next)⟩
  | used _ used ih =>
    obtain ⟨es, hes⟩ := ih
    exact ⟨_, hes.snoc (used.step _)⟩

/-- No record goes while the run is at work. -/
theorem isSome (h : Alone s t) {path : String} (known : (s.2.state? path).isSome = true) :
    (t.2.state? path).isSome = true := by
  induction h with
  | refl => exact known
  | step _ next ih => exact (effect next).isSome ih
  | used _ used ih => exact Model.isSome_of_states (used.states.states path) ih

/-- A run that is at work tells of no verdict. -/
theorem verdicts (h : Alone s t) : t.2.verdicts = s.2.verdicts := by
  induction h with
  | refl => rfl
  | step _ next ih => exact (verdicts_next next).trans ih
  | used _ used ih => exact used.verdicts.trans ih

end Alone

end Active

/-- The models that the caller and runs lead to, each run having returned or failed before the next
one starts. -/
inductive Sequential (rule : Rule) (data : Tree) (config : ModelConfig) : Model → Prop where
  | fresh : Sequential rule data config (Model.ofRule rule data config)
  | used {m m' : Model} (before : Sequential rule data config m) (used : m.Used m') :
      Sequential rule data config m'
  | returned {m m' : Model} {c : Call} {r : Route} {options : ValidateOptions} {run : Run}
      {o : Outcome} (before : Sequential rule data config m)
      (steps : Active.Alone (c.start m r options) (⟨run, .done o, []⟩, m')) :
      Sequential rule data config (Progress.finish ⟨run, m'⟩).1
  | failed {m m' : Model} {c : Call} {r : Route} {options : ValidateOptions} {run : Run}
      {e : RuleError} (before : Sequential rule data config m)
      (steps : Active.Alone (c.start m r options) (⟨run, .fail e, []⟩, m')) :
      Sequential rule data config m'

namespace Sequential

variable {rule : Rule} {data : Tree} {config : ModelConfig} {m : Model}

theorem trace (h : Sequential rule data config m) :
    ∃ es, Overlap.Trace (Overlap.fresh rule data config) es ⟨m, []⟩ := by
  induction h with
  | fresh => exact ⟨[], .nil _⟩
  | used _ used ih =>
    obtain ⟨es, hes⟩ := ih
    exact ⟨_, hes.snoc (used.step _)⟩
  | @returned m m' c r options run o _ steps ih =>
    obtain ⟨es, hes⟩ := ih
    obtain ⟨fs, hfs⟩ := steps.trace
    exact ⟨_, ((hes.snoc (.start m [] c r options)).trans hfs).snoc (.finish m' [] [] run o)⟩
  | @failed m m' c r options run e _ steps ih =>
    obtain ⟨es, hes⟩ := ih
    obtain ⟨fs, hfs⟩ := steps.trace
    exact ⟨_, ((hes.snoc (.start m [] c r options)).trans hfs).snoc (.fail m' [] [] run e)⟩

theorem sole (h : Sequential rule data config m) (c : Call) (r : Route)
    (options : ValidateOptions) : (c.start m r options).1.Sole (c.start m r options).2 where
  numbered := by
    obtain ⟨es, hes⟩ := h.trace
    exact ((Overlap.Numbered.fresh rule data config).trace hes).step (.start m [] c r options)
  newest := by rw [c.start_ordinal, c.start_runs]

/-- A run at the root that takes at most `n` steps and returns. -/
theorem runAlone (h : Sequential rule data config m) (n : Nat)
    (ended : ((Call.validate.start m [] {}).1.advance n
      (Call.validate.start m [] {}).2).2.1.outcome?.isSome = true) :
    Sequential rule data config (Overlap.runAlone m n) := by
  obtain ⟨o, ho⟩ := Option.isSome_iff_exists.1 ended
  have hsteps := Active.Steps.advance n (Call.validate.start m [] {}).1
    (Call.validate.start m [] {}).2
  generalize hr : (Call.validate.start m [] {}).1.advance n (Call.validate.start m [] {}).2 = r
    at ho hsteps
  rw [Overlap.runAlone, hr]
  obtain ⟨es, a, m'⟩ := r
  have ha : a = ⟨a.run, .done o, []⟩ := Active.eq_of_outcome? ho
  have hsteps : Active.Steps (Call.validate.start m [] {}) (a, m') := hsteps
  rw [ha] at hsteps
  exact h.returned (Active.Alone.of_steps hsteps)

theorem rule_eq (h : Sequential rule data config m) : m.rule = rule := by
  have hstart : ∀ (c : Call) (m : Model) r options, (c.start m r options).2.rule = m.rule :=
    fun c m r options => by cases c <;> rfl
  induction h with
  | fresh => rfl
  | used _ used ih => exact used.states.rule.trans ih
  | returned _ steps ih => exact (steps.kept.rule.trans (hstart ..)).trans ih
  | failed _ steps ih => exact (steps.kept.rule.trans (hstart ..)).trans ih

end Sequential

end Conform

import Conform.Proofs.Moves

/-!
# Overlapping runs

A model with any number of runs under way on it. Any of them may take its next step at any time, so
gates need not be looked at: a run that waits is one whose turn has not come. Between the steps of
runs a caller may use the references, start further runs, or drop a run for good.
-/

namespace Conform

/-- The two calls that start a run. -/
inductive Call where
  | validate
  | prepare

namespace Call

/-- The run that a call starts, before its first step. -/
def start (c : Call) (m : Model) (r : Route) (options : ValidateOptions) : Active × Model :=
  match c with
  | validate => (m.mark (Model.runTarget r options)).beginRun r options
  | prepare => m.beginRun r { options with markAsValidated := false }

/-- What the call answers, and the model it leaves. -/
def answer (c : Call) (m : Model) (r : Route) (options : ValidateOptions)
    (isOpen : String → Bool) : Model × RunResult :=
  match c with
  | validate => m.validate r options isOpen
  | prepare => m.prepare r options isOpen

variable (c : Call) (m : Model) (r : Route) (options : ValidateOptions)

theorem answer_eq (isOpen : String → Bool) :
    c.answer m r options isOpen =
      (c.start m r options).1.resume isOpen (c.start m r options).2 := by
  cases c <;> rfl

@[simp] theorem start_ordinal : (c.start m r options).1.run.ordinal = m.runs + 1 := by
  cases c <;> rfl

@[simp] theorem start_target :
    (c.start m r options).1.run.target = Model.runTarget r options := by
  cases c <;> rfl

@[simp] theorem start_visited : (c.start m r options).1.run.visited = {} := by cases c <;> rfl

@[simp] theorem start_onlyDirtyRefs :
    (c.start m r options).1.run.options.onlyDirtyRefs =
      (options.withConfig m.config).onlyDirtyRefs := by
  cases c <;> rfl

@[simp] theorem start_tickets : (c.start m r options).1.tickets = [] := by cases c <;> rfl

@[simp] theorem start_runs : (c.start m r options).2.runs = m.runs + 1 := by cases c <;> rfl

/-- Before its first step a run has at most marked its target. -/
theorem start_states (q : String) :
    (c.start m r options).2.state? q = m.state? q ∨
      m.state? q = none ∧ (c.start m r options).2.state? q = some {} := by
  cases c with
  | prepare => exact .inl rfl
  | validate => exact (m.mark_states (Model.runTarget r options)).states q

theorem start_superseded :
    (c.start m r options).2.records.superseded = m.records.superseded := by
  cases c <;> rfl

end Call

/-- A model with the runs under way on it. -/
structure Overlap where
  model : Model
  underWay : List Active := []

/-- What is told of a step. -/
inductive Event where
  | referenced
  | began (ordinal : Nat)
  | worked (ordinal : Nat) (act : Act)
  | returned (run : Run) (valid : Bool)
  | failed (run : Run) (error : RuleError)
  | abandoned (run : Run)

namespace Overlap

inductive Step : Overlap → Event → Overlap → Prop where
  | set (m : Model) (as : List Active) (r : Route) (v : Option Value) :
      Step ⟨m, as⟩ .referenced ⟨(m.setValue r v).1, as⟩
  | reset (m : Model) (as : List Active) (r : Route) :
      Step ⟨m, as⟩ .referenced ⟨(m.reset r).1, as⟩
  | touch (m : Model) (as : List Active) (r : Route) :
      Step ⟨m, as⟩ .referenced ⟨m.touch r, as⟩
  | start (m : Model) (as : List Active) (c : Call) (r : Route) (options : ValidateOptions) :
      Step ⟨m, as⟩ (.began (m.runs + 1))
        ⟨(c.start m r options).2, as ++ [(c.start m r options).1]⟩
  | work {m m' : Model} {a a' : Active} (pre post : List Active)
      (next : a.next? m = some (a', m')) :
      Step ⟨m, pre ++ a :: post⟩ (.worked a.run.ordinal (a.act m)) ⟨m', pre ++ a' :: post⟩
  | finish (m : Model) (pre post : List Active) (run : Run) (o : Outcome) :
      Step ⟨m, pre ++ ⟨run, .done o, []⟩ :: post⟩
        (.returned run (Progress.finish ⟨run, m⟩).2) ⟨(Progress.finish ⟨run, m⟩).1, pre ++ post⟩
  | fail (m : Model) (pre post : List Active) (run : Run) (e : RuleError) :
      Step ⟨m, pre ++ ⟨run, .fail e, []⟩ :: post⟩ (.failed run e) ⟨m, pre ++ post⟩
  | abandon (m : Model) (pre post : List Active) (a : Active) :
      Step ⟨m, pre ++ a :: post⟩ (.abandoned a.run) ⟨m, pre ++ post⟩

/-- Any number of steps, with what is told of them, the oldest first. -/
inductive Trace : Overlap → List Event → Overlap → Prop where
  | nil (s : Overlap) : Trace s [] s
  | snoc {s t u : Overlap} {es : List Event} {e : Event} (trace : Trace s es t)
      (step : Step t e u) : Trace s (es ++ [e]) u

theorem Trace.trans {s t u : Overlap} {es fs : List Event} (h : Trace s es t) (h' : Trace t fs u) :
    Trace s (es ++ fs) u := by
  induction h' with
  | nil => simpa using h
  | snoc _ step ih =>
    rw [← List.append_assoc]
    exact ih.snoc step

theorem Step.of_worked {s t : Overlap} {n : Nat} {act : Act} (h : Step s (.worked n act) t) :
    ∃ m m' pre post a a', s = ⟨m, pre ++ a :: post⟩ ∧ t = ⟨m', pre ++ a' :: post⟩ ∧
      a.run.ordinal = n ∧ Active.Effect a m act a' m' := by
  generalize he : Event.worked n act = e at h
  cases h with
  | work pre post next =>
    cases he
    exact ⟨_, _, pre, post, _, _, rfl, rfl, rfl, Active.effect next⟩
  | _ => cases he

/-- Numbers are only ever given out. -/
theorem Step.runs_le {s t : Overlap} {e : Event} (h : Step s e t) :
    s.model.runs ≤ t.model.runs := by
  cases h with
  | set m as r v => exact Nat.le_of_eq (m.setValue_states r v).runs.symm
  | reset m as r => exact Nat.le_of_eq (m.reset_states r).runs.symm
  | touch m as r => exact Nat.le_of_eq (m.touch_states r).runs.symm
  | start m as c r options => simp
  | work pre post next => exact Nat.le_of_eq (Active.effect next).kept.runs.symm
  | finish m pre post run o => exact Nat.le_refl _
  | fail m pre post run e => exact Nat.le_refl _
  | abandon m pre post a => exact Nat.le_refl _

theorem Trace.runs_le {s t : Overlap} {es : List Event} (h : Trace s es t) :
    s.model.runs ≤ t.model.runs := by
  induction h with
  | nil => exact Nat.le_refl _
  | snoc _ step ih => exact Nat.le_trans ih step.runs_le

theorem mem_middle {a b : Active} {pre post : List Active} :
    b ∈ pre ++ a :: post ↔ b = a ∨ b ∈ pre ++ post := by
  simp only [List.mem_append, List.mem_cons]
  exact or_left_comm

end Overlap

/-- The outcome and the state with which an event settles a path on behalf of run `n`. -/
def Event.settled? (n : Nat) (path : String) : Event → Option (Outcome × State)
  | .worked k (.settled t o s) => if k = n ∧ t.route.text = path then some (o, s) else none
  | _ => none

theorem Event.settled?_other {k n : Nat} (h : k ≠ n) (act : Act) (path : String) :
    (Event.worked k act).settled? n path = none := by
  cases act <;> simp [settled?, h]

theorem Event.settled?_eq_some {e : Event} {n : Nat} {path : String} {p : Outcome × State} :
    e.settled? n path = some p ↔
      ∃ t, e = .worked n (.settled t p.1 p.2) ∧ t.route.text = path := by
  constructor
  · intro h
    unfold settled? at h
    split at h
    · next t o st =>
      split at h
      · next hc =>
        cases h
        exact ⟨t, by rw [hc.1], hc.2⟩
      · cases h
    · cases h
  · rintro ⟨t, rfl, ht⟩
    simp [settled?, ht]

/-- What run `n` has settled a path with, one entry for each of its visits, the oldest first. -/
def settlings (hist : List Event) (n : Nat) (path : String) : List (Outcome × State) :=
  hist.filterMap (Event.settled? n path)

/-- The state with which run `n` settled a path last. -/
def lastSettled (hist : List Event) (n : Nat) (path : String) : Option State :=
  (settlings hist n path).getLast?.map Prod.snd

section

variable (hist : List Event) (n : Nat) (path : String)

theorem settlings_concat_none {e : Event} (h : e.settled? n path = none) :
    settlings (hist ++ [e]) n path = settlings hist n path := by
  simp [settlings, h]

theorem lastSettled_concat_none {e : Event} (h : e.settled? n path = none) :
    lastSettled (hist ++ [e]) n path = lastSettled hist n path := by
  rw [lastSettled, settlings_concat_none hist n path h]
  rfl

theorem settlings_concat_settled (t : Ticket) (o : Outcome) (st : State) :
    settlings (hist ++ [.worked n (.settled t o st)]) n t.route.text =
      settlings hist n t.route.text ++ [(o, st)] := by
  simp [settlings, Event.settled?]

theorem lastSettled_concat_settled (t : Ticket) (o : Outcome) (st : State) :
    lastSettled (hist ++ [.worked n (.settled t o st)]) n t.route.text = some st := by
  simp [lastSettled, settlings_concat_settled]

end

namespace Overlap

/-- The state that settles a place is an error exactly if the outcome is invalid. -/
theorem Trace.settlings_status {s t : Overlap} {es : List Event} (h : Trace s es t) {n : Nat}
    {path : String} {o : Outcome} {st : State} (hp : (o, st) ∈ settlings es n path) :
    st.status = if o.isInvalid then .error else .success := by
  induction h with
  | nil => cases hp
  | snoc _ hstep ih =>
    rw [settlings, List.filterMap_append, List.mem_append] at hp
    rcases hp with hp | hp
    · exact ih hp
    · obtain ⟨e, he, hp⟩ := List.mem_filterMap.1 hp
      rw [List.mem_singleton.1 he] at hp
      obtain ⟨t, hevent, -⟩ := Event.settled?_eq_some.1 hp
      obtain ⟨m, m', pre, post, a, a', -, -, -, hef⟩ := (hevent ▸ hstep).of_worked
      have hef : Active.Effect a m (.settled t o st) a' m' := hef
      cases hef with
      | settled t o => exact Progress.settlement_status _ _

/-- A new model, with no run under way. -/
def fresh (rule : Rule) (data : Tree) (config : ModelConfig) : Overlap :=
  ⟨Model.ofRule rule data config, []⟩

/-- Runs under way have different numbers that have been given out, and no record is stamped with a
number that has not. -/
structure Numbered (s : Overlap) : Prop where
  stamp_le : ∀ q st, s.model.state? q = some st → st.valLock ≤ s.model.runs
  open_ : ∀ q, s.model.records.superseded q s.model.runs = false
  ordinal_pos : ∀ a ∈ s.underWay, 0 < a.run.ordinal
  ordinal_le : ∀ a ∈ s.underWay, a.run.ordinal ≤ s.model.runs
  distinct : (s.underWay.map (·.run.ordinal)).Nodup
  previous_le : ∀ a ∈ s.underWay, ∀ t ∈ a.tickets, t.previous.valLock ≤ s.model.runs

namespace Numbered

theorem fresh (rule : Rule) (data : Tree) (config : ModelConfig) :
    Numbered (fresh rule data config) where
  stamp_le q st h := by
    have hn : (Overlap.fresh rule data config).model.state? q = none := rfl
    rw [hn] at h
    cases h
  open_ q := rfl
  ordinal_pos a ha := by simp [Overlap.fresh] at ha
  ordinal_le a ha := by simp [Overlap.fresh] at ha
  distinct := by simp [Overlap.fresh]
  previous_le a ha := by simp [Overlap.fresh] at ha

/-- Making records breaks no bound. -/
theorem of_states {m m' : Model} {as : List Active} (h : Numbered ⟨m, as⟩)
    (hs : m.SameStates m') : Numbered ⟨m', as⟩ where
  stamp_le q st hq := by
    simp only [hs.runs]
    rcases hs.states q with he | ⟨-, he⟩
    · exact h.stamp_le q st (he ▸ hq)
    · rw [he, Option.some.injEq] at hq
      subst hq
      exact Nat.zero_le _
  open_ q := by
    simp only [hs.cleared, hs.runs]
    exact h.open_ q
  ordinal_pos := h.ordinal_pos
  ordinal_le a ha := hs.runs ▸ h.ordinal_le a ha
  distinct := h.distinct
  previous_le a ha t ht := hs.runs ▸ h.previous_le a ha t ht

/-- Dropping a run breaks no bound. -/
theorem dropped {m : Model} {pre post : List Active} {a : Active}
    (h : Numbered ⟨m, pre ++ a :: post⟩) : Numbered ⟨m, pre ++ post⟩ := by
  have hsub : (pre ++ post).Sublist (pre ++ a :: post) :=
    List.Sublist.append_left (List.sublist_cons_self a post) pre
  exact
    { stamp_le := h.stamp_le
      open_ := h.open_
      ordinal_pos := fun b hb => h.ordinal_pos b (hsub.subset hb)
      ordinal_le := fun b hb => h.ordinal_le b (hsub.subset hb)
      distinct := h.distinct.sublist (hsub.map _)
      previous_le := fun b hb => h.previous_le b (hsub.subset hb) }

/-- No other run under way has the number of this one. -/
theorem ne_ordinal {m : Model} {pre post : List Active} {a b : Active}
    (h : Numbered ⟨m, pre ++ a :: post⟩) (hb : b ∈ pre ++ post) :
    b.run.ordinal ≠ a.run.ordinal := by
  have hd := h.distinct
  rw [(List.perm_middle.map fun c : Active => c.run.ordinal).nodup_iff, List.map_cons,
    List.nodup_cons] at hd
  intro he
  exact hd.1 (he ▸ List.mem_map_of_mem hb)

theorem started {m : Model} {as : List Active} (h : Numbered ⟨m, as⟩) (c : Call) (r : Route)
    (options : ValidateOptions) :
    Numbered ⟨(c.start m r options).2, as ++ [(c.start m r options).1]⟩ := by
  have hr := c.start_runs m r options
  have hmem : ∀ b ∈ as ++ [(c.start m r options).1], b ∈ as ∨ b = (c.start m r options).1 := by
    intro b hb
    simpa using hb
  refine ⟨?_, ?_, ?_, ?_, ?_, ?_⟩
  · intro q st hq
    rcases c.start_states m r options q with he | ⟨-, he⟩
    · have hst := h.stamp_le q st (he ▸ hq)
      simp only at hst ⊢
      omega
    · rw [show st = {} by simpa [he] using hq.symm]
      exact Nat.zero_le _
  · intro q
    have hp := h.open_ q
    simp only [c.start_superseded, hr]
    rw [Bool.eq_false_iff] at hp ⊢
    exact fun hn => hp (Records.superseded_of_le (Nat.le_succ _) hn)
  · intro b hb
    rcases hmem b hb with hb | rfl
    · exact h.ordinal_pos b hb
    · simp
  · intro b hb
    simp only [hr]
    rcases hmem b hb with hb | rfl
    · exact Nat.le_succ_of_le (h.ordinal_le b hb)
    · simp
  · simp only [List.map_append, List.map_cons, List.map_nil, Call.start_ordinal]
    refine List.nodup_append.2 ⟨h.distinct, by simp, ?_⟩
    intro i hi j hj he
    obtain ⟨b, hb, rfl⟩ := List.mem_map.1 hi
    have hle := h.ordinal_le b hb
    simp only [List.mem_singleton] at hj
    simp only at hle
    omega
  · intro b hb t ht
    simp only [hr]
    rcases hmem b hb with hb | rfl
    · exact Nat.le_succ_of_le (h.previous_le b hb t ht)
    · simp at ht

theorem worked {m m' : Model} {pre post : List Active} {a a' : Active} {act : Act}
    (h : Numbered ⟨m, pre ++ a :: post⟩) (hef : Active.Effect a m act a' m') :
    Numbered ⟨m', pre ++ a' :: post⟩ := by
  have ha : a ∈ pre ++ a :: post := by simp
  have hle := h.ordinal_le a ha
  have hmem : ∀ b ∈ pre ++ a' :: post, b = a' ∨ b ∈ pre ++ a :: post := by
    intro b hb
    rcases mem_middle.1 hb with hb | hb
    · exact .inl hb
    · exact .inr (mem_middle.2 (.inr hb))
  refine ⟨?_, ?_, ?_, ?_, ?_, ?_⟩
  · intro q st hq
    simp only [hef.kept.runs] at hq ⊢
    cases hef.change q with
    | same same => exact h.stamp_le q st (same ▸ hq)
    | made _ after =>
      rw [show st = {} by simpa [after] using hq.symm]
      exact Nat.zero_le _
    | marked after => rw [← Option.some.inj (after.symm.trans hq)]; exact hle
    | settled after stamp => rw [← Option.some.inj (after.symm.trans hq), stamp]; exact hle
    | restored _ _ after _ _ mem =>
      rw [← Option.some.inj (after.symm.trans hq)]
      exact h.previous_le a ha _ mem
  · intro q
    simp only [hef.kept.cleared, hef.kept.runs]
    exact h.open_ q
  · intro b hb
    rcases hmem b hb with rfl | hb
    · rw [hef.ordinal]; exact h.ordinal_pos a ha
    · exact h.ordinal_pos b hb
  · intro b hb
    simp only [hef.kept.runs]
    rcases hmem b hb with rfl | hb
    · rw [hef.ordinal]; exact hle
    · exact h.ordinal_le b hb
  · have hd := h.distinct
    simp only [List.map_append, List.map_cons] at hd ⊢
    rw [hef.ordinal]
    exact hd
  · intro b hb t ht
    simp only [hef.kept.runs]
    rcases hmem b hb with rfl | hb
    · rcases hef.mem_tickets ht with ht | ⟨-, he | he⟩
      · exact h.previous_le a ha t ht
      · rw [he]; exact Nat.zero_le _
      · rw [he]
        exact Model.valLock_le_of_record (h.stamp_le _)
    · exact h.previous_le b hb t ht

theorem finished {m : Model} {pre post : List Active} {run : Run} {w : Walk}
    (h : Numbered ⟨m, pre ++ ⟨run, w, []⟩ :: post⟩) :
    Numbered ⟨(Progress.finish ⟨run, m⟩).1, pre ++ post⟩ := by
  have hd := h.dropped
  refine ⟨?_, ?_, hd.ordinal_pos, hd.ordinal_le, hd.distinct, hd.previous_le⟩
  · intro q st hq
    exact h.stamp_le q st ((Progress.finish_state?_eq_some ⟨run, m⟩).1 hq).1
  · intro q
    have hle : run.ordinal ≤ m.runs := h.ordinal_le ⟨run, w, []⟩ (by simp)
    have hp := h.open_ q
    rw [Bool.eq_false_iff] at hp ⊢
    intro hsup
    rcases (Progress.finish_superseded ⟨run, m⟩ q _).1 hsup with hn | ⟨hn, -⟩
    · exact hp hn
    · simp only [Progress.finish_runs] at hn
      omega

theorem step {s t : Overlap} {e : Event} (h : Numbered s) (hstep : Step s e t) : Numbered t := by
  cases hstep with
  | set m as r v => exact h.of_states (m.setValue_states r v)
  | reset m as r => exact h.of_states (m.reset_states r)
  | touch m as r => exact h.of_states (m.touch_states r)
  | start m as c r options => exact h.started c r options
  | work pre post next => exact h.worked (Active.effect next)
  | finish m pre post run o => exact h.finished
  | fail m pre post run e => exact h.dropped
  | abandon m pre post a => exact h.dropped

theorem trace {s t : Overlap} {es : List Event} (hs : Numbered s) (h : Trace s es t) :
    Numbered t := by
  induction h with
  | nil => exact hs
  | snoc _ hstep ih => exact ih.step hstep

end Numbered

end Overlap

/-- At most `n` steps of a run, with what is told of them, while nothing else works on the model. -/
def Active.advance : Nat → Active → Model → List Event × Active × Model
  | 0, a, m => ([], a, m)
  | n + 1, a, m =>
    match a.next? m with
    | none => ([], a, m)
    | some (a', m') =>
      let r := advance n a' m'
      (.worked a.run.ordinal (a.act m) :: r.1, r.2)

/-- The outcome of a run that is about to return. -/
def Active.outcome? (a : Active) : Option Outcome :=
  match a.rest, a.frames with
  | .done o, [] => some o
  | _, _ => none

theorem Active.eq_of_outcome? {a : Active} {o : Outcome} (h : a.outcome? = some o) :
    a = ⟨a.run, .done o, []⟩ := by
  obtain ⟨run, rest, frames⟩ := a
  unfold outcome? at h
  split at h
  · next hr hf =>
    cases h
    simp only at hr hf
    rw [hr, hf]
  · cases h

namespace Overlap

theorem Trace.advance (pre post : List Active) (n : Nat) (a : Active) (m : Model) :
    Trace ⟨m, pre ++ a :: post⟩ (a.advance n m).1
      ⟨(a.advance n m).2.2, pre ++ (a.advance n m).2.1 :: post⟩ := by
  induction n generalizing a m with
  | zero => exact .nil _
  | succ n ih =>
    cases hn : a.next? m with
    | none =>
      simp only [Active.advance, hn]
      exact .nil _
    | some s =>
      simp only [Active.advance, hn]
      have hfirst : Trace ⟨m, pre ++ a :: post⟩ ([] ++ [.worked a.run.ordinal (a.act m)])
          ⟨s.2, pre ++ s.1 :: post⟩ := .snoc (.nil _) (.work pre post hn)
      exact hfirst.trans (ih s.1 s.2)

/-- A call on a model with no run under way, its steps and its return. -/
theorem Trace.solo (rule : Rule) (data : Tree) (config : ModelConfig) (c : Call) (r : Route)
    (options : ValidateOptions) (n : Nat) {es : List Event} {a : Active} {m : Model}
    (steps : (c.start (Model.ofRule rule data config) r options).1.advance n
      (c.start (Model.ofRule rule data config) r options).2 = (es, a, m))
    (ended : a.outcome?.isSome = true) :
    Trace (fresh rule data config) (.began 1 :: es) ⟨m, [a]⟩ ∧
      Step ⟨m, [a]⟩ (.returned a.run (Progress.finish ⟨a.run, m⟩).2)
        ⟨(Progress.finish ⟨a.run, m⟩).1, []⟩ := by
  constructor
  · have hfirst : Trace (fresh rule data config) ([] ++ [.began 1]) _ :=
      .snoc (.nil _) (.start (Model.ofRule rule data config) [] c r options)
    have h := hfirst.trans (Trace.advance [] [] n _ _)
    rwa [steps] at h
  · obtain ⟨o, ho⟩ := Option.isSome_iff_exists.1 ended
    rw [Active.eq_of_outcome? ho]
    exact .finish m [] [] a.run o

end Overlap

/-- The answer of a run that has returned. -/
def RunResult.valid? : RunResult → Option Bool
  | finished valid => some valid
  | _ => none

theorem RunResult.eq_of_valid? {r : RunResult} {valid : Bool} (h : r.valid? = some valid) :
    r = .finished valid := by
  cases r with
  | finished v => rw [Option.some.inj h]
  | failed e => cases h
  | suspended a => cases h

namespace Overlap

theorem Trace.of_steps (pre post : List Active) {x y : Active × Model} (h : Active.Steps x y) :
    ∃ es, Trace ⟨x.2, pre ++ x.1 :: post⟩ es ⟨y.2, pre ++ y.1 :: post⟩ := by
  induction h with
  | refl x => exact ⟨[], .nil _⟩
  | head hnext _ ih =>
    obtain ⟨es, hes⟩ := ih
    have hfirst : Trace _ ([] ++ [_]) _ := .snoc (.nil _) (.work pre post hnext)
    exact ⟨_, hfirst.trans hes⟩

theorem steps_run_eq {x y : Active × Model} (h : Active.Steps x y) :
    y.1.run.ordinal = x.1.run.ordinal ∧ y.1.run.options = x.1.run.options ∧
      y.1.run.target = x.1.run.target ∧ y.2.runs = x.2.runs := by
  induction h with
  | refl x => exact ⟨rfl, rfl, rfl, rfl⟩
  | head hnext _ ih =>
    obtain ⟨hordinal, hoptions, htarget⟩ := (Active.effect hnext).run_eq
    have hruns := (Active.effect hnext).kept.runs
    exact ⟨ih.1.trans hordinal, ih.2.1.trans hoptions, ih.2.2.1.trans htarget,
      ih.2.2.2.trans hruns⟩

/-- A call that is answered at once is the start of a run, steps of the run and its return. -/
theorem Trace.of_answer (as : List Active) {c : Call} {m m' : Model} {r : Route}
    {options : ValidateOptions} {isOpen : String → Bool} {valid : Bool}
    (h : c.answer m r options isOpen = (m', .finished valid)) :
    ∃ es s run, Trace ⟨m, as⟩ es s ∧ Step s (.returned run valid) ⟨m', as⟩ ∧
      run.ordinal = m.runs + 1 ∧ run.target = Model.runTarget r options ∧
      run.options.onlyDirtyRefs = (options.withConfig m.config).onlyDirtyRefs ∧
      m'.runs = run.ordinal := by
  rw [Call.answer_eq, Active.resume] at h
  have hsteps := (c.start m r options).1.drive_steps isOpen (c.start m r options).2
  have hstart : Trace ⟨m, as⟩ ([] ++ [_]) _ := .snoc (.nil _) (.start m as c r options)
  cases hd : (c.start m r options).1.drive isOpen (c.start m r options).2 with
  | failed e p =>
    rw [hd] at h
    cases h
  | waiting rest frames p =>
    rw [hd] at h
    cases h
  | done o p =>
    rw [hd] at h hsteps
    cases h
    obtain ⟨es, hes⟩ := Trace.of_steps as [] hsteps
    obtain ⟨hordinal, hoptions, htarget, hruns⟩ := steps_run_eq hsteps
    have hnumber : p.run.ordinal = m.runs + 1 := hordinal.trans (c.start_ordinal m r options)
    refine ⟨_, _, p.run, hstart.trans hes, ?_, hnumber, ?_, ?_, ?_⟩
    · have hstep := Step.finish p.model as [] p.run o
      rwa [List.append_nil] at hstep
    · exact htarget.trans (c.start_target m r options)
    · rw [show p.run.options = _ from hoptions]
      exact c.start_onlyDirtyRefs m r options
    · rw [hnumber]
      exact hruns.trans (c.start_runs m r options)

/-- Between calls, one that is answered at once leads on to a moment that can be reached. -/
theorem Trace.after_answer {s s' : Overlap} {hist : List Event} (before : Trace s hist s')
    {c : Call} {m : Model} {r : Route} {options : ValidateOptions} {isOpen : String → Bool}
    {valid : Bool} (h : c.answer s'.model r options isOpen = (m, .finished valid)) :
    ∃ hist', Trace s hist' ⟨m, s'.underWay⟩ := by
  obtain ⟨es, t, run, htrace, hstep, -⟩ := Trace.of_answer s'.underWay h
  exact ⟨_, .snoc (before.trans htrace) hstep⟩

end Overlap

end Conform

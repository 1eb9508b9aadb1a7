import Conform.Proofs.Heed
import Conform.Proofs.Newest
import Conform.Report

/-!
# The verdict and the errors on record

A run at the root answers whether any place of the whole model has failed. It visits the root around
everything else, every failure within travels up to the outcome of that visit, and what it has not
visited is gone when it returns. So the answer is yes exactly if no record is an error.
-/

namespace Conform

theorem Records.mem_toList {r : Records} {path : String} {e : Entry} :
    (path, e) ∈ r.entries.toList ↔ r.get? path = some e := by
  rw [Records.get?, Std.TreeMap.mem_toList_iff_getElem?_eq_some]

namespace Model

/-- The list of errors of the root is empty exactly if no record is an error. -/
theorem errorsUnder_root_eq_nil (m : Model) :
    m.errorsUnder [] = [] ↔ ∀ path st, m.state? path = some st → st.status ≠ .error := by
  have hmem : ∀ (e : String × Entry),
      e ∈ (m.records.under "/").filter (fun e => e.2.state.status = .error) ↔
        m.records.get? e.1 = some e.2 ∧ e.2.state.status = .error := by
    intro e
    rw [List.mem_filter, Records.under, List.mem_filter, Records.mem_toList,
      Path.isAtOrUnder_root, decide_eq_true_eq]
    simp
  have hnil : m.errorsUnder [] = [] ↔
      (m.records.under "/").filter (fun e => e.2.state.status = .error) = [] := by
    rw [errorsUnder, List.map_eq_nil_iff]
    constructor
    · intro h
      have hlen := congrArg List.length h
      rw [List.length_mergeSort] at hlen
      exact List.length_eq_zero_iff.1 hlen
    · intro h
      rw [Route.text, h, List.mergeSort_nil]
  rw [hnil, List.eq_nil_iff_forall_not_mem]
  constructor
  · intro h path st hst herr
    obtain ⟨e, he, rfl⟩ := Option.map_eq_some_iff.1 hst
    exact h (path, e) ((hmem (path, e)).2 ⟨he, herr⟩)
  · intro h e he
    obtain ⟨hget, herr⟩ := (hmem e).1 he
    exact h e.1 e.2.state (by rw [state?, Records.state?, hget]; rfl) herr

theorem firstError?_eq_none (m : Model) (r : Route) :
    m.firstError? r = none ↔ m.errorsUnder r = [] := List.head?_eq_none_iff

end Model

/-- What a run answers where a state of its own stands at its target. -/
theorem Progress.finish_verdict {p : Progress} {st : State}
    (h : p.finish.1.state? p.run.target.text = some st) (own : st.valLock = p.run.ordinal)
    (ended : st.status ≠ .validating) : p.finish.2 = true ↔ st.status ≠ .error := by
  have hs : p.finish.1.state p.run.target = st := by
    rw [Model.state, Model.entry_state, h]
    rfl
  have hv : p.finish.2 = decide (st.status ≠ .error) := by
    subst hs
    exact if_pos ⟨Nat.le_of_eq own.symm, ended⟩
  rw [hv, decide_eq_true_eq]

/-- Some visit of run `n` gave an invalid outcome. -/
def Failed (hist : List Event) (n : Nat) : Prop :=
  ∃ path, ∃ p ∈ settlings hist n path, p.1.isInvalid = true

section

variable {hist : List Event} {n : Nat}

theorem Failed.of_concat_none {e : Event} (he : ∀ path, e.settled? n path = none)
    (h : Failed (hist ++ [e]) n) : Failed hist n := by
  obtain ⟨path, p, hp, hi⟩ := h
  rw [settlings_concat_none hist n path (he path)] at hp
  exact ⟨path, p, hp, hi⟩

theorem Failed.of_concat_settled {t : Ticket} {o : Outcome} {st : State}
    (h : Failed (hist ++ [.worked n (.settled t o st)]) n) :
    Failed hist n ∨ o.isInvalid = true := by
  obtain ⟨path, p, hp, hi⟩ := h
  by_cases hpath : t.route.text = path
  · rw [← hpath, settlings_concat_settled, List.mem_append] at hp
    rcases hp with hp | hp
    · exact .inl ⟨_, p, hp, hi⟩
    · rw [List.mem_singleton.1 hp] at hi
      exact .inr hi
  · rw [settlings_concat_none hist n path (by simp [Event.settled?, hpath])] at hp
    exact .inl ⟨path, p, hp, hi⟩

end

/-- The walk at the innermost place, and the visits around it up to that of the root, hand on that
`bad` holds: part of it is the business of the walk, the rest that of the visits around. -/
inductive Carries : Prop → Walk → List Frame → Prop where
  | root {bad : Prop} {w : Walk} {t : Ticket} (at_ : t.route = []) (heeds : w.Heeds bad) :
      Carries bad w [.entered t Outcome.silent .done]
  | nested {bad b c : Prop} {w : Walk} {t : Ticket} {hint : Outcome} {next : Outcome → Walk}
      {frames : List Frame} (split : bad → b ∨ c) (heeds : w.Heeds b)
      (outer : ∀ o, Carries (c ∨ o.isInvalid = true) (next o) frames) :
      Carries bad w (.entered t hint next :: frames)

namespace Carries

variable {bad bad' : Prop} {w w' : Walk} {frames : List Frame}

theorem of_imp (h : Carries bad w frames) (hb : bad' → bad) : Carries bad' w frames := by
  cases h with
  | root at_ heeds => exact .root at_ (heeds.of_imp hb)
  | nested split heeds outer => exact .nested (fun hbad => split (hb hbad)) heeds outer

/-- One request further. -/
theorem of_walk (h : Carries bad w frames) (hw : ∀ b, w.Heeds b → w'.Heeds b) :
    Carries bad w' frames := by
  cases h with
  | root at_ heeds => exact .root at_ (hw _ heeds)
  | nested split heeds outer => exact .nested split (hw _ heeds) outer

/-- Into a visit, which starts with nothing bad of its own. -/
theorem visit {r : Route} {d : Declaration} {hint : Outcome} {body : Mode → Walk}
    {next : Outcome → Walk} (h : Carries bad (.visit r d hint body next) frames) (t : Ticket) :
    Carries bad (body .full) (.entered t hint next :: frames) := by
  cases h with
  | root at_ heeds =>
    exact .nested .inr heeds.1 fun o => .root at_ (heeds.2 o)
  | nested split heeds outer =>
    refine .nested .inr heeds.1 fun o => .nested ?_ (heeds.2 o) outer
    rintro (hbad | ho)
    · rcases split hbad with hb | hc
      · exact .inl (.inl hb)
      · exact .inr hc
    · exact .inl (.inr ho)

/-- Out of a visit, with the outcome that the visits around it get to know. The visit of the root is
the last. -/
theorem endVisit {t : Ticket} {hint o : Outcome} {next : Outcome → Walk}
    (h : Carries bad (.done o) (.entered t hint next :: frames)) :
    (t.route = [] ∧ next = .done ∧ frames = [] ∧
        (bad → (Outcome.merge [hint, o]).isInvalid = true)) ∨
      Carries (bad ∨ (Outcome.merge [hint, o]).isInvalid = true)
        (next (Outcome.merge [hint, o])) frames := by
  have hup : o.isInvalid = true → (Outcome.merge [hint, o]).isInvalid = true := by
    intro ho
    rw [Outcome.merge_isInvalid_iff]
    exact ⟨o, by simp, ho⟩
  cases h with
  | root at_ heeds => exact .inl ⟨at_, rfl, rfl, fun hbad => hup (heeds hbad)⟩
  | nested split heeds outer =>
    refine .inr ((outer _).of_imp ?_)
    rintro (hbad | ho)
    · rcases split hbad with hb | hc
      · exact .inr (hup (heeds hb))
      · exact .inl hc
    · exact .inr ho

end Carries

/-- How far a run at the root has come, and that no failure is lost on its way. -/
inductive Upward (hist : List Event) (a : Active) : Prop where
  | failing (failing : a.failing = true)
  | begun {d : Declaration} {body : Mode → Walk}
      (rest : a.rest = .visit [] d Outcome.silent body .done) (frames : a.frames = [])
      (heeds : (body .full).Heeds False) (sound : ¬ Failed hist a.run.ordinal)
  | inside (carries : Carries (Failed hist a.run.ordinal) a.rest a.frames)
      (visited : a.run.visited.contains "/" = true)
  | ended {o : Outcome} (outcome : a.outcome? = some o)
      (heeds : Failed hist a.run.ordinal → o.isInvalid = true)
      (last : ∃ st, (settlings hist a.run.ordinal "/").getLast? = some (o, st))
      (visited : a.run.visited.contains "/" = true)

/-- A run at the root enters every place that it meets. -/
theorem Progress.meet_fromRoot {p : Progress} (h : p.run.fromRoot = true) (r : Route)
    (d : Declaration) :
    p.meet r d = ((p.enter r .validating).1, .entered (p.enter r .validating).2) := by
  have hd : p.run.discover r d = p.run := by
    unfold Run.discover
    rw [if_neg (by simp [h])]
  have hc : p.run.classify r d = .validating := by
    unfold Run.classify
    rw [h, Bool.true_or, if_pos rfl]
  unfold meet
  dsimp only
  rw [hd, hc]

namespace Upward

variable {hist : List Event} {a a' : Active} {m m' : Model}

/-- What others do does not concern the run. -/
theorem of_other {e : Event} (h : Upward hist a)
    (he : ∀ path, e.settled? a.run.ordinal path = none) : Upward (hist ++ [e]) a := by
  cases h with
  | failing failing => exact .failing failing
  | begun rest frames heeds sound =>
    exact .begun rest frames heeds fun hf => sound (hf.of_concat_none he)
  | inside carries visited =>
    exact .inside (carries.of_imp fun hf => hf.of_concat_none he) visited
  | ended outcome heeds last visited =>
    rw [← settlings_concat_none hist _ _ (he "/")] at last
    exact .ended outcome (fun hf => heeds (hf.of_concat_none he)) last visited

/-- The run enters the root, and nothing has failed yet. -/
theorem enters {run : Run} {d : Declaration} {body : Mode → Walk} (root : run.fromRoot = true)
    (heeds : (body .full).Heeds False) (sound : ¬ Failed hist run.ordinal)
    (hnext : Active.next? ⟨run, .visit [] d Outcome.silent body .done, []⟩ m = some (a', m')) :
    Upward (hist ++ [.worked run.ordinal
      (Active.act ⟨run, .visit [] d Outcome.silent body .done, []⟩ m)]) a' := by
  have hord := (Active.effect hnext).ordinal
  have hmeet := Progress.meet_fromRoot (p := ⟨run, m⟩) root [] d
  have hact : Active.act ⟨run, .visit [] d Outcome.silent body .done, []⟩ m =
      .entered (Progress.enter ⟨run, m⟩ [] .validating).2 := by
    simp only [Active.act, hmeet]
  simp only [Active.next?, Active.beginVisit, hmeet, Option.some.injEq, Prod.mk.injEq] at hnext
  obtain ⟨rfl, rfl⟩ := hnext
  refine .inside (.root (Progress.enter_route ⟨run, m⟩ [] .validating) (heeds.of_imp ?_)) ?_
  · intro hf
    rw [hord, hact] at hf
    exact sound (hf.of_concat_none fun _ => rfl)
  · rw [Progress.enter_run, Run.visit_contains]
    exact .inl rfl

/-- The run settles a place. If it is the root, the outcome is that of the run. -/
theorem settles {run : Run} {o hint : Outcome} {t : Ticket} {next : Outcome → Walk}
    {frames : List Frame} (visited : run.visited.contains "/" = true)
    (carries : Carries (Failed hist run.ordinal) (.done o) (.entered t hint next :: frames))
    (hnext : Active.next? ⟨run, .done o, .entered t hint next :: frames⟩ m = some (a', m')) :
    Upward (hist ++ [.worked run.ordinal
      (Active.act ⟨run, .done o, .entered t hint next :: frames⟩ m)]) a' := by
  have hef := Active.effect hnext
  have hord := hef.ordinal
  have hvisited := (hef.visited_iff "/").2 (.inl visited)
  simp only [Active.next?, Active.endVisit, Option.some.injEq, Prod.mk.injEq] at hnext
  obtain ⟨rfl, rfl⟩ := hnext
  rcases carries.endVisit with ⟨at_, rfl, rfl, hup⟩ | hc
  · refine .ended rfl (fun hf => ?_) ?_ hvisited
    · rw [hord] at hf
      rcases hf.of_concat_settled with hf | ho
      · exact hup hf
      · exact ho
    · have hpath : t.route.text = "/" := by
        rw [at_]
        rfl
      rw [hord, ← hpath]
      refine ⟨Progress.settlement ⟨run, m⟩ (Outcome.merge [hint, o]), ?_⟩
      simp only [Active.act]
      rw [settlings_concat_settled, List.getLast?_concat]
  · refine .inside (hc.of_imp fun hf => ?_) hvisited
    rw [hord] at hf
    exact hf.of_concat_settled

/-- One request further, at a place within the root. -/
theorem requests (root : a.run.fromRoot = true) (visited : a.run.visited.contains "/" = true)
    (carries : Carries (Failed hist a.run.ordinal) a.rest a.frames)
    (hnext : a.next? m = some (a', m')) :
    Upward (hist ++ [.worked a.run.ordinal (a.act m)]) a' := by
  have hef := Active.effect hnext
  have hvisited := (hef.visited_iff "/").2 (.inl visited)
  have hquiet :
      (∀ path, (Event.worked a.run.ordinal (a.act m)).settled? a.run.ordinal path = none) →
      Failed (hist ++ [.worked a.run.ordinal (a.act m)]) a'.run.ordinal →
      Failed hist a.run.ordinal := by
    intro hnone hf
    rw [hef.ordinal] at hf
    exact hf.of_concat_none hnone
  obtain ⟨run, rest, frames⟩ := a
  cases rest with
  | done o =>
    cases carries with
    | root at_ heeds => exact settles visited (.root at_ heeds) hnext
    | nested split heeds outer => exact settles visited (.nested split heeds outer) hnext
  | fail e => exact .failing (hef.failing_of rfl)
  | read r next =>
    simp only [Active.next?, Option.some.injEq, Prod.mk.injEq] at hnext
    obtain ⟨rfl, rfl⟩ := hnext
    have hc := carries.of_walk fun b hb => hb (m.tree.get? r)
    exact .inside (hc.of_imp (hquiet fun _ => rfl)) hvisited
  | write r v next =>
    simp only [Active.next?] at hnext
    split at hnext
    · simp only [Option.some.injEq, Prod.mk.injEq] at hnext
      obtain ⟨rfl, rfl⟩ := hnext
      exact .failing rfl
    · simp only [Option.some.injEq, Prod.mk.injEq] at hnext
      obtain ⟨rfl, rfl⟩ := hnext
      have hc : Carries _ next frames := carries.of_walk fun b hb => hb
      exact .inside (hc.of_imp (hquiet fun _ => rfl)) hvisited
  | await g next =>
    simp only [Active.next?, Option.some.injEq, Prod.mk.injEq] at hnext
    obtain ⟨rfl, rfl⟩ := hnext
    have hc : Carries _ next frames := carries.of_walk fun b hb => hb
    exact .inside (hc.of_imp (hquiet fun _ => rfl)) hvisited
  | visit r d hint body next =>
    have hmeet := Progress.meet_fromRoot (p := ⟨run, m⟩) root r d
    have hact : Active.act ⟨run, .visit r d hint body next, frames⟩ m =
        .entered (Progress.enter ⟨run, m⟩ r .validating).2 := by
      simp only [Active.act, hmeet]
    simp only [Active.next?, Active.beginVisit, hmeet, Option.some.injEq, Prod.mk.injEq] at hnext
    obtain ⟨rfl, rfl⟩ := hnext
    refine .inside ((carries.visit _).of_imp (hquiet fun path => ?_)) hvisited
    rw [hact]
    rfl

/-- No step of the run loses a failure. -/
theorem worked (root : a.run.fromRoot = true) (h : Upward hist a)
    (hnext : a.next? m = some (a', m')) :
    Upward (hist ++ [.worked a.run.ordinal (a.act m)]) a' := by
  cases h with
  | failing failing => exact .failing ((Active.effect hnext).failing_of failing)
  | begun rest frames heeds sound =>
    obtain ⟨run, rest', frames'⟩ := a
    simp only at rest frames
    subst rest frames
    exact enters root heeds sound hnext
  | inside carries visited => exact requests root visited carries hnext
  | ended outcome =>
    rw [Active.eq_of_outcome? outcome] at hnext
    cases hnext

end Upward

/-- A run begins with the visit of the root. -/
theorem Call.start_rest (c : Call) (m : Model) (r : Route) (options : ValidateOptions) :
    ∃ e : EvalOptions, (c.start m r options).1.rest = .visit [] m.rule.declaration Outcome.silent
      (fun mode => m.rule.walk e mode []) .done ∧ (c.start m r options).1.frames = [] := by
  cases c <;> exact ⟨_, rfl, rfl⟩

namespace Overlap

/-- What is known of runs at the root when the rule heeds its visits: none loses a failure. -/
structure Rising (rule : Rule) (hist : List Event) (s : Overlap) : Prop where
  rule : s.model.rule = rule
  past : ∀ n act, .worked n act ∈ hist → n ≤ s.model.runs
  upward : ∀ a ∈ s.underWay, a.run.fromRoot = true → Upward hist a

namespace Rising

variable {rule : Rule} {hist : List Event}

theorem of_kept {m m' : Model} {as : List Active} (h : Rising rule hist ⟨m, as⟩)
    (hk : m.Kept m') : Rising rule (hist ++ [.referenced]) ⟨m', as⟩ where
  rule := hk.rule.trans h.rule
  past n act hm := by
    simp only [hk.runs]
    exact h.past n act (by simpa using hm)
  upward a ha hr := (h.upward a ha hr).of_other fun _ => rfl

/-- A run that has not taken a step yet has settled nothing. -/
theorem started {m : Model} {as : List Active} (h : Rising rule hist ⟨m, as⟩)
    (builtIn : rule.isBuiltIn = true) (c : Call) (r : Route) (options : ValidateOptions) :
    Rising rule (hist ++ [.began (m.runs + 1)])
      ⟨(c.start m r options).2, as ++ [(c.start m r options).1]⟩ where
  rule := by cases c <;> exact h.rule
  past n act hm := by
    simp only [c.start_runs]
    exact Nat.le_succ_of_le (h.past n act (by simpa using hm))
  upward a ha hr := by
    rcases List.mem_append.1 ha with ha | ha
    · exact (h.upward a ha hr).of_other fun _ => rfl
    · rw [List.mem_singleton.1 ha]
      obtain ⟨e, hrest, hframes⟩ := c.start_rest m r options
      refine .begun hrest hframes (m.rule.walk_heeds e (h.rule ▸ builtIn) []) ?_
      rw [c.start_ordinal]
      intro hf
      obtain ⟨path, p, hp, -⟩ := hf.of_concat_none fun _ => rfl
      obtain ⟨event, he, hs⟩ := List.mem_filterMap.1 hp
      obtain ⟨t, rfl, -⟩ := Event.settled?_eq_some.1 hs
      have hle := h.past _ _ he
      simp only at hle
      omega

theorem worked {m m' : Model} {pre post : List Active} {a a' : Active}
    (hnum : Numbered ⟨m, pre ++ a :: post⟩) (h : Rising rule hist ⟨m, pre ++ a :: post⟩)
    (hnext : a.next? m = some (a', m')) :
    Rising rule (hist ++ [.worked a.run.ordinal (a.act m)]) ⟨m', pre ++ a' :: post⟩ where
  rule := (Active.effect hnext).kept.rule.trans h.rule
  past n act hm := by
    simp only [(Active.effect hnext).kept.runs]
    rcases List.mem_append.1 hm with hm | hm
    · exact h.past n act hm
    · cases List.mem_singleton.1 hm
      exact hnum.ordinal_le a (by simp)
  upward b hb hr := by
    rcases mem_middle.1 hb with rfl | hb
    · have hroot : a.run.fromRoot = true := by
        rw [Run.fromRoot, ← (Active.effect hnext).run_eq.2.2]
        exact hr
      exact (h.upward a (by simp) hroot).worked hroot hnext
    · have hne := hnum.ne_ordinal hb
      exact (h.upward b (mem_middle.2 (.inr hb)) hr).of_other fun _ =>
        Event.settled?_other hne.symm _ _

/-- A run leaves, without a word about the places. -/
theorem left {m m' : Model} {pre post : List Active} {a : Active} {e : Event}
    (h : Rising rule hist ⟨m, pre ++ a :: post⟩) (hrule : m'.rule = m.rule)
    (hruns : m'.runs = m.runs) (he : ∀ n act, e ≠ .worked n act) :
    Rising rule (hist ++ [e]) ⟨m', pre ++ post⟩ where
  rule := hrule.trans h.rule
  past n act hm := by
    simp only [hruns]
    rcases List.mem_append.1 hm with hm | hm
    · exact h.past n act hm
    · exact absurd (List.mem_singleton.1 hm).symm (he n act)
  upward b hb hr := by
    refine (h.upward b (mem_middle.2 (.inr hb)) hr).of_other fun path => ?_
    cases hs : e.settled? b.run.ordinal path with
    | none => rfl
    | some p =>
      obtain ⟨t, rfl, -⟩ := Event.settled?_eq_some.1 hs
      exact absurd rfl (he _ _)

theorem step {s t : Overlap} {e : Event} (builtIn : rule.isBuiltIn = true) (hnum : Numbered s)
    (h : Rising rule hist s) (hstep : Step s e t) : Rising rule (hist ++ [e]) t := by
  cases hstep with
  | set m as r v => exact h.of_kept (m.setValue_states r v).toKept
  | reset m as r => exact h.of_kept (m.reset_states r).toKept
  | touch m as r => exact h.of_kept (m.touch_states r).toKept
  | start m as c r options => exact h.started builtIn c r options
  | work pre post next => exact h.worked hnum next
  | finish m pre post run o => exact h.left rfl rfl (by intro n act he; cases he)
  | fail m pre post run e => exact h.left rfl rfl (by intro n act he; cases he)
  | abandon m pre post a => exact h.left rfl rfl (by intro n act he; cases he)

theorem trace {data : Tree} {config : ModelConfig} {s : Overlap} {es : List Event}
    (builtIn : rule.isBuiltIn = true) (htrace : Trace (fresh rule data config) es s) :
    Rising rule es s := by
  have hnum := Numbered.fresh rule data config
  generalize hs : fresh rule data config = s₀ at htrace hnum
  induction htrace with
  | nil =>
    subst hs
    exact ⟨rfl, fun n act hm => (by cases hm), fun a ha => (by cases ha)⟩
  | snoc htrace hstep ih => exact ih.step builtIn (hnum.trace htrace) hstep

end Rising

/-- A run at the root answers whether no record is an error. -/
theorem Rising.returned {rule : Rule} {data : Tree} {config : ModelConfig} {hist : List Event}
    {s t : Overlap} {run : Run} {valid : Bool} (before : Trace (fresh rule data config) hist s)
    (h : Rising rule hist s) (hstands : Stands hist run t)
    (returns : Step s (.returned run valid) t) (root : run.fromRoot = true) :
    valid = true ↔ ∀ path st, t.model.state? path = some st → st.status ≠ .error := by
  cases returns with
  | finish m pre post run o =>
    have hup : Upward hist ⟨run, .done o, []⟩ := h.upward _ (by simp) root
    cases hup with
    | failing failing => cases failing
    | begun rest => cases rest
    | inside carries => cases carries
    | @ended o' outcome heeds last visited =>
      obtain ⟨st, hlast⟩ := last
      obtain ⟨st', hst, hown, hl⟩ := hstands.kept "/" visited
      rw [lastSettled, hlast] at hl
      obtain rfl : st = st' := Option.some.inj hl
      have hstatus : st.status = if o'.isInvalid then .error else .success :=
        before.settlings_status (List.mem_of_getLast? hlast)
      have htarget : run.target.text = "/" := by
        rw [List.isEmpty_iff.1 root]
        rfl
      have hvalid : (Progress.finish ⟨run, m⟩).2 = true ↔ st.status ≠ .error := by
        refine Progress.finish_verdict (p := ⟨run, m⟩) ?_ hown ?_
        · rw [htarget]
          exact hst
        · rw [hstatus]
          split <;> decide
      rw [hvalid]
      constructor
      · intro hne path st' hst' herr
        have hsound : ¬ Failed hist run.ordinal := by
          intro hf
          have ho : o'.isInvalid = true := heeds hf
          rw [hstatus, if_pos ho] at hne
          exact hne rfl
        cases hv : run.visited.contains path with
        | true =>
          obtain ⟨st'', hst'', -, hl'⟩ := hstands.kept path hv
          obtain rfl : st' = st'' := Option.some.inj (hst'.symm.trans hst'')
          obtain ⟨⟨o'', s⟩, hp, he⟩ := Option.map_eq_some_iff.1 hl'
          obtain rfl : s = st' := he
          have hmem := List.mem_of_getLast? hp
          rw [before.settlings_status hmem] at herr
          split at herr
          · next hi => exact hsound ⟨path, _, hmem, hi⟩
          · cases herr
        | false =>
          rw [hstands.bare path hv (Run.covers_root root path) st' hst'] at herr
          cases herr
      · intro hall
        exact hall "/" st hst

/-- **The verdict agrees with the errors.** Where the schema holds built-in keywords only, a run at
the root that does not keep to dirty places has returned, and no newer run has started. It has
answered that the model is valid exactly if no record of the whole model is an error: the list of
errors of the root is then empty, and there is no first error to report. -/
theorem valid_iff_no_error {registry : Registry} {schema : Value} {rule : Rule} {data : Tree}
    {config : ModelConfig} {hist : List Event} {s t : Overlap} {run : Run} {valid : Bool}
    (plain : registry.keywords = []) (compiled : compile registry schema = .ok rule)
    (before : Trace (fresh rule data config) hist s) (returns : Step s (.returned run valid) t)
    (root : run.fromRoot = true) (full : run.options.onlyDirtyRefs = false)
    (newest : t.model.runs = run.ordinal) :
    (valid = true ↔ ∀ path st, t.model.state? path = some st → st.status ≠ .error) ∧
      (valid = true ↔ t.model.errorsUnder [] = []) ∧
      (valid = true ↔ t.model.firstError? [] = none) ∧
      (valid = true ↔ (Report.collect t.model [] valid).firstError = none) := by
  have hstands : Stands hist run t := .of_returned before returns full (Nat.le_of_eq newest)
  have hrising : Rising rule hist s := .trace (compile_isBuiltIn plain compiled) before
  have hmain := hrising.returned before hstands returns root
  have herrors : valid = true ↔ t.model.errorsUnder [] = [] :=
    hmain.trans t.model.errorsUnder_root_eq_nil.symm
  have hfirst : valid = true ↔ t.model.firstError? [] = none :=
    herrors.trans (t.model.firstError?_eq_none []).symm
  refine ⟨hmain, herrors, hfirst, hfirst.trans ?_⟩
  rw [Report.collect, Option.map_eq_none_iff]

/-- The rule of the schema that allows nothing but strings. -/
def stringRule : Rule :=
  .node "#" [.leaf (.annotations none [] {}), .leaf (.type [.string])] {} {}

/-- A call that finds a number where only a string is allowed, and an error to report. -/
theorem valid_iff_no_error_number :
    ∃ m, Call.validate.answer (Model.ofRule stringRule (some (.number (.int 1))) {}) [] {}
        (fun _ => true) = (m, .finished false) ∧
      m.errorsUnder [] ≠ [] ∧ m.firstError? [] ≠ none := by
  have hvalid : (Call.validate.answer (Model.ofRule stringRule (some (.number (.int 1))) {}) [] {}
      fun _ => true).2.valid? = some false := by decide +kernel
  generalize hx : Call.validate.answer (Model.ofRule stringRule (some (.number (.int 1))) {}) [] {}
    (fun _ => true) = x at hvalid
  obtain ⟨m, result⟩ := x
  obtain rfl : result = .finished false := RunResult.eq_of_valid? hvalid
  obtain ⟨es, s, run, before, returns, -, htarget, full, newest⟩ := Trace.of_answer [] hx
  have root : run.fromRoot = true := by
    rw [Run.fromRoot, htarget]
    rfl
  have compiled : compile Registry.standard (.object [("type", .string "string")]) =
      .ok stringRule := rfl
  have h := valid_iff_no_error rfl compiled before returns root full newest
  refine ⟨m, rfl, fun he => ?_, fun he => ?_⟩
  · cases h.2.1.2 he
  · cases h.2.2.1.2 he

end Overlap

end Conform

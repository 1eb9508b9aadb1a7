import Conform.Extension
import Conform.Proofs.Overlap
import Conform.Schema.Compile

/-!
# Marks that are left behind

A run marks the places it is at work in as validating. The mark goes when the run settles the place
or puts back what it found, so one would expect no mark where no run is under way. There are two
ways for a mark to stay all the same:

* a run that fails puts back the mark of another run, which has left the place in the meantime,
* a run settles a place on ground that a newer run has cleared, and is not heard. A newer run that
  keeps to dirty places clears the ground without a state of its own there.

`Stranded` says that one of the two has happened and that the mark has not been touched since. Every
mark either belongs to a run at work in the place or is stranded.
-/

namespace Conform

namespace Overlap

/-- The run that made the mark `st` at a path is at work in the place and is to commit there. -/
def Owned (s : Overlap) (path : String) (st : State) : Prop :=
  ∃ a ∈ s.underWay, a.run.ordinal = st.valLock ∧
    ∃ t ∈ a.tickets, t.commits = true ∧ t.route.text = path

/-- A step from `u` to `v` that leaves the mark `st` at a path to no run. -/
inductive Leaves (u v : Overlap) (path : String) (st : State) : Event → Prop where
  /-- A failing run, which owns the state on record, puts back the mark that it found. -/
  | putBack {n : Nat} {t : Ticket} (own : ∃ s, u.model.state? path = some s ∧ s.valLock = n)
      (commits : t.commits = true) (at_ : t.route.text = path) (found : t.previous = st)
      (unowned : ¬ Owned v path st) : Leaves u v path st (.worked n (.rolledBack t))
  /-- The result of the run that made the mark is dropped, since a newer run has cleared the
  ground. -/
  | unheard {n : Nat} {t : Ticket} {o : Outcome} {s : State}
      (before : u.model.state? path = some st) (own : st.valLock = n)
      (commits : t.commits = true) (at_ : t.route.text = path)
      (cleared : u.model.records.superseded path n = true)
      (unowned : ¬ Owned v path st) : Leaves u v path st (.worked n (.settled t o s))

/-- Some step has left the mark `st` at a path behind, and no step since has changed it. -/
inductive Stranded (s₀ : Overlap) (path : String) (st : State) : List Event → Overlap → Prop where
  | left {es : List Event} {e : Event} {u v : Overlap} (trace : Trace s₀ es u) (step : Step u e v)
      (leaves : Leaves u v path st e) (mark : st.status = .validating)
      (after : v.model.state? path = some st) : Stranded s₀ path st (es ++ [e]) v
  | stays {es : List Event} {e : Event} {u v : Overlap} (stranded : Stranded s₀ path st es u)
      (step : Step u e v) (after : v.model.state? path = some st) :
      Stranded s₀ path st (es ++ [e]) v

theorem Stranded.mark {s₀ s : Overlap} {path : String} {st : State} {es : List Event}
    (h : Stranded s₀ path st es s) :
    s.model.state? path = some st ∧ st.status = .validating := by
  induction h with
  | left _ _ _ mark after => exact ⟨after, mark⟩
  | stays _ _ after ih => exact ⟨after, ih.2⟩

section

variable {s₀ : Overlap} {es : List Event} {path : String} {st : State}

theorem Owned.of_underWay {s t : Overlap} (h : Owned s path st)
    (hsub : ∀ a ∈ s.underWay, a.tickets ≠ [] → a ∈ t.underWay) : Owned t path st := by
  obtain ⟨a, ha, hn, tk, ht, hc⟩ := h
  refine ⟨a, hsub a ha ?_, hn, tk, ht, hc⟩
  intro he
  rw [he] at ht
  cases ht

/-- A step of a run that does not touch a mark keeps it owned or leaves it behind. -/
theorem Owned.worked {m m' : Model} {pre post : List Active} {a a' : Active} {act : Act}
    (h : Owned ⟨m, pre ++ a :: post⟩ path st) (hmark : st.status = .validating)
    (hef : Active.Effect a m act a' m') (hsame : m'.state? path = m.state? path)
    (hst : m.state? path = some st) :
    Owned ⟨m', pre ++ a' :: post⟩ path st ∨
      Leaves ⟨m, pre ++ a :: post⟩ ⟨m', pre ++ a' :: post⟩ path st (.worked a.run.ordinal act) := by
  by_cases hown : Owned ⟨m', pre ++ a' :: post⟩ path st
  · exact .inl hown
  · obtain ⟨b, hb, hn, t, ht, hc, hp⟩ := h
    rcases mem_middle.1 hb with rfl | hb
    · -- the owner itself has moved, and is not at work in the place any more
      have hgone : t ∉ a'.tickets := by
        intro ht'
        exact hown ⟨a', by simp, hef.ordinal.trans hn, t, ht', hc, hp⟩
      cases hef with
      | quiet _ tickets => exact absurd (tickets ▸ ht) hgone
      | entered t' _ _ _ _ tickets =>
        exact absurd (tickets ▸ List.mem_cons_of_mem _ ht) hgone
      | settled t' o settle tickets =>
        rw [tickets, List.mem_cons] at ht
        have he : t = t' := ht.resolve_right hgone
        subst he
        have hs := Progress.settle_state? ⟨b.run, m⟩ t o path
        rw [settle] at hs
        simp only [hsame, hst, hc, hp, true_and] at hs
        by_cases hmay : m.mayCommit path b.run.ordinal = true
        · rw [if_pos hmay, Option.some.injEq] at hs
          rw [hs, Progress.settlement_status] at hmark
          split at hmark <;> cases hmark
        · refine .inr (.unheard hst hn.symm hc hp ?_ hown)
          rw [Model.mayCommit_iff, hst] at hmay
          cases hsup : m.records.superseded path b.run.ordinal with
          | true => rfl
          | false => exact absurd ⟨hsup, by simp [hn]⟩ hmay
      | rolledBack t' rollBack tickets =>
        rw [tickets, List.mem_cons] at ht
        have he : t = t' := ht.resolve_right hgone
        subst he
        have hs := Progress.rollBack_state? ⟨b.run, m⟩ t path
        rw [rollBack] at hs
        simp only [hsame, hp] at hs
        rw [if_pos ⟨hc, trivial, st, hst, hn.symm⟩, hst, Option.some.injEq] at hs
        exact .inr (.putBack ⟨st, hst, hn.symm⟩ hc hp hs.symm hown)
    · exact absurd ⟨b, mem_middle.2 (.inr hb), hn, t, ht, hc, hp⟩ hown

/-- Every mark is owned or stranded. -/
def Accounted (s₀ : Overlap) (es : List Event) (s : Overlap) : Prop :=
  ∀ path st, s.model.state? path = some st → st.status = .validating →
    Owned s path st ∨ Stranded s₀ path st es s

/-- A step that changes no mark and drops no run that is at work somewhere. -/
theorem Accounted.of_same {s t : Overlap} {e : Event} (h : Accounted s₀ es s)
    (hstep : Step s e t) (hsub : ∀ a ∈ s.underWay, a.tickets ≠ [] → a ∈ t.underWay)
    (hs : ∀ path st, t.model.state? path = some st → st.status = .validating →
      s.model.state? path = some st) : Accounted s₀ (es ++ [e]) t := by
  intro path st hst hmark
  rcases h path st (hs path st hst hmark) hmark with ho | hs
  · exact .inl (ho.of_underWay hsub)
  · exact .inr (.stays hs hstep hst)

theorem Accounted.of_states {m m' : Model} {as as' : List Active} {e : Event}
    (h : Accounted s₀ es ⟨m, as⟩) (hstep : Step ⟨m, as⟩ e ⟨m', as'⟩) (hsub : as ⊆ as')
    (hs : ∀ q, m'.state? q = m.state? q ∨ m.state? q = none ∧ m'.state? q = some {}) :
    Accounted s₀ (es ++ [e]) ⟨m', as'⟩ := by
  refine h.of_same hstep (fun a ha _ => hsub ha) fun path st hst hmark => ?_
  rcases hs path with he | ⟨-, he⟩
  · exact he.symm.trans hst
  · rw [show st = {} from Option.some.inj (hst.symm.trans he)] at hmark
    cases hmark

theorem Accounted.worked {m m' : Model} {pre post : List Active} {a a' : Active} {act : Act}
    (htrace : Trace s₀ es ⟨m, pre ++ a :: post⟩) (h : Accounted s₀ es ⟨m, pre ++ a :: post⟩)
    (hstep : Step ⟨m, pre ++ a :: post⟩ (.worked a.run.ordinal act) ⟨m', pre ++ a' :: post⟩)
    (hef : Active.Effect a m act a' m') :
    Accounted s₀ (es ++ [.worked a.run.ordinal act]) ⟨m', pre ++ a' :: post⟩ := by
  intro path st hst hmark
  have hst : m'.state? path = some st := hst
  cases hef.change path with
  | same same =>
    rcases h path st (same.symm.trans hst) hmark with ho | hs
    · rcases ho.worked hmark hef same (same.symm.trans hst) with ho | hl
      · exact .inl ho
      · exact .inr (.left htrace hstep hl hmark hst)
    · exact .inr (.stays hs hstep hst)
  | made _ after =>
    rw [show st = {} from Option.some.inj (hst.symm.trans after)] at hmark
    cases hmark
  | @marked t after _ _ _ commits at_ =>
    have he : st = Progress.working a.run.ordinal t.previous :=
      Option.some.inj (hst.symm.trans after)
    refine .inl ⟨a', by simp, by rw [hef.ordinal, he]; rfl, t, ?_, commits, at_⟩
    cases hef with
    | entered t' r d scope enter tickets => simp [tickets]
  | settled after _ status =>
    rw [show st = _ from Option.some.inj (hst.symm.trans after)] at hmark
    exact absurd hmark status
  | restored before stamp after commits at_ =>
    by_cases hown : Owned ⟨m', pre ++ a' :: post⟩ path st
    · exact .inl hown
    · have hfound := Option.some.inj (after.symm.trans hst)
      exact .inr (.left htrace hstep (.putBack ⟨_, before, stamp⟩ commits at_ hfound hown) hmark
        hst)

theorem Accounted.step {s t : Overlap} {e : Event} (htrace : Trace s₀ es s)
    (h : Accounted s₀ es s) (hstep : Step s e t) (kept : ∀ run, e ≠ .abandoned run) :
    Accounted s₀ (es ++ [e]) t := by
  cases hstep with
  | set m as r v =>
    exact h.of_states (.set m as r v) (List.Subset.refl as) (m.setValue_states r v).states
  | reset m as r =>
    exact h.of_states (.reset m as r) (List.Subset.refl as) (m.reset_states r).states
  | touch m as r =>
    exact h.of_states (.touch m as r) (List.Subset.refl as) (m.touch_states r).states
  | start m as c r options =>
    exact h.of_states (.start m as c r options) (List.subset_append_left as _)
      (c.start_states m r options)
  | work pre post next => exact h.worked htrace (.work pre post next) (Active.effect next)
  | finish m pre post run o =>
    refine h.of_same (.finish m pre post run o) (fun a ha hne => ?_) fun path st hst _ => ?_
    · rcases mem_middle.1 ha with rfl | ha
      · exact absurd rfl hne
      · exact ha
    · exact ((Progress.finish_state?_eq_some ⟨run, m⟩).1 hst).1
  | fail m pre post run e =>
    refine h.of_same (.fail m pre post run e) (fun a ha hne => ?_) fun _ _ hst _ => hst
    rcases mem_middle.1 ha with rfl | ha
    · exact absurd rfl hne
    · exact ha
  | abandon m pre post a => exact absurd rfl (kept a.run)

theorem Accounted.trace {s : Overlap} (h : Accounted s₀ [] s₀) (htrace : Trace s₀ es s)
    (kept : ∀ run, .abandoned run ∉ es) : Accounted s₀ es s := by
  induction htrace with
  | nil => exact h
  | snoc htrace hstep ih =>
    refine (ih fun run hr => kept run (by simp [hr])).step htrace hstep fun run he => ?_
    exact kept run (by simp [he])

end

/-- No run has put anything back, and none that has returned keeps to dirty places. -/
structure Plain (es : List Event) : Prop where
  forward : ∀ n t, .worked n (.rolledBack t) ∉ es
  full : ∀ run valid, .returned run valid ∈ es → run.options.onlyDirtyRefs = false

theorem Plain.of_append {es fs : List Event} (h : Plain (es ++ fs)) : Plain es :=
  ⟨fun n t hm => h.forward n t (List.mem_append_left _ hm),
    fun run valid hm => h.full run valid (List.mem_append_left _ hm)⟩

/-- A record on cleared ground is newer than the run that cleared it, or bare, and a run at work
leaves nothing older than itself where it has been. So no result is dropped where the mark of its
own run still stands. -/
structure Clears (s : Overlap) : Prop where
  ground : ∀ path k st, s.model.records.superseded path k = true →
    s.model.state? path = some st → k < st.valLock ∨ st = {}
  visits : ∀ a ∈ s.underWay, a.run.options.onlyDirtyRefs = false → ∀ path,
    a.run.visited.contains path = true → s.model.records.superseded path a.run.ordinal = true ∨
      ∃ st, s.model.state? path = some st ∧ a.run.ordinal ≤ st.valLock

namespace Clears

theorem fresh (rule : Rule) (data : Tree) (config : ModelConfig) :
    Clears (fresh rule data config) where
  ground path k st h := by
    have hn : (Overlap.fresh rule data config).model.records.superseded path k = false := rfl
    rw [hn] at h
    cases h
  visits a ha := by cases ha

theorem of_states {m m' : Model} {as : List Active} (h : Clears ⟨m, as⟩)
    (hc : m'.records.superseded = m.records.superseded)
    (hs : ∀ q, m'.state? q = m.state? q ∨ m.state? q = none ∧ m'.state? q = some {}) :
    Clears ⟨m', as⟩ where
  ground path k st hsup hst := by
    simp only [hc] at hsup
    rcases hs path with he | ⟨-, he⟩
    · exact h.ground path k st hsup (he.symm.trans hst)
    · exact .inr (Option.some.inj (hst.symm.trans he))
  visits a ha hf path hv := by
    simp only [hc]
    rcases h.visits a ha hf path hv with hsup | ⟨st, hst, hle⟩
    · exact .inl hsup
    · rcases hs path with he | ⟨he, -⟩
      · exact .inr ⟨st, he.trans hst, hle⟩
      · simp only [he] at hst
        cases hst

theorem started {m : Model} {as : List Active} (h : Clears ⟨m, as⟩) (c : Call) (r : Route)
    (options : ValidateOptions) :
    Clears ⟨(c.start m r options).2, as ++ [(c.start m r options).1]⟩ := by
  have hs := h.of_states (c.start_superseded m r options) (c.start_states m r options)
  refine ⟨hs.ground, fun a ha hf path hv => ?_⟩
  rcases List.mem_append.1 ha with ha | ha
  · exact hs.visits a ha hf path hv
  · rw [List.mem_singleton.1 ha, c.start_visited] at hv
    simp at hv

theorem worked {m m' : Model} {pre post : List Active} {a a' : Active} {act : Act}
    (h : Clears ⟨m, pre ++ a :: post⟩) (hef : Active.Effect a m act a' m')
    (hnot : ∀ t, act ≠ .rolledBack t) : Clears ⟨m', pre ++ a' :: post⟩ where
  ground path k st hsup hst := by
    simp only [hef.kept.cleared] at hsup
    have hlt : m.records.superseded path a.run.ordinal = false → k < a.run.ordinal := by
      intro hopen
      rcases Nat.lt_or_ge k a.run.ordinal with hlt | hle
      · exact hlt
      · rw [Records.superseded_of_le hle hsup] at hopen
        cases hopen
    cases hef.change path with
    | same same => exact h.ground path k st hsup (same.symm.trans hst)
    | made _ after => exact .inr (Option.some.inj (hst.symm.trans after))
    | marked after _ _ open_ =>
      rw [Option.some.inj (hst.symm.trans after)]
      exact .inl (hlt open_)
    | settled after stamp _ _ open_ =>
      rw [Option.some.inj (hst.symm.trans after), stamp]
      exact .inl (hlt open_)
    | restored => exact absurd rfl (hnot _)
  visits b hb full path hv := by
    simp only [hef.kept.cleared]
    have hold : ∀ b ∈ pre ++ a :: post, b.run.options.onlyDirtyRefs = false →
        b.run.visited.contains path = true → m.records.superseded path b.run.ordinal = true ∨
          ∃ st, m'.state? path = some st ∧ b.run.ordinal ≤ st.valLock := by
      intro b hb full hv
      rcases h.visits b hb full path hv with hsup | ⟨st, hst, hle⟩
      · exact .inl hsup
      · obtain ⟨st', hst', hle'⟩ := hef.valLock_le hnot hst
        exact .inr ⟨st', hst', Nat.le_trans hle hle'⟩
    rcases mem_middle.1 hb with rfl | hb
    · rw [hef.options] at full
      rw [hef.ordinal]
      rcases (hef.visited_iff path).1 hv with hv | ⟨t, rfl, rfl⟩
      · exact hold a (by simp) full hv
      · cases hsup : m.records.superseded t.route.text a.run.ordinal with
        | true => exact .inl rfl
        | false => exact .inr (hef.entered_full full hsup).2
    · exact hold b (mem_middle.2 (.inr hb)) full hv

theorem dropped {m : Model} {pre post : List Active} {a : Active}
    (h : Clears ⟨m, pre ++ a :: post⟩) : Clears ⟨m, pre ++ post⟩ :=
  ⟨h.ground, fun b hb => h.visits b (mem_middle.2 (.inr hb))⟩

theorem finished {m : Model} {pre post : List Active} {run : Run} {o : Outcome}
    (hnum : Numbered ⟨m, pre ++ ⟨run, .done o, []⟩ :: post⟩)
    (h : Clears ⟨m, pre ++ ⟨run, .done o, []⟩ :: post⟩)
    (hf : run.options.onlyDirtyRefs = false) :
    Clears ⟨(Progress.finish ⟨run, m⟩).1, pre ++ post⟩ where
  ground path k st hsup hst := by
    obtain ⟨hst, hkeep⟩ := (Progress.finish_state?_eq_some ⟨run, m⟩).1 hst
    rcases (Progress.finish_superseded ⟨run, m⟩ path k).1 hsup with hsup | ⟨hlt, hcov⟩
    · exact h.ground path k st hsup hst
    · simp only at hlt hst hkeep
      rcases hkeep with hn | hv | hc
      · exact .inl (Nat.lt_trans hlt hn)
      · rcases h.visits ⟨run, .done o, []⟩ (by simp) hf path hv with hsup | ⟨st', hst', hle⟩
        · rcases h.ground path _ st hsup hst with hn | he
          · exact .inl (Nat.lt_trans hlt hn)
          · exact .inr he
        · rw [← Option.some.inj (hst.symm.trans hst')] at hle
          exact .inl (Nat.lt_of_lt_of_le hlt hle)
      · rw [hcov] at hc
        cases hc
  visits b hb hf' path hv := by
    have hne := hnum.ne_ordinal hb
    rcases h.visits b (mem_middle.2 (.inr hb)) hf' path hv with hsup | ⟨st, hst, hle⟩
    · exact .inl ((Progress.finish_superseded ⟨run, m⟩ path _).2 (.inl hsup))
    · by_cases hkeep : run.ordinal < st.valLock ∨ run.visited.contains path = true ∨
          (Progress.evictionScopes ⟨run, m⟩).any (Path.isAtOrUnder path) = false
      · exact .inr ⟨st, (Progress.finish_state?_eq_some ⟨run, m⟩).2 ⟨hst, hkeep⟩, hle⟩
      · -- the record goes, and with it the ground is cleared for run `b`
        simp only [not_or, Bool.not_eq_true, Bool.not_eq_false] at hkeep
        simp only at hne
        refine .inl ((Progress.finish_superseded ⟨run, m⟩ path _).2 (.inr ⟨?_, hkeep.2.2⟩))
        show b.run.ordinal < run.ordinal
        omega

theorem step {s t : Overlap} {e : Event} {es : List Event} (hnum : Numbered s) (h : Clears s)
    (hstep : Step s e t) (hplain : Plain (es ++ [e])) : Clears t := by
  cases hstep with
  | set m as r v => exact h.of_states (m.setValue_states r v).cleared (m.setValue_states r v).states
  | reset m as r => exact h.of_states (m.reset_states r).cleared (m.reset_states r).states
  | touch m as r => exact h.of_states (m.touch_states r).cleared (m.touch_states r).states
  | start m as c r options => exact h.started c r options
  | work pre post next =>
    rename_i m m' a a'
    refine h.worked (Active.effect next) fun t ht => hplain.forward a.run.ordinal t ?_
    rw [← ht]
    exact List.mem_append_right _ (List.mem_singleton.2 rfl)
  | finish m pre post run o =>
    exact h.finished hnum (hplain.full run _ (List.mem_append_right _ (List.mem_singleton.2 rfl)))
  | fail m pre post run e => exact h.dropped
  | abandon m pre post a => exact h.dropped

theorem trace {s t : Overlap} {es : List Event} (hnum : Numbered s) (h : Clears s)
    (htrace : Trace s es t) (hplain : Plain es) : Clears t := by
  induction htrace with
  | nil => exact h
  | snoc htrace hstep ih =>
    exact (ih hplain.of_append).step (hnum.trace htrace) hstep hplain

end Clears

/-- Among such runs no mark is ever stranded. -/
theorem Stranded.not_plain {s₀ s : Overlap} {path : String} {st : State} {es : List Event}
    (hnum : Numbered s₀) (hcl : Clears s₀) (h : Stranded s₀ path st es s) : ¬ Plain es := by
  intro hplain
  induction h with
  | left trace step leaves mark after =>
    have hc := hcl.trace hnum trace hplain.of_append
    cases leaves with
    | putBack => exact hplain.forward _ _ (List.mem_append_right _ (List.mem_singleton.2 rfl))
    | unheard before own _ _ cleared =>
      rcases hc.ground path _ st cleared before with hlt | he
      · omega
      · rw [he] at mark
        cases mark
  | stays stranded step after ih => exact ih hplain.of_append

/-- Some run is on its way out with an error, or has failed, or was dropped. -/
def SomeFailure (es : List Event) (s : Overlap) : Prop :=
  (∃ a ∈ s.underWay, a.failing = true) ∨ ∃ run, .abandoned run ∈ es ∨ ∃ e, .failed run e ∈ es

theorem SomeFailure.step {s t : Overlap} {es : List Event} {e : Event} (h : SomeFailure es s)
    (hstep : Step s e t) : SomeFailure (es ++ [e]) t := by
  rcases h with ⟨a, ha, hf⟩ | ⟨run, hr | ⟨err, hr⟩⟩
  · cases hstep with
    | set | reset | touch => exact .inl ⟨a, ha, hf⟩
    | start => exact .inl ⟨a, List.mem_append_left _ ha, hf⟩
    | work pre post next =>
      rename_i m m' b b'
      rcases mem_middle.1 ha with rfl | ha
      · exact .inl ⟨b', by simp, (Active.effect next).failing_of hf⟩
      · exact .inl ⟨a, mem_middle.2 (.inr ha), hf⟩
    | finish m pre post run o =>
      rcases mem_middle.1 ha with rfl | ha
      · cases hf
      · exact .inl ⟨a, ha, hf⟩
    | fail m pre post run err => exact .inr ⟨run, .inr ⟨err, by simp⟩⟩
    | abandon m pre post b => exact .inr ⟨b.run, .inl (by simp)⟩
  · exact .inr ⟨run, .inl (List.mem_append_left _ hr)⟩
  · exact .inr ⟨run, .inr ⟨err, List.mem_append_left _ hr⟩⟩

/-- Only a failure puts anything back. -/
theorem SomeFailure.of_rolledBack {s₀ s : Overlap} {es : List Event} (htrace : Trace s₀ es s)
    {n : Nat} {t : Ticket} (hm : .worked n (.rolledBack t) ∈ es) : SomeFailure es s := by
  induction htrace with
  | nil => cases hm
  | snoc _ hstep ih =>
    rcases List.mem_append.1 hm with hm | hm
    · exact (ih hm).step hstep
    · rw [← List.mem_singleton.1 hm] at hstep
      obtain ⟨m, m', pre, post, a, a', -, rfl, -, hef⟩ := hstep.of_worked
      cases hef with
      | rolledBack _ _ _ failing => exact .inl ⟨a', by simp, failing⟩

/-- **When a mark stays.** Where no run is under way, every run having returned or failed, the
record at a path is marked as validating exactly if the mark has been left behind and not been
touched since. That happens only by a failure that puts back another run's mark, or by a result that
is dropped on ground cleared by a newer run; and if no run has failed and none keeps to dirty
places, it does not happen. -/
theorem mark_iff_stranded {rule : Rule} {data : Tree} {config : ModelConfig} {es : List Event}
    {s : Overlap} (trace : Trace (fresh rule data config) es s)
    (kept : ∀ run, .abandoned run ∉ es) (idle : s.underWay = []) :
    (∀ path st, s.model.state? path = some st ∧ st.status = .validating ↔
      Stranded (fresh rule data config) path st es s) ∧
    ((∀ run e, .failed run e ∉ es) →
      (∀ run valid, .returned run valid ∈ es → run.options.onlyDirtyRefs = false) →
      ∀ path st, s.model.state? path = some st → st.status ≠ .validating) := by
  have hnum := Numbered.fresh rule data config
  have hacc : Accounted (fresh rule data config) es s := by
    refine Accounted.trace (fun path st hst => ?_) trace kept
    have hn : (fresh rule data config).model.state? path = none := rfl
    rw [hn] at hst
    cases hst
  have hstranded : ∀ path st, s.model.state? path = some st → st.status = .validating →
      Stranded (fresh rule data config) path st es s := by
    intro path st hst hmark
    rcases hacc path st hst hmark with ⟨a, ha, -⟩ | hs
    · rw [idle] at ha
      cases ha
    · exact hs
  refine ⟨fun path st => ⟨fun h => hstranded path st h.1 h.2, fun h => h.mark⟩, ?_⟩
  intro hfail hfull path st hst hmark
  refine (hstranded path st hst hmark).not_plain hnum (.fresh rule data config) ⟨?_, hfull⟩
  intro n t hm
  rcases SomeFailure.of_rolledBack trace hm with ⟨a, ha, -⟩ | ⟨run, hr | ⟨e, hr⟩⟩
  · rw [idle] at ha
    cases ha
  · exact kept run hr
  · exact hfail run e hr

/-- A schema whose keyword breaks off at the value `"boom"`. -/
def breakingSchema : Value := .object [("lookup", .string "unreachable")]

/-- The rule of `breakingSchema`. -/
def breakingRule : Rule :=
  .node "#" [.leaf (.annotations none [] {}),
    .custom "lookup" false [] fun _ _ _ route =>
      .read route fun
        | some (.string "boom") => .fail (.failed "lookup" route "unreachable")
        | _ => .done Outcome.pass] {} {}

theorem compile_breakingSchema :
    compile Extension.registry breakingSchema = .ok breakingRule := rfl

/-- Two runs at work in the root fail, first the older one, and then the newer one puts back the
older one's mark. -/
theorem failures_leave_mark :
    ∃ (es : List Event) (s : Overlap),
      Trace (fresh breakingRule (some (.string "boom")) {}) es s ∧
      (∀ run, .abandoned run ∉ es) ∧ s.underWay = [] ∧
      (s.model.state? "/").map State.status = some .validating := by
  refine ⟨_, _, .snoc (.snoc (.snoc (.snoc (.snoc (.snoc (.snoc (.snoc (.snoc (.snoc (.snoc
    (.snoc (.nil _) (.start _ _ .validate [] {})) (.start _ _ .validate [] {}))
    (.work [] [_] rfl)) (.work [_] [] rfl))
    (.work [] [_] rfl)) (.work [] [_] rfl)) (.work [] [_] rfl)) (.fail _ [] [_] _ _))
    (.work [] [] rfl)) (.work [] [] rfl)) (.work [] [] rfl)) (.fail _ [] [] _ _), ?_, ?_, ?_⟩
  · simp
  · rfl
  · rfl

/-- An older run is at work in the root while a newer one that keeps to dirty places returns and
clears the ground. -/
theorem clearing_leaves_mark :
    ∃ (es : List Event) (s : Overlap),
      Trace (fresh (.node "#" [.leaf (.annotations none [] {})] {} {}) none {}) es s ∧
      (∀ run, .abandoned run ∉ es) ∧ (∀ run e, .failed run e ∉ es) ∧ s.underWay = [] ∧
      (s.model.state? "/").map State.status = some .validating := by
  refine ⟨_, _, .snoc (.snoc (.snoc (.snoc (.snoc (.snoc (.snoc (.snoc (.snoc (.snoc (.nil _)
    (.start _ _ .validate [] {})) (.work [] [] rfl))
    (.start _ _ .validate [] { onlyDirtyRefs := true })) (.work [_] [] rfl)) (.work [_] [] rfl))
    (.work [_] [] rfl)) (.finish _ [_] [] _ _))
    (.work [] [] rfl)) (.work [] [] rfl)) (.finish _ [] [] _ _), ?_, ?_, ?_, ?_⟩
  · simp
  · simp
  · rfl
  · decide +kernel

theorem mark_stranded_by_failures :
    ∃ (es : List Event) (s : Overlap) (st : State), s.underWay = [] ∧
      Stranded (fresh breakingRule (some (.string "boom")) {}) "/" st es s := by
  obtain ⟨es, s, trace, kept, idle, hmark⟩ := failures_leave_mark
  obtain ⟨st, hst, hmark⟩ := Option.map_eq_some_iff.1 hmark
  exact ⟨es, s, st, idle, ((mark_iff_stranded trace kept idle).1 "/" st).1 ⟨hst, hmark⟩⟩

/-- That no mark stays where every run has returned or failed, whatever the schema is. -/
def MarksEnd (registry : Registry) (among : List Event → Prop) : Prop :=
  ∀ (schema : Value) (rule : Rule) (data : Tree) (config : ModelConfig) (es : List Event)
    (s : Overlap), compile registry schema = .ok rule → Trace (fresh rule data config) es s →
    (∀ run, .abandoned run ∉ es) → s.underWay = [] → among es →
    ∀ path st, s.model.state? path = some st → st.status ≠ .validating

/-- Marks stay, and not only where runs fail. -/
theorem marks_can_stay : ¬ MarksEnd Extension.registry (fun _ => True) ∧
    ¬ MarksEnd Registry.standard (fun es => ∀ run e, .failed run e ∉ es) := by
  constructor
  · intro h
    obtain ⟨es, s, trace, kept, idle, hmark⟩ := failures_leave_mark
    obtain ⟨st, hst, hmark⟩ := Option.map_eq_some_iff.1 hmark
    exact h breakingSchema _ _ _ es s compile_breakingSchema trace kept idle trivial "/" st hst
      hmark
  · intro h
    obtain ⟨es, s, trace, kept, sound, idle, hmark⟩ := clearing_leaves_mark
    obtain ⟨st, hst, hmark⟩ := Option.map_eq_some_iff.1 hmark
    exact h (.object []) _ _ _ es s rfl trace kept idle sound "/" st hst hmark

end Overlap

end Conform

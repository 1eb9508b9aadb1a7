import Conform.Proofs.Marks
import Conform.Proofs.Newest

/-!
# Stale writes

An older run must not write over what a newer one has written, nor bring back what a newer one has
cleared. The stamp of a record alone does not see to that: a roll-back puts back an older stamp, and
clearing leaves none. Main statement: a run changes a record only where no newer run has cleared the
ground, and where every newer run that had written there has put back an older state since.

A place is barred to a run if a newer run has cleared the ground or the record is newer than the
run. A run at work in a place bars it to all older runs, so that none of them writes there before it
has settled the place or put back what it found. `Guarded` is what this comes to for all visits
under way, and `Outlasts` what it comes to for one run that has written.
-/

namespace Conform

namespace Overlap

/-- A step of run `n` that is no roll-back leaves a record with the stamp of the run at a path. -/
inductive Stamps (v : Overlap) (n : Nat) (path : String) : Event → Prop where
  | mk {act : Act} {st : State} (forward : ∀ t, act ≠ .rolledBack t)
      (after : v.model.state? path = some st) (stamp : st.valLock = n) :
      Stamps v n path (.worked n act)

/-- A step from `u` to `v` is a roll-back of run `n` at a path whose record it owns, and puts an
older state back. -/
inductive PutsBack (u v : Overlap) (n : Nat) (path : String) : Event → Prop where
  | mk {t : Ticket} {st : State} (at_ : t.route.text = path)
      (before : u.model.state? path = some st) (stamp : st.valLock = n)
      (after : v.model.state? path = some t.previous) (older : t.previous.valLock < n) :
      PutsBack u v n path (.worked n (.rolledBack t))

/-- Run `n` has written at a path, and has not put an older state back since. -/
inductive Standing (s₀ : Overlap) (n : Nat) (path : String) : List Event → Overlap → Prop where
  | wrote {es : List Event} {e : Event} {u v : Overlap} (trace : Trace s₀ es u) (step : Step u e v)
      (stamps : Stamps v n path e) : Standing s₀ n path (es ++ [e]) v
  | stays {es : List Event} {e : Event} {u v : Overlap} (standing : Standing s₀ n path es u)
      (step : Step u e v) (kept : ¬ PutsBack u v n path e) : Standing s₀ n path (es ++ [e]) v

theorem Standing.trace {s₀ s : Overlap} {n : Nat} {path : String} {es : List Event}
    (h : Standing s₀ n path es s) : Trace s₀ es s := by
  induction h with
  | wrote trace step => exact trace.snoc step
  | stays _ step _ ih => exact ih.snoc step

/-- A run newer than `k` has cleared the ground at a path, or the record there is as new as `n`. -/
def Bars (m : Model) (path : String) (n k : Nat) : Prop :=
  m.records.superseded path k = true ∨ ∃ st, m.state? path = some st ∧ n ≤ st.valLock

/-- What a visit would put back at its place is as new as `n`, or a run newer than `k` has cleared
the ground. -/
def Recalls (m : Model) (t : Ticket) (n k : Nat) : Prop :=
  m.records.superseded t.route.text k = true ∨ n ≤ t.previous.valLock

section

variable {m m' : Model} {path : String} {n k : Nat}

theorem Bars.of_states (h : Bars m path n k)
    (hc : m'.records.superseded = m.records.superseded)
    (hs : ∀ q, m'.state? q = m.state? q ∨ m.state? q = none ∧ m'.state? q = some {}) :
    Bars m' path n k := by
  rcases h with hsup | ⟨st, hst, hle⟩
  · exact .inl (hc ▸ hsup)
  · rcases hs path with he | ⟨he, -⟩
    · exact .inr ⟨st, he.trans hst, hle⟩
    · rw [he] at hst
      cases hst

/-- A step of a run keeps a place barred, unless it puts an older state back. -/
theorem Bars.worked {a a' : Active} {act : Act} (h : Bars m path n k)
    (hef : Active.Effect a m act a' m')
    (back : ∀ t st, act = .rolledBack t → t ∈ a.tickets → t.commits = true →
      t.route.text = path → m.state? path = some st → st.valLock = a.run.ordinal →
      m'.state? path = some t.previous → n ≤ a.run.ordinal → Recalls m t n k) :
    Bars m' path n k := by
  rcases h with hsup | ⟨st, hst, hle⟩
  · exact .inl (hef.kept.cleared ▸ hsup)
  · cases hef.change path with
    | same same => exact .inr ⟨st, same.trans hst, hle⟩
    | made before =>
      rw [before] at hst
      cases hst
    | marked after found older =>
      rw [hst, Option.getD_some] at found
      exact .inr ⟨_, after, Nat.le_trans hle (found ▸ older)⟩
    | settled after stamp _ older =>
      rw [hst, Option.getD_some] at older
      exact .inr ⟨_, after, by omega⟩
    | restored before stamp after commits at_ mem =>
      rw [hst, Option.some.injEq] at before
      subst before
      rcases back _ _ rfl mem commits at_ hst stamp after (by omega) with hsup | hprev
      · rw [at_, ← hef.kept.cleared] at hsup
        exact .inl hsup
      · exact .inr ⟨_, after, hprev⟩

/-- So does the return of a run: a record that it removes is not newer than the run, which has
cleared the ground then. -/
theorem Bars.finished {run : Run} (h : Bars m path n k) (hk : n ≤ run.ordinal → k < run.ordinal) :
    Bars (Progress.finish ⟨run, m⟩).1 path n k := by
  rcases h with hsup | ⟨st, hst, hle⟩
  · exact .inl ((Progress.finish_superseded ⟨run, m⟩ path k).2 (.inl hsup))
  · by_cases hkeep : (Progress.finish ⟨run, m⟩).1.state? path = some st
    · exact .inr ⟨st, hkeep, hle⟩
    · obtain ⟨hold, hany, -⟩ := Progress.finish_removed ⟨run, m⟩ hst hkeep
      exact .inl ((Progress.finish_superseded ⟨run, m⟩ path k).2
        (.inr ⟨hk (Nat.le_trans hle hold), hany⟩))

theorem Recalls.of_cleared {t : Ticket} (h : Recalls m t n k)
    (hc : ∀ q k, m.records.superseded q k = true → m'.records.superseded q k = true) :
    Recalls m' t n k := h.imp_left (hc _ _)

theorem Recalls.mono {t : Ticket} {j : Nat} (h : Recalls m t n k) (hj : j ≤ k) :
    Recalls m t n j := h.imp_left (Records.superseded_of_le hj)

/-- A visit that begins in a barred place and commits there has found the bar. -/
theorem Bars.recalls {t : Ticket} (h : Bars m t.route.text n k)
    (found : t.previous = (m.state? t.route.text).getD {}) : Recalls m t n k := by
  rcases h with hsup | ⟨st, hst, hle⟩
  · exact .inl hsup
  · rw [hst, Option.getD_some] at found
    exact .inr (found ▸ hle)

end

/-- The run has marked the place of the visit, which is to commit there: what it has found is no
newer than the run. -/
def Marked (a : Active) (t : Ticket) : Prop :=
  t.commits = true ∧ t.previous.valLock ≤ a.run.ordinal

/-- A place that a run has marked and is at work in is barred to all older runs. A visit that was
begun there in the meantime, by the run itself or by a newer one, would put back nothing older. -/
structure Guarded (s : Overlap) : Prop where
  barred : ∀ a ∈ s.underWay, ∀ t ∈ a.tickets, Marked a t →
    Bars s.model t.route.text a.run.ordinal a.run.ordinal
  within : ∀ a ∈ s.underWay, a.tickets.Pairwise fun inner outer =>
    inner.commits = true → Marked a outer → inner.route.text = outer.route.text →
      Recalls s.model inner a.run.ordinal a.run.ordinal
  across : ∀ a ∈ s.underWay, ∀ b ∈ s.underWay, a.run.ordinal < b.run.ordinal →
    ∀ t ∈ a.tickets, ∀ u ∈ b.tickets, Marked a t → u.commits = true →
      u.route.text = t.route.text → Recalls s.model u a.run.ordinal a.run.ordinal

namespace Guarded

theorem fresh (rule : Rule) (data : Tree) (config : ModelConfig) :
    Guarded (fresh rule data config) where
  barred a ha := by cases ha
  within a ha := by cases ha
  across a ha := by cases ha

/-- A change of the model under the runs, of which some may be gone. -/
theorem of_bars {m m' : Model} {as as' : List Active} (h : Guarded ⟨m, as⟩)
    (hsub : ∀ a ∈ as', a.tickets ≠ [] → a ∈ as)
    (hc : ∀ q k, m.records.superseded q k = true → m'.records.superseded q k = true)
    (hb : ∀ a ∈ as', ∀ path, Bars m path a.run.ordinal a.run.ordinal →
      Bars m' path a.run.ordinal a.run.ordinal) : Guarded ⟨m', as'⟩ where
  barred a ha t ht hm := hb a ha _ (h.barred a (hsub a ha (List.ne_nil_of_mem ht)) t ht hm)
  within a ha := by
    by_cases hne : a.tickets = []
    · rw [hne]
      exact .nil
    · exact (h.within a (hsub a ha hne)).imp fun himp hi ho hp => (himp hi ho hp).of_cleared hc
  across a ha b hb' hlt t ht u hu hm hu' hp :=
    (h.across a (hsub a ha (List.ne_nil_of_mem ht)) b (hsub b hb' (List.ne_nil_of_mem hu)) hlt t ht
      u hu hm hu' hp).of_cleared hc

theorem of_states {m m' : Model} {as as' : List Active} (h : Guarded ⟨m, as⟩)
    (hsub : ∀ a ∈ as', a.tickets ≠ [] → a ∈ as)
    (hc : m'.records.superseded = m.records.superseded)
    (hs : ∀ q, m'.state? q = m.state? q ∨ m.state? q = none ∧ m'.state? q = some {}) :
    Guarded ⟨m', as'⟩ :=
  h.of_bars hsub (fun _ _ hsup => hc ▸ hsup) fun _ _ _ hbar => hbar.of_states hc hs

/-- Where the record is no newer than run `n`, a visit of a newer run under way has not marked the
place, since it would have barred it, and what it has found is newer still. -/
theorem recalls_of_older {s : Overlap} (h : Guarded s) {c : Active} (hc : c ∈ s.underWay)
    {u : Ticket} (hu : u ∈ c.tickets) (commits : u.commits = true) {n : Nat}
    (newer : n < c.run.ordinal) (older : ((s.model.state? u.route.text).getD {}).valLock ≤ n) :
    Recalls s.model u n n := by
  by_cases hold : u.previous.valLock ≤ c.run.ordinal
  · rcases h.barred c hc u hu ⟨commits, hold⟩ with hsup | ⟨st, hst, hle⟩
    · exact .inl (Records.superseded_of_le (Nat.le_of_lt newer) hsup)
    · rw [hst, Option.getD_some] at older
      omega
  · exact .inr (by omega)

section

variable {m m' : Model} {pre post : List Active} {a a' : Active} {act : Act}

/-- A place under way is a place under way before the step, or the one just begun. -/
theorem mem_tickets (hef : Active.Effect a m act a' m') {t : Ticket} (ht : t ∈ a'.tickets) :
    t ∈ a.tickets ∨ act = .entered t :=
  (hef.mem_tickets ht).imp_right And.left

/-- What a run puts back in a place that it or an older run has marked is no older than that. -/
theorem barred_worked (h : Guarded ⟨m, pre ++ a :: post⟩)
    (hnum : Numbered ⟨m, pre ++ a :: post⟩) (hef : Active.Effect a m act a' m') :
    ∀ b ∈ pre ++ a' :: post, ∀ t ∈ b.tickets, Marked b t →
      Bars m' t.route.text b.run.ordinal b.run.ordinal := by
  intro b hb t ht hm
  rcases mem_middle.1 hb with rfl | hb
  · have hord := hef.ordinal
    rw [hord]
    rw [Marked, hord] at hm
    rcases mem_tickets hef ht with ht' | rfl
    · refine (h.barred a (by simp) t ht' hm).worked hef ?_
      intro u st hact _ hu hp _ _ _ _
      -- the visit that breaks off was begun within the one that goes on
      cases hef with
      | rolledBack u' _ tickets =>
        cases hact
        have hpair := h.within a (by simp)
        rw [tickets, List.pairwise_cons] at hpair
        exact hpair.1 t ht hu hm hp
      | _ => cases hact
    · obtain ⟨-, -, hafter⟩ := hef.entered_found hm.1
      exact .inr ⟨_, hafter hm.2, Nat.le_refl _⟩
  · refine (h.barred b (mem_middle.2 (.inr hb)) t ht hm).worked hef ?_
    intro u st _ hu hcu hp _ _ _ hle
    have hne := hnum.ne_ordinal hb
    exact h.across b (mem_middle.2 (.inr hb)) a (by simp) (by omega) t ht u hu hm hcu hp

theorem within_worked (h : Guarded ⟨m, pre ++ a :: post⟩) (hef : Active.Effect a m act a' m') :
    a'.tickets.Pairwise fun inner outer =>
      inner.commits = true → Marked a' outer → inner.route.text = outer.route.text →
        Recalls m' inner a'.run.ordinal a'.run.ordinal := by
  have hpair : a.tickets.Pairwise fun inner outer => inner.commits = true → Marked a' outer →
      inner.route.text = outer.route.text → Recalls m' inner a'.run.ordinal a'.run.ordinal := by
    refine (h.within a (by simp)).imp fun himp hi ho hp => ?_
    rw [Marked, hef.ordinal] at ho
    rw [hef.ordinal]
    exact (himp hi ho hp).of_cleared fun q k hsup => hef.kept.cleared ▸ hsup
  cases hef with
  | quiet _ tickets => exact tickets ▸ hpair
  | entered t r d scope enter tickets sound =>
    have hef : Active.Effect a m (.entered t) a' m' := .entered t r d scope enter tickets sound
    rw [tickets, List.pairwise_cons]
    refine ⟨fun outer ho hc hm hp => ?_, hpair⟩
    rw [Marked, hef.ordinal] at hm
    have hbar := h.barred a (by simp) outer ho hm
    rw [← hp] at hbar
    rw [hef.ordinal]
    exact (hbar.recalls (hef.entered_found hc).2.1).of_cleared
      fun q k hsup => hef.kept.cleared ▸ hsup
  | settled t o settle tickets =>
    rw [tickets] at hpair
    exact hpair.of_cons
  | rolledBack t rollBack tickets =>
    rw [tickets] at hpair
    exact hpair.of_cons

theorem across_worked (h : Guarded ⟨m, pre ++ a :: post⟩) (hef : Active.Effect a m act a' m') :
    ∀ b ∈ pre ++ a' :: post, ∀ c ∈ pre ++ a' :: post, b.run.ordinal < c.run.ordinal →
      ∀ t ∈ b.tickets, ∀ u ∈ c.tickets, Marked b t → u.commits = true →
        u.route.text = t.route.text → Recalls m' u b.run.ordinal b.run.ordinal := by
  intro b hb c hc hlt t ht u hu hm hcu hp
  have hord := hef.ordinal
  have hother : ∀ d ∈ pre ++ post, d ∈ pre ++ a :: post := fun d hd => mem_middle.2 (.inr hd)
  refine Recalls.of_cleared (m := m) ?_ fun q k hsup => hef.kept.cleared ▸ hsup
  rcases mem_middle.1 hb with rfl | hb'
  · rcases mem_middle.1 hc with rfl | hc'
    · exact absurd hlt (Nat.lt_irrefl _)
    · have hc' := hother c hc'
      rw [hord] at hlt ⊢
      rw [Marked, hord] at hm
      rcases mem_tickets hef ht with ht | rfl
      · exact h.across a (by simp) c hc' hlt t ht u hu hm hcu hp
      · have hfound := (hef.entered_found hm.1).2.1
        exact h.recalls_of_older hc' hu hcu hlt (by rw [hp, ← hfound]; exact hm.2)
  · have hb' := hother b hb'
    rcases mem_middle.1 hc with rfl | hc'
    · rw [hord] at hlt
      rcases mem_tickets hef hu with hu | rfl
      · exact h.across b hb' a (by simp) hlt t ht u hu hm hcu hp
      · have hbar := h.barred b hb' t ht hm
        rw [← hp] at hbar
        exact hbar.recalls (hef.entered_found hcu).2.1
    · exact h.across b hb' c (hother c hc') hlt t ht u hu hm hcu hp

theorem worked (h : Guarded ⟨m, pre ++ a :: post⟩) (hnum : Numbered ⟨m, pre ++ a :: post⟩)
    (hef : Active.Effect a m act a' m') : Guarded ⟨m', pre ++ a' :: post⟩ where
  barred := h.barred_worked hnum hef
  within b hb := by
    rcases mem_middle.1 hb with rfl | hb
    · exact h.within_worked hef
    · exact (h.within b (mem_middle.2 (.inr hb))).imp fun himp hi ho hp =>
        (himp hi ho hp).of_cleared fun q k hsup => hef.kept.cleared ▸ hsup
  across := h.across_worked hef

end

theorem step {s t : Overlap} {e : Event} (h : Guarded s) (hnum : Numbered s)
    (hstep : Step s e t) : Guarded t := by
  cases hstep with
  | set m as r v =>
    have hm := m.setValue_states r v
    exact h.of_states (fun a ha _ => ha) hm.cleared hm.states
  | reset m as r =>
    exact h.of_states (fun a ha _ => ha) (m.reset_states r).cleared (m.reset_states r).states
  | touch m as r =>
    exact h.of_states (fun a ha _ => ha) (m.touch_states r).cleared (m.touch_states r).states
  | start m as c r options =>
    refine h.of_states (fun a ha hne => ?_) (c.start_superseded m r options)
      (c.start_states m r options)
    refine (List.mem_append.1 ha).resolve_right fun hnew => hne ?_
    rw [List.mem_singleton.1 hnew, c.start_tickets]
  | work pre post next => exact h.worked hnum (Active.effect next)
  | finish m pre post run o =>
    refine h.of_bars (fun a ha _ => mem_middle.2 (.inr ha)) (fun q k hsup => ?_)
      fun a ha path hbar => hbar.finished fun hle => ?_
    · exact (Progress.finish_superseded ⟨run, m⟩ q k).2 (.inl hsup)
    · exact Nat.lt_of_le_of_ne hle (hnum.ne_ordinal ha)
  | fail m pre post run e =>
    exact h.of_bars (fun a ha _ => mem_middle.2 (.inr ha)) (fun _ _ hsup => hsup)
      fun _ _ _ hbar => hbar
  | abandon m pre post a =>
    exact h.of_bars (fun a ha _ => mem_middle.2 (.inr ha)) (fun _ _ hsup => hsup)
      fun _ _ _ hbar => hbar

theorem trace {s t : Overlap} {es : List Event} (h : Guarded s) (hnum : Numbered s)
    (htrace : Trace s es t) : Guarded t := by
  induction htrace with
  | nil => exact h
  | snoc htrace hstep ih => exact ih.step (hnum.trace htrace) hstep

end Guarded

/-- The place in which run `n` has written is barred to all older runs, and no visit of a newer run
would put back anything older. -/
structure Outlasts (s : Overlap) (n : Nat) (path : String) : Prop where
  barred : ∀ k < n, Bars s.model path n k
  recalled : ∀ a ∈ s.underWay, n < a.run.ordinal → ∀ t ∈ a.tickets, t.commits = true →
    t.route.text = path → ∀ k < n, Recalls s.model t n k

namespace Outlasts

variable {n : Nat} {path : String}

theorem of_bars {m m' : Model} {as as' : List Active} (h : Outlasts ⟨m, as⟩ n path)
    (hsub : ∀ a ∈ as', a.tickets ≠ [] → a ∈ as)
    (hc : ∀ q k, m.records.superseded q k = true → m'.records.superseded q k = true)
    (hb : ∀ k < n, Bars m path n k → Bars m' path n k) : Outlasts ⟨m', as'⟩ n path where
  barred k hk := hb k hk (h.barred k hk)
  recalled a ha hlt t ht hcommits hp k hk :=
    (h.recalled a (hsub a ha (List.ne_nil_of_mem ht)) hlt t ht hcommits hp k hk).of_cleared hc

theorem of_states {m m' : Model} {as as' : List Active} (h : Outlasts ⟨m, as⟩ n path)
    (hsub : ∀ a ∈ as', a.tickets ≠ [] → a ∈ as)
    (hc : m'.records.superseded = m.records.superseded)
    (hs : ∀ q, m'.state? q = m.state? q ∨ m.state? q = none ∧ m'.state? q = some {}) :
    Outlasts ⟨m', as'⟩ n path :=
  h.of_bars hsub (fun _ _ hsup => hc ▸ hsup) fun _ _ hbar => hbar.of_states hc hs

/-- Once a run has written in a place, no visit of a newer run under way there goes back further: a
newer run that had marked the place would have kept the older one from writing. -/
theorem of_stamps {u v : Overlap} {e : Event} (hnum : Numbered u) (hg : Guarded u)
    (hstep : Step u e v) (hs : Stamps v n path e) : Outlasts v n path := by
  obtain ⟨forward, after, stamp⟩ := hs
  obtain ⟨m, m', pre, post, a, a', rfl, rfl, hn, hef⟩ := hstep.of_worked
  have older : ((m.state? path).getD {}).valLock ≤ n := by
    refine Model.valLock_le_of_record fun st hst => Nat.not_lt.1 fun hlt => ?_
    have hst' := (hef.state?_of_newer hst (hn.symm ▸ hlt)).symm.trans after
    rw [Option.some.inj hst', stamp] at hlt
    exact Nat.lt_irrefl _ hlt
  refine ⟨fun k hk => .inr ⟨_, after, Nat.le_of_eq stamp.symm⟩, ?_⟩
  intro b hb hlt t ht hcommits hp k hk
  rcases mem_middle.1 hb with rfl | hb
  · rw [hef.ordinal] at hlt
    omega
  · have hr := hg.recalls_of_older (mem_middle.2 (.inr hb)) ht hcommits hlt (by rwa [hp])
    exact (hr.mono (Nat.le_of_lt hk)).of_cleared fun q k hsup => hef.kept.cleared ▸ hsup

theorem worked {m m' : Model} {pre post : List Active} {a a' : Active} {act : Act}
    (h : Outlasts ⟨m, pre ++ a :: post⟩ n path) (hef : Active.Effect a m act a' m')
    (kept : ¬ PutsBack ⟨m, pre ++ a :: post⟩ ⟨m', pre ++ a' :: post⟩ n path
      (.worked a.run.ordinal act)) : Outlasts ⟨m', pre ++ a' :: post⟩ n path where
  barred k hk := by
    refine (h.barred k hk).worked hef ?_
    intro t st hact ht hcommits hp hst hstamp hafter hle
    rcases Nat.lt_or_eq_of_le hle with hlt | heq
    · exact h.recalled a (by simp) hlt t ht hcommits hp k hk
    · subst hact heq
      exact .inr (Nat.not_lt.1 fun hold => kept (.mk hp hst hstamp hafter hold))
  recalled b hb hlt t ht hcommits hp k hk := by
    have hkept : ∀ q k, m.records.superseded q k = true → m'.records.superseded q k = true :=
      fun q k hsup => hef.kept.cleared ▸ hsup
    refine Recalls.of_cleared (m := m) ?_ hkept
    rcases mem_middle.1 hb with rfl | hb
    · rw [hef.ordinal] at hlt
      rcases Guarded.mem_tickets hef ht with ht | rfl
      · exact h.recalled a (by simp) hlt t ht hcommits hp k hk
      · have hbar := h.barred k hk
        rw [← hp] at hbar
        exact hbar.recalls (hef.entered_found hcommits).2.1
    · exact h.recalled b (mem_middle.2 (.inr hb)) hlt t ht hcommits hp k hk

theorem step {s t : Overlap} {e : Event} (h : Outlasts s n path) (hstep : Step s e t)
    (kept : ¬ PutsBack s t n path e) : Outlasts t n path := by
  cases hstep with
  | set m as r v =>
    have hm := m.setValue_states r v
    exact h.of_states (fun a ha _ => ha) hm.cleared hm.states
  | reset m as r =>
    exact h.of_states (fun a ha _ => ha) (m.reset_states r).cleared (m.reset_states r).states
  | touch m as r =>
    exact h.of_states (fun a ha _ => ha) (m.touch_states r).cleared (m.touch_states r).states
  | start m as c r options =>
    refine h.of_states (fun a ha hne => ?_) (c.start_superseded m r options)
      (c.start_states m r options)
    refine (List.mem_append.1 ha).resolve_right fun hnew => hne ?_
    rw [List.mem_singleton.1 hnew, c.start_tickets]
  | work pre post next => exact h.worked (Active.effect next) kept
  | finish m pre post run o =>
    refine h.of_bars (fun a ha _ => mem_middle.2 (.inr ha)) (fun q k hsup => ?_)
      fun k hk hbar => hbar.finished fun hle => Nat.lt_of_lt_of_le hk hle
    exact (Progress.finish_superseded ⟨run, m⟩ q k).2 (.inl hsup)
  | fail m pre post run e =>
    exact h.of_bars (fun a ha _ => mem_middle.2 (.inr ha)) (fun _ _ hsup => hsup)
      fun _ _ hbar => hbar
  | abandon m pre post a =>
    exact h.of_bars (fun a ha _ => mem_middle.2 (.inr ha)) (fun _ _ hsup => hsup)
      fun _ _ hbar => hbar

end Outlasts

/-- A run that stands in a place bars it to all older runs. -/
theorem Standing.outlasts {s₀ s : Overlap} {n : Nat} {path : String} {es : List Event}
    (hnum : Numbered s₀) (hg : Guarded s₀) (h : Standing s₀ n path es s) : Outlasts s n path := by
  induction h with
  | wrote trace step stamps =>
    exact .of_stamps (hnum.trace trace) (hg.trace hnum trace) step stamps
  | stays _ step kept ih => exact ih.step step kept

/-- Ground that has been cleared stays cleared. -/
theorem Step.superseded {s t : Overlap} {e : Event} (h : Step s e t) {path : String} {k : Nat}
    (hsup : s.model.records.superseded path k = true) :
    t.model.records.superseded path k = true := by
  cases h with
  | set m as r v => exact (m.setValue_states r v).cleared ▸ hsup
  | reset m as r => exact (m.reset_states r).cleared ▸ hsup
  | touch m as r => exact (m.touch_states r).cleared ▸ hsup
  | start m as c r options => exact c.start_superseded m r options ▸ hsup
  | work pre post next => exact (Active.effect next).kept.cleared ▸ hsup
  | finish m pre post run o => exact (Progress.finish_superseded ⟨run, m⟩ path k).2 (.inl hsup)
  | fail => exact hsup
  | abandon => exact hsup

/-- A run that has returned has cleared its scopes for all older runs. -/
theorem Trace.superseded_of_returned {s t : Overlap} {es : List Event} (h : Trace s es t)
    {run : Run} {valid : Bool} (hr : .returned run valid ∈ es) {path : String}
    (hc : run.covers path = true) {k : Nat} (hk : k < run.ordinal) :
    t.model.records.superseded path k = true := by
  induction h with
  | nil => cases hr
  | snoc _ hstep ih =>
    rcases List.mem_append.1 hr with hr | hr
    · exact hstep.superseded (ih hr)
    · rw [← List.mem_singleton.1 hr] at hstep
      cases hstep with
      | finish m pre post run o =>
        exact (Progress.finish_superseded ⟨run, m⟩ path k).2 (.inr ⟨hk, hc⟩)

/-- A run that changes a record is heard: the ground is not cleared by a newer run, and the record
was not newer. -/
theorem Stamps.heard {s t : Overlap} {e : Event} {k : Nat} {path : String} (hnum : Numbered s)
    (hstep : Step s e t) (h : Stamps t k path e)
    (changed : t.model.state? path ≠ s.model.state? path) :
    s.model.records.superseded path k = false ∧
      ((s.model.state? path).getD {}).valLock ≤ k := by
  obtain ⟨forward, after, stamp⟩ := h
  obtain ⟨m, m', pre, post, a, a', rfl, rfl, hn, hef⟩ := hstep.of_worked
  subst hn
  cases hef.change path with
  | same same => exact absurd same changed
  | made _ made =>
    have hpos := hnum.ordinal_pos a (by simp)
    rw [show _ = ({} : State) from Option.some.inj (after.symm.trans made)] at stamp
    exact absurd stamp (Nat.ne_of_lt hpos)
  | marked _ found older open_ => exact ⟨open_, found ▸ older⟩
  | settled _ _ _ older open_ => exact ⟨open_, older⟩
  | restored => exact absurd rfl (forward _)

/-- The stamp of a record falls only by a roll-back of the run that it names, or with the record
when a run returns that is at least as new. -/
theorem Step.stamp_falls {s t : Overlap} {e : Event} (h : Step s e t) {path : String} {st : State}
    (hst : s.model.state? path = some st) :
    (∃ st', t.model.state? path = some st' ∧ st.valLock ≤ st'.valLock) ∨
      (∃ tk, e = .worked st.valLock (.rolledBack tk) ∧ tk.route.text = path) ∨
      ∃ run valid, e = .returned run valid ∧ st.valLock ≤ run.ordinal ∧ run.covers path = true ∧
        t.model.state? path = none := by
  have hstates : ∀ {m' : Model} {as' : List Active}, (∀ q, m'.state? q = s.model.state? q ∨
      s.model.state? q = none ∧ m'.state? q = some {}) →
      ∃ st', (Overlap.mk m' as').model.state? path = some st' ∧ st.valLock ≤ st'.valLock := by
    intro m' as' hs
    rcases hs path with he | ⟨he, -⟩
    · exact ⟨st, he.trans hst, Nat.le_refl _⟩
    · rw [he] at hst
      cases hst
  cases h with
  | set m as r v => exact .inl (hstates (m.setValue_states r v).states)
  | reset m as r => exact .inl (hstates (m.reset_states r).states)
  | touch m as r => exact .inl (hstates (m.touch_states r).states)
  | start m as c r options => exact .inl (hstates (c.start_states m r options))
  | work pre post next =>
    rename_i m m' a a'
    have hef := Active.effect next
    generalize a.act m = act at hef
    cases hef.change path with
    | restored before stamp _ _ at_ =>
      rw [hst, Option.some.injEq] at before
      subst before
      exact .inr (.inl ⟨_, by rw [stamp], at_⟩)
    | same same => exact .inl ⟨st, same.trans hst, Nat.le_refl _⟩
    | made => exact .inl (hef.valLock_le (by simp) hst)
    | marked => exact .inl (hef.valLock_le (by simp) hst)
    | settled => exact .inl (hef.valLock_le (by simp) hst)
  | finish m pre post run o =>
    by_cases hkeep : (Progress.finish ⟨run, m⟩).1.state? path = some st
    · exact .inl ⟨st, hkeep, Nat.le_refl _⟩
    · obtain ⟨hold, hany, hgone⟩ := Progress.finish_removed ⟨run, m⟩ hst hkeep
      exact .inr (.inr ⟨run, _, rfl, hold, hany, hgone⟩)
  | fail => exact .inl ⟨st, hst, Nat.le_refl _⟩
  | abandon => exact .inl ⟨st, hst, Nat.le_refl _⟩

/-- **No stale write lands.** A step of a run that is no roll-back changes the record of a path to
one with the run's stamp only if every run that has returned and covers the path, and every run that
has written there and not put an older state back since, is no newer. The stamp of a record falls
only by a roll-back of the run that it names, or with the record when a run that covers the path and
is at least as new returns. -/
theorem no_stale_write {rule : Rule} {data : Tree} {config : ModelConfig} {hist : List Event}
    {s t : Overlap} {e : Event} (before : Trace (fresh rule data config) hist s)
    (step : Step s e t) (path : String) :
    (∀ k, Stamps t k path e → t.model.state? path ≠ s.model.state? path →
      (∀ run valid, .returned run valid ∈ hist → run.covers path = true → run.ordinal ≤ k) ∧
      ∀ j, Standing (fresh rule data config) j path hist s → j ≤ k) ∧
    ∀ st, s.model.state? path = some st →
      (∃ st', t.model.state? path = some st' ∧ st.valLock ≤ st'.valLock) ∨
      (∃ tk, e = .worked st.valLock (.rolledBack tk) ∧ tk.route.text = path) ∨
      ∃ run valid, e = .returned run valid ∧ st.valLock ≤ run.ordinal ∧ run.covers path = true ∧
        t.model.state? path = none := by
  have hnum := Numbered.fresh rule data config
  refine ⟨fun k hs changed => ?_, fun st hst => step.stamp_falls hst⟩
  obtain ⟨hopen, hold⟩ := hs.heard (hnum.trace before) step changed
  refine ⟨fun run valid hr hc => ?_, fun j hj => ?_⟩
  · refine Nat.not_lt.1 fun hlt => ?_
    rw [before.superseded_of_returned hr hc hlt] at hopen
    cases hopen
  · refine Nat.not_lt.1 fun hlt => ?_
    rcases (hj.outlasts hnum (.fresh rule data config)).barred k hlt with hsup | ⟨st, hst, hle⟩
    · rw [hsup] at hopen
      cases hopen
    · rw [hst, Option.getD_some] at hold
      omega

/-- Two runs at work in the root, of which the newer fails and puts back the older one's mark. The
value is mended, and the older run settles the root after all. -/
theorem no_stale_write_after_failure :
    ∃ (hist : List Event) (s t : Overlap) (e : Event),
      Trace (fresh breakingRule (some (.string "boom")) {}) hist s ∧ Step s e t ∧
      Stamps t 1 "/" e ∧ (∃ tk, .worked 2 (.rolledBack tk) ∈ hist) ∧
      ¬ Standing (fresh breakingRule (some (.string "boom")) {}) 2 "/" hist s := by
  have trace : ∃ (hist : List Event) (s t : Overlap) (e : Event),
      Trace (fresh breakingRule (some (.string "boom")) {}) hist s ∧ Step s e t ∧
      Stamps t 1 "/" e ∧ (∃ tk, .worked 2 (.rolledBack tk) ∈ hist) ∧
      (s.model.state? "/").map State.status = some .validating ∧
      (t.model.state? "/").map State.status = some .success := by
    refine ⟨_, _, _, _, .snoc (.snoc (.snoc (.snoc (.snoc (.snoc (.snoc (.snoc (.snoc (.snoc
      (.snoc (.nil _) (.start _ _ .validate [] {})) (.start _ _ .validate [] {}))
      (.work [] [_] rfl)) (.work [_] [] rfl))
      (.work [_] [] rfl)) (.work [_] [] rfl)) (.work [_] [] rfl)) (.fail _ [_] [] _ _))
      (.set _ _ [] none)) (.work [] [] rfl)) (.work [] [] rfl), .work [] [] rfl,
      .mk (fun _ h => nomatch h) rfl rfl, ?_, ?_, ?_⟩
    · exact ⟨_, List.mem_append_left _ (List.mem_append_left _ (List.mem_append_left _
        (List.mem_append_left _ (List.mem_append_right _ (List.mem_singleton.2 rfl)))))⟩
    · rfl
    · rfl
  obtain ⟨hist, s, t, e, before, step, stamps, back, marked, settled⟩ := trace
  have changed : t.model.state? "/" ≠ s.model.state? "/" := by
    intro he
    rw [he, marked] at settled
    cases settled
  have h := ((no_stale_write before step "/").1 1 stamps changed).2
  exact ⟨hist, s, t, e, before, step, stamps, back, fun hs => absurd (h 2 hs) (by decide)⟩

end Overlap

end Conform

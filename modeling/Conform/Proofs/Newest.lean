import Conform.Proofs.Overlap

/-!
# The newest run wins

Once a run that commits wherever it goes has returned, and as long as no newer run has started, the
records under its scopes are what it left there: older runs that are still at work and the use of
references change none of its states and add none.

While such a run is the newest, every place it has visited holds the state it last settled there,
unless it is still at work in the place. When it returns, it is at work nowhere, it removes what it
has not visited, and it clears the ground for all older runs.
-/

namespace Conform

/-- Whether a path lies under what the run removes records from when it returns. -/
def Run.covers (r : Run) (path : String) : Bool :=
  (if r.fromRoot then [Route.root.text] else r.scopes.map Route.text).any (Path.isAtOrUnder path)

theorem Run.covers_root {r : Run} (h : r.fromRoot = true) (path : String) :
    r.covers path = true := by
  rw [covers, if_pos h, List.any_cons, Route.text_root, Path.isAtOrUnder_root, Bool.true_or]

namespace Overlap

/-- The record at a path holds what run `n` settled there last. -/
def Held (hist : List Event) (m : Model) (n : Nat) (path : String) : Prop :=
  ∃ st, m.state? path = some st ∧ st.valLock = n ∧ lastSettled hist n path = some st

theorem Held.of_same {hist hist' : List Event} {m m' : Model} {n : Nat} {path : String}
    (h : Held hist m n path) (hl : lastSettled hist' n path = lastSettled hist n path)
    (hs : ∀ st, m.state? path = some st → st.valLock = n → m'.state? path = some st) :
    Held hist' m' n path := by
  obtain ⟨st, hst, hn, hlast⟩ := h
  exact ⟨st, hs st hst hn, hn, hl.trans hlast⟩

/-- A run that has not failed commits wherever it goes, and each place it has visited holds its
state or is one it is still at work in. -/
def Holds (hist : List Event) (m : Model) (a : Active) : Prop :=
  a.failing = true ∨ (∀ t ∈ a.tickets, t.commits = true) ∧
    ∀ path, a.run.visited.contains path = true →
      Held hist m a.run.ordinal path ∨ ∃ t ∈ a.tickets, t.route.text = path

theorem Holds.of_same {hist : List Event} {e : Event} {m m' : Model} {a : Active}
    (h : Holds hist m a) (he : ∀ path, e.settled? a.run.ordinal path = none)
    (hs : ∀ path st, m.state? path = some st → st.valLock = a.run.ordinal →
      m'.state? path = some st) : Holds (hist ++ [e]) m' a := by
  rcases h with hf | ⟨hc, hv⟩
  · exact .inl hf
  · refine .inr ⟨hc, fun path hp => ?_⟩
    rcases hv path hp with hh | ht
    · exact .inl (hh.of_same (lastSettled_concat_none hist _ path (he path)) (hs path))
    · exact .inr ht

section

variable {hist : List Event} {m m' : Model} {a a' : Active}

/-- What has been settled and is not touched is still held. -/
theorem Held.elsewhere {path : String} {act : Act} (h : Held hist m a.run.ordinal path)
    (hef : Active.Effect a m act a' m') (hne : ∀ t ∈ act.ticket?, t.route.text ≠ path) :
    Held (hist ++ [.worked a.run.ordinal act]) m' a.run.ordinal path := by
  refine h.of_same (lastSettled_concat_none hist _ path ?_) fun st hst _ => ?_
  · cases act with
    | settled t o s => simp [Event.settled?, hne t rfl]
    | _ => rfl
  · exact (hef.state?_elsewhere hne).trans hst

theorem Holds.entered {t : Ticket} (h : Holds hist m a) (full : a.run.options.onlyDirtyRefs = false)
    (open_ : ∀ q, m.records.superseded q a.run.ordinal = false)
    (hef : Active.Effect a m (.entered t) a' m') :
    Holds (hist ++ [.worked a.run.ordinal (.entered t)]) m' a' := by
  have hcommits := (hef.entered_full full (open_ _)).1
  have htickets : a.failing = false ∧ a'.tickets = t :: a.tickets := by
    cases hef with
    | entered _ _ _ _ _ tickets sound => exact ⟨sound, tickets⟩
  rcases h with hf | ⟨hc, hv⟩
  · rw [htickets.1] at hf
    cases hf
  · right
    rw [htickets.2, hef.ordinal]
    refine ⟨?_, fun path hp => ?_⟩
    · intro t' ht'
      rcases List.mem_cons.1 ht' with rfl | ht'
      · exact hcommits
      · exact hc t' ht'
    · by_cases hr : t.route.text = path
      · exact .inr ⟨t, List.mem_cons_self, hr⟩
      · have hp : a.run.visited.contains path = true := by
          refine ((hef.visited_iff path).1 hp).resolve_right ?_
          rintro ⟨t', ht', hr'⟩
          cases ht'
          exact hr hr'
        rcases hv path hp with hp | ⟨t', ht', hr'⟩
        · refine .inl (hp.elsewhere hef fun t' ht' => ?_)
          cases ht'
          exact hr
        · exact .inr ⟨t', List.mem_cons_of_mem _ ht', hr'⟩

theorem Holds.settled {t : Ticket} {o : Outcome} {s : State} (h : Holds hist m a)
    (may : ∀ q, m.mayCommit q a.run.ordinal = true)
    (hef : Active.Effect a m (.settled t o s) a' m') :
    Holds (hist ++ [.worked a.run.ordinal (.settled t o s)]) m' a' := by
  have htickets : a.failing = false ∧ a.tickets = t :: a'.tickets ∧ s.valLock = a.run.ordinal := by
    cases hef with
    | settled _ _ _ tickets sound => exact ⟨sound, tickets, rfl⟩
  rcases h with hf | ⟨hc, hv⟩
  · rw [htickets.1] at hf
    cases hf
  · rw [htickets.2.1] at hc hv
    right
    rw [hef.ordinal]
    refine ⟨fun t' ht' => hc t' (List.mem_cons_of_mem _ ht'), fun path hp => ?_⟩
    by_cases hr : t.route.text = path
    · subst hr
      have hst := hef.settled_state? (hc t List.mem_cons_self) (may _)
      exact .inl ⟨s, hst, htickets.2.2, lastSettled_concat_settled hist a.run.ordinal t o s⟩
    · have hp : a.run.visited.contains path = true :=
        ((hef.visited_iff path).1 hp).resolve_right fun ⟨_, ht', _⟩ => by cases ht'
      rcases hv path hp with hp | ⟨t', ht', hr'⟩
      · refine .inl (hp.elsewhere hef fun t' ht' => ?_)
        cases ht'
        exact hr
      · rcases List.mem_cons.1 ht' with rfl | ht'
        · exact absurd hr' hr
        · exact .inr ⟨t', ht', hr'⟩

/-- The newest run keeps hold of its places in each step of its own. -/
theorem Holds.worked {pre post : List Active} {act : Act}
    (hnum : Numbered ⟨m, pre ++ a :: post⟩) (hnew : a.run.ordinal = m.runs)
    (full : a.run.options.onlyDirtyRefs = false) (h : Holds hist m a)
    (hef : Active.Effect a m act a' m') :
    Holds (hist ++ [.worked a.run.ordinal act]) m' a' := by
  have hopen : ∀ q, m.records.superseded q a.run.ordinal = false := by
    intro q
    rw [hnew]
    exact hnum.open_ q
  have hmay : ∀ q, m.mayCommit q a.run.ordinal = true := by
    intro q
    rw [m.mayCommit_iff, hnew]
    exact ⟨hnew ▸ hopen q, Model.valLock_le_of_record (hnum.stamp_le q)⟩
  cases act with
  | entered t => exact h.entered full hopen hef
  | settled t o s => exact h.settled hmay hef
  | rolledBack t =>
    cases hef with
    | rolledBack _ _ _ failing => exact .inl failing
  | quiet =>
    rcases h with hf | ⟨hc, hv⟩
    · exact .inl (hef.failing_of hf)
    · have htickets : a'.tickets = a.tickets := by
        cases hef with
        | quiet _ tickets => exact tickets
      right
      rw [htickets, hef.ordinal]
      refine ⟨hc, fun path hp => ?_⟩
      have hp : a.run.visited.contains path = true :=
        ((hef.visited_iff path).1 hp).resolve_right fun ⟨_, ht, _⟩ => by cases ht
      rcases hv path hp with hp | ht
      · exact .inl (hp.elsewhere hef fun t ht => by cases ht)
      · exact .inr ht

end

/-- The newest run, as long as it is at work, holds its places. -/
def NewestHolds (hist : List Event) (s : Overlap) : Prop :=
  ∀ a ∈ s.underWay, a.run.ordinal = s.model.runs → a.run.options.onlyDirtyRefs = false →
    Holds hist s.model a

theorem NewestHolds.of_states {hist : List Event} {m m' : Model} {as : List Active}
    (h : NewestHolds hist ⟨m, as⟩) (hs : m.SameStates m') :
    NewestHolds (hist ++ [.referenced]) ⟨m', as⟩ := by
  intro a ha hn hf
  refine (h a ha (hn.trans hs.runs) hf).of_same (fun _ => rfl) fun path st hst _ => ?_
  rcases hs.states path with he | ⟨he, -⟩
  · exact he.trans hst
  · rw [he] at hst
    cases hst

theorem NewestHolds.step {hist : List Event} {s t : Overlap} {e : Event} (hnum : Numbered s)
    (h : NewestHolds hist s) (hstep : Step s e t) : NewestHolds (hist ++ [e]) t := by
  cases hstep with
  | set m as r v => exact h.of_states (m.setValue_states r v)
  | reset m as r => exact h.of_states (m.reset_states r)
  | touch m as r => exact h.of_states (m.touch_states r)
  | start m as c r options =>
    intro a ha hn hf
    simp only [c.start_runs] at hn
    rcases List.mem_append.1 ha with ha | ha
    · have hle := hnum.ordinal_le a ha
      simp only at hle
      omega
    · rw [List.mem_singleton.1 ha]
      refine .inr ⟨by simp, fun path hp => ?_⟩
      rw [c.start_visited] at hp
      simp at hp
  | work pre post next =>
    rename_i m m' a a'
    have hef := Active.effect next
    intro b hb hn hf
    simp only [hef.kept.runs] at hn
    rcases mem_middle.1 hb with rfl | hb
    · rw [hef.ordinal] at hn
      rw [hef.options] at hf
      exact (h a (by simp) hn hf).worked hnum hn hf hef
    · have hne := hnum.ne_ordinal hb
      have hle := hnum.ordinal_le a (by simp)
      simp only at hle
      refine (h b (mem_middle.2 (.inr hb)) hn hf).of_same
        (fun path => Event.settled?_other hne.symm _ _) fun path st hst hv => ?_
      exact hef.state?_of_newer hst (by omega)
  | finish m pre post run o =>
    intro b hb hn hf
    have hne := hnum.ne_ordinal hb
    have hle := hnum.ordinal_le ⟨run, .done o, []⟩ (by simp)
    simp only [Progress.finish_runs] at hn hle hne
    refine (h b (mem_middle.2 (.inr hb)) hn hf).of_same (fun _ => rfl) fun path st hst hv => ?_
    exact (Progress.finish_state?_eq_some ⟨run, m⟩).2 ⟨hst, .inl (by show run.ordinal < _; omega)⟩
  | fail m pre post run e =>
    intro b hb hn hf
    exact (h b (mem_middle.2 (.inr hb)) hn hf).of_same (fun _ => rfl) fun _ _ hst _ => hst
  | abandon m pre post a =>
    intro b hb hn hf
    exact (h b (mem_middle.2 (.inr hb)) hn hf).of_same (fun _ => rfl) fun _ _ hst _ => hst

theorem NewestHolds.trace {s t : Overlap} {hist es : List Event} (hnum : Numbered s)
    (h : NewestHolds hist s) (htrace : Trace s es t) : NewestHolds (hist ++ es) t := by
  induction htrace with
  | nil => simpa using h
  | snoc htrace hstep ih =>
    rw [← List.append_assoc]
    exact ih.step (hnum.trace htrace) hstep

/-- What run `run` has left stands: every other run under way is older, the places it visited hold
its states, and the other places that it covers are bare and cleared for all older runs. -/
structure Stands (hist : List Event) (run : Run) (s : Overlap) : Prop where
  older : ∀ a ∈ s.underWay, a.run.ordinal < run.ordinal
  kept : ∀ path, run.visited.contains path = true → Held hist s.model run.ordinal path
  bare : ∀ path, run.visited.contains path = false → run.covers path = true →
    ∀ st, s.model.state? path = some st → st = {}
  cleared : ∀ path, run.covers path = true → ∀ k < run.ordinal,
    s.model.records.superseded path k = true

namespace Stands

variable {hist : List Event} {run : Run}

/-- What the newest run leaves stands when it returns. -/
theorem returned {m : Model} {pre post : List Active} {o : Outcome}
    (hnum : Numbered ⟨m, pre ++ ⟨run, .done o, []⟩ :: post⟩)
    (h : NewestHolds hist ⟨m, pre ++ ⟨run, .done o, []⟩ :: post⟩) (hnew : run.ordinal = m.runs)
    (hfull : run.options.onlyDirtyRefs = false) :
    Stands hist run ⟨(Progress.finish ⟨run, m⟩).1, pre ++ post⟩ where
  older a ha := by
    have hne := hnum.ne_ordinal ha
    have hle := hnum.ordinal_le a (mem_middle.2 (.inr ha))
    simp only at hne hle
    omega
  kept path hp := by
    have hh : Holds hist m ⟨run, .done o, []⟩ := h ⟨run, .done o, []⟩ (by simp) hnew hfull
    rcases hh with hf | ⟨-, hv⟩
    · cases hf
    · rcases hv path hp with hh | ⟨t, ht, -⟩
      · exact hh.of_same rfl fun st hst _ =>
          (Progress.finish_state?_eq_some ⟨run, m⟩).2 ⟨hst, .inr (.inl hp)⟩
      · cases ht
  bare path hp hc st hst := by
    obtain ⟨hst, hkeep⟩ := (Progress.finish_state?_eq_some ⟨run, m⟩).1 hst
    have hle := hnum.stamp_le path st hst
    rcases hkeep with hlt | hv | hc'
    · simp only at hlt hle
      omega
    · rw [hp] at hv
      cases hv
    · rw [show run.covers path = false from hc'] at hc
      cases hc
  cleared path hc k hk := (Progress.finish_superseded ⟨run, m⟩ path k).2 (.inr ⟨hk, hc⟩)

theorem of_states {m m' : Model} {as : List Active} (h : Stands hist run ⟨m, as⟩)
    (hs : m.SameStates m') : Stands hist run ⟨m', as⟩ where
  older := h.older
  kept path hp := (h.kept path hp).of_same rfl fun st hst _ => by
    rcases hs.states path with he | ⟨he, -⟩
    · exact he.trans hst
    · rw [he] at hst
      cases hst
  bare path hp hc st hst := by
    rcases hs.states path with he | ⟨-, he⟩
    · exact h.bare path hp hc st (he.symm.trans hst)
    · rw [he] at hst
      exact (Option.some.inj hst).symm
  cleared path hc k hk := by
    simp only [hs.cleared]
    exact h.cleared path hc k hk

theorem dropped {m : Model} {pre post : List Active} {a : Active}
    (h : Stands hist run ⟨m, pre ++ a :: post⟩) : Stands hist run ⟨m, pre ++ post⟩ :=
  ⟨fun b hb => h.older b (mem_middle.2 (.inr hb)), h.kept, h.bare, h.cleared⟩

theorem worked {m m' : Model} {pre post : List Active} {a a' : Active} {act : Act}
    (hnum : Numbered ⟨m, pre ++ a :: post⟩) (h : Stands hist run ⟨m, pre ++ a :: post⟩)
    (hef : Active.Effect a m act a' m') : Stands hist run ⟨m', pre ++ a' :: post⟩ where
  older b hb := by
    rcases mem_middle.1 hb with rfl | hb
    · rw [hef.ordinal]
      exact h.older a (by simp)
    · exact h.older b (mem_middle.2 (.inr hb))
  kept path hp := (h.kept path hp).of_same rfl fun st hst hv =>
    hef.state?_of_newer hst (by rw [hv]; exact h.older a (by simp))
  bare path hp hc st hst := by
    have hcl := h.cleared path hc a.run.ordinal (h.older a (by simp))
    have hpos := hnum.ordinal_pos a (by simp)
    simp only at hcl hst
    cases hef.change path with
    | same same => exact h.bare path hp hc st (same.symm.trans hst)
    | made _ _ open_ =>
      rw [hcl] at open_
      cases open_
    | marked _ _ _ open_ =>
      rw [hcl] at open_
      cases open_
    | settled _ _ _ _ open_ =>
      rw [hcl] at open_
      cases open_
    | restored before stamp =>
      rw [h.bare path hp hc _ before] at stamp
      simp only [← stamp] at hpos
      cases hpos
  cleared path hc k hk := by
    simp only [hef.kept.cleared]
    exact h.cleared path hc k hk

theorem finished {m : Model} {pre post : List Active} {run' : Run} {o : Outcome}
    (h : Stands hist run ⟨m, pre ++ ⟨run', .done o, []⟩ :: post⟩) :
    Stands hist run ⟨(Progress.finish ⟨run', m⟩).1, pre ++ post⟩ where
  older := h.dropped.older
  kept path hp := (h.kept path hp).of_same rfl fun st hst hv => by
    have hlt := h.older ⟨run', .done o, []⟩ (by simp)
    exact (Progress.finish_state?_eq_some ⟨run', m⟩).2
      ⟨hst, .inl (by rw [hv]; exact hlt)⟩
  bare path hp hc st hst :=
    h.bare path hp hc st ((Progress.finish_state?_eq_some ⟨run', m⟩).1 hst).1
  cleared path hc k hk :=
    (Progress.finish_superseded ⟨run', m⟩ path k).2 (.inl (h.cleared path hc k hk))

/-- No step undoes what the newest run has left, but for the start of a newer one. -/
theorem step {s t : Overlap} {e : Event} (hnum : Numbered s) (h : Stands hist run s)
    (hstep : Step s e t) (hnew : t.model.runs = s.model.runs) : Stands hist run t := by
  cases hstep with
  | set m as r v => exact h.of_states (m.setValue_states r v)
  | reset m as r => exact h.of_states (m.reset_states r)
  | touch m as r => exact h.of_states (m.touch_states r)
  | start m as c r options =>
    simp only [c.start_runs] at hnew
    omega
  | work pre post next => exact h.worked hnum (Active.effect next)
  | finish m pre post run o => exact h.finished
  | fail m pre post run e => exact h.dropped
  | abandon m pre post a => exact h.dropped

theorem trace {s t : Overlap} {es : List Event} (hnum : Numbered s) (h : Stands hist run s)
    (htrace : Trace s es t) (hnew : t.model.runs = s.model.runs) : Stands hist run t := by
  induction htrace with
  | nil => exact h
  | snoc htrace hstep ih =>
    have h₁ := htrace.runs_le
    have h₂ := hstep.runs_le
    exact (ih (by omega)).step (hnum.trace htrace) hstep (by omega)

end Stands

/-- A run that does not keep to dirty places leaves what stands, if no newer run has started. -/
theorem Stands.of_returned {rule : Rule} {data : Tree} {config : ModelConfig} {hist : List Event}
    {s t : Overlap} {run : Run} {valid : Bool} (before : Trace (fresh rule data config) hist s)
    (returns : Step s (.returned run valid) t) (full : run.options.onlyDirtyRefs = false)
    (newest : t.model.runs ≤ run.ordinal) : Stands hist run t := by
  have hnum : Numbered s := (Numbered.fresh rule data config).trace before
  have hhold : NewestHolds hist s := by
    have hnone : NewestHolds [] (fresh rule data config) := fun a ha => by cases ha
    exact hnone.trace (Numbered.fresh rule data config) before
  cases returns with
  | finish m pre post run o =>
    have hle := hnum.ordinal_le ⟨run, .done o, []⟩ (by simp)
    simp only [Progress.finish_runs] at hle newest
    exact .returned hnum hhold (Nat.le_antisymm hle newest) full

end Overlap

end Conform

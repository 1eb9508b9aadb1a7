import Conform.Proofs.States
import Std.Data.TreeSet.Lemmas

/-!
# What one step of a run does

Most steps of a run leave the records alone. The others enter a place, settle it or roll it back.
`Active.act` names what the next step is, and `Active.effect` says all that such a step changes:
the states on record, the visits under way, and the run itself.
-/

namespace Conform

namespace Run

variable (r : Run) (route : Route) (d : Declaration)

@[simp] theorem discover_ordinal : (r.discover route d).ordinal = r.ordinal := by
  unfold discover; split <;> rfl

@[simp] theorem discover_target : (r.discover route d).target = r.target := by
  unfold discover; split <;> rfl

@[simp] theorem discover_options : (r.discover route d).options = r.options := by
  unfold discover; split <;> rfl

@[simp] theorem discover_visited : (r.discover route d).visited = r.visited := by
  unfold discover; split <;> rfl

theorem visit_contains (path q : String) :
    (r.visit path).visited.contains q = true ↔ path = q ∨ r.visited.contains q = true := by
  simp [visit, Std.TreeSet.contains_insert]

end Run

namespace Progress

variable (p : Progress) (route : Route) (scope : Scope)

/-- The state that a run puts at a place while it is at work there. -/
def working (n : Nat) (found : State) : State := { found with status := .validating, valLock := n }

@[simp] theorem working_valLock (n : Nat) (found : State) : (working n found).valLock = n := rfl

@[simp] theorem enter_run : (p.enter route scope).1.run = p.run.visit route.text := by
  unfold enter; dsimp only; split <;> rfl

@[simp] theorem enter_route : (p.enter route scope).2.route = route := by
  unfold enter; dsimp only; split <;> rfl

theorem enter_kept : p.model.Kept (p.enter route scope).1.model := by
  unfold enter
  dsimp only
  split
  · exact .refl _
  · dsimp only
    split
    · refine .trans ?_ (Model.commit_kept _ _ _)
      exact ⟨rfl, rfl, rfl⟩
    · exact ⟨rfl, rfl, rfl⟩

/-- On ground that a newer run has cleared, entering a place leaves no trace. -/
theorem enter_cleared (h : p.model.records.superseded route.text p.run.ordinal = true) :
    (p.enter route scope).1.model = p.model ∧
      (p.enter route scope).2 = ⟨route, false, {}⟩ := by
  simp [enter, h]

/-- Elsewhere it finds the state on record, and it marks the place unless a newer run has written
there or only dirty places are to be marked and this one is not. -/
theorem enter_found (h : p.model.records.superseded route.text p.run.ordinal = false) :
    ∃ commits, (p.run.options.onlyDirtyRefs = false → commits = true) ∧
      (p.enter route scope).2 = ⟨route, commits, (p.model.state? route.text).getD {}⟩ ∧
      ∀ q, (p.enter route scope).1.model.state? q =
        if route.text = q then
          some (if commits = true ∧ ((p.model.state? q).getD {}).valLock ≤ p.run.ordinal
            then working p.run.ordinal ((p.model.state? q).getD {})
            else (p.model.state? q).getD {})
        else p.model.state? q := by
  have hf : (p.model.entry route.text).state = (p.model.state? route.text).getD {} :=
    p.model.entry_state _
  refine ⟨!p.run.options.onlyDirtyRefs || (p.model.entry route.text).dirty, ?_, ?_, ?_⟩
  · intro hd
    simp [hd]
  · simp [enter, h, hf]
  · intro q
    -- the flags are written first, and leave a record whose state is the one that was found
    generalize hc : (!p.run.options.onlyDirtyRefs || (p.model.entry route.text).dirty) = commits
    generalize hm : (p.model.update route.text fun e =>
      { e with validated := e.validated || (commits && decide (scope = .validating) &&
        p.run.options.markAsValidated) }) = m
    have hs : m.records.superseded route.text p.run.ordinal = false := by
      rw [← hm]; exact h
    have hq : ∀ q, m.state? q =
        if route.text = q then some ((p.model.state? q).getD {}) else p.model.state? q := by
      intro q
      rw [← hm, Model.state?, Model.update, Records.state?_update]
      by_cases hp : route.text = q
      · subst q
        simp only [if_true]
        exact congrArg some hf
      · simp only [if_neg hp]; rfl
    have he : (p.enter route scope).1.model =
        if commits then m.commit route.text (working p.run.ordinal (p.model.entry route.text).state)
        else m := by
      rw [← hm, ← hc]
      simp only [enter, h, Bool.false_eq_true, if_false, working]
    rw [he]
    cases commits with
    | false => simp [hq]
    | true =>
      simp only [if_true, Model.commit_state?, working_valLock, Model.mayCommit_iff, hs, true_and,
        hq, Option.getD_some, hf]
      by_cases hp : route.text = q
      · subst q
        simp only [true_and, if_true]
        split <;> rfl
      · simp [hp]

/-- The state that a run settles a place with. A failure takes the next number. -/
def settlement (o : Outcome) : State :=
  State.settled p.run.ordinal (if o.isInvalid then some (p.model.errors + 1) else none) o

theorem settlement_status (o : Outcome) :
    (p.settlement o).status = if o.isInvalid then .error else .success := rfl

variable (t : Ticket) (o : Outcome)

theorem settle_run : (p.settle t o).run =
    if t.route = p.run.target then { p.run with computed := some o.passes } else p.run := rfl

theorem settle_state? (q : String) :
    (p.settle t o).model.state? q =
      if t.commits = true ∧ t.route.text = q ∧ p.model.mayCommit q p.run.ordinal = true
      then some (p.settlement o) else p.model.state? q := by
  cases hc : t.commits with
  | false => simp [settle, hc]
  | true =>
    simp only [settle, hc, Bool.not_true, Bool.false_eq_true, if_false, Model.commit_state?,
      true_and]
    by_cases hq : t.route.text = q
    · subst q
      by_cases ho : o.isInvalid = true
      · simp only [true_and, ho, if_true, settlement]; rfl
      · simp only [true_and, ho, settlement]; rfl
    · simp only [hq, false_and, if_false]; rfl

theorem settle_kept : p.model.Kept (p.settle t o).model := by
  unfold settle
  dsimp only
  split
  · exact .refl _
  · refine .trans ?_ (Model.commit_kept _ _ _)
    exact ⟨rfl, rfl, rfl⟩

@[simp] theorem rollBack_run : (p.rollBack t).run = p.run := by
  unfold rollBack; split <;> rfl

theorem rollBack_state? (q : String) :
    (p.rollBack t).model.state? q =
      if t.commits = true ∧ t.route.text = q ∧
        ∃ s, p.model.state? q = some s ∧ s.valLock = p.run.ordinal
      then some t.previous else p.model.state? q := by
  cases hc : t.commits with
  | false => simp [rollBack, hc]
  | true =>
    simp only [rollBack, hc, if_true, Model.rollBack_state?, true_and]
    by_cases hq : t.route.text = q
    · subst q; simp
    · simp [hq]

theorem rollBack_kept : p.model.Kept (p.rollBack t).model := by
  unfold rollBack
  split
  · exact Model.rollBack_kept _ _ _ _
  · exact .refl _

theorem finish_state? (q : String) :
    p.finish.1.state? q = (p.model.state? q).filter fun s =>
      p.run.ordinal < s.valLock || p.run.visited.contains q ||
        !p.evictionScopes.any (Path.isAtOrUnder q) :=
  p.model.evict_state? p.run.ordinal p.evictionScopes p.run.visited.contains q

/-- A run that finishes keeps what it has visited and what a newer run wrote, and what lies outside
its scopes. -/
theorem finish_state?_eq_some {q : String} {s : State} :
    p.finish.1.state? q = some s ↔ p.model.state? q = some s ∧
      (p.run.ordinal < s.valLock ∨ p.run.visited.contains q = true ∨
        p.evictionScopes.any (Path.isAtOrUnder q) = false) := by
  rw [finish_state?, Option.filter_eq_some_iff]
  simp [or_assoc]

/-- A record that a finishing run removes is not newer than the run, and lies under its scopes. -/
theorem finish_removed {q : String} {s : State} (hs : p.model.state? q = some s)
    (h : p.finish.1.state? q ≠ some s) :
    s.valLock ≤ p.run.ordinal ∧ p.evictionScopes.any (Path.isAtOrUnder q) = true ∧
      p.finish.1.state? q = none := by
  have hnot := fun hor => h (p.finish_state?_eq_some.2 ⟨hs, hor⟩)
  refine ⟨?_, ?_, ?_⟩
  · exact Nat.not_lt.1 fun hlt => hnot (.inl hlt)
  · exact eq_true_of_ne_false fun hany => hnot (.inr (.inr hany))
  · cases hq : p.finish.1.state? q with
    | none => rfl
    | some s' =>
      have hs' := (p.finish_state?_eq_some.1 hq).1
      exact absurd (hq.trans (hs'.symm.trans hs)) h

theorem finish_superseded (q : String) (k : Nat) :
    p.finish.1.records.superseded q k = true ↔ p.model.records.superseded q k = true ∨
      (k < p.run.ordinal ∧ p.evictionScopes.any (Path.isAtOrUnder q) = true) :=
  p.model.records.superseded_evict p.run.ordinal k p.evictionScopes p.run.visited.contains q

@[simp] theorem finish_runs : p.finish.1.runs = p.model.runs := rfl

end Progress

/-- What one step of a run is to the records. -/
inductive Act where
  | quiet
  | entered (t : Ticket)
  /-- The end of a visit, with the state that is to settle its place. -/
  | settled (t : Ticket) (o : Outcome) (s : State)
  | rolledBack (t : Ticket)

/-- The visit that a step begins or ends. -/
def Act.ticket? : Act → Option Ticket
  | quiet => none
  | entered t => some t
  | settled t _ _ => some t
  | rolledBack t => some t

def Frame.ticket? : Frame → Option Ticket
  | through _ => none
  | entered t _ _ => some t

namespace Active

/-- The places that the run is at work in, the innermost first. -/
def tickets (a : Active) : List Ticket := a.frames.filterMap Frame.ticket?

/-- Whether the run has met an error and is on its way out. -/
def failing (a : Active) : Bool :=
  match a.rest with
  | .fail _ => true
  | _ => false

/-- What the next step of the run is. -/
def act (a : Active) (m : Model) : Act :=
  match a.rest, a.frames with
  | .done o, .entered t hint _ :: _ =>
    .settled t (Outcome.merge [hint, o]) (Progress.settlement ⟨a.run, m⟩ (Outcome.merge [hint, o]))
  | .fail _, .entered t _ _ :: _ => .rolledBack t
  | .visit r d _ _ _, _ =>
    match (Progress.meet ⟨a.run, m⟩ r d).2 with
    | .entered t => .entered t
    | _ => .quiet
  | _, _ => .quiet

/-- All that a step of run `a` on model `m` changes. -/
inductive Effect (a : Active) (m : Model) : Act → Active → Model → Prop where
  | quiet {a' : Active} {m' : Model}
      (run : a'.run = a.run ∨ ∃ r d, a'.run = a.run.discover r d)
      (tickets : a'.tickets = a.tickets) (states : m.SameRecords m')
      (failing : a.failing = true → a'.failing = true) : Effect a m .quiet a' m'
  | entered {a' : Active} {m' : Model} (t : Ticket) (r : Route) (d : Declaration) (scope : Scope)
      (enter : Progress.enter ⟨a.run.discover r d, m⟩ r scope = (⟨a'.run, m'⟩, t))
      (tickets : a'.tickets = t :: a.tickets) (sound : a.failing = false) :
      Effect a m (.entered t) a' m'
  | settled {a' : Active} {m' : Model} (t : Ticket) (o : Outcome)
      (settle : Progress.settle ⟨a.run, m⟩ t o = ⟨a'.run, m'⟩)
      (tickets : a.tickets = t :: a'.tickets) (sound : a.failing = false) :
      Effect a m (.settled t o (Progress.settlement ⟨a.run, m⟩ o)) a' m'
  | rolledBack {a' : Active} {m' : Model} (t : Ticket)
      (rollBack : Progress.rollBack ⟨a.run, m⟩ t = ⟨a'.run, m'⟩)
      (tickets : a.tickets = t :: a'.tickets) (failing : a'.failing = true) :
      Effect a m (.rolledBack t) a' m'

theorem effect {a a' : Active} {m m' : Model} (h : a.next? m = some (a', m')) :
    Effect a m (a.act m) a' m' := by
  obtain ⟨run, rest, frames⟩ := a
  cases rest with
  | done o =>
    cases frames with
    | nil => simp [next?, endVisit] at h
    | cons f frames =>
      cases f with
      | through next =>
        simp only [next?, endVisit, Option.some.injEq, Prod.mk.injEq] at h
        obtain ⟨rfl, rfl⟩ := h
        exact .quiet (.inl rfl) rfl (.refl m) (by simp [failing])
      | entered t hint next =>
        simp only [next?, endVisit, Option.some.injEq, Prod.mk.injEq] at h
        obtain ⟨rfl, rfl⟩ := h
        exact .settled t _ rfl rfl rfl
  | fail e =>
    cases frames with
    | nil => simp [next?, breakVisit] at h
    | cons f frames =>
      cases f with
      | through next =>
        simp only [next?, breakVisit, Option.some.injEq, Prod.mk.injEq] at h
        obtain ⟨rfl, rfl⟩ := h
        exact .quiet (.inl rfl) rfl (.refl m) (by simp [failing])
      | entered t hint next =>
        simp only [next?, breakVisit, Option.some.injEq, Prod.mk.injEq] at h
        obtain ⟨rfl, rfl⟩ := h
        exact .rolledBack t rfl rfl rfl
  | read r next =>
    simp only [next?, Option.some.injEq, Prod.mk.injEq] at h
    obtain ⟨rfl, rfl⟩ := h
    exact .quiet (.inl rfl) rfl (.refl m) (by simp [failing])
  | write r v next =>
    have hw := m.write_records r v
    simp only [next?] at h
    split at h <;>
    · simp only [Option.some.injEq, Prod.mk.injEq] at h
      obtain ⟨rfl, rfl⟩ := h
      exact .quiet (.inl rfl) rfl hw (by simp [failing])
  | await g next =>
    simp only [next?, Option.some.injEq, Prod.mk.injEq] at h
    obtain ⟨rfl, rfl⟩ := h
    exact .quiet (.inl rfl) rfl (.refl m) (by simp [failing])
  | visit r d hint body next =>
    simp only [next?, beginVisit, Progress.meet] at h
    simp only [act, Progress.meet]
    cases hc : (run.discover r d).classify r d with
    | unrelated =>
      simp only [hc, Option.some.injEq, Prod.mk.injEq] at h ⊢
      obtain ⟨rfl, rfl⟩ := h
      exact .quiet (.inr ⟨r, d, rfl⟩) rfl (.refl m) (by simp [failing])
    | parent =>
      simp only [hc, Option.some.injEq, Prod.mk.injEq] at h ⊢
      obtain ⟨rfl, rfl⟩ := h
      exact .quiet (.inr ⟨r, d, rfl⟩) rfl (.refl m) (by simp [failing])
    | validating =>
      simp only [hc, Option.some.injEq, Prod.mk.injEq] at h ⊢
      obtain ⟨rfl, rfl⟩ := h
      exact .entered _ r d .validating rfl rfl rfl
    | preparing =>
      simp only [hc, Option.some.injEq, Prod.mk.injEq] at h ⊢
      obtain ⟨rfl, rfl⟩ := h
      exact .entered _ r d .preparing rfl rfl rfl

namespace Effect

variable {a a' : Active} {m m' : Model} {act : Act}

theorem run_eq (h : Effect a m act a' m') :
    a'.run.ordinal = a.run.ordinal ∧ a'.run.options = a.run.options ∧
      a'.run.target = a.run.target := by
  cases h with
  | quiet run =>
    rcases run with h | ⟨r, d, h⟩
    · rw [h]; exact ⟨rfl, rfl, rfl⟩
    · rw [h]; simp
  | entered t r d scope enter =>
    have hr : a'.run = (a.run.discover r d).visit r.text := by
      rw [← Progress.enter_run ⟨a.run.discover r d, m⟩ r scope, enter]
    rw [hr]
    simp [Run.visit]
  | settled t o settle =>
    have hr : a'.run = (Progress.settle ⟨a.run, m⟩ t o).run := by rw [settle]
    rw [hr, Progress.settle_run]
    split <;> exact ⟨rfl, rfl, rfl⟩
  | rolledBack t rollBack =>
    have hr : a'.run = (Progress.rollBack ⟨a.run, m⟩ t).run := by rw [rollBack]
    rw [hr, Progress.rollBack_run]
    exact ⟨rfl, rfl, rfl⟩

theorem ordinal (h : Effect a m act a' m') : a'.run.ordinal = a.run.ordinal := h.run_eq.1

theorem options (h : Effect a m act a' m') : a'.run.options = a.run.options := h.run_eq.2.1

/-- Numbers are given out at the start of a run, and ground is cleared at its end. -/
theorem kept (h : Effect a m act a' m') : m.Kept m' := by
  cases h with
  | quiet _ _ states => exact states.toKept
  | entered t r d scope enter =>
    have hk := Progress.enter_kept ⟨a.run.discover r d, m⟩ r scope
    rwa [enter] at hk
  | settled t o settle =>
    have hk := Progress.settle_kept ⟨a.run, m⟩ t o
    rwa [settle] at hk
  | rolledBack t rollBack =>
    have hk := Progress.rollBack_kept ⟨a.run, m⟩ t
    rwa [rollBack] at hk

/-- What a step of run `a` does to the state at one path: nothing but to make a record, or to write
a state of the run's own over one that is no newer, on ground that no newer run has cleared, or to
put back what the run found there. -/
inductive Change (a : Active) (m m' : Model) (q : String) : Act → Prop where
  | same {act : Act} (same : m'.state? q = m.state? q) : Change a m m' q act
  | made {t : Ticket} (before : m.state? q = none) (after : m'.state? q = some {})
      (open_ : m.records.superseded q a.run.ordinal = false) (at_ : t.route.text = q) :
      Change a m m' q (.entered t)
  | marked {t : Ticket} (after : m'.state? q = some (Progress.working a.run.ordinal t.previous))
      (found : (m.state? q).getD {} = t.previous)
      (older : t.previous.valLock ≤ a.run.ordinal)
      (open_ : m.records.superseded q a.run.ordinal = false)
      (commits : t.commits = true) (at_ : t.route.text = q) : Change a m m' q (.entered t)
  | settled {t : Ticket} {o : Outcome} {s : State} (after : m'.state? q = some s)
      (stamp : s.valLock = a.run.ordinal) (status : s.status ≠ .validating)
      (older : ((m.state? q).getD {}).valLock ≤ a.run.ordinal)
      (open_ : m.records.superseded q a.run.ordinal = false)
      (commits : t.commits = true) (at_ : t.route.text = q) (mem : t ∈ a.tickets) :
      Change a m m' q (.settled t o s)
  | restored {t : Ticket} {s : State} (before : m.state? q = some s)
      (stamp : s.valLock = a.run.ordinal) (after : m'.state? q = some t.previous)
      (commits : t.commits = true) (at_ : t.route.text = q) (mem : t ∈ a.tickets) :
      Change a m m' q (.rolledBack t)

theorem change (h : Effect a m act a' m') (q : String) : Change a m m' q act := by
  cases h with
  | quiet _ _ states => exact .same (states.state? q)
  | entered t r d scope enter =>
    have hrun : (a.run.discover r d).ordinal = a.run.ordinal := by simp
    cases hs : m.records.superseded r.text a.run.ordinal with
    | true =>
      have hc := (Progress.enter_cleared ⟨a.run.discover r d, m⟩ r scope (by simpa using hs)).1
      rw [enter] at hc
      exact .same (by rw [show m' = m from hc])
    | false =>
      obtain ⟨commits, -, he, hm⟩ :=
        Progress.enter_found ⟨a.run.discover r d, m⟩ r scope (by simpa using hs)
      rw [enter] at he hm
      simp only [hrun] at hm
      have hq := hm q
      have ht : t = ⟨r, commits, (m.state? r.text).getD {}⟩ := he
      by_cases hr : r.text = q
      · subst q
        rw [if_pos rfl] at hq
        by_cases hw : commits = true ∧ ((m.state? r.text).getD {}).valLock ≤ a.run.ordinal
        · rw [if_pos hw] at hq
          exact .marked (by rw [ht]; exact hq) (by rw [ht]) (by rw [ht]; exact hw.2) hs
            (by rw [ht]; exact hw.1) (by rw [ht])
        · rw [if_neg hw] at hq
          cases hp : m.state? r.text with
          | none => exact .made hp (by simpa [hp] using hq) hs (by rw [ht])
          | some s => exact .same (by simpa [hp] using hq)
      · rw [if_neg hr] at hq
        exact .same hq
  | settled t o settle tickets =>
    have hq := Progress.settle_state? ⟨a.run, m⟩ t o q
    rw [settle] at hq
    by_cases hc : t.commits = true ∧ t.route.text = q ∧ m.mayCommit q a.run.ordinal = true
    · rw [if_pos hc] at hq
      obtain ⟨hs, hl⟩ := (m.mayCommit_iff q a.run.ordinal).1 hc.2.2
      refine .settled hq rfl ?_ hl hs hc.1 hc.2.1 (by simp [tickets])
      rw [Progress.settlement_status]
      split <;> decide
    · rw [if_neg hc] at hq
      exact .same hq
  | rolledBack t rollBack tickets =>
    have hq := Progress.rollBack_state? ⟨a.run, m⟩ t q
    rw [rollBack] at hq
    by_cases hc : t.commits = true ∧ t.route.text = q ∧
        ∃ s, m.state? q = some s ∧ s.valLock = a.run.ordinal
    · rw [if_pos hc] at hq
      obtain ⟨hc, hr, s, hs, hn⟩ := hc
      exact .restored hs hn hq hc hr (by simp [tickets])
    · rw [if_neg hc] at hq
      exact .same hq

/-- A visit under way after the step was under way before, or has just been begun and found the
state on record, or nothing on ground that a newer run has cleared. -/
theorem mem_tickets (h : Effect a m act a' m') {t : Ticket} (ht : t ∈ a'.tickets) :
    t ∈ a.tickets ∨ act = .entered t ∧
      (t.previous = {} ∨ t.previous = (m.state? t.route.text).getD {}) := by
  cases h with
  | quiet _ tickets => exact .inl (tickets ▸ ht)
  | entered t' r d scope enter tickets =>
    rw [tickets, List.mem_cons] at ht
    rcases ht with rfl | ht
    · refine .inr ⟨rfl, ?_⟩
      cases hs : m.records.superseded r.text a.run.ordinal with
      | true =>
        have hc := (Progress.enter_cleared ⟨a.run.discover r d, m⟩ r scope (by simpa using hs)).2
        rw [enter] at hc
        exact .inl (congrArg Ticket.previous hc)
      | false =>
        obtain ⟨commits, -, he, -⟩ :=
          Progress.enter_found ⟨a.run.discover r d, m⟩ r scope (by simpa using hs)
        rw [enter] at he
        have ht : t = ⟨r, commits, (m.state? r.text).getD {}⟩ := he
        exact .inr (by rw [ht])
    · exact .inl ht
  | settled t' o settle tickets => exact .inl (tickets ▸ List.mem_cons_of_mem _ ht)
  | rolledBack t' rollBack tickets => exact .inl (tickets ▸ List.mem_cons_of_mem _ ht)

/-- What a run has visited it has visited for good, and it visits nothing but what it enters. -/
theorem visited_iff (h : Effect a m act a' m') (q : String) :
    a'.run.visited.contains q = true ↔
      a.run.visited.contains q = true ∨ ∃ t, act = .entered t ∧ t.route.text = q := by
  have hsame : ∀ {act : Act}, (∀ t, act ≠ .entered t) → a'.run.visited = a.run.visited →
      (a'.run.visited.contains q = true ↔
        a.run.visited.contains q = true ∨ ∃ t, act = .entered t ∧ t.route.text = q) := by
    intro act hact hv
    rw [hv]
    exact ⟨.inl, fun h => h.resolve_right fun ⟨t, ht, _⟩ => hact t ht⟩
  cases h with
  | quiet run =>
    refine hsame (by simp) ?_
    rcases run with hr | ⟨r, d, hr⟩
    · rw [hr]
    · rw [hr, Run.discover_visited]
  | entered t r d scope enter =>
    have hr : a'.run = (a.run.discover r d).visit r.text := by
      rw [← Progress.enter_run ⟨a.run.discover r d, m⟩ r scope, enter]
    have ht : t.route = r := by
      rw [← Progress.enter_route ⟨a.run.discover r d, m⟩ r scope, enter]
    rw [hr, Run.visit_contains, Run.discover_visited, or_comm]
    simp [ht]
  | settled t o settle =>
    have hr := Progress.settle_run ⟨a.run, m⟩ t o
    rw [settle] at hr
    refine hsame (by simp) ?_
    rw [show a'.run = _ from hr]
    split <;> rfl
  | rolledBack t rollBack =>
    have hr := Progress.rollBack_run ⟨a.run, m⟩ t
    rw [rollBack] at hr
    exact hsame (by simp) (by rw [show a'.run = a.run from hr])

/-- A step leaves all places alone but the one that it enters, settles or rolls back. -/
theorem state?_elsewhere (h : Effect a m act a' m') {q : String}
    (hne : ∀ t ∈ act.ticket?, t.route.text ≠ q) : m'.state? q = m.state? q := by
  cases h.change q with
  | same same => exact same
  | made _ _ _ at_ => exact absurd at_ (hne _ rfl)
  | marked _ _ _ _ _ at_ => exact absurd at_ (hne _ rfl)
  | settled _ _ _ _ _ _ at_ => exact absurd at_ (hne _ rfl)
  | restored _ _ _ _ at_ => exact absurd at_ (hne _ rfl)

/-- A run that does not keep to dirty places enters a place on open ground to commit there, and the
record is no older than the run from then on. -/
theorem entered_full {t : Ticket} (h : Effect a m (.entered t) a' m')
    (full : a.run.options.onlyDirtyRefs = false)
    (open_ : m.records.superseded t.route.text a.run.ordinal = false) :
    t.commits = true ∧
      ∃ s, m'.state? t.route.text = some s ∧ a.run.ordinal ≤ s.valLock := by
  cases h with
  | entered _ r d scope enter =>
    have hr : t.route = r := by
      rw [← Progress.enter_route ⟨a.run.discover r d, m⟩ r scope, enter]
    subst hr
    obtain ⟨commits, hc, ht, hs⟩ := Progress.enter_found ⟨a.run.discover t.route d, m⟩ t.route scope
      (by simpa using open_)
    have hc : commits = true := hc (by simpa using full)
    rw [enter] at ht hs
    have hs := hs t.route.text
    simp only [hc, true_and, if_true, Run.discover_ordinal] at hs
    refine ⟨(congrArg Ticket.commits ht).trans hc, _, hs, ?_⟩
    split
    · exact Nat.le_refl _
    · omega

/-- A visit that commits begins on open ground with the state on record, and it marks the place
unless that state is newer than the run. -/
theorem entered_found {t : Ticket} (h : Effect a m (.entered t) a' m')
    (commits : t.commits = true) :
    m.records.superseded t.route.text a.run.ordinal = false ∧
      t.previous = (m.state? t.route.text).getD {} ∧
      (t.previous.valLock ≤ a.run.ordinal →
        m'.state? t.route.text = some (Progress.working a.run.ordinal t.previous)) := by
  cases h with
  | entered _ r d scope enter =>
    have hr : t.route = r := by
      rw [← Progress.enter_route ⟨a.run.discover r d, m⟩ r scope, enter]
    subst hr
    cases hs : m.records.superseded t.route.text a.run.ordinal with
    | true =>
      have hc := (Progress.enter_cleared ⟨a.run.discover t.route d, m⟩ t.route scope
        (by simpa using hs)).2
      rw [enter] at hc
      have hc : t.commits = false := congrArg Ticket.commits hc
      rw [hc] at commits
      cases commits
    | false =>
      obtain ⟨c, -, ht, hm⟩ := Progress.enter_found ⟨a.run.discover t.route d, m⟩ t.route scope
        (by simpa using hs)
      rw [enter] at ht hm
      have hfound : t.previous = (m.state? t.route.text).getD {} := congrArg Ticket.previous ht
      have hc : c = true := (congrArg Ticket.commits ht).symm.trans commits
      refine ⟨rfl, hfound, fun hle => ?_⟩
      have hm := hm t.route.text
      simp only [if_true, Run.discover_ordinal] at hm
      rw [← hfound, if_pos ⟨hc, hle⟩] at hm
      exact hm

/-- A place settled where the run may commit holds the state from then on. -/
theorem settled_state? {t : Ticket} {o : Outcome} {s : State}
    (h : Effect a m (.settled t o s) a' m') (commits : t.commits = true)
    (may : m.mayCommit t.route.text a.run.ordinal = true) : m'.state? t.route.text = some s := by
  cases h with
  | settled _ _ settle =>
    have hs := Progress.settle_state? ⟨a.run, m⟩ t o t.route.text
    rw [settle] at hs
    exact hs.trans (if_pos ⟨commits, rfl, may⟩)

/-- But for roll-backs, the stamp of a record never falls. -/
theorem valLock_le (h : Effect a m act a' m') (hnot : ∀ t, act ≠ .rolledBack t) {q : String}
    {s : State} (hs : m.state? q = some s) :
    ∃ s', m'.state? q = some s' ∧ s.valLock ≤ s'.valLock := by
  cases h.change q with
  | same same => exact ⟨s, same.trans hs, Nat.le_refl _⟩
  | made before =>
    rw [before] at hs
    cases hs
  | marked after found older =>
    rw [hs, Option.getD_some] at found
    subst found
    exact ⟨_, after, older⟩
  | settled after stamp _ older =>
    rw [hs, Option.getD_some] at older
    exact ⟨_, after, by omega⟩
  | restored => exact absurd rfl (hnot _)

/-- A run that has met an error does nothing but to leave its visits. -/
theorem failing_of (h : Effect a m act a' m') (hf : a.failing = true) : a'.failing = true := by
  cases h with
  | quiet _ _ _ failing => exact failing hf
  | entered _ _ _ _ _ _ sound => rw [sound] at hf; cases hf
  | settled _ _ _ _ sound => rw [sound] at hf; cases hf
  | rolledBack _ _ _ failing => exact failing

/-- A run leaves alone what a newer one has written. -/
theorem state?_of_newer (h : Effect a m act a' m') {q : String} {s : State}
    (hs : m.state? q = some s) (hn : a.run.ordinal < s.valLock) : m'.state? q = some s := by
  cases h.change q with
  | same same => rw [same, hs]
  | made before => simp [before] at hs
  | marked after found older => rw [hs, Option.getD_some] at found; subst found; omega
  | settled after stamp status older => rw [hs, Option.getD_some] at older; omega
  | restored before stamp => rw [hs, Option.some.injEq] at before; subst before; omega

end Effect

end Active

end Conform

import Conform.Proofs.Agreement

/-!
# The numbers of failures

A place that fails takes the next number of the model's counter. States are copied into marks, put
back by runs that fail and dropped with their records, but a number never leaves the path that it
was given to: `Tallied` says so of all states at hand, those on record and those that runs under way
may still put back. Main statement: an error has a number, and no number is found at two paths, so
the errors at or under a place are listed once each in the order of their numbers.
-/

namespace Conform

namespace Model

@[simp] theorem commit_errors (m : Model) (path : String) (s : State) :
    (m.commit path s).errors = m.errors := by
  unfold commit
  split <;> rfl

end Model

namespace Progress

variable (p : Progress)

@[simp] theorem enter_errors (route : Route) (scope : Scope) :
    (p.enter route scope).1.model.errors = p.model.errors := by
  unfold enter
  dsimp only
  split
  · rfl
  · dsimp only
    split
    · rw [Model.commit_errors]
      rfl
    · rfl

theorem settle_errors (t : Ticket) (o : Outcome) :
    (p.settle t o).model.errors =
      if t.commits = true ∧ o.isInvalid = true then p.model.errors + 1 else p.model.errors := by
  cases hc : t.commits with
  | false => simp [settle, hc]
  | true => simp [settle, hc]

@[simp] theorem rollBack_errors (t : Ticket) :
    (p.rollBack t).model.errors = p.model.errors := by
  unfold rollBack
  split <;> rfl

end Progress

namespace Active.Effect

variable {a a' : Active} {m m' : Model} {act : Act}

/-- Only a failure that is committed counts. -/
theorem errors (h : Effect a m act a' m') :
    m'.errors = match act with
      | .settled t o _ => if t.commits = true ∧ o.isInvalid = true then m.errors + 1 else m.errors
      | _ => m.errors := by
  cases h with
  | quiet _ _ states => exact states.errors
  | entered t r d scope enter =>
    have he := Progress.enter_errors ⟨a.run.discover r d, m⟩ r scope
    rwa [enter] at he
  | settled t o settle =>
    have he := Progress.settle_errors ⟨a.run, m⟩ t o
    rwa [settle] at he
  | rolledBack t rollBack =>
    have he := Progress.rollBack_errors ⟨a.run, m⟩ t
    rwa [rollBack] at he

theorem errors_le (h : Effect a m act a' m') : m.errors ≤ m'.errors := by
  rw [h.errors]
  split
  · split <;> omega
  · exact Nat.le_refl _

end Active.Effect

/-- An error has a number, and what has passed or was never judged has none. -/
structure State.Sound (st : State) : Prop where
  failed : st.status = .error → st.errLock.isSome = true
  passed : st.status = .success ∨ st.status = .pristine → st.errLock = none

namespace Overlap

/-- The state is on record at the path, or a run at work there has found it and may put it back. -/
inductive AtHand (s : Overlap) (path : String) (st : State) : Prop where
  | onRecord (record : s.model.state? path = some st)
  | found {a : Active} {t : Ticket} (run : a ∈ s.underWay) (visit : t ∈ a.tickets)
      (at_ : t.route.text = path) (previous : t.previous = st)

/-- The numbers of the states at hand have been given out, each to one path. -/
structure Tallied (s : Overlap) : Prop where
  sound : ∀ path st, AtHand s path st → st.Sound
  le : ∀ path st n, AtHand s path st → st.errLock = some n → n ≤ s.model.errors
  one : ∀ p q st st' n, AtHand s p st → AtHand s q st' → st.errLock = some n →
    st'.errLock = some n → p = q

/-- Where a state at hand after a step comes from. The step counts at most one failure, at `place`,
and `top` is the counter then. -/
inductive Derived (s : Overlap) (place : String) (top : Nat) (path : String) (st : State) : Prop
    where
  | kept (before : AtHand s path st)
  | unnumbered (number : st.errLock = none) (status : st.status ≠ .error)
  | marked {found : State} (before : AtHand s path found) (status : st.status = .validating)
      (number : st.errLock = found.errLock)
  | failed (at_ : path = place) (status : st.status = .error)
      (number : st.errLock = some (s.model.errors + 1)) (counted : s.model.errors + 1 ≤ top)

namespace Tallied

theorem fresh (rule : Rule) (data : Tree) (config : ModelConfig) :
    Tallied (fresh rule data config) := by
  have hnone : ∀ path st, ¬ AtHand (Overlap.fresh rule data config) path st := by
    intro path st h
    cases h with
    | onRecord record =>
      have hn : (Overlap.fresh rule data config).model.state? path = none := rfl
      rw [hn] at record
      cases record
    | found run => cases run
  exact ⟨fun _ _ h => absurd h (hnone _ _), fun _ _ _ h => absurd h (hnone _ _),
    fun _ _ _ _ _ h => absurd h (hnone _ _)⟩

variable {s t : Overlap}

/-- A number at hand after a step was at hand at the same path before, or is the next one, which is
given out at one place. -/
theorem of_derived (h : Tallied s) (place : String) (hle : s.model.errors ≤ t.model.errors)
    (derived : ∀ path st, AtHand t path st → Derived s place t.model.errors path st) :
    Tallied t := by
  have number : ∀ path st n, AtHand t path st → st.errLock = some n →
      (∃ st', AtHand s path st' ∧ st'.errLock = some n) ∨
        (path = place ∧ n = s.model.errors + 1 ∧ n ≤ t.model.errors) := by
    intro path st n hst hn
    cases derived path st hst with
    | kept before => exact .inl ⟨st, before, hn⟩
    | unnumbered number =>
      rw [number] at hn
      cases hn
    | marked before _ number => exact .inl ⟨_, before, number.symm.trans hn⟩
    | failed at_ _ number counted =>
      rw [number, Option.some.injEq] at hn
      exact .inr ⟨at_, hn.symm, hn ▸ counted⟩
  refine ⟨fun path st hst => ?_, fun path st n hst hn => ?_, fun p q st st' n hst hst' hn hn' => ?_⟩
  · cases derived path st hst with
    | kept before => exact h.sound path st before
    | unnumbered number status => exact ⟨fun herr => absurd herr status, fun _ => number⟩
    | marked _ status =>
      refine ⟨fun herr => ?_, fun hpass => ?_⟩
      · rw [status] at herr
        cases herr
      · rw [status] at hpass
        rcases hpass with hpass | hpass <;> cases hpass
    | failed _ status number =>
      refine ⟨fun _ => by rw [number]; rfl, fun hpass => ?_⟩
      rw [status] at hpass
      rcases hpass with hpass | hpass <;> cases hpass
  · rcases number path st n hst hn with ⟨st', before, hn'⟩ | ⟨-, -, hcounted⟩
    · exact Nat.le_trans (h.le path st' n before hn') hle
    · exact hcounted
  · rcases number p st n hst hn with ⟨u, hu, hun⟩ | ⟨hp, hnew, -⟩
    · rcases number q st' n hst' hn' with ⟨v, hv, hvn⟩ | ⟨-, hnew, -⟩
      · exact h.one p q u v n hu hv hun hvn
      · -- a new number is above all that were at hand
        have := h.le p u n hu hun
        omega
    · rcases number q st' n hst' hn' with ⟨v, hv, hvn⟩ | ⟨hq, -, -⟩
      · have := h.le q v n hv hvn
        omega
      · rw [hp, hq]

theorem of_states {m m' : Model} {as as' : List Active} (h : Tallied ⟨m, as⟩)
    (hsub : ∀ a ∈ as', a.tickets ≠ [] → a ∈ as) (herr : m'.errors = m.errors)
    (hs : ∀ q, m'.state? q = m.state? q ∨ m.state? q = none ∧ m'.state? q = some {}) :
    Tallied ⟨m', as'⟩ := by
  refine h.of_derived "" (Nat.le_of_eq herr.symm) fun path st hst => ?_
  cases hst with
  | onRecord record =>
    rcases hs path with he | ⟨-, he⟩
    · exact .kept (.onRecord (he.symm.trans record))
    · have hst : st = {} := Option.some.inj (record.symm.trans he)
      exact .unnumbered (by rw [hst]) (by rw [hst]; decide)
  | found run visit at_ previous =>
    exact .kept (.found (hsub _ run (List.ne_nil_of_mem visit)) visit at_ previous)

/-- Fewer states are at hand. -/
theorem of_subset (h : Tallied s) (herr : t.model.errors = s.model.errors)
    (hsub : ∀ a ∈ t.underWay, a ∈ s.underWay)
    (hs : ∀ q st, t.model.state? q = some st → s.model.state? q = some st) : Tallied t := by
  refine h.of_derived "" (Nat.le_of_eq herr.symm) fun path st hst => ?_
  cases hst with
  | onRecord record => exact .kept (.onRecord (hs path st record))
  | found run visit at_ previous => exact .kept (.found (hsub _ run) visit at_ previous)

/-- What is on record at a path, or the state of a place nothing is known of. -/
theorem derived_getD {top : Nat} {path : String} :
    Derived s place top path ((s.model.state? path).getD {}) := by
  cases hst : s.model.state? path with
  | none => exact .unnumbered rfl (by decide)
  | some st => exact .kept (.onRecord hst)

theorem worked {m m' : Model} {pre post : List Active} {a a' : Active} {act : Act}
    (h : Tallied ⟨m, pre ++ a :: post⟩) (hef : Active.Effect a m act a' m') :
    Tallied ⟨m', pre ++ a' :: post⟩ := by
  refine h.of_derived ((act.ticket?.map fun t => t.route.text).getD "") hef.errors_le
    fun path st hst => ?_
  cases hst with
  | onRecord record =>
    have record : m'.state? path = some st := record
    cases hef.change path with
    | same same => exact .kept (.onRecord (same.symm.trans record))
    | made _ after =>
      have hst : st = {} := Option.some.inj (record.symm.trans after)
      exact .unnumbered (by rw [hst]) (by rw [hst]; decide)
    | @marked t after found =>
      have hst : st = Progress.working a.run.ordinal t.previous :=
        Option.some.inj (record.symm.trans after)
      cases hbefore : m.state? path with
      | none =>
        rw [hbefore, Option.getD_none] at found
        exact .unnumbered (by rw [hst, ← found]; rfl) (by rw [hst]; simp [Progress.working])
      | some st₀ =>
        rw [hbefore, Option.getD_some] at found
        exact .marked (.onRecord hbefore) (by rw [hst]; rfl) (by rw [hst, found]; rfl)
    | @settled t o s after _ _ _ _ commits at_ =>
      have hs : s = Progress.settlement ⟨a.run, m⟩ o := by
        cases hef with
        | settled => rfl
      have hst : st = Progress.settlement ⟨a.run, m⟩ o :=
        (Option.some.inj (record.symm.trans after)).trans hs
      have hcount := hef.errors
      simp only [commits, true_and] at hcount
      cases ho : o.isInvalid with
      | true =>
        rw [if_pos ho] at hcount
        refine .failed at_.symm ?_ ?_ (Nat.le_of_eq hcount.symm)
        · rw [hst, Progress.settlement_status, if_pos ho]
        · rw [hst]
          simp only [Progress.settlement, State.settled, ho, if_true]
      | false =>
        refine .unnumbered ?_ ?_
        · rw [hst]
          simp only [Progress.settlement, State.settled, ho, Bool.false_eq_true, if_false]
        · rw [hst, Progress.settlement_status, ho]
          decide
    | restored _ _ after _ at_ mem =>
      -- the visit had the state at hand all along
      exact .kept (.found (a := a) (by simp) mem at_ (Option.some.inj (after.symm.trans record)))
  | @found b t run visit at_ previous =>
    rcases mem_middle.1 run with rfl | run
    · rcases hef.mem_tickets visit with visit | ⟨-, he | he⟩
      · exact .kept (.found (a := a) (by simp) visit at_ previous)
      · have hst : st = {} := previous.symm.trans he
        exact .unnumbered (by rw [hst]) (by rw [hst]; decide)
      · rw [← previous, he, at_]
        exact derived_getD (s := ⟨m, pre ++ a :: post⟩)
    · exact .kept (.found (mem_middle.2 (.inr run)) visit at_ previous)

theorem step {e : Event} (h : Tallied s) (hstep : Step s e t) : Tallied t := by
  cases hstep with
  | set m as r v =>
    have hm := m.setValue_states r v
    exact h.of_states (fun a ha _ => ha) hm.errors hm.states
  | reset m as r =>
    exact h.of_states (fun a ha _ => ha) (m.reset_states r).errors (m.reset_states r).states
  | touch m as r =>
    exact h.of_states (fun a ha _ => ha) (m.touch_states r).errors (m.touch_states r).states
  | start m as c r options =>
    refine h.of_states (fun a ha hne => ?_) (by cases c <;> rfl) (c.start_states m r options)
    refine (List.mem_append.1 ha).resolve_right fun hnew => hne ?_
    rw [List.mem_singleton.1 hnew, c.start_tickets]
  | work pre post next => exact h.worked (Active.effect next)
  | finish m pre post run o =>
    exact h.of_subset rfl (fun a ha => mem_middle.2 (.inr ha)) fun q st hst =>
      ((Progress.finish_state?_eq_some ⟨run, m⟩).1 hst).1
  | fail m pre post run e =>
    exact h.of_subset rfl (fun a ha => mem_middle.2 (.inr ha)) fun _ _ hst => hst
  | abandon m pre post a =>
    exact h.of_subset rfl (fun a ha => mem_middle.2 (.inr ha)) fun _ _ hst => hst

theorem trace {es : List Event} (h : Tallied s) (htrace : Trace s es t) : Tallied t := by
  induction htrace with
  | nil => exact h
  | snoc _ hstep ih => exact ih.step hstep

end Tallied

end Overlap

namespace Model

variable (m : Model) (r : Route)

/-- The record of a path is an error at or under a place. -/
def Failing (path : String) : Prop :=
  Path.isAtOrUnder path r.text = true ∧ ∃ st, m.state? path = some st ∧ st.status = .error

def errorNumber? (path : String) : Option Nat := (m.state? path).bind State.errLock

/-- Both paths have numbers, and the number of the first is smaller. -/
def Earlier (p q : String) : Prop :=
  ∃ i j, m.errorNumber? p = some i ∧ m.errorNumber? q = some j ∧ i < j

/-- What the list of errors of a place is made from. -/
def failures : List (String × Entry) :=
  (m.records.under r.text).filter fun e => e.2.state.status = .error

theorem errorsUnder_eq :
    m.errorsUnder r = ((m.failures r).mergeSort errorOrder).map fun e => Route.parse e.1 := rfl

theorem mem_failures {e : String × Entry} :
    e ∈ m.failures r ↔ m.records.get? e.1 = some e.2 ∧ Path.isAtOrUnder e.1 r.text = true ∧
      e.2.state.status = .error := by
  rw [failures, List.mem_filter, Records.under, List.mem_filter, Records.mem_toList,
    decide_eq_true_eq, and_assoc]

/-- No path has two records. -/
theorem failures_apart : (m.failures r).Pairwise fun a b => a.1 ≠ b.1 :=
  ((Std.TreeMap.distinct_keys_toList (t := m.records.entries)).imp fun h he => h (by
    rw [he]
    exact Std.ReflCmp.compare_self)).filter _ |>.filter _

theorem errorOrder_iff (a b : String × Entry) :
    errorOrder a b = true ↔
      match a.2.state.errLock, b.2.state.errLock with
      | some i, some j => i < j ∨ i = j ∧ a.1 ≤ b.1
      | some _, none => True
      | none, some _ => False
      | none, none => a.1 ≤ b.1 := by
  unfold errorOrder
  split <;> simp [*]

theorem errorOrder_trans (a b c : String × Entry) (h : errorOrder a b = true)
    (h' : errorOrder b c = true) : errorOrder a c = true := by
  rw [errorOrder_iff] at *
  cases ha : a.2.state.errLock with
  | none =>
    cases hb : b.2.state.errLock with
    | some _ => simp [ha, hb] at h
    | none =>
      cases hc : c.2.state.errLock with
      | some _ => simp [hb, hc] at h'
      | none =>
        simp only [ha, hb, hc] at h h' ⊢
        exact String.le_trans h h'
  | some i =>
    cases hc : c.2.state.errLock with
    | none => trivial
    | some k =>
      cases hb : b.2.state.errLock with
      | none => simp [hb, hc] at h'
      | some j =>
        simp only [ha, hb, hc] at h h' ⊢
        rcases h with h | ⟨rfl, h⟩
        · exact .inl (by omega)
        · exact h'.imp id fun h' => ⟨h'.1, String.le_trans h h'.2⟩

theorem errorOrder_total (a b : String × Entry) :
    (errorOrder a b || errorOrder b a) = true := by
  rw [Bool.or_eq_true, errorOrder_iff, errorOrder_iff]
  cases ha : a.2.state.errLock <;> cases hb : b.2.state.errLock
  · exact String.le_total _ _
  · exact .inr trivial
  · exact .inl trivial
  · next i j =>
    rcases Nat.lt_trichotomy i j with h | rfl | h
    · exact .inl (.inl h)
    · exact (String.le_total a.1 b.1).imp (fun h => .inr ⟨rfl, h⟩) fun h => .inr ⟨rfl, h⟩
    · exact .inr (.inl h)

section Listed

variable {m : Model} {r : Route}

theorem failing_iff {path : String} :
    m.Failing r path ↔ ∃ e ∈ m.failures r, e.1 = path := by
  constructor
  · rintro ⟨hunder, st, hst, herr⟩
    obtain ⟨e, he, rfl⟩ := Option.map_eq_some_iff.1 hst
    exact ⟨(path, e), (m.mem_failures r).2 ⟨he, hunder, herr⟩, rfl⟩
  · rintro ⟨e, he, rfl⟩
    obtain ⟨hget, hunder, herr⟩ := (m.mem_failures r).1 he
    exact ⟨hunder, e.2.state, by rw [state?, Records.state?, hget]; rfl, herr⟩

/-- Where paths are canonical, the paths of the list of errors are those of the records. -/
theorem errorsUnder_text
    (canonical : ∀ path st, m.state? path = some st → Path.normalize path = path) :
    (m.errorsUnder r).map Route.text = ((m.failures r).mergeSort errorOrder).map Prod.fst := by
  rw [errorsUnder_eq, List.map_map]
  refine List.map_congr_left fun e he => ?_
  obtain ⟨-, st, hst, -⟩ := failing_iff.2 ⟨e, List.mem_mergeSort.1 he, rfl⟩
  exact canonical e.1 st hst

/-- Where errors have numbers, and no two the same, the list is in the order of the numbers. -/
theorem pairwise_earlier (numbered : ∀ path, m.Failing r path → ∃ n, m.errorNumber? path = some n)
    (one : ∀ p q n, m.errorNumber? p = some n → m.errorNumber? q = some n → p = q) :
    (((m.failures r).mergeSort errorOrder).map Prod.fst).Pairwise m.Earlier := by
  rw [List.pairwise_map]
  have hsorted := List.pairwise_mergeSort errorOrder_trans errorOrder_total (m.failures r)
  have hapart : ((m.failures r).mergeSort errorOrder).Pairwise fun a b => a.1 ≠ b.1 :=
    ((List.mergeSort_perm _ _).pairwise_iff fun h he => h he.symm).2 (m.failures_apart r)
  refine (hsorted.and hapart).imp_of_mem fun {a b} ha hb h => ?_
  have number : ∀ e ∈ (m.failures r).mergeSort errorOrder,
      ∃ n, m.errorNumber? e.1 = some n ∧ e.2.state.errLock = some n := by
    intro e he
    have he := List.mem_mergeSort.1 he
    obtain ⟨n, hn⟩ := numbered e.1 (failing_iff.2 ⟨e, he, rfl⟩)
    have hst : m.state? e.1 = some e.2.state := by
      rw [state?, Records.state?, ((m.mem_failures r).1 he).1]
      rfl
    exact ⟨n, hn, by rwa [errorNumber?, hst] at hn⟩
  obtain ⟨i, hi, hai⟩ := number a ha
  obtain ⟨j, hj, hbj⟩ := number b hb
  have horder := (errorOrder_iff a b).1 h.1
  rw [hai, hbj] at horder
  refine ⟨i, j, hi, hj, horder.resolve_right ?_⟩
  rintro ⟨rfl, -⟩
  exact h.2 (one a.1 b.1 i hi hj)

theorem Earlier.asymm {p q : String} (h : m.Earlier p q) : ¬ m.Earlier q p := by
  obtain ⟨i, j, hi, hj, hlt⟩ := h
  rintro ⟨j', i', hj', hi', hlt'⟩
  rw [hi, Option.some.injEq] at hi'
  rw [hj, Option.some.injEq] at hj'
  omega

theorem Earlier.ne {p q : String} (h : m.Earlier p q) : p ≠ q := by
  rintro rfl
  exact h.asymm h

/-- What stands first in the order of the numbers is what is earlier than everything else. -/
theorem head?_eq_some_iff {paths : List String} (sorted : paths.Pairwise m.Earlier) {p : String} :
    paths.head? = some p ↔ p ∈ paths ∧ ∀ q ∈ paths, q ≠ p → m.Earlier p q := by
  cases paths with
  | nil => simp
  | cons first rest =>
    have hfirst : ∀ q ∈ rest, m.Earlier first q := (List.pairwise_cons.1 sorted).1
    rw [List.head?_cons, Option.some.injEq]
    constructor
    · rintro rfl
      exact ⟨List.mem_cons_self, fun q hq hne =>
        hfirst q ((List.mem_cons.1 hq).resolve_left hne)⟩
    · rintro ⟨hp, hleast⟩
      rcases List.mem_cons.1 hp with rfl | hp
      · rfl
      · have hlate := hfirst p hp
        exact absurd hlate (hleast first List.mem_cons_self hlate.ne).asymm

end Listed

end Model

namespace Overlap

/-- **The numbers of errors identify them.** Whatever runs and callers have done, an error has a
number and what has passed or was never judged has none, no number is above the counter, and no
number is found at two paths. Where the paths on record are canonical, the list of errors of a place
therefore holds each error at or under it once, in the order of their numbers, and the first error
is the one with the smallest. -/
theorem error_numbers {rule : Rule} {data : Tree} {config : ModelConfig} {hist : List Event}
    {s : Overlap} (trace : Trace (fresh rule data config) hist s) :
    (∀ path st, s.model.state? path = some st →
      (st.status = .error → ∃ n, st.errLock = some n) ∧
      (st.status = .success ∨ st.status = .pristine → st.errLock = none) ∧
      ∀ n, st.errLock = some n → n ≤ s.model.errors) ∧
    (∀ p q n, s.model.errorNumber? p = some n → s.model.errorNumber? q = some n → p = q) ∧
    ((∀ path st, s.model.state? path = some st → Path.normalize path = path) → ∀ r : Route,
      (∀ path, path ∈ (s.model.errorsUnder r).map Route.text ↔ s.model.Failing r path) ∧
      ((s.model.errorsUnder r).map Route.text).Nodup ∧
      ((s.model.errorsUnder r).map Route.text).Pairwise s.model.Earlier ∧
      ∀ path, (s.model.firstError? r).map Route.text = some path ↔
        s.model.Failing r path ∧
          ∀ other, s.model.Failing r other → other ≠ path → s.model.Earlier path other) := by
  have h : Tallied s := (Tallied.fresh rule data config).trace trace
  have failed : ∀ path st, s.model.state? path = some st → st.status = .error →
      ∃ n, st.errLock = some n := fun path st hst herr =>
    Option.isSome_iff_exists.1 ((h.sound path st (.onRecord hst)).failed herr)
  have one : ∀ p q n, s.model.errorNumber? p = some n → s.model.errorNumber? q = some n →
      p = q := by
    intro p q n hp hq
    obtain ⟨st, hst, hn⟩ := Option.bind_eq_some_iff.1 hp
    obtain ⟨st', hst', hn'⟩ := Option.bind_eq_some_iff.1 hq
    exact h.one p q st st' n (.onRecord hst) (.onRecord hst') hn hn'
  refine ⟨fun path st hst => ⟨failed path st hst, (h.sound path st (.onRecord hst)).passed,
    fun n => h.le path st n (.onRecord hst)⟩, one, fun canonical r => ?_⟩
  have numbered : ∀ path, s.model.Failing r path → ∃ n, s.model.errorNumber? path = some n := by
    rintro path ⟨-, st, hst, herr⟩
    obtain ⟨n, hn⟩ := failed path st hst herr
    exact ⟨n, by rw [Model.errorNumber?, hst, Option.bind_some, hn]⟩
  have hsorted := Model.pairwise_earlier numbered one
  have hmem : ∀ path, path ∈ ((s.model.failures r).mergeSort Model.errorOrder).map Prod.fst ↔
      s.model.Failing r path := by
    intro path
    rw [List.mem_map, Model.failing_iff]
    simp only [List.mem_mergeSort]
  rw [Model.firstError?, ← List.head?_map, Model.errorsUnder_text canonical]
  refine ⟨hmem, hsorted.imp Model.Earlier.ne, hsorted, fun path => ?_⟩
  rw [Model.head?_eq_some_iff hsorted]
  simp only [hmem]

/-- The rule of the schema that allows nothing at `/a` and nothing at `/b`. -/
def barredRule : Rule :=
  .node "#" [.leaf (.annotations none [] {}), .properties
    [.mk "a" false (.node "#/properties/a" [.leaf .never] {} {}),
    .mk "b" false (.node "#/properties/b" [.leaf .never] {} {})]] {} {}

/-- Three places fail, the root after what it holds, and the first of them is not the first by its
path. -/
theorem error_numbers_three :
    ∃ m, Call.validate.answer
        (Model.ofRule barredRule (some (.object [("a", .int 1), ("b", .int 2)])) {}) [] {}
        (fun _ => true) = (m, .finished false) ∧
      (∀ path ∈ ["/", "/a", "/b"], path ∈ (m.errorsUnder []).map Route.text) ∧
      (m.firstError? []).map Route.text = some "/a" := by
  obtain ⟨⟨m, result⟩, hx, hvalid, hlist, hnumbers, hpaths⟩ : ∃ x, Call.validate.answer
        (Model.ofRule barredRule (some (.object [("a", .int 1), ("b", .int 2)])) {}) [] {}
        (fun _ => true) = x ∧ x.2.valid? = some false ∧
      (x.1.failures []).map Prod.fst = ["/", "/a", "/b"] ∧
      ["/a", "/b", "/"].map x.1.errorNumber? = [some 1, some 2, some 3] ∧
      ∀ path ∈ x.1.records.paths, Path.normalize path = path :=
    ⟨_, rfl, by decide +kernel, by decide +kernel, by decide +kernel, by decide +kernel⟩
  obtain rfl : result = .finished false := RunResult.eq_of_valid? hvalid
  obtain ⟨es, s, run, before, returns, -⟩ := Trace.of_answer [] hx
  have canonical : ∀ path st, m.state? path = some st → Path.normalize path = path := by
    intro path st hst
    obtain ⟨e, he, -⟩ := Option.map_eq_some_iff.1 hst
    refine hpaths path (Std.TreeMap.mem_keys.2 (Std.TreeMap.mem_iff_isSome_getElem?.2 ?_))
    rw [show m.records.entries[path]? = some e from he]
    rfl
  have hfailing : ∀ path, m.Failing [] path ↔ path ∈ ["/", "/a", "/b"] := by
    intro path
    rw [← hlist, List.mem_map, Model.failing_iff]
  obtain ⟨hmem, -, -, hfirst⟩ := (error_numbers (before.snoc returns)).2.2 canonical []
  simp only [List.map_cons, List.map_nil, List.cons.injEq, and_true] at hnumbers
  obtain ⟨ha, hb, hroot⟩ := hnumbers
  refine ⟨m, hx, fun path hpath => (hmem path).2 ((hfailing path).2 hpath), (hfirst "/a").2
    ⟨(hfailing "/a").2 (by simp), fun other hother hne => ?_⟩⟩
  rcases List.mem_cons.1 ((hfailing other).1 hother) with rfl | hother
  · exact ⟨1, 3, ha, hroot, by decide⟩
  · rcases List.mem_cons.1 hother with rfl | hother
    · exact absurd rfl hne
    · obtain rfl := List.mem_singleton.1 hother
      exact ⟨1, 2, ha, hb, by decide⟩

end Overlap

end Conform

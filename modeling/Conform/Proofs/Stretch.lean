import Conform.Proofs.Moves

/-!
# What a stretch of a run leaves alone

Between the request of a walk and its outcome a run may enter, settle and write any number of
places. All the same it is the run that it was, it clears no ground and stamps no record with a
number above its own, it changes no dirty flag, and where it keeps to dirty places it leaves the
states of the others alone. What it has visited and the changes of values it has told of only grow.
-/

namespace Conform

namespace Model

/-- The changes of values that have been told of. -/
def changes (m : Model) : List (String × Option Value) :=
  m.journal.filterMap fun
    | .valueChanged path value => some (path, value)
    | _ => none

theorem entry_update (m : Model) (path q : String) (f : Entry → Entry) :
    (m.update path f).entry q = if path = q then f (m.entry q) else m.entry q := by
  by_cases h : path = q
  · subst q
    simp [entry, update, Records.get, Records.get?_update_self]
  · simp [entry, update, Records.get, Records.get?_update_ne _ h, h]

theorem entry_commit_dirty (m : Model) (path q : String) (s : State) :
    ((m.commit path s).entry q).dirty = (m.entry q).dirty := by
  unfold commit
  split
  · show ((m.update path _).entry q).dirty = _
    rw [entry_update]
    split <;> rfl
  · rfl

/-- A commit tells of a state only, which is nothing to those who look for other events. -/
theorem commit_journal {α : Type} {f : ModelEvent → Option α}
    (other : ∀ path s, f (.stateChanged path s) = none) (m : Model) (path : String) (s : State) :
    (m.commit path s).journal.filterMap f = m.journal.filterMap f := by
  unfold commit
  split
  · exact List.filterMap_cons_none (other path s)
  · rfl

theorem commit_tree (m : Model) (path : String) (s : State) : (m.commit path s).tree = m.tree := by
  unfold commit
  split <;> rfl

theorem commit_config (m : Model) (path : String) (s : State) :
    (m.commit path s).config = m.config := by
  unfold commit
  split <;> rfl

theorem write_config (m : Model) (r : Route) (v : Option Value) :
    (m.write r v).model.config = m.config := by
  unfold write
  split
  · rfl
  · dsimp only
    split <;> rfl

/-- What holds of the tree before a write, and of the tree with the value set, holds after it. -/
theorem write_tree {P : Tree → Prop} {m : Model} {r : Route} {v : Option Value} (h : P m.tree)
    (set : P (Tree.set m.tree r v).result) : P (m.write r v).model.tree := by
  unfold write
  split
  · exact h
  · dsimp only
    split <;> exact set

/-- A write tells of a change, unless the value is there already or the write is refused. -/
theorem write_changes (m : Model) (r : Route) (v : Option Value) :
    (m.write r v).model.changes = m.changes ∨
      (m.write r v).model.changes = (r.text, v) :: m.changes := by
  unfold write
  split
  · exact .inl rfl
  · dsimp only
    split
    · exact .inl rfl
    · exact .inr rfl

section

variable {m : Model} {r : Route} {v : Option Value}

theorem write_refused (new : sameValue? (m.tree.get? r) v = false) {e : PathError}
    (h : (Tree.set m.tree r v).refusal = some e) : (m.write r v).result = .error e := by
  simp [write, new, h]

theorem write_same (same : sameValue? (m.tree.get? r) v = true) : m.write r v = ⟨m, .ok false⟩ :=
  if_pos same

theorem write_new_tree (new : sameValue? (m.tree.get? r) v = false) :
    (m.write r v).model.tree = (Tree.set m.tree r v).result := by
  cases h : (Tree.set m.tree r v).refusal <;> simp only [write, new, h] <;> rfl

/-- A value that was not there yet is there from then on, and told of. -/
theorem write_done (new : sameValue? (m.tree.get? r) v = false)
    (h : (Tree.set m.tree r v).refusal = none) :
    (m.write r v).result = .ok true ∧ (m.write r v).model.tree = (Tree.set m.tree r v).result ∧
      (m.write r v).model.changes = (r.text, v) :: m.changes := by
  simp only [write, new, h, Bool.false_eq_true, if_false, true_and]
  exact ⟨rfl, rfl⟩

end

end Model

namespace Progress

variable (p : Progress) (route : Route) (scope : Scope)

theorem enter_commits : (p.enter route scope).2.commits =
    (!p.model.records.superseded route.text p.run.ordinal &&
      (!p.run.options.onlyDirtyRefs || (p.model.entry route.text).dirty)) := by
  unfold enter
  dsimp only
  split <;> simp_all

theorem enter_tree : (p.enter route scope).1.model.tree = p.model.tree := by
  unfold enter
  dsimp only
  split
  · rfl
  · dsimp only
    split
    · exact Model.commit_tree _ _ _
    · rfl

section

variable {α : Type} {f : ModelEvent → Option α}

theorem enter_journal (other : ∀ path s, f (.stateChanged path s) = none) :
    (p.enter route scope).1.model.journal.filterMap f = p.model.journal.filterMap f := by
  unfold enter
  dsimp only
  split
  · rfl
  · dsimp only
    split
    · exact Model.commit_journal other _ _ _
    · rfl

theorem settle_journal (other : ∀ path s, f (.stateChanged path s) = none) (t : Ticket)
    (o : Outcome) : (p.settle t o).model.journal.filterMap f = p.model.journal.filterMap f := by
  unfold settle
  dsimp only
  split
  · rfl
  · exact Model.commit_journal other _ _ _

end

theorem enter_changes : (p.enter route scope).1.model.changes = p.model.changes :=
  p.enter_journal route scope fun _ _ => rfl

theorem enter_config : (p.enter route scope).1.model.config = p.model.config := by
  unfold enter
  dsimp only
  split
  · rfl
  · dsimp only
    split
    · exact Model.commit_config _ _ _
    · rfl

theorem enter_dirty (q : String) :
    ((p.enter route scope).1.model.entry q).dirty = (p.model.entry q).dirty := by
  have hflag : ∀ b : Bool, ((p.model.update route.text fun e =>
      { e with validated := e.validated || b }).entry q).dirty = (p.model.entry q).dirty := by
    intro b
    rw [Model.entry_update]
    split <;> rfl
  unfold enter
  dsimp only
  split
  · rfl
  · dsimp only
    split
    · rw [Model.entry_commit_dirty]
      exact hflag _
    · exact hflag _

variable (t : Ticket) (o : Outcome)

/-- Of the run itself nothing changes but what it may have computed. -/
theorem settle_same : ∃ computed, (p.settle t o).run = { p.run with computed } := by
  rw [settle_run]
  split
  · exact ⟨_, rfl⟩
  · exact ⟨_, rfl⟩

theorem settle_tree : (p.settle t o).model.tree = p.model.tree := by
  unfold settle
  dsimp only
  split
  · rfl
  · exact Model.commit_tree _ _ _

theorem settle_changes : (p.settle t o).model.changes = p.model.changes :=
  p.settle_journal (fun _ _ => rfl) t o

theorem settle_config : (p.settle t o).model.config = p.model.config := by
  unfold settle
  dsimp only
  split
  · rfl
  · exact Model.commit_config _ _ _

theorem settle_dirty (q : String) :
    ((p.settle t o).model.entry q).dirty = (p.model.entry q).dirty := by
  unfold settle
  dsimp only
  split
  · rfl
  · exact Model.entry_commit_dirty _ _ _ _

theorem rollBack_tree : (p.rollBack t).model.tree = p.model.tree := by
  unfold rollBack
  split <;> rfl

/-- No record is stamped with a number above that of the run. -/
def Newest (p : Progress) : Prop :=
  ∀ q st, p.model.state? q = some st → st.valLock ≤ p.run.ordinal

theorem Newest.mayCommit {p : Progress} (h : p.Newest) {q : String}
    (open_ : p.model.records.superseded q p.run.ordinal = false) :
    p.model.mayCommit q p.run.ordinal = true := by
  rw [Model.mayCommit_iff]
  exact ⟨open_, Model.valLock_le_of_record (h q)⟩

/-- Whether the run commits at a path where no newer run has cleared the ground. -/
def commitsAt (p : Progress) (path : String) : Bool :=
  !p.run.options.onlyDirtyRefs || (p.model.entry path).dirty

/-- What holds between two moments of a run that has met no error in between. -/
structure Keeps (p p' : Progress) : Prop where
  ordinal : p'.run.ordinal = p.run.ordinal
  target : p'.run.target = p.run.target
  options : p'.run.options = p.run.options
  kept : p.model.Kept p'.model
  config : p'.model.config = p.model.config
  newest : p.Newest → p'.Newest
  dirty : ∀ q, (p'.model.entry q).dirty = (p.model.entry q).dirty
  idle : ∀ q, p.commitsAt q = false → (p'.model.entry q).state = (p.model.entry q).state
  visited : ∀ q, p.run.visited.contains q = true → p'.run.visited.contains q = true
  changes : p.model.changes.length ≤ p'.model.changes.length

namespace Keeps

variable {p p' p'' : Progress}

theorem refl (p : Progress) : p.Keeps p :=
  ⟨rfl, rfl, rfl, .refl _, rfl, id, fun _ => rfl, fun _ _ => rfl, fun _ => id, Nat.le_refl _⟩

theorem commitsAt (h : p.Keeps p') (q : String) : p'.commitsAt q = p.commitsAt q := by
  rw [Progress.commitsAt, Progress.commitsAt, h.options, h.dirty]

theorem trans (h : p.Keeps p') (h' : p'.Keeps p'') : p.Keeps p'' where
  ordinal := h'.ordinal.trans h.ordinal
  target := h'.target.trans h.target
  options := h'.options.trans h.options
  kept := h.kept.trans h'.kept
  config := h'.config.trans h.config
  newest hn := h'.newest (h.newest hn)
  dirty q := (h'.dirty q).trans (h.dirty q)
  idle q hq := (h'.idle q (by rw [h.commitsAt, hq])).trans (h.idle q hq)
  visited q hq := h'.visited q (h.visited q hq)
  changes := Nat.le_trans h.changes h'.changes

theorem fromRoot (h : p.Keeps p') : p'.run.fromRoot = p.run.fromRoot := by
  rw [Run.fromRoot, Run.fromRoot, h.target]

end Keeps

theorem discover_keeps (d : Declaration) : p.Keeps ⟨p.run.discover route d, p.model⟩ where
  ordinal := by simp
  target := by simp
  options := by simp
  kept := .refl _
  config := rfl
  newest hn q st hq := by
    simp only [Run.discover_ordinal]
    exact hn q st hq
  dirty _ := rfl
  idle _ _ := rfl
  visited q hq := by
    simp only [Run.discover_visited]
    exact hq
  changes := Nat.le_refl _

theorem enter_keeps : p.Keeps (p.enter route scope).1 := by
  have hrun := p.enter_run route scope
  refine ⟨by rw [hrun]; rfl, by rw [hrun]; rfl, by rw [hrun]; rfl, p.enter_kept route scope,
    p.enter_config route scope, ?_, p.enter_dirty route scope, ?_, ?_,
    Nat.le_of_eq (by rw [p.enter_changes route scope])⟩
  · intro hn q st hq
    rw [hrun]
    cases hs : p.model.records.superseded route.text p.run.ordinal with
    | true =>
      rw [(p.enter_cleared route scope hs).1] at hq
      exact hn q st hq
    | false =>
      obtain ⟨commits, -, -, hstate⟩ := p.enter_found route scope hs
      rw [hstate] at hq
      have hfound : ((p.model.state? q).getD {}).valLock ≤ p.run.ordinal :=
        Model.valLock_le_of_record (hn q)
      split at hq
      · cases hq
        split
        · exact Nat.le_refl _
        · exact hfound
      · exact hn q st hq
  · intro q hq
    rw [Model.entry_state, Model.entry_state]
    cases hs : p.model.records.superseded route.text p.run.ordinal with
    | true => rw [(p.enter_cleared route scope hs).1]
    | false =>
      obtain ⟨commits, -, ht, hstate⟩ := p.enter_found route scope hs
      rw [hstate]
      split
      · next hroute =>
        subst hroute
        have hc := p.enter_commits route scope
        rw [ht, hs] at hc
        simp only [Bool.not_false, Bool.true_and] at hc
        rw [if_neg]
        · rfl
        · rintro ⟨hcommits, -⟩
          rw [commitsAt, ← hc, hcommits] at hq
          cases hq
      · rfl
  · intro q hq
    rw [hrun, Run.visit_contains]
    exact .inr hq

/-- A place is settled on behalf of a ticket that was given out at a place where the run commits. -/
theorem settle_keeps {p : Progress} {t : Ticket} (ht : t.commits = true → p.commitsAt t.route.text)
    (o : Outcome) : p.Keeps (p.settle t o) := by
  obtain ⟨computed, hrun⟩ := p.settle_same t o
  refine ⟨by rw [hrun], by rw [hrun], by rw [hrun], p.settle_kept t o, p.settle_config t o, ?_,
    p.settle_dirty t o, ?_, fun q hq => by rw [hrun]; exact hq,
    Nat.le_of_eq (by rw [p.settle_changes t o])⟩
  · intro hn q st hq
    rw [hrun]
    rw [settle_state?] at hq
    split at hq
    · cases hq
      exact Nat.le_refl _
    · exact hn q st hq
  · intro q hq
    rw [Model.entry_state, Model.entry_state, settle_state?, if_neg]
    rintro ⟨hc, hroute, -⟩
    rw [← hroute, ht hc] at hq
    cases hq

/-- A whole visit, with what happens within. -/
theorem Keeps.visit {p p' : Progress} {route : Route} {scope : Scope}
    (h : (p.enter route scope).1.Keeps p') (o : Outcome) :
    p.Keeps (p'.settle (p.enter route scope).2 o) := by
  have hkeeps := (p.enter_keeps route scope).trans h
  refine hkeeps.trans (settle_keeps (fun hc => ?_) o)
  rw [p.enter_commits, Bool.and_eq_true] at hc
  rw [hkeeps.commitsAt, p.enter_route]
  exact hc.2

theorem write_keeps (r : Route) (v : Option Value) :
    p.Keeps ⟨p.run, (p.model.write r v).model⟩ where
  ordinal := rfl
  target := rfl
  options := rfl
  kept := (p.model.write_records r v).toKept
  config := p.model.write_config r v
  newest hn q st hq := hn q st (by rw [← (p.model.write_records r v).state? q]; exact hq)
  dirty q := by rw [Model.entry, (p.model.write_records r v).records]; rfl
  idle q _ := by rw [Model.entry, (p.model.write_records r v).records]; rfl
  visited _ := id
  changes := by
    rcases p.model.write_changes r v with h | h <;> simp [h]

/-- The three ways in which the run meets a place. -/
theorem meet_cases (d : Declaration) :
    (p.run.discover route d).classify route d = .unrelated ∧
        p.meet route d = (⟨p.run.discover route d, p.model⟩, .passed) ∨
      (p.run.discover route d).classify route d = .parent ∧
        p.meet route d = (⟨p.run.discover route d, p.model⟩, .through) ∨
      ∃ scope, (p.run.discover route d).classify route d = scope ∧
        (scope = .validating ∨ scope = .preparing) ∧
        p.meet route d = ((enter ⟨p.run.discover route d, p.model⟩ route scope).1,
          .entered (enter ⟨p.run.discover route d, p.model⟩ route scope).2) := by
  unfold meet
  dsimp only
  cases (p.run.discover route d).classify route d with
  | unrelated => exact .inl ⟨rfl, rfl⟩
  | parent => exact .inr (.inl ⟨rfl, rfl⟩)
  | validating => exact .inr (.inr ⟨_, rfl, .inl rfl, rfl⟩)
  | preparing => exact .inr (.inr ⟨_, rfl, .inr rfl, rfl⟩)

end Progress

/-- A walk that comes to its outcome has done nothing else. -/
theorem Walk.drive_keeps {isOpen : String → Bool} {w : Walk} {p p' : Progress} {o : Outcome}
    (h : w.drive isOpen p = .done o p') : p.Keeps p' := by
  induction w generalizing p p' o with
  | done o => cases h; exact .refl p
  | fail e => cases h
  | read r next ih => exact ih _ h
  | write r v next ih =>
    simp only [drive] at h
    split at h
    · cases h
    · exact (p.write_keeps r v).trans (ih h)
  | await g next ih =>
    simp only [drive] at h
    split at h
    · exact ih h
    · cases h
  | visit r d hint body next ihb ihn =>
    simp only [drive] at h
    rcases p.meet_cases r d with ⟨-, hm⟩ | ⟨-, hm⟩ | ⟨scope, -, -, hm⟩
    · simp only [hm] at h
      exact (p.discover_keeps r d).trans (ihn _ h)
    · simp only [hm] at h
      split at h
      · next hb => exact (p.discover_keeps r d).trans ((ihb _ hb).trans (ihn _ h))
      · cases h
      · cases h
    · simp only [hm] at h
      split at h
      · next o₁ p₁ hb =>
        exact (p.discover_keeps r d).trans (((ihb _ hb).visit _).trans (ihn _ h))
      · cases h
      · cases h

namespace Active

/-- The ways in which a run takes a step on model `m`, with what they leave of the walk and of the
visits around it. -/
inductive Moved (m : Model) : Active → Active → Model → Prop where
  | ended {run o next frames} :
      Moved m ⟨run, .done o, .through next :: frames⟩ ⟨run, next Outcome.silent, frames⟩ m
  | settled {run o t hint next frames} {p : Progress}
      (settle : Progress.settle ⟨run, m⟩ t (Outcome.merge [hint, o]) = p) :
      Moved m ⟨run, .done o, .entered t hint next :: frames⟩
        ⟨p.run, next (Outcome.merge [hint, o]), frames⟩ p.model
  | broken {run e next frames} :
      Moved m ⟨run, .fail e, .through next :: frames⟩ ⟨run, .fail e, frames⟩ m
  | rolledBack {run e t hint next frames} {p : Progress}
      (rollBack : Progress.rollBack ⟨run, m⟩ t = p) :
      Moved m ⟨run, .fail e, .entered t hint next :: frames⟩ ⟨p.run, .fail e, frames⟩ p.model
  | read {run r next frames} :
      Moved m ⟨run, .read r next, frames⟩ ⟨run, next (m.tree.get? r), frames⟩ m
  | refused {run r v next frames e} (error : (m.write r v).result = .error e) :
      Moved m ⟨run, .write r v next, frames⟩ ⟨run, .fail (.storage e), frames⟩ (m.write r v).model
  | written {run r v next frames u} (ok : (m.write r v).result = .ok u) :
      Moved m ⟨run, .write r v next, frames⟩ ⟨run, next, frames⟩ (m.write r v).model
  | resumed {run g next frames} : Moved m ⟨run, .await g next, frames⟩ ⟨run, next, frames⟩ m
  | passed {run : Run} {r d hint body next frames}
      (meet : Progress.meet ⟨run, m⟩ r d = (⟨run.discover r d, m⟩, .passed)) :
      Moved m ⟨run, .visit r d hint body next, frames⟩
        ⟨run.discover r d, next Outcome.silent, frames⟩ m
  | through {run : Run} {r d hint body next frames}
      (meet : Progress.meet ⟨run, m⟩ r d = (⟨run.discover r d, m⟩, .through)) :
      Moved m ⟨run, .visit r d hint body next, frames⟩
        ⟨run.discover r d, body .structural, .through next :: frames⟩ m
  | entered {run : Run} {r d hint body next frames scope t} {p : Progress}
      (meet : Progress.meet ⟨run, m⟩ r d = (p, .entered t))
      (enter : Progress.enter ⟨run.discover r d, m⟩ r scope = (p, t)) :
      Moved m ⟨run, .visit r d hint body next, frames⟩
        ⟨p.run, body .full, .entered t hint next :: frames⟩ p.model

theorem moved {a a' : Active} {m m' : Model} (h : a.next? m = some (a', m')) :
    Moved m a a' m' := by
  obtain ⟨run, rest, frames⟩ := a
  cases rest with
  | done o =>
    cases frames with
    | nil => cases h
    | cons f frames =>
      cases f with
      | through next =>
        cases h
        exact .ended
      | entered t hint next =>
        cases h
        exact .settled rfl
  | fail e =>
    cases frames with
    | nil => cases h
    | cons f frames =>
      cases f with
      | through next =>
        cases h
        exact .broken
      | entered t hint next =>
        cases h
        exact .rolledBack rfl
  | read r next =>
    cases h
    exact .read
  | write r v next =>
    simp only [next?] at h
    split at h
    · next e he =>
      cases h
      exact .refused he
    · next u hu =>
      cases h
      exact .written hu
  | await g next =>
    cases h
    exact .resumed
  | visit r d hint body next =>
    simp only [next?, beginVisit] at h
    rcases Progress.meet_cases ⟨run, m⟩ r d with ⟨-, hm⟩ | ⟨-, hm⟩ | ⟨scope, -, -, hm⟩
    · rw [hm] at h
      cases h
      exact .passed hm
    · rw [hm] at h
      cases h
      exact .through hm
    · rw [hm] at h
      cases h
      exact .entered hm rfl

end Active

end Conform

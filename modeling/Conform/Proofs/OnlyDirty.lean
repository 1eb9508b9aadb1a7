import Conform.Proofs.Deepest
import Conform.Proofs.Dirty
import Conform.Proofs.Spared

/-!
# Keeping to dirty places

A run that keeps to dirty places goes wherever it would have gone otherwise. It reads the tree only,
so that it commits nothing at a place changes neither its way nor what it writes and judges, and it
makes the records of all places that it enters. `Alike` says this of two runs that have come equally
far on one model, one of which keeps to dirty places.

The two do not answer in the same way. A run that commits at its target answers with the state that
it finds there in the end, the other one with what it has computed. `Aims` says that these are the
same, as long as the target shares its record with no other place.
-/

namespace Conform

namespace Progress

variable (p : Progress) {q : String}

/-- Entering a place leaves the entries of all paths alone, but that of the place where it commits
there. A record may have been made. -/
theorem enter_entry (route : Route) (scope : Scope)
    (idle : (p.enter route scope).2.commits = true → route.text ≠ q) :
    (p.enter route scope).1.model.entry q = p.model.entry q := by
  cases hs : p.model.records.superseded route.text p.run.ordinal with
  | true => rw [(p.enter_cleared route scope hs).1]
  | false =>
    rw [p.enter_commits, hs, Bool.not_false, Bool.true_and] at idle
    simp only [enter, hs, Bool.false_eq_true, if_false]
    cases hc : (!p.run.options.onlyDirtyRefs || (p.model.entry route.text).dirty) with
    | true =>
      rw [if_pos rfl, Model.entry, Records.get, Model.commit_get?_ne (idle hc), Model.update,
        Records.get?_update_ne _ (idle hc)]
      rfl
    | false =>
      -- the one change is that of a flag which is left as it is
      simp only [Bool.false_and, Bool.or_false, Bool.false_eq_true, if_false]
      rw [Model.entry_update]
      split <;> rfl

theorem settle_entry {t : Ticket} (idle : t.commits = true → t.route.text ≠ q) (o : Outcome) :
    (p.settle t o).model.entry q = p.model.entry q := by
  cases hc : t.commits with
  | false => simp [settle, hc]
  | true =>
    simp only [settle, hc, Bool.not_true, Bool.false_eq_true, if_false]
    rw [Model.entry, Records.get, Model.commit_get?_ne (idle hc)]
    rfl

theorem rollBack_entry {t : Ticket} (idle : t.commits = true → t.route.text ≠ q) :
    (p.rollBack t).model.entry q = p.model.entry q := by
  cases hc : t.commits with
  | false => simp [rollBack, hc]
  | true =>
    rw [rollBack, if_pos hc, Model.entry, Records.get, Model.rollBack_get?_ne (idle hc)]
    rfl

end Progress

theorem Model.ne_of_clean {m : Model} {path other : String} (dirty : (m.entry other).dirty = true)
    (clean : (m.entry path).dirty = false) : other ≠ path := by
  rintro rfl
  rw [dirty] at clean
  cases clean

namespace Progress

/-- One run keeps to dirty places, the other does not, and both have come equally far: they have
made the records of the same places on the same tree. What was not dirty in `m`, on which they have
begun, the first one has left as it was there. -/
structure Alike (m : Model) (p q : Progress) : Prop where
  run : p.run = { q.run with options := { q.run.options with onlyDirtyRefs := true } }
  full : q.run.options.onlyDirtyRefs = false
  tree : p.model.tree = q.model.tree
  paths : ∀ path, (p.model.state? path).isSome = (q.model.state? path).isSome
  met : ∀ path, p.run.visited.contains path = true → (p.model.state? path).isSome = true
  dirty : ∀ path, (p.model.entry path).dirty = (m.entry path).dirty
  clean : ∀ path, (m.entry path).dirty = false → p.model.entry path = m.entry path

namespace Alike

variable {m : Model} {p q : Progress} (h : Alike m p q)
include h

theorem discover (route : Route) (d : Declaration) :
    Alike m ⟨p.run.discover route d, p.model⟩ ⟨q.run.discover route d, q.model⟩ where
  run := by
    rw [h.run]
    by_cases hd : (!q.run.fromRoot) = true ∧ q.run.dependsOnTarget route d = true
    · rw [Run.discover, Run.discover, if_pos hd]
      exact if_pos hd
    · rw [Run.discover, Run.discover, if_neg hd]
      exact if_neg hd
  full := by
    rw [Run.discover_options]
    exact h.full
  tree := h.tree
  paths := h.paths
  met path hv := h.met path (by rwa [Run.discover_visited] at hv)
  dirty := h.dirty
  clean := h.clean

theorem classify (route : Route) (d : Declaration) :
    p.run.classify route d = q.run.classify route d := by
  rw [h.run]
  rfl

/-- The run that keeps to dirty places commits at those of them only that were dirty before. -/
theorem dirty_of_commits {route : Route} {scope : Scope}
    (hc : (p.enter route scope).2.commits = true) : (m.entry route.text).dirty = true := by
  have honly : p.run.options.onlyDirtyRefs = true := by
    rw [h.run]
  rw [p.enter_commits, honly, Bool.not_true, Bool.false_or, Bool.and_eq_true] at hc
  rw [← h.dirty]
  exact hc.2

theorem enter (hp : p.Foremost) (hq : q.Foremost) (route : Route) (scope : Scope) :
    Alike m (p.enter route scope).1 (q.enter route scope).1 := by
  obtain ⟨_, -, -, hps⟩ := p.enter_found route scope (hp.open_ _)
  obtain ⟨_, -, -, hqs⟩ := q.enter_found route scope (hq.open_ _)
  refine ⟨?_, ?_, ?_, fun path => ?_, fun path hv => ?_, fun path => ?_, fun path hclean => ?_⟩
  · rw [enter_run, enter_run, h.run]
    rfl
  · rw [enter_run]
    exact h.full
  · rw [enter_tree, enter_tree, h.tree]
  · rw [hps, hqs]
    split
    · rfl
    · exact h.paths path
  · rw [hps]
    split
    · rfl
    · next hne =>
      rw [enter_run, Run.visit_contains] at hv
      exact h.met path (hv.resolve_left hne)
  · rw [enter_dirty, h.dirty]
  · rw [p.enter_entry route scope fun hc => Model.ne_of_clean (h.dirty_of_commits hc) hclean,
      h.clean path hclean]

/-- What holds of the visit of one place by both runs. -/
structure Paired (m : Model) (p : Progress) (t t' : Ticket) : Prop where
  route : t'.route = t.route
  dirty : t.commits = true → (m.entry t.route.text).dirty = true
  met : p.run.visited.contains t.route.text = true

omit h in
theorem Paired.of_keeps {t t' : Ticket} (ht : Paired m p t t') {p' : Progress} (hk : p.Keeps p') :
    Paired m p' t t' := ⟨ht.route, ht.dirty, hk.visited _ ht.met⟩

theorem paired (route : Route) (scope : Scope) :
    Paired m (p.enter route scope).1 (p.enter route scope).2 (q.enter route scope).2 where
  route := by rw [enter_route, enter_route]
  dirty hc := by
    rw [enter_route]
    exact h.dirty_of_commits hc
  met := by
    rw [enter_run, enter_route, Run.visit_contains]
    exact .inl rfl

theorem settle {t t' : Ticket} (ht : Paired m p t t') (o : Outcome) :
    Alike m (p.settle t o) (q.settle t' o) := by
  have hmet := h.met _ ht.met
  have hmet' := (h.paths _).symm.trans hmet
  have hps : ∀ path, ((p.settle t o).model.state? path).isSome = (p.model.state? path).isSome := by
    intro path
    rw [settle_state?]
    split
    · next hc => rw [← hc.2.1, hmet]; rfl
    · rfl
  have hqs : ∀ path, ((q.settle t' o).model.state? path).isSome = (q.model.state? path).isSome := by
    intro path
    rw [settle_state?]
    split
    · next hc => rw [← hc.2.1, ht.route, hmet']; rfl
    · rfl
  refine ⟨?_, ?_, ?_, fun path => ?_, fun path hv => ?_, fun path => ?_, fun path hclean => ?_⟩
  · rw [settle_run, settle_run, ht.route, h.run]
    split <;> rfl
  · obtain ⟨computed, hrun⟩ := q.settle_same t' o
    rw [hrun]
    exact h.full
  · rw [settle_tree, settle_tree, h.tree]
  · rw [hps, hqs, h.paths]
  · obtain ⟨computed, hrun⟩ := p.settle_same t o
    rw [hrun] at hv
    rw [hps, h.met path hv]
  · rw [settle_dirty, h.dirty]
  · rw [p.settle_entry (fun hc => Model.ne_of_clean (ht.dirty hc) hclean) o, h.clean path hclean]

theorem rollBack {t t' : Ticket} (ht : t.commits = true → (m.entry t.route.text).dirty = true) :
    Alike m (p.rollBack t) (q.rollBack t') := by
  -- a state is put back where there is one
  have hps : ∀ (p : Progress) (t : Ticket) path,
      ((p.rollBack t).model.state? path).isSome = (p.model.state? path).isSome := by
    intro p t path
    rw [rollBack_state?]
    split
    · next hc =>
      obtain ⟨-, -, st, hst, -⟩ := hc
      rw [hst]
      rfl
    · rfl
  refine ⟨?_, ?_, ?_, fun path => ?_, fun path hv => ?_, fun path => ?_, fun path hclean => ?_⟩
  · rw [rollBack_run, rollBack_run, h.run]
  · rw [rollBack_run]
    exact h.full
  · rw [rollBack_tree, rollBack_tree, h.tree]
  · rw [hps, hps, h.paths]
  · rw [rollBack_run] at hv
    rw [hps, h.met path hv]
  · rw [Progress.rollBack]
    split
    · rw [Model.rollBack_dirty, h.dirty]
    · exact h.dirty path
  · rw [p.rollBack_entry fun hc => Model.ne_of_clean (ht hc) hclean, h.clean path hclean]

theorem write_result (r : Route) (v : Option Value) :
    (p.model.write r v).result = (q.model.write r v).result := by
  unfold Model.write
  rw [h.tree]
  split
  · rfl
  · dsimp only
    split <;> rfl

theorem write (r : Route) (v : Option Value) :
    Alike m ⟨p.run, (p.model.write r v).model⟩ ⟨q.run, (q.model.write r v).model⟩ := by
  have hps := p.model.write_records r v
  have hqs := q.model.write_records r v
  refine ⟨h.run, h.full, ?_, fun path => ?_, fun path hv => ?_, fun path => ?_,
    fun path hclean => ?_⟩
  · unfold Model.write
    rw [h.tree]
    split
    · exact h.tree
    · dsimp only
      split <;> rfl
  · rw [hps.state?, hqs.state?, h.paths]
  · rw [hps.state?, h.met path hv]
  · rw [Model.entry, hps.records]
    exact h.dirty path
  · rw [Model.entry, hps.records]
    exact h.clean path hclean

end Alike

/-- Both runs meet a place in the same way. -/
theorem Alike.meet {m : Model} {p q : Progress} (h : Alike m p q) (r : Route) (d : Declaration) :
    (p.meet r d = (⟨p.run.discover r d, p.model⟩, .passed) ∧
      q.meet r d = (⟨q.run.discover r d, q.model⟩, .passed)) ∨
    (p.meet r d = (⟨p.run.discover r d, p.model⟩, .through) ∧
      q.meet r d = (⟨q.run.discover r d, q.model⟩, .through)) ∨
    ∃ scope, p.meet r d = ((Progress.enter ⟨p.run.discover r d, p.model⟩ r scope).1,
        .entered (Progress.enter ⟨p.run.discover r d, p.model⟩ r scope).2) ∧
      q.meet r d = ((Progress.enter ⟨q.run.discover r d, q.model⟩ r scope).1,
        .entered (Progress.enter ⟨q.run.discover r d, q.model⟩ r scope).2) := by
  have hclassify := (h.discover r d).classify r d
  unfold Progress.meet
  dsimp only at hclassify ⊢
  rw [hclassify]
  cases (q.run.discover r d).classify r d with
  | unrelated => exact .inl ⟨rfl, rfl⟩
  | parent => exact .inr (.inl ⟨rfl, rfl⟩)
  | validating => exact .inr (.inr ⟨_, rfl, rfl⟩)
  | preparing => exact .inr (.inr ⟨_, rfl, rfl⟩)

end Progress

/-- Two runs that have come equally far to one outcome, or to one error. -/
inductive Stop.Alike (m : Model) : Stop → Stop → Prop where
  | done (o : Outcome) {p q : Progress} (alike : p.Alike m q) : Alike m (.done o p) (.done o q)
  | failed (e : RuleError) {p q : Progress} (alike : p.Alike m q) :
    Alike m (.failed e p) (.failed e q)

/-- **Dirty places make no difference to the way.** Two runs that have come equally far, and serve
one walk of built-in keywords, go on alike. -/
theorem Walk.Confined.alike {w : Walk} {place : Route} {known : Tree → Prop}
    (h : w.Confined place known) (isOpen : String → Bool) {m : Model} {p q : Progress}
    (alike : p.Alike m q) (hp : p.Foremost) (hq : q.Foremost) :
    (w.drive isOpen p).Alike m (w.drive isOpen q) := by
  induction w generalizing place known p q with
  | done o => exact .done o alike
  | fail e => exact .failed e alike
  | read r next ih =>
    rw [drive, drive, alike.tree]
    exact ih _ (h.2 _) alike hp hq
  | write r v next ih =>
    have hwritten := alike.write r v
    have hresult := alike.write_result r v
    simp only [drive]
    cases hw : (q.model.write r v).result with
    | error e =>
      simp only [hresult.trans hw]
      exact .failed _ hwritten
    | ok u =>
      simp only [hresult.trans hw]
      exact ih h.2.2.2 hwritten (hp.of_keeps (p.write_keeps r v)) (hq.of_keeps (q.write_keeps r v))
  | await g next ih => exact absurd h id
  | visit r d hint body next ihb ihn =>
    have hfound := alike.discover r d
    have hpd := hp.of_keeps (p.discover_keeps r d)
    have hqd := hq.of_keeps (q.discover_keeps r d)
    simp only [drive]
    rcases alike.meet r d with ⟨hm, hm'⟩ | ⟨hm, hm'⟩ | ⟨scope, hm, hm'⟩
    · simp only [hm, hm']
      exact ihn _ (h.2.2 _) hfound hpd hqd
    · simp only [hm, hm']
      have hinner := ihb .structural (h.2.1 .structural) hfound hpd hqd
      generalize hb : (body .structural).drive isOpen ⟨p.run.discover r d, p.model⟩ = x at hinner
      generalize hb' : (body .structural).drive isOpen ⟨q.run.discover r d, q.model⟩ = y at hinner
      cases hinner with
      | done o alike₁ =>
        exact ihn _ (h.2.2 _) alike₁ (hpd.of_keeps (drive_keeps hb))
          (hqd.of_keeps (drive_keeps hb'))
      | failed e alike₁ => exact .failed e alike₁
    · simp only [hm, hm']
      have hpaired := hfound.paired r scope
      have hinner := ihb .full (h.2.1 .full) (hfound.enter hpd hqd r scope)
        (hpd.of_keeps (Progress.enter_keeps _ r scope))
        (hqd.of_keeps (Progress.enter_keeps _ r scope))
      generalize hb : (body .full).drive isOpen
        (Progress.enter ⟨p.run.discover r d, p.model⟩ r scope).1 = x at hinner
      generalize hb' : (body .full).drive isOpen
        (Progress.enter ⟨q.run.discover r d, q.model⟩ r scope).1 = y at hinner
      cases hinner with
      | done o alike₁ =>
        exact ihn _ (h.2.2 _) (alike₁.settle (hpaired.of_keeps (drive_keeps hb)) _)
          (hpd.of_keeps ((drive_keeps hb).visit _)) (hqd.of_keeps ((drive_keeps hb').visit _))
      | failed e alike₁ => exact .failed e (alike₁.rollBack hpaired.dirty)

theorem Route.Addressable.runTarget {r : Route} (hr : r.Addressable) (options : ValidateOptions) :
    (Model.runTarget r options).Addressable := by
  unfold Model.runTarget
  split
  · exact hr.resolve _
  · exact hr

namespace Progress

/-- What holds between two moments of a run: it has not come to its target in between, or it has
computed a verdict there, and if it commits at its target, it has left this verdict on record. -/
structure Aims (p p' : Progress) : Prop extends p.Keeps p' where
  scope : p.run.target ∈ p.run.scopes → p.run.target ∈ p'.run.scopes
  aimed : (p'.run.computed = p.run.computed ∧
      p'.run.visited.contains p.run.target.text = p.run.visited.contains p.run.target.text ∧
      p'.model.state? p.run.target.text = p.model.state? p.run.target.text) ∨
    ∃ o : Outcome, p'.run.computed = some o.passes ∧
      p'.run.visited.contains p.run.target.text = true ∧
      (p.commitsAt p.run.target.text = true →
        ∃ e, p'.model.state? p.run.target.text = some (State.settled p.run.ordinal e o))

namespace Aims

variable {p p' p'' : Progress}

theorem refl (p : Progress) : p.Aims p := ⟨.refl p, id, .inl ⟨rfl, rfl, rfl⟩⟩

theorem trans (h : p.Aims p') (h' : p'.Aims p'') : p.Aims p'' := by
  have htarget := h.target
  refine ⟨h.toKeeps.trans h'.toKeeps, fun hp => ?_, ?_⟩
  · have hp' := h'.scope (by rw [htarget]; exact h.scope hp)
    rwa [htarget] at hp'
  · have haimed := h'.aimed
    rw [htarget, h.commitsAt, h.ordinal] at haimed
    rcases haimed with ⟨hcomputed, hvisited, hstate⟩ | haimed
    · rw [hcomputed, hvisited, hstate]
      exact h.aimed
    · exact .inr haimed

theorem discover (p : Progress) (route : Route) (d : Declaration) :
    p.Aims ⟨p.run.discover route d, p.model⟩ where
  toKeeps := p.discover_keeps route d
  scope hp := Run.mem_discover_scopes hp route d
  aimed := .inl ⟨Run.discover_computed .., by rw [Run.discover_visited], rfl⟩

theorem write (p : Progress) (r : Route) (v : Option Value) :
    p.Aims ⟨p.run, (p.model.write r v).model⟩ where
  toKeeps := p.write_keeps r v
  scope := id
  aimed := .inl ⟨rfl, rfl, (p.model.write_records r v).state? _⟩

/-- A visit of another place is none of the target, wherever it leads. -/
theorem visit_other (fore : p.Foremost) {route : Route} {scope : Scope}
    (other : route.text ≠ p.run.target.text) (h : (p.enter route scope).1.Aims p') (o : Outcome) :
    p.Aims (p'.settle (p.enter route scope).2 o) := by
  have hrun := p.enter_run route scope
  obtain ⟨_, -, -, hstates⟩ := p.enter_found route scope (fore.open_ _)
  obtain ⟨hkeeps, hscope, haimed⟩ := h
  have hsettled : (p'.settle (p.enter route scope).2 o).run = p'.run := by
    rw [settle_run, enter_route, if_neg]
    rintro rfl
    exact other (by rw [hkeeps.target, hrun]; rfl)
  have hstate := p'.settle_state? (p.enter route scope).2 o p.run.target.text
  rw [enter_route, if_neg fun hc => other hc.2.1] at hstate
  have htarget : (p.enter route scope).1.run.target = p.run.target := by rw [hrun]; rfl
  rw [htarget, (p.enter_keeps route scope).commitsAt, (p.enter_keeps route scope).ordinal] at haimed
  refine ⟨hkeeps.visit o, fun hp => ?_, ?_⟩
  · rw [htarget] at hscope
    rw [hsettled]
    exact hscope (by rw [hrun]; exact hp)
  · rw [hsettled, hstate]
    refine haimed.imp_left fun ⟨hcomputed, hvisited, hfound⟩ => ⟨?_, ?_, ?_⟩
    · rw [hcomputed, hrun]
      rfl
    · rw [hvisited, hrun, Bool.eq_iff_iff, Run.visit_contains]
      exact or_iff_right other
    · rw [hfound, hstates, if_neg other]

/-- A visit of the target ends with a verdict, which is left on record where the run commits. -/
theorem visit_target (fore : p.Foremost) {scope : Scope}
    (h : (p.enter p.run.target scope).1.Aims p') (o : Outcome) :
    p.Aims (p'.settle (p.enter p.run.target scope).2 o) := by
  have hkeeps := (p.enter_keeps p.run.target scope).trans h.toKeeps
  have hvisited : p'.run.visited.contains p.run.target.text = true := by
    refine h.visited _ ?_
    rw [enter_run, Run.visit_contains]
    exact .inl rfl
  have hsettled : (p'.settle (p.enter p.run.target scope).2 o).run =
      { p'.run with computed := some o.passes } := by
    rw [settle_run, enter_route, if_pos hkeeps.target.symm]
  have hmay := (fore.of_keeps hkeeps).newest.mayCommit
    ((fore.of_keeps hkeeps).open_ p.run.target.text)
  refine ⟨h.toKeeps.visit o, fun hp => ?_, .inr ⟨o, by rw [hsettled], by rw [hsettled, hvisited],
    fun hc => ?_⟩⟩
  · rw [hsettled]
    have hscope := h.scope
    rw [enter_run] at hscope
    exact hscope hp
  · have hcommits : (p.enter p.run.target scope).2.commits = true := by
      have hopen := fore.open_ p.run.target.text
      rw [p.enter_commits, hopen]
      exact hc
    rw [settle_state?, enter_route, if_pos ⟨hcommits, rfl, hmay⟩, settlement, hkeeps.ordinal]
    exact ⟨_, rfl⟩

theorem visit (fore : p.Foremost) {route : Route} {scope : Scope}
    (own : route.text = p.run.target.text → route = p.run.target)
    (h : (p.enter route scope).1.Aims p') (o : Outcome) :
    p.Aims (p'.settle (p.enter route scope).2 o) := by
  by_cases htext : route.text = p.run.target.text
  · obtain rfl := own htext
    exact visit_target fore h o
  · exact visit_other fore htext h o

end Aims

end Progress

namespace Walk

/-- A walk over names never takes another place for the target. -/
theorem Spelled.aims {w : Walk} (h : w.Spelled Segment.Name) {isOpen : String → Bool}
    {p p' : Progress} {o : Outcome} (hd : w.drive isOpen p = .done o p') (fore : p.Foremost)
    (target : p.run.target.Addressable) (ht : p.model.tree.Spelled Segment.Name) :
    p.Aims p' ∧ p'.model.tree.Spelled Segment.Name := by
  induction w generalizing p p' o with
  | done o =>
    cases hd
    exact ⟨.refl p, ht⟩
  | fail e => cases hd
  | read r next ih => exact ih _ (h _ (ht.get? _)) hd fore target ht
  | write r v next ih =>
    obtain ⟨hr, hv, hnext⟩ := h
    have hwrite := Progress.Aims.write p r v
    simp only [drive] at hd
    split at hd
    · cases hd
    · have hset : (p.model.write r v).model.tree.Spelled Segment.Name :=
        Model.write_tree ht (ht.set hr hv)
      obtain ⟨haims, ht'⟩ := ih hnext hd (fore.of_keeps hwrite.toKeeps) target hset
      exact ⟨hwrite.trans haims, ht'⟩
  | await g next ih =>
    simp only [drive] at hd
    split at hd
    · exact ih h hd fore target ht
    · cases hd
  | visit r d hint body next ihb ihn =>
    obtain ⟨hr, hbody, hnext⟩ := h
    have hfound := Progress.Aims.discover p r d
    have hforefound := fore.of_keeps hfound.toKeeps
    have htarget : (⟨p.run.discover r d, p.model⟩ : Progress).run.target = p.run.target :=
      hfound.target
    simp only [drive] at hd
    rcases p.meet_cases r d with ⟨-, hm⟩ | ⟨-, hm⟩ | ⟨scope, -, -, hm⟩
    · simp only [hm] at hd
      obtain ⟨haims, ht'⟩ := ihn _ (hnext _) hd hforefound (htarget ▸ target) ht
      exact ⟨hfound.trans haims, ht'⟩
    · simp only [hm] at hd
      split at hd
      · next o₁ p₁ hb =>
        obtain ⟨hinner, ht₁⟩ := ihb _ (hbody _) hb hforefound (htarget ▸ target) ht
        have hsofar := hfound.trans hinner
        obtain ⟨haims, ht'⟩ := ihn _ (hnext _) hd (fore.of_keeps hsofar.toKeeps)
          (hsofar.target ▸ target) ht₁
        exact ⟨hsofar.trans haims, ht'⟩
      · cases hd
      · cases hd
    · simp only [hm] at hd
      split at hd
      · next o₁ p₁ hb =>
        have henter := Progress.enter_keeps ⟨p.run.discover r d, p.model⟩ r scope
        obtain ⟨hinner, ht₁⟩ := ihb _ (hbody _) hb (hforefound.of_keeps henter)
          (henter.target ▸ htarget ▸ target) (by rw [Progress.enter_tree]; exact ht)
        have hvisit := Progress.Aims.visit hforefound (hr.addressable.eq_of_text (htarget ▸ target))
          hinner (Outcome.merge [hint, o₁])
        have hsofar := hfound.trans hvisit
        obtain ⟨haims, ht'⟩ := ihn _ (hnext _) hd (fore.of_keeps hsofar.toKeeps)
          (hsofar.target ▸ target) (by rw [Progress.settle_tree]; exact ht₁)
        exact ⟨hsofar.trans haims, ht'⟩
      · cases hd
      · cases hd

end Walk

namespace Progress

section

variable {p p' : Progress}

/-- A run answers with the verdict that it has computed, and with `false` where it has not come to
its target. -/
theorem Aims.answer (h : p.Aims p') (fore : p.Foremost)
    (older : ∀ path, ((p.model.state? path).getD {}).valLock < p.run.ordinal)
    (unseen : ∀ path, p.run.visited.contains path = false) (unjudged : p.run.computed = none)
    (scope : p.run.target ∈ p.run.scopes) : p'.finish.2 = p'.run.computed.getD false := by
  have hordinal := h.ordinal
  have htarget := h.target
  rcases h.aimed with ⟨hcomputed, hvisited, -⟩ | ⟨o, hcomputed, hvisited, hcommitted⟩
  · -- what may have been on record at the target is forgotten
    have hnone : p'.finish.1.state? p'.run.target.text = none := by
      have hevicted : p'.evictionScopes.any (Path.isAtOrUnder p'.run.target.text) = true := by
        unfold evictionScopes
        split
        · simp [Route.root, Route.text, Path.isAtOrUnder_root]
        · have hscope : p'.run.target ∈ p'.run.scopes := htarget ▸ h.scope scope
          exact List.any_eq_true.2 ⟨_, List.mem_map_of_mem hscope,
            Path.isAtOrUnder_of_prefix List.prefix_rfl⟩
      rw [unseen, ← htarget] at hvisited
      rw [finish_state?, Option.filter_eq_none_iff]
      intro st hst
      have hstamp := (fore.of_keeps h.toKeeps).newest _ st hst
      simp [hvisited, hevicted, hstamp]
    have hpositive := Nat.lt_of_le_of_lt (Nat.zero_le _) (older "")
    rw [finish_older, hnone, hcomputed, unjudged]
    · rfl
    · rw [hnone, hordinal]
      exact hpositive
  · rw [← htarget] at hvisited hcommitted
    have hlast := finish_state?_visited hvisited
    rw [hcomputed, Option.getD_some]
    cases hc : p.commitsAt p'.run.target.text with
    | true =>
      obtain ⟨e, he⟩ := hcommitted hc
      rw [Bool.eq_iff_iff, finish_verdict (hlast.trans he) hordinal.symm]
      all_goals
        simp only [State.settled, Outcome.passes]
        cases o.isInvalid <;> decide
    | false =>
      have hidle := h.idle p'.run.target.text hc
      rw [Model.entry_state, Model.entry_state] at hidle
      rw [finish_older, hcomputed, Option.getD_some]
      rw [hlast, hidle, hordinal]
      exact older _

end

/-- In the end a run keeps what it has visited and what lies outside its scopes. -/
theorem Foremost.finish_isSome {p : Progress} (h : p.Foremost) (path : String) :
    (p.finish.1.state? path).isSome = ((p.model.state? path).isSome &&
      (p.run.visited.contains path || !p.evictionScopes.any (Path.isAtOrUnder path))) := by
  rw [finish_state?]
  cases hst : p.model.state? path with
  | none => rfl
  | some st =>
    have hstamp := h.newest path st hst
    rw [Option.isSome_filter, Option.any_some, decide_eq_false (Nat.not_lt.2 hstamp)]
    rfl

theorem entry_of_finish {p : Progress} {path : String} {e : Entry}
    (h : p.finish.1.records.get? path = some e) : p.model.entry path = e := by
  have hget : (p.model.records.evict p.run.ordinal p.evictionScopes
      p.run.visited.contains).get? path = some e := h
  rw [Records.get?_evict, Option.filter_eq_some_iff] at hget
  rw [Model.entry, Records.get, hget.1]
  rfl

/-- Two runs that have come equally far to the end of their walks leave the same places on
record. -/
theorem Alike.finish {m : Model} {p q : Progress} (h : Alike m p q) (hp : p.Foremost)
    (hq : q.Foremost) (path : String) :
    (p.finish.1.state? path).isSome = (q.finish.1.state? path).isSome := by
  have hvisited : p.run.visited = q.run.visited := by rw [h.run]
  have hscopes : p.evictionScopes = q.evictionScopes := by
    rw [evictionScopes, evictionScopes, h.run]
    rfl
  rw [hp.finish_isSome, hq.finish_isSome, h.paths, hvisited, hscopes]

end Progress

namespace Call

variable (c : Call) (m : Model) (r : Route) (options : ValidateOptions)

/-- Before its first step a run changes no state, and marks its target only. -/
theorem progress_entry (path : String) :
    ((c.progress m r options).model.entry path).state = (m.entry path).state ∧
      (path ≠ (Model.runTarget r options).text →
        ((c.progress m r options).model.entry path).validated = (m.entry path).validated) := by
  cases c with
  | prepare => exact ⟨rfl, fun _ => rfl⟩
  | validate =>
    have hentry : (progress .validate m r options).model.entry path =
        (m.mark (Model.runTarget r options)).entry path := rfl
    rw [hentry, Model.mark, Model.entry_update]
    split
    · next h => exact ⟨rfl, fun hne => absurd h.symm hne⟩
    · exact ⟨rfl, fun _ => rfl⟩

/-- Two runs with the same options, but that one of them keeps to dirty places, begin alike. -/
theorem progress_alike (plain : m.config.onlyDirtyRefs = false) :
    Progress.Alike (c.progress m r { options with onlyDirtyRefs := true }).model
      (c.progress m r { options with onlyDirtyRefs := true })
      (c.progress m r { options with onlyDirtyRefs := false }) := by
  have hmodel : (c.progress m r { options with onlyDirtyRefs := true }).model =
      (c.progress m r { options with onlyDirtyRefs := false }).model := by cases c <;> rfl
  refine ⟨by cases c <;> rfl, ?_, by rw [hmodel], fun path => by rw [hmodel], fun path hv => ?_,
    fun _ => rfl, fun _ _ => rfl⟩
  · rw [progress_onlyDirtyRefs]
    exact plain
  · rw [progress_visited] at hv
    simp at hv

variable {c m r options}

/-- What was not dirty keeps its state, and the flags of all but the target. -/
theorem clean_of_alike {p q : Progress} (alike : Progress.Alike (c.progress m r options).model p q)
    {path : String} {e e' : Entry} (he : m.records.get? path = some e) (hd : e.dirty = false)
    (he' : p.model.entry path = e') :
    e'.state = e.state ∧
      (path ≠ (Model.runTarget r options).text → e'.validated = e.validated) := by
  have hfound : m.entry path = e := by
    rw [Model.entry, Records.get, he]
    rfl
  have hclean := alike.clean path (by rw [c.progress_dirty, hfound, hd])
  rw [← he', hclean, ← hfound]
  exact c.progress_entry m r options path

end Call

namespace Overlap

theorem Numbered.answer_of_aims {s : Overlap} (h : Numbered s) {c : Call} {r : Route}
    {options : ValidateOptions} {p : Progress} (aims : (c.progress s.model r options).Aims p) :
    p.finish.2 = p.run.computed.getD false :=
  aims.answer (h.progress_foremost c r options) (h.progress c r options).1 (by simp) (by simp)
    (c.progress_scope s.model r options)

variable {schema : Value} {rule : Rule} {data : Tree} {config : ModelConfig} {hist : List Event}
  {s : Overlap} {c : Call} {r : Route} {isOpen : String → Bool}

/-- **Keeping to dirty places changes what is committed, and nothing else.** Let the schema hold
built-in keywords only, let its keys and those of the data be names that a path can lead over, and
let the model not keep to dirty places by itself. Take two runs with the same options, but that one
of them keeps to dirty places, on any model, whatever earlier runs and the caller have left on
record. They give the same answer and leave the same tree and the same places on record. Where a
place was not dirty, the first one leaves its record, unless it forgets it, with the state that it
had, and with the same flags unless it is the target. -/
theorem only_dirty_agrees (compiled : compile .standard schema = .ok rule)
    (named : schema.Spelled Segment.Name) (before : Trace (fresh rule data config) hist s)
    (tree : Tree.Spelled Segment.Name s.model.tree)
    (called : r.Addressable) (options : ValidateOptions)
    (plain : s.model.config.onlyDirtyRefs = false) {m m' : Model} {result result' : RunResult}
    (only : c.answer s.model r { options with onlyDirtyRefs := true } isOpen = (m, result))
    (full : c.answer s.model r { options with onlyDirtyRefs := false } isOpen = (m', result')) :
    result = result' ∧ m.tree = m'.tree ∧
      (∀ path, path ∈ m.records.paths ↔ path ∈ m'.records.paths) ∧
      ∀ path e e', s.model.records.get? path = some e → e.dirty = false →
        m.records.get? path = some e' → e'.state = e.state ∧
          (path ≠ (Model.runTarget r options).text → e'.validated = e.validated) := by
  have builtIn := compile_isBuiltIn rfl compiled
  have hnumbered := (Numbered.fresh rule data config).trace before
  have hrule : s.model.rule = rule := (Rising.trace builtIn before).rule
  have hroot : Route.Spelled Segment.Name [] := fun s hs => nomatch hs
  have hwalk := Rule.walk_spelled (Call.evaluation s.model options) Segment.digits_name
    (compile_made Value.spread_spelled named compiled)
  generalize hw : Walk.visit [] s.model.rule.declaration Outcome.silent (fun mode =>
    s.model.rule.walk (Call.evaluation s.model options) mode []) .done = w
  have hconfined : w.Confined [] fun _ => True := by
    rw [← hw]
    exact ⟨List.prefix_rfl, fun mode => Rule.walk_confined _ (hrule ▸ builtIn) mode [],
      fun _ => trivial⟩
  have hspelled : w.Spelled Segment.Name := by
    rw [← hw]
    exact ⟨hroot, fun mode => hrule ▸ hwalk mode [] hroot, fun _ => trivial⟩
  have hanswer : ∀ on, c.answer s.model r { options with onlyDirtyRefs := on } isOpen =
      (w.drive isOpen (c.progress s.model r { options with onlyDirtyRefs := on })).result :=
    fun on => hw ▸ (c.answer_eq ..).trans (congrArg Stop.result (c.drive_start ..))
  have hfore := fun on => hnumbered.progress_foremost c r { options with onlyDirtyRefs := on }
  have hstop := hconfined.alike isOpen (c.progress_alike s.model r options plain) (hfore true)
    (hfore false)
  rw [hanswer] at only full
  generalize hb : w.drive isOpen (c.progress s.model r { options with onlyDirtyRefs := true }) = x
    at only hstop
  generalize hb' : w.drive isOpen (c.progress s.model r { options with onlyDirtyRefs := false }) = y
    at full hstop
  cases hstop with
  | failed e alike =>
    cases only
    cases full
    refine ⟨rfl, alike.tree, fun path => ?_, fun path e e' he hd he' => ?_⟩
    · rw [Records.mem_paths, Records.mem_paths]
      exact Bool.eq_iff_iff.1 (alike.paths path)
    · exact Call.clean_of_alike alike he hd (by rw [Model.entry, Records.get, he']; rfl)
  | @done o p q alike =>
    cases only
    cases full
    have haims : ∀ on p, w.drive isOpen
        (c.progress s.model r { options with onlyDirtyRefs := on }) = .done o p →
        (c.progress s.model r { options with onlyDirtyRefs := on }).Aims p := fun on p hd =>
      (hspelled.aims hd (hfore on) (by rw [c.progress_target]; exact called.runTarget _)
        (by rw [c.progress_tree]; exact tree)).1
    have hresult : p.finish.2 = q.finish.2 := by
      rw [hnumbered.answer_of_aims (haims true p hb), hnumbered.answer_of_aims (haims false q hb'),
        alike.run]
    refine ⟨congrArg RunResult.finished hresult, alike.tree, fun path => ?_,
      fun path e e' he hd he' => Call.clean_of_alike alike he hd (Progress.entry_of_finish he')⟩
    rw [Records.mem_paths, Records.mem_paths]
    exact Bool.eq_iff_iff.1 (alike.finish ((hfore true).of_keeps (Walk.drive_keeps hb))
      ((hfore false).of_keeps (Walk.drive_keeps hb')) path)

/-- The schema of `countRule`. -/
def countSchema : Value :=
  .object [("properties", .object [("a", .object [("type", .string "integer")])])]

theorem countSchema_named : countSchema.Spelled Segment.Name :=
  .single (by decide) (.single (by decide) (.single (by decide) (.string _)))

/-- The model of the number 1, validated once, with a text in the place of the number. -/
def textForCount : Model :=
  ((Call.validate.answer (Model.ofRule countRule (some (.object [("a", .int 1)])) {}) [] {}
    fun _ => true).1.setValue [.key "a"] (some (.string "x"))).1

/-- The run that keeps to dirty places finds that a text is no number, as the other one does, but
leaves the state of the root as the first run has left it. -/
theorem only_dirty_agrees_count :
    ∃ m m' e e', Call.validate.answer textForCount [] { onlyDirtyRefs := true } (fun _ => true) =
        (m, .finished false) ∧
      Call.validate.answer textForCount [] { onlyDirtyRefs := false } (fun _ => true) =
        (m', .finished false) ∧
      textForCount.records.get? "/" = some e ∧ m.records.get? "/" = some e' ∧
      e'.state = e.state := by
  have compiled : compile .standard countSchema = .ok countRule := rfl
  obtain ⟨⟨m', result⟩, hfull, hvalid, hpath⟩ : ∃ x, Call.validate.answer textForCount []
        { onlyDirtyRefs := false } (fun _ => true) = x ∧ x.2.valid? = some false ∧
      "/" ∈ x.1.records.paths := ⟨_, rfl, by decide +kernel, by decide +kernel⟩
  obtain rfl : result = .finished false := RunResult.eq_of_valid? hvalid
  obtain ⟨e, he, hclean⟩ : ∃ e, textForCount.records.get? "/" = some e ∧ e.dirty = false := by
    have hany : (textForCount.records.get? "/").any (fun e => !e.dirty) = true := by decide +kernel
    cases he : textForCount.records.get? "/" with
    | none =>
      rw [he] at hany
      cases hany
    | some e =>
      rw [he, Option.any_some, Bool.not_eq_true'] at hany
      exact ⟨e, rfl, hany⟩
  have first : Call.validate.answer (Model.ofRule countRule (some (.object [("a", .int 1)])) {}) []
      {} (fun _ => true) = (_, .finished true) :=
    Prod.ext rfl (RunResult.eq_of_valid? (by decide +kernel))
  obtain ⟨hist, before⟩ := Trace.after_answer
    (.nil (fresh countRule (some (.object [("a", .int 1)])) {})) first
  have tree : Tree.Spelled Segment.Name textForCount.tree :=
    Tree.spelled_some.2 (.single (by decide) (.string "x"))
  obtain ⟨hresult, -, hpaths, hkept⟩ := only_dirty_agrees (c := .validate) (r := []) compiled
    countSchema_named (before.snoc (.set _ _ [.key "a"] (some (.string "x")))) tree
    (fun s hs => nomatch hs) {} rfl rfl hfull
  obtain ⟨e', he'⟩ : ∃ e', Records.get? _ "/" = some e' := by
    obtain ⟨st, hst⟩ := Option.isSome_iff_exists.1 (Records.mem_paths.1 ((hpaths "/").2 hpath))
    obtain ⟨e', he', -⟩ := Option.map_eq_some_iff.1 hst
    exact ⟨e', he'⟩
  exact ⟨_, m', e, e', Prod.ext rfl hresult, hfull, he, he', (hkept "/" e e' he hclean he').1⟩

end Overlap

end Conform

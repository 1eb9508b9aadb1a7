import Conform.Proofs.Judged

/-!
# Running again

A run at the root is told by its tree alone: what it visits there, in which order, what it judges of
each place and what it writes on the way. So a second run with the same options that finds the tree
of the first one does all of it again. If the first run has left the tree as it found it, and has
called it valid, the second one leaves the same records with the same states, but for the number of
the run.

A run that has changed the tree is another matter. Checks run in their order, so one of them may
have passed on a value that a later one has replaced.
-/

namespace Conform

namespace Walk

/-- In full, the walk makes one tree of another and comes to an outcome, and these are the outcomes
that it gives on its way, each with its path. -/
inductive Judges : Walk → Tree → List (String × Outcome) → Outcome → Tree → Prop where
  | done (o : Outcome) (t : Tree) : Judges (done o) t [] o t
  | read {r : Route} {next : Option Value → Walk} {t t' : Tree} {js : List (String × Outcome)}
      {o : Outcome} (rest : Judges (next (t.get? r)) t js o t') : Judges (read r next) t js o t'
  | write {r : Route} {v : Option Value} {next : Walk} {t t' : Tree}
      {js : List (String × Outcome)} {o : Outcome} (new : sameValue? (t.get? r) v = false)
      (admitted : (Tree.set t r v).refusal = none)
      (rest : Judges next (Tree.set t r v).result js o t') : Judges (write r v next) t js o t'
  | visit {r : Route} {d : Declaration} {hint : Outcome} {body : Mode → Walk}
      {next : Outcome → Walk} {t t₁ t' : Tree} {js ks : List (String × Outcome)}
      {said o : Outcome} (inner : Judges (body .full) t js said t₁)
      (rest : Judges (next (Outcome.merge [hint, said])) t₁ ks o t') :
      Judges (visit r d hint body next) t
        (js ++ (r.text, Outcome.merge [hint, said]) :: ks) o t'

/-- What a walk heeds, its outcome tells of: where anything was judged invalid, it is invalid. -/
theorem Judges.heeded {w : Walk} {t t' : Tree} {js : List (String × Outcome)} {o : Outcome}
    (h : w.Judges t js o t') {bad : Prop} (heeds : w.Heeds bad) :
    (bad → o.isInvalid = true) ∧ ∀ j ∈ js, j.2.isInvalid = true → o.isInvalid = true := by
  induction h generalizing bad with
  | done o t => exact ⟨heeds, fun j hj => (by cases hj)⟩
  | read rest ih => exact ih (heeds _)
  | write new admitted rest ih => exact ih heeds
  | @visit r d hint body next t t₁ t' js ks said o inner rest ihi ihr =>
    obtain ⟨hbad, hks⟩ := ihr (heeds.2 _)
    refine ⟨fun hb => hbad (.inl hb), fun j hj hinvalid => ?_⟩
    rcases List.mem_append.1 hj with hj | hj
    · have hsaid := (ihi heeds.1).2 j hj hinvalid
      exact hbad (.inr ((Outcome.merge_isInvalid_iff _).2 ⟨said, by simp, hsaid⟩))
    · rcases List.mem_cons.1 hj with rfl | hj
      · exact hbad (.inr hinvalid)
      · exact hks j hj hinvalid

/-- What a run at the root has come to. -/
theorem Confined.judges {w : Walk} {place : Route} {known : Tree → Prop}
    (h : w.Confined place known) {isOpen : String → Bool} {p p' : Progress} {o : Outcome}
    (root : p.run.fromRoot = true) (hk : known p.model.tree)
    (hd : w.drive isOpen p = .done o p') :
    ∃ js, w.Judges p.model.tree js o p'.model.tree := by
  induction w generalizing place known o p p' with
  | done o => cases hd; exact ⟨[], .done o _⟩
  | fail e => cases hd
  | read r next ih =>
    obtain ⟨js, hjs⟩ := ih _ (h.2 _) root ⟨hk, rfl⟩ hd
    exact ⟨js, .read hjs⟩
  | write r v next ih =>
    have new := h.2.2.1 _ hk
    cases hw : (Tree.set p.model.tree r v).refusal with
    | some e =>
      simp only [drive, Model.write_refused new hw] at hd
      cases hd
    | none =>
      obtain ⟨hdone, htree, -⟩ := Model.write_done new hw
      simp only [drive, hdone] at hd
      obtain ⟨js, hjs⟩ := ih h.2.2.2 (p := ⟨p.run, (p.model.write r v).model⟩) root
        ⟨_, hk, by rw [htree, ← hw]⟩ hd
      rw [htree] at hjs
      exact ⟨js, .write new hw hjs⟩
  | await g next ih => exact absurd h id
  | visit r d hint body next ihb ihn =>
    have henter := p.enter_keeps r .validating
    simp only [drive, Progress.meet_fromRoot root] at hd
    cases hb : (body .full).drive isOpen (p.enter r .validating).1 with
    | failed e q => rw [hb] at hd; cases hd
    | waiting rest frames q => rw [hb] at hd; cases hd
    | done said q =>
      rw [hb] at hd
      obtain ⟨js, hjs⟩ := ihb .full (h.2.1 .full) (henter.fromRoot.trans root) trivial hb
      obtain ⟨computed, hsame⟩ :=
        q.settle_same (p.enter r .validating).2 (Outcome.merge [hint, said])
      have hroot : q.run.fromRoot = true :=
        (henter.trans (drive_keeps hb)).fromRoot.trans root
      obtain ⟨ks, hks⟩ := ihn _ (h.2.2 _) (by rw [hsame]; exact hroot) trivial hd
      rw [Progress.enter_tree] at hjs
      rw [Progress.settle_tree] at hks
      exact ⟨_, .visit hjs hks⟩

end Walk

theorem mem_of_lastJudged {js : List (String × Outcome)} {q : String} {o : Outcome}
    (h : lastJudged js q = some o) : ∃ j ∈ js, j.2 = o := by
  obtain ⟨j, hj, ho⟩ := Option.map_eq_some_iff.1 h
  exact ⟨j, (List.mem_filter.1 (List.mem_of_getLast? hj)).1, ho⟩

namespace Progress

/-- No newer run has written a state or cleared any ground. -/
structure Foremost (p : Progress) : Prop where
  newest : p.Newest
  open_ : ∀ q, p.model.records.superseded q p.run.ordinal = false

theorem Foremost.of_keeps {p p' : Progress} (h : p.Foremost) (hk : p.Keeps p') : p'.Foremost where
  newest := hk.newest h.newest
  open_ q := by rw [hk.kept.cleared, hk.ordinal, h.open_]

/-- A relation between two moments of a run and what it judges in between, which holds of every
write and of every visit, and so of all that a run does. -/
structure Follows (R : Progress → List (String × Outcome) → Progress → Prop) : Prop where
  keeps : ∀ {p js p'}, R p js p' → p.Keeps p'
  refl : ∀ p, R p [] p
  trans : ∀ {p p' p'' js ks}, R p js p' → R p' ks p'' → R p (js ++ ks) p''
  write : ∀ (p : Progress) r v, R p [] ⟨p.run, (p.model.write r v).model⟩
  visit : ∀ {p p' : Progress} {js}, p.Foremost → ∀ {route scope},
    R (p.enter route scope).1 js p' → ∀ o,
      R p (js ++ [(route.text, o)]) (p'.settle (p.enter route scope).2 o)

/-- The run goes from one moment to another by judging `js`, and leaves on record what it has judged
last of each place where it commits. -/
structure Settles (p : Progress) (js : List (String × Outcome)) (p' : Progress) : Prop
    extends p.Keeps p' where
  visits : ∀ q, p'.run.visited.contains q = true ↔
    p.run.visited.contains q = true ∨ q ∈ js.map Prod.fst
  elsewhere : ∀ q, lastJudged js q = none → p'.model.state? q = p.model.state? q
  made : ∀ q, lastJudged js q ≠ none → p'.model.state? q ≠ none
  settled : ∀ q o, lastJudged js q = some o → p.commitsAt q = true →
    ∃ e, p'.model.state? q = some (State.settled p.run.ordinal e o) ∧
      (o.isInvalid = false → e = none)

namespace Settles

variable {p p' p'' : Progress} {js ks : List (String × Outcome)}

theorem refl (p : Progress) : p.Settles [] p where
  toKeeps := .refl p
  visits q := by simp
  elsewhere _ _ := rfl
  made q h := absurd rfl h
  settled q o h := by cases h

theorem trans (h : p.Settles js p') (h' : p'.Settles ks p'') : p.Settles (js ++ ks) p'' where
  toKeeps := h.toKeeps.trans h'.toKeeps
  visits q := by rw [h'.visits, h.visits, List.map_append, List.mem_append, or_assoc]
  elsewhere q hq := by
    rw [lastJudged_append, Option.or_eq_none_iff] at hq
    rw [h'.elsewhere q hq.1, h.elsewhere q hq.2]
  made q hq := by
    rw [lastJudged_append, ne_eq, Option.or_eq_none_iff, not_and] at hq
    by_cases hk : lastJudged ks q = none
    · rw [h'.elsewhere q hk]
      exact h.made q (hq hk)
    · exact h'.made q hk
  settled q o hq hc := by
    rw [lastJudged_append] at hq
    cases hk : lastJudged ks q with
    | none =>
      rw [hk, Option.none_or] at hq
      obtain ⟨e, he, hvalid⟩ := h.settled q o hq hc
      exact ⟨e, (h'.elsewhere q hk).trans he, hvalid⟩
    | some o' =>
      rw [hk, Option.some_or] at hq
      cases hq
      obtain ⟨e, he, hvalid⟩ := h'.settled q o hk ((h.commitsAt q).trans hc)
      exact ⟨e, h.ordinal ▸ he, hvalid⟩

/-- A write settles nothing. -/
theorem write (p : Progress) (r : Route) (v : Option Value) :
    p.Settles [] ⟨p.run, (p.model.write r v).model⟩ where
  toKeeps := p.write_keeps r v
  visits q := by simp
  elsewhere q _ := (p.model.write_records r v).state? q
  made q h := absurd rfl h
  settled q o h := by cases h

/-- A place that is entered, and settled with an outcome after what is judged within. -/
theorem visit (fore : p.Foremost) {route : Route} {scope : Scope}
    (h : (p.enter route scope).1.Settles js p') (o : Outcome) :
    p.Settles (js ++ [(route.text, o)]) (p'.settle (p.enter route scope).2 o) := by
  have henter := p.enter_keeps route scope
  have hkeeps := henter.trans h.toKeeps
  have hcommits : (p.enter route scope).2.commits = p.commitsAt route.text := by
    rw [p.enter_commits, fore.open_]
    rfl
  obtain ⟨commits, -, -, hstates⟩ := p.enter_found route scope (fore.open_ _)
  obtain ⟨computed, hsame⟩ := p'.settle_same (p.enter route scope).2 o
  have hstate := p'.settle_state? (p.enter route scope).2 o
  have hmay := (fore.of_keeps hkeeps).newest.mayCommit ((fore.of_keeps hkeeps).open_ route.text)
  rw [hcommits, p.enter_route] at hstate
  refine ⟨h.toKeeps.visit o, ?_, ?_, ?_, ?_⟩
  · intro q
    rw [hsame, h.visits, enter_run, Run.visit_contains, List.map_append, List.mem_append]
    simp only [List.map_cons, List.map_nil, List.mem_singleton, eq_comm (a := q)]
    rw [or_assoc, or_comm, or_assoc]
  · intro q hq
    rw [lastJudged_concat] at hq
    split at hq
    · cases hq
    · next hne => rw [hstate, if_neg fun h => hne h.2.1, h.elsewhere q hq, hstates, if_neg hne]
  · intro q hq
    rw [hstate]
    split
    · exact Option.some_ne_none _
    · by_cases hj : lastJudged js q = none
      · rw [lastJudged_concat, hj] at hq
        have hroute : route.text = q := Classical.byContradiction fun hne => hq (if_neg hne)
        rw [h.elsewhere q hj, hstates, if_pos hroute]
        exact Option.some_ne_none _
      · exact h.made q hj
  · intro q o' hq hc
    rw [lastJudged_concat] at hq
    split at hq
    · next he =>
      subst he
      cases hq
      rw [hstate, if_pos ⟨hc, rfl, hmay⟩, settlement, hkeeps.ordinal]
      exact ⟨_, rfl, fun hvalid => by rw [hvalid]; rfl⟩
    · next hne =>
      obtain ⟨e, he, hvalid⟩ := h.settled q o' hq ((henter.commitsAt q).trans hc)
      rw [hstate, if_neg fun h => hne h.2.1, he, henter.ordinal]
      exact ⟨e, rfl, hvalid⟩

theorem follows : Follows Settles where
  keeps h := h.toKeeps
  refl := refl
  trans := trans
  write := write
  visit fore _ _ := visit fore

end Settles

end Progress

open Progress in
/-- **The tree tells what a run does.** Every run at the root that finds the tree comes to the
outcome, leaves the other tree, and settles what is judged. -/
theorem Walk.Judges.drive {R : Progress → List (String × Outcome) → Progress → Prop}
    (follows : Follows R) {w : Walk} {t t' : Tree} {js : List (String × Outcome)} {o : Outcome}
    (h : w.Judges t js o t') {p : Progress} (root : p.run.fromRoot = true) (fore : p.Foremost)
    (htree : p.model.tree = t) (isOpen : String → Bool) :
    ∃ p', w.drive isOpen p = .done o p' ∧ p'.model.tree = t' ∧ R p js p' := by
  induction h generalizing p with
  | done o t => exact ⟨p, rfl, htree, follows.refl p⟩
  | read rest ih =>
    obtain ⟨p', hd, ht, hs⟩ := ih root fore htree
    exact ⟨p', by rw [Walk.drive, htree, hd], ht, hs⟩
  | @write r v next t t' js o new admitted rest ih =>
    subst htree
    obtain ⟨hdone, hwritten, -⟩ := Model.write_done new admitted
    obtain ⟨p', hd, ht, hs⟩ := ih (p := ⟨p.run, (p.model.write r v).model⟩) root
      (fore.of_keeps (p.write_keeps r v)) hwritten
    refine ⟨p', ?_, ht, follows.trans (follows.write p r v) hs⟩
    simp only [Walk.drive, hdone]
    exact hd
  | @visit r d hint body next t t₁ t' js ks said o inner rest ihi ihr =>
    have henter := p.enter_keeps r .validating
    obtain ⟨q, hb, hqt, hqs⟩ := ihi (henter.fromRoot.trans root) (fore.of_keeps henter)
      ((p.enter_tree r .validating).trans htree)
    have hvisit := follows.visit fore hqs (Outcome.merge [hint, said])
    have hkeeps := follows.keeps hvisit
    obtain ⟨p', hd, ht, hs⟩ := ihr (hkeeps.fromRoot.trans root) (fore.of_keeps hkeeps)
      ((q.settle_tree _ _).trans hqt)
    refine ⟨p', ?_, ht, ?_⟩
    · simp only [Walk.drive, Progress.meet_fromRoot root, hb]
      exact hd
    · have htrans := follows.trans hvisit hs
      rwa [List.append_assoc] at htrans

namespace Progress

variable {p p' : Progress} {js : List (String × Outcome)}

/-- A run at the root forgets all that it has not judged. -/
theorem Settles.finish_state? (h : p.Settles js p') (fore : p.Foremost)
    (root : p.run.fromRoot = true) (unseen : ∀ q, p.run.visited.contains q = false) (q : String) :
    p'.finish.1.state? q = if lastJudged js q = none then none else p'.model.state? q := by
  have hvisited := h.visits q
  rw [unseen, Bool.false_eq_true, false_or] at hvisited
  split
  · next hj =>
    rw [lastJudged_eq_none, ← hvisited, Bool.not_eq_true] at hj
    have hscopes : p'.evictionScopes = ["/"] := by
      rw [evictionScopes, h.fromRoot, root]
      rfl
    rw [Progress.finish_state?, Option.filter_eq_none_iff]
    intro st hst
    have hstamp := (fore.of_keeps h.toKeeps).newest q st hst
    simp [hj, hscopes, Path.isAtOrUnder_root, hstamp]
  · next hj =>
    rw [lastJudged_eq_none, ← hvisited, Classical.not_not] at hj
    exact finish_state?_visited hj

theorem finish_dirty {q : String} (h : p.run.visited.contains q = true) :
    (p.finish.1.entry q).dirty = (p.model.entry q).dirty := by
  have hget : p.finish.1.records.get? q = p.model.records.get? q := by
    show (p.model.records.evict _ _ _).get? q = _
    rw [Records.get?_evict]
    cases p.model.records.get? q with
    | none => rfl
    | some e => simp [h]
  rw [Model.entry, Model.entry, Records.get, Records.get, hget]

variable {q q' : Progress}

/-- Two runs that judge the same of a place, and commit there both or neither, leave the same state
there but for the number of the run, unless the place is judged invalid. -/
theorem Settles.same_state {path : String} {o : Outcome} (h : p.Settles js p')
    (h' : q.Settles js q') (judged : lastJudged js path = some o) (valid : o.isInvalid = false)
    (commits : q.commitsAt path = p.commitsAt path)
    (found : (q.model.entry path).state = (p'.model.entry path).state) :
    (q'.model.state? path).map (fun st => { st with valLock := 0 }) =
      (p'.model.state? path).map fun st => { st with valLock := 0 } := by
  cases hc : p.commitsAt path with
  | true =>
    obtain ⟨e, he, hvalid⟩ := h.settled path o judged hc
    obtain ⟨e', he', hvalid'⟩ := h'.settled path o judged (commits.trans hc)
    rw [he, he', hvalid valid, hvalid' valid]
    rfl
  | false =>
    have hidle := h'.idle path (commits.trans hc)
    rw [found, Model.entry_state, Model.entry_state] at hidle
    obtain ⟨st, hst⟩ := Option.ne_none_iff_exists'.1 (h.made path (by simp [judged]))
    obtain ⟨st', hst'⟩ := Option.ne_none_iff_exists'.1 (h'.made path (by simp [judged]))
    rw [hst, hst'] at hidle ⊢
    rw [show st' = st from hidle]

end Progress

/-- Before its first step a run changes no dirty flag. -/
theorem Call.progress_dirty (c : Call) (m : Model) (r : Route) (options : ValidateOptions)
    (q : String) : ((c.progress m r options).model.entry q).dirty = (m.entry q).dirty := by
  cases c with
  | prepare => rfl
  | validate =>
    show ((m.mark (Model.runTarget r options)).entry q).dirty = _
    rw [Model.mark, Model.entry_update]
    split <;> rfl

/-- A run at the root that is answered has judged the tree. -/
theorem Call.judges_of_answer (c : Call) {m m' : Model} {r : Route} {options : ValidateOptions}
    {isOpen : String → Bool} {valid : Bool} (builtIn : m.rule.isBuiltIn = true)
    (root : Model.runTarget r options = [])
    (h : c.answer m r options isOpen = (m', .finished valid)) :
    ∃ js said t, (m.rule.walk (Call.evaluation m options) .full []).Judges m.tree js said t := by
  have hconfined := Rule.walk_confined (Call.evaluation m options) builtIn .full []
  have hroot : (c.progress m r options).run.fromRoot = true := by
    rw [Run.fromRoot, c.progress_target, root]
    rfl
  have henter := (c.progress m r options).enter_keeps [] .validating
  obtain ⟨o, p, hdrive, -⟩ := Call.drive_of_answer h
  simp only [Walk.drive, Progress.meet_fromRoot hroot] at hdrive
  cases hd : (m.rule.walk (Call.evaluation m options) .full []).drive isOpen
    ((c.progress m r options).enter [] .validating).1 with
  | failed e q => rw [hd] at hdrive; cases hdrive
  | waiting rest frames q => rw [hd] at hdrive; cases hdrive
  | done said q =>
    obtain ⟨js, hjs⟩ := hconfined.judges (henter.fromRoot.trans hroot) trivial hd
    rw [Progress.enter_tree, c.progress_tree] at hjs
    exact ⟨js, said, _, hjs⟩

namespace Overlap

theorem Numbered.progress_foremost {s : Overlap} (h : Numbered s) (c : Call) (r : Route)
    (options : ValidateOptions) : (c.progress s.model r options).Foremost where
  newest := h.progress_newest c r options
  open_ := (h.progress c r options).2

/-- What the walk of the rule judges of the tree is what every run at the root answers and
leaves. -/
theorem Numbered.answer_of_judges {s : Overlap} (h : Numbered s)
    {R : Progress → List (String × Outcome) → Progress → Prop} (follows : Progress.Follows R)
    (c : Call) {r : Route} {options : ValidateOptions} {js : List (String × Outcome)}
    {said : Outcome} {t : Tree}
    (judges : (s.model.rule.walk (Call.evaluation s.model options) .full []).Judges s.model.tree js
      said t) (root : Model.runTarget r options = []) (isOpen : String → Bool) :
    ∃ p, c.answer s.model r options isOpen = (p.finish.1, .finished said.passes) ∧
      p.model.tree = t ∧ R (c.progress s.model r options)
        (js ++ [("/", Outcome.merge [Outcome.silent, said])]) p := by
  have hfore := h.progress_foremost c r options
  obtain ⟨older, open_⟩ := h.progress c r options
  have htarget := c.progress_target s.model r options
  have htree := c.progress_tree s.model r options
  have hanswer : c.answer s.model r options isOpen = _ :=
    (c.answer_eq ..).trans (congrArg Stop.result (c.drive_start ..))
  generalize c.progress s.model r options = p at hfore older open_ htarget htree hanswer
  have hroot : p.run.fromRoot = true := by
    rw [Run.fromRoot, htarget, root]
    rfl
  have henter := p.enter_keeps [] .validating
  obtain ⟨q, hd, ht, hs⟩ := judges.drive follows (henter.fromRoot.trans hroot)
    (hfore.of_keeps henter) ((p.enter_tree [] .validating).trans htree) isOpen
  obtain ⟨hverdict, -⟩ := Progress.finish_root (htarget.trans root) older open_ (follows.keeps hs)
    (Outcome.merge [Outcome.silent, said])
  have hpasses : (Outcome.merge [Outcome.silent, said]).passes = said.passes := by
    rw [Outcome.passes, Outcome.merge_silent_isInvalid, Outcome.passes]
  simp only [Walk.drive, Progress.meet_fromRoot hroot, hd, Stop.result, hverdict, hpasses]
    at hanswer
  exact ⟨_, hanswer, (q.settle_tree _ _).trans ht, follows.visit hfore hs _⟩

section

variable {registry : Registry} {schema : Value} {rule : Rule} {data : Tree} {config : ModelConfig}
  {hist : List Event} {s : Overlap} {c : Call} {r : Route} {options : ValidateOptions}
  {isOpen : String → Bool} {m : Model} {valid : Bool}

/-- A second run that finds the tree of the first one judges the same and answers the same. -/
theorem rerun_judges (builtIn : rule.isBuiltIn = true)
    (before : Trace (fresh rule data config) hist s) (root : Model.runTarget r options = [])
    (answer : c.answer s.model r options isOpen = (m, .finished valid))
    (found : m.tree = s.model.tree) (c' : Call) (r' : Route)
    (root' : Model.runTarget r' options = []) (isOpen' : String → Bool) :
    ∃ js p p', p.finish.1 = m ∧ c'.answer m r' options isOpen' = (p'.finish.1, .finished valid) ∧
      p'.model.tree = p.model.tree ∧ (c.progress s.model r options).Settles js p ∧
      (c'.progress m r' options).Settles js p' ∧ (c'.progress m r' options).Foremost ∧
      (valid = true → ∀ j ∈ js, j.2.isInvalid = false) := by
  have hnumbered := (Numbered.fresh rule data config).trace before
  have hrule : s.model.rule = rule := (Rising.trace builtIn before).rule
  obtain ⟨js, said, t, hjs⟩ := c.judges_of_answer (hrule ▸ builtIn) root answer
  obtain ⟨p, hp, htree, hs⟩ := hnumbered.answer_of_judges Progress.Settles.follows c hjs root isOpen
  rw [answer, Prod.mk.injEq, RunResult.finished.injEq] at hp
  obtain ⟨rfl, rfl⟩ := hp
  obtain ⟨hist', after⟩ := before.after_answer answer
  have hnumbered' := (Numbered.fresh rule data config).trace after
  have hrule' : p.finish.1.rule = rule := (Rising.trace builtIn after).rule
  have hconfig : p.finish.1.config = s.model.config := hs.config.trans (by simp)
  have hjs' : (p.finish.1.rule.walk (Call.evaluation p.finish.1 options) .full []).Judges
      p.finish.1.tree js said t := by
    rw [hrule', ← hrule, Call.evaluation, hconfig, found]
    exact hjs
  obtain ⟨p', hanswer', htree', hs'⟩ := hnumbered'.answer_of_judges
    Progress.Settles.follows c' hjs' root' isOpen'
  refine ⟨_, p, p', rfl, hanswer', htree'.trans htree.symm, hs, hs',
    hnumbered'.progress_foremost c' r' options, fun hvalid => ?_⟩
  have hsaid : said.isInvalid = false := by simpa [Outcome.passes] using hvalid
  have hheeded := (hjs.heeded (s.model.rule.walk_heeds _ (hrule ▸ builtIn) [])).2
  refine List.forall_mem_append.2 ⟨fun j hj => ?_, List.forall_mem_singleton.2 ?_⟩
  · cases hi : j.2.isInvalid with
    | false => rfl
    | true => rw [hheeded j hj hi] at hsaid; cases hsaid
  · rw [Outcome.merge_silent_isInvalid, hsaid]

/-- **Running again.** Let the schema hold built-in keywords only, and let a run at the root of any
model, whatever earlier runs and the caller have left on record, answer that the data is valid and
leave the tree that it has found. If the caller changes nothing, a second run at the root with the
same options answers the same and leaves the tree alone as well, and it leaves the same records with
the same states, but for the number of the run. -/
theorem rerun_agrees (plain : registry.keywords = [])
    (compiled : compile registry schema = .ok rule) (before : Trace (fresh rule data config) hist s)
    (root : Model.runTarget r options = [])
    (answer : c.answer s.model r options isOpen = (m, .finished true))
    (still : m.tree = s.model.tree) (c' : Call) (r' : Route)
    (root' : Model.runTarget r' options = []) (isOpen' : String → Bool) :
    ∃ m', c'.answer m r' options isOpen' = (m', .finished true) ∧ m'.tree = m.tree ∧
      ∀ q, (m'.state? q).map (fun st => { st with valLock := 0 }) =
        (m.state? q).map fun st => { st with valLock := 0 } := by
  obtain ⟨js, p, p', rfl, hanswer', htree, hs, hs', hfore', hvalid⟩ := rerun_judges
    (compile_isBuiltIn plain compiled) before root answer still c' r' root' isOpen'
  have hfore := ((Numbered.fresh rule data config).trace before).progress_foremost c r options
  have hfromRoot : ∀ (c : Call) (m : Model) (r : Route), Model.runTarget r options = [] →
      (c.progress m r options).run.fromRoot = true := by
    intro c m r hr
    rw [Run.fromRoot, c.progress_target, hr]
    rfl
  refine ⟨p'.finish.1, hanswer', htree, fun q => ?_⟩
  rw [hs.finish_state? hfore (hfromRoot c s.model r root) (by simp),
    hs'.finish_state? hfore' (hfromRoot c' p.finish.1 r' root') (by simp)]
  cases hj : lastJudged js q with
  | none => rfl
  | some o =>
    rw [if_neg (Option.some_ne_none o), if_neg (Option.some_ne_none o)]
    obtain ⟨j, hmem, rfl⟩ := mem_of_lastJudged hj
    have hvisited : p.run.visited.contains q = true := by
      refine (hs.visits q).2 (.inr (Classical.not_not.1 fun hq => ?_))
      rw [lastJudged_eq_none.2 hq] at hj
      cases hj
    refine hs.same_state hs' hj (hvalid rfl j hmem) ?_ ?_
    · have hdirty : ((c'.progress p.finish.1 r' options).model.entry q).dirty =
          ((c.progress s.model r options).model.entry q).dirty := by
        rw [c'.progress_dirty, Progress.finish_dirty hvisited, hs.dirty]
      have hconfig : p.finish.1.config = s.model.config := hs.config.trans (by simp)
      rw [Progress.commitsAt, Progress.commitsAt, hdirty, c'.progress_onlyDirtyRefs,
        c.progress_onlyDirtyRefs, hconfig]
    · have hstate : (p.finish.1.state? q).getD {} = (p.model.state? q).getD {} := by
        rw [Progress.finish_state?_visited hvisited]
      rw [Model.entry_state, Model.entry_state, ← hstate]
      rcases c'.start_states p.finish.1 r' options q with h | ⟨h, h'⟩
      · exact congrArg (·.getD {}) h
      · rw [h]
        exact congrArg (·.getD {}) h'

end

/-- The rule of an object whose `/a` is an integer. -/
def countRule : Rule :=
  .node "#" [.leaf (.annotations none [] {}), .properties
    [.mk "a" false (.node "#/properties/a"
      [.leaf (.annotations none [] {}), .leaf (.type [.integer])] {} {})]] {} {}

/-- A valid object is judged twice. -/
theorem rerun_agrees_count :
    ∃ m m', Call.validate.answer (Model.ofRule countRule (some (.object [("a", .int 1)])) {}) [] {}
        (fun _ => true) = (m, .finished true) ∧
      Call.prepare.answer m [] {} (fun _ => true) = (m', .finished true) ∧
      (m'.state? "/a").map (fun st => { st with valLock := 0 }) =
        (m.state? "/a").map fun st => { st with valLock := 0 } := by
  have compiled : compile Registry.standard (.object [("properties", .object
      [("a", .object [("type", .string "integer")])])]) = .ok countRule := rfl
  have answer : Call.validate.answer
      (Model.ofRule countRule (some (.object [("a", .int 1)])) {}) [] {} (fun _ => true) =
      (_, .finished true) := Prod.ext rfl (RunResult.eq_of_valid? (by decide +kernel))
  obtain ⟨m', hanswer, -, hstates⟩ := rerun_agrees rfl compiled (.nil _) rfl answer rfl .prepare
    [] rfl fun _ => true
  exact ⟨_, m', answer, hanswer, hstates "/a"⟩

/-- The rule of a text that is to be `" a "` first, and to be there without blanks then. -/
def trimRule : Rule :=
  .node "#" [.leaf (.annotations none [] {}), .leaf (.const (.string " a ")),
    .leaf (.present true)] {} {}

/-- A run that trims a text after it has been compared leaves one that is no longer equal. -/
theorem rerun_can_fail :
    compile Registry.standard (.object [("const", .string " a "), ("required", .bool true)]) =
        .ok trimRule ∧
      ∃ m m', Call.validate.answer (Model.ofRule trimRule (some (.string " a ")) {}) [] {}
          (fun _ => true) = (m, .finished true) ∧
        Call.validate.answer m [] {} (fun _ => true) = (m', .finished false) :=
  ⟨rfl, _, _, Prod.ext rfl (RunResult.eq_of_valid? (by decide +kernel)),
    Prod.ext rfl (RunResult.eq_of_valid? (by decide +kernel))⟩

end Overlap

end Conform

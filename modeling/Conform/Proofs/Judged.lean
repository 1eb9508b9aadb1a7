import Conform.Proofs.RootRun
import Conform.Proofs.Tours

/-!
# What a run judges

The outcomes that a run gives while it changes no value, in their order, each with its path. They
tell what the run has visited and what it has left on record, and a run at the root, or under one of
its scopes, gives those of the tour that it makes.
-/

namespace Conform

mutual

/-- The outcomes that a run in full gives along a tour, in their order, each with its path. -/
def Tour.judged : Tour → List (String × Outcome)
  | ⟨route, _, hint, _, said, within⟩ =>
    Tour.judgedAll within ++ [(route.text, Outcome.merge [hint, said])]

def Tour.judgedAll : List Tour → List (String × Outcome)
  | [] => []
  | s :: ts => s.judged ++ Tour.judgedAll ts

end

/-- The last outcome given at a path. -/
def lastJudged (js : List (String × Outcome)) (path : String) : Option Outcome :=
  (js.filter (·.1 = path)).getLast?.map Prod.snd

theorem lastJudged_append (js ks : List (String × Outcome)) (path : String) :
    lastJudged (js ++ ks) path = (lastJudged ks path).or (lastJudged js path) := by
  simp [lastJudged, List.getLast?_append, Option.map_or]

theorem lastJudged_concat (js : List (String × Outcome)) (path q : String) (o : Outcome) :
    lastJudged (js ++ [(path, o)]) q = if path = q then some o else lastJudged js q := by
  rw [lastJudged_append]
  by_cases hq : path = q <;> simp [lastJudged, hq]

theorem lastJudged_eq_none {js : List (String × Outcome)} {path : String} :
    lastJudged js path = none ↔ path ∉ js.map Prod.fst := by
  rw [lastJudged, Option.map_eq_none_iff, List.getLast?_eq_none_iff, List.filter_eq_nil_iff]
  simp only [decide_eq_true_eq, List.mem_map, not_exists, not_and]

/-- What a run has judged at and under a place. -/
def judgedUnder (path : String) (js : List (String × Outcome)) : List (String × Outcome) :=
  js.filter fun j => Path.isAtOrUnder j.1 path

theorem judgedUnder_append (path : String) (js ks : List (String × Outcome)) :
    judgedUnder path (js ++ ks) = judgedUnder path js ++ judgedUnder path ks :=
  List.filter_append js ks

theorem lastJudged_judgedUnder {path q : String} (h : Path.isAtOrUnder q path = true)
    (js : List (String × Outcome)) : lastJudged (judgedUnder path js) q = lastJudged js q := by
  rw [lastJudged, judgedUnder, List.filter_filter, lastJudged]
  congr 3
  funext j
  by_cases hj : j.1 = q
  · simp [hj, h]
  · simp [hj]

theorem Tour.mem_judgedAll {j : String × Outcome} {ts : List Tour} (h : j ∈ judgedAll ts) :
    ∃ s ∈ ts, j ∈ s.judged := by
  induction ts with
  | nil => cases h
  | cons s ts ih =>
    rw [judgedAll, List.mem_append] at h
    rcases h with h | h
    · exact ⟨s, List.mem_cons_self, h⟩
    · obtain ⟨s', hs', hj⟩ := ih h
      exact ⟨s', List.mem_cons_of_mem _ hs', hj⟩

/-- Whatever is judged on a steady tour lies at or under its place. -/
theorem Tour.Steady.mem_judged {t : Tree} {place : Route} {s : Tour} (h : s.Steady t place) :
    ∀ j ∈ s.judged, ∃ r : Route, r.Addressable ∧ s.route <+: r ∧ j.1 = r.text := by
  induction h with
  | @mk place s under addressable full structural within ih =>
    obtain ⟨route, d, hint, body, said, ts⟩ := s
    intro j hj
    rw [Tour.judged, List.mem_append, List.mem_singleton] at hj
    rcases hj with hj | rfl
    · obtain ⟨s', hs', hj⟩ := Tour.mem_judgedAll hj
      obtain ⟨r, hr, hunder, hj⟩ := ih s' hs' j hj
      cases within s' hs' with
      | mk under' => exact ⟨r, hr, under'.trans hunder, hj⟩
    · exact ⟨route, addressable, List.prefix_rfl, rfl⟩

namespace Run

theorem mem_addScope {scopes : List Route} {r S : Route} (h : S ∈ scopes) :
    S ∈ addScope scopes r := by
  unfold addScope
  split
  · exact h
  · exact List.mem_append_left _ h

theorem mem_discover_scopes {r : Run} {S : Route} (h : S ∈ r.scopes) (route : Route)
    (d : Declaration) : S ∈ (r.discover route d).scopes := by
  unfold discover
  split
  · exact mem_addScope h
  · exact h

@[simp] theorem discover_computed (r : Run) (route : Route) (d : Declaration) :
    (r.discover route d).computed = r.computed := by unfold discover; split <;> rfl

/-- How a place lies to the scopes of a run. -/
theorem classify_lies {r : Run} (mem : r.target ∈ r.scopes) (route : Route) (d : Declaration) :
    match r.classify route d with
    | .unrelated => ∀ S ∈ r.scopes, ¬ S <+: route ∧ ¬ route <+: S
    | .parent => ∀ S ∈ r.scopes, ¬ S <+: route
    | _ => ∃ S ∈ r.scopes, S <+: route := by
  have hstarts : ∀ S r : Route, r.startsWith S = true ↔ S <+: r :=
    fun _ _ => List.isPrefixOf_iff_prefix
  unfold classify
  by_cases htarget : (r.fromRoot || route.startsWith r.target) = true
  · rw [if_pos htarget]
    rw [Bool.or_eq_true, hstarts, fromRoot, List.isEmpty_iff] at htarget
    exact ⟨r.target, mem, htarget.elim (fun h => h ▸ List.nil_prefix) id⟩
  rw [if_neg htarget]
  by_cases hself : r.scopes.contains route = true
  · rw [if_pos hself]
    exact ⟨route, by simpa using hself, List.prefix_rfl⟩
  rw [if_neg hself]
  by_cases hunder : r.scopes.any route.startsWith = true
  · rw [if_pos hunder]
    obtain ⟨S, hS, h⟩ := List.any_eq_true.1 hunder
    exact ⟨S, hS, (hstarts _ _).1 h⟩
  rw [if_neg hunder]
  have hnone : ∀ S ∈ r.scopes, ¬ S <+: route := fun S hS h =>
    hunder (List.any_eq_true.2 ⟨S, hS, (hstarts _ _).2 h⟩)
  by_cases habove : (r.scopes.any (·.startsWith route) || d.declaresDependents) = true
  · rw [if_pos habove]
    exact hnone
  · rw [if_neg habove]
    rw [Bool.not_eq_true, Bool.or_eq_false_iff] at habove
    exact fun S hS => ⟨hnone S hS, fun h =>
      List.any_eq_false.1 habove.1 S hS ((hstarts _ _).2 h)⟩

end Run

namespace Progress

/-- A run in full on a tree, with no newer run in its way, before or after any number of visits. -/
structure Fresh (t : Tree) (p : Progress) : Prop where
  full : p.run.options.onlyDirtyRefs = false
  newest : p.Newest
  open_ : ∀ q, p.model.records.superseded q p.run.ordinal = false
  tree : p.model.tree = t
  scope : p.run.target ∈ p.run.scopes

/-- The run goes from one moment to another by judging `js`, and changes no value. -/
structure Leads (p : Progress) (js : List (String × Outcome)) (p' : Progress) : Prop
    extends p.Keeps p' where
  tree : p'.model.tree = p.model.tree
  told : p'.model.changes = p.model.changes
  scopes : ∀ S ∈ p.run.scopes, S ∈ p'.run.scopes
  visits : ∀ q, p'.run.visited.contains q = true ↔
    p.run.visited.contains q = true ∨ q ∈ js.map Prod.fst
  computed : p'.run.computed = p.run.computed ∨ p.run.target.text ∈ js.map Prod.fst
  left : ∀ q, lastJudged js q = none → p'.model.state? q = p.model.state? q
  settled : ∀ q o, lastJudged js q = some o →
    ∃ e, p'.model.state? q = some (State.settled p.run.ordinal e o)

theorem Fresh.of_leads {t : Tree} {p p' : Progress} {js : List (String × Outcome)}
    (h : p.Fresh t) (hl : p.Leads js p') : p'.Fresh t where
  full := by rw [hl.options, h.full]
  newest := hl.newest h.newest
  open_ q := by rw [hl.kept.cleared, hl.ordinal, h.open_]
  tree := hl.tree.trans h.tree
  scope := hl.target ▸ hl.scopes _ h.scope

theorem Fresh.enter {t : Tree} {p : Progress} (h : p.Fresh t) (route : Route) (scope : Scope) :
    (p.enter route scope).1.Fresh t where
  full := by rw [(p.enter_keeps route scope).options, h.full]
  newest := (p.enter_keeps route scope).newest h.newest
  open_ q := by
    rw [(p.enter_keeps route scope).kept.cleared, (p.enter_keeps route scope).ordinal, h.open_]
  tree := (p.enter_tree route scope).trans h.tree
  scope := by rw [enter_run]; exact h.scope

namespace Leads

theorem refl (p : Progress) : p.Leads [] p where
  toKeeps := .refl p
  tree := rfl
  told := rfl
  scopes _ := id
  visits q := by simp
  computed := .inl rfl
  left _ _ := rfl
  settled q o h := by cases h

theorem trans {p p' p'' : Progress} {js ks : List (String × Outcome)} (h : p.Leads js p')
    (h' : p'.Leads ks p'') : p.Leads (js ++ ks) p'' where
  toKeeps := h.toKeeps.trans h'.toKeeps
  tree := h'.tree.trans h.tree
  told := h'.told.trans h.told
  scopes S hS := h'.scopes S (h.scopes S hS)
  visits q := by rw [h'.visits, h.visits, List.map_append, List.mem_append, or_assoc]
  computed := by
    rw [List.map_append, List.mem_append]
    rcases h.computed with hc | hc
    · rcases h'.computed with hc' | hc'
      · exact .inl (hc'.trans hc)
      · exact .inr (.inr (h.target ▸ hc'))
    · exact .inr (.inl hc)
  left q hq := by
    rw [lastJudged_append, Option.or_eq_none_iff] at hq
    rw [h'.left q hq.1, h.left q hq.2]
  settled q o hq := by
    rw [lastJudged_append] at hq
    cases hk : lastJudged ks q with
    | none =>
      rw [hk, Option.none_or] at hq
      obtain ⟨e, he⟩ := h.settled q o hq
      exact ⟨e, (h'.left q hk).trans he⟩
    | some o' =>
      rw [hk, Option.some_or] at hq
      cases hq
      obtain ⟨e, he⟩ := h'.settled q o hk
      exact ⟨e, h.ordinal ▸ he⟩

theorem discover (p : Progress) (route : Route) (d : Declaration) :
    p.Leads [] ⟨p.run.discover route d, p.model⟩ where
  toKeeps := p.discover_keeps route d
  tree := rfl
  told := rfl
  scopes S hS := Run.mem_discover_scopes hS route d
  visits q := by simp
  computed := .inl (by simp)
  left _ _ := rfl
  settled q o h := by cases h

/-- A place that is entered, and settled with an outcome after what is judged within. -/
theorem visit {t : Tree} {p p' : Progress} (fresh : p.Fresh t) {route : Route} {scope : Scope}
    {js : List (String × Outcome)} (h : (p.enter route scope).1.Leads js p') (o : Outcome) :
    p.Leads (js ++ [(route.text, o)]) (p'.settle (p.enter route scope).2 o) := by
  have henter := p.enter_keeps route scope
  have hkeeps := henter.trans h.toKeeps
  obtain ⟨commits, hcommits, hticket, hstates⟩ := p.enter_found route scope (fresh.open_ _)
  obtain rfl : commits = true := hcommits fresh.full
  have fresh' := (fresh.enter route scope).of_leads h
  have hrun := p'.settle_run (p.enter route scope).2 o
  obtain ⟨computed, hsame⟩ := p'.settle_same (p.enter route scope).2 o
  have hstate := p'.settle_state? (p.enter route scope).2 o
  rw [hticket] at hrun hsame hstate ⊢
  have hmay := fresh'.newest.mayCommit (fresh'.open_ route.text)
  refine ⟨hkeeps.trans (settle_keeps (fun _ => ?_) o), ?_, ?_, ?_, ?_, ?_, ?_, ?_⟩
  · rw [hkeeps.commitsAt, commitsAt, fresh.full]
    rfl
  · rw [settle_tree, h.tree, enter_tree]
  · rw [settle_changes, h.told, enter_changes]
  · intro S hS
    rw [hsame]
    exact h.scopes S (by rw [enter_run]; exact hS)
  · intro q
    rw [hsame, h.visits, enter_run, Run.visit_contains, List.map_append, List.mem_append]
    simp only [List.map_cons, List.map_nil, List.mem_singleton, eq_comm (a := q)]
    rw [or_assoc, or_comm, or_assoc]
  · rw [List.map_append, List.mem_append]
    by_cases hr : route = p'.run.target
    · exact .inr (.inr (by simp [hr, hkeeps.target]))
    · rw [hrun, if_neg hr]
      rcases h.computed with hc | hc
      · exact .inl (by rw [hc, enter_run]; rfl)
      · exact .inr (.inl (henter.target ▸ hc))
  · intro q hq
    rw [lastJudged_concat] at hq
    split at hq
    · cases hq
    · next hne =>
      rw [hstate, if_neg (fun h => hne h.2.1), h.left q hq, hstates, if_neg hne]
  · intro q o' hq
    rw [lastJudged_concat] at hq
    split at hq
    · next he =>
      subst he
      cases hq
      rw [hstate, if_pos ⟨rfl, rfl, hmay⟩, settlement, hkeeps.ordinal]
      exact ⟨_, rfl⟩
    · next hne =>
      obtain ⟨e, he⟩ := h.settled q o' hq
      rw [hstate, if_neg (fun h => hne h.2.1), he, henter.ordinal]
      exact ⟨e, rfl⟩

end Leads

/-- How a run in full meets a place: over the place if it lies apart from the scopes, through it if
it lies above some of them at most, and into it otherwise. -/
theorem Fresh.meet {t : Tree} {p : Progress} (h : p.Fresh t) (route : Route) (d : Declaration) :
    ∃ p', p.Leads [] p' ∧
      ((∀ S ∈ p'.run.scopes, ¬ S <+: route ∧ ¬ route <+: S) ∧ p.meet route d = (p', .passed) ∨
        (∀ S ∈ p'.run.scopes, ¬ S <+: route) ∧ p.meet route d = (p', .through) ∨
        (∃ S ∈ p'.run.scopes, S <+: route) ∧ ∃ scope,
          p.meet route d = ((p'.enter route scope).1, .entered (p'.enter route scope).2)) := by
  have hlies := Run.classify_lies (r := p.run.discover route d)
    (by rw [Run.discover_target]; exact Run.mem_discover_scopes h.scope route d) route d
  refine ⟨_, .discover p route d, ?_⟩
  rcases p.meet_cases route d with ⟨hc, hm⟩ | ⟨hc, hm⟩ | ⟨scope, hc, hs, hm⟩
  · rw [hc] at hlies
    exact .inl ⟨hlies, hm⟩
  · rw [hc] at hlies
    exact .inr (.inl ⟨hlies, hm⟩)
  · rw [hc] at hlies
    refine .inr (.inr ⟨?_, scope, hm⟩)
    rcases hs with rfl | rfl <;> exact hlies

/-- Into a place under one of its scopes it goes. -/
theorem Fresh.meet_covered {t : Tree} {p : Progress} (h : p.Fresh t) {S route : Route}
    (hS : S ∈ p.run.scopes) (covers : S <+: route) (d : Declaration) :
    ∃ p' scope, p.Leads [] p' ∧
      p.meet route d = ((p'.enter route scope).1, .entered (p'.enter route scope).2) := by
  obtain ⟨p', hl, ⟨hapart, -⟩ | ⟨habove, -⟩ | ⟨-, scope, hm⟩⟩ := h.meet route d
  · exact absurd covers (hapart S (hl.scopes S hS)).1
  · exact absurd covers (habove S (hl.scopes S hS))
  · exact ⟨p', scope, hl, hm⟩

end Progress

namespace Walk

variable {t : Tree} {w : Walk} {o : Outcome} {ts : List Tour} (isOpen : String → Bool)

/-- A run at the root that has changed no value has made a tour. -/
theorem Confined.tours {isOpen : String → Bool} {place : Route} {known : Tree → Prop}
    (h : w.Confined place known) {p p' : Progress} (root : p.run.fromRoot = true)
    (hk : known p.model.tree) (hd : w.drive isOpen p = .done o p')
    (still : p'.model.changes.length = p.model.changes.length) :
    p'.model.tree = p.model.tree ∧ ∃ ts, w.Tours p.model.tree o ts := by
  induction w generalizing place known o p p' with
  | done o => cases hd; exact ⟨rfl, [], .done o⟩
  | fail e => cases hd
  | read r next ih =>
    obtain ⟨htree, ts, hts⟩ := ih _ (h.2 _) root ⟨hk, rfl⟩ hd still
    exact ⟨htree, ts, .read hts⟩
  | write r v next ih =>
    have new := h.2.2.1 _ hk
    cases hw : (Tree.set p.model.tree r v).refusal with
    | some e =>
      simp only [drive, Model.write_refused new hw] at hd
      cases hd
    | none =>
      -- what is written is not there yet, so a change is told of
      obtain ⟨hdone, -, hchanges⟩ := Model.write_done new hw
      simp only [drive, hdone] at hd
      have hle := (drive_keeps hd).changes
      simp only [hchanges, List.length_cons] at hle
      omega
  | await g next ih => exact absurd h id
  | visit r d hint body next ihb ihn =>
    have henter := p.enter_keeps r .validating
    simp only [drive, Progress.meet_fromRoot root] at hd
    cases hb : (body .full).drive isOpen (p.enter r .validating).1 with
    | failed e q => rw [hb] at hd; cases hd
    | waiting rest frames q => rw [hb] at hd; cases hd
    | done said q =>
      rw [hb] at hd
      have hbody := drive_keeps hb
      have hrest := (drive_keeps hd).changes
      have hinner := hbody.changes
      rw [Progress.settle_changes] at hrest
      rw [Progress.enter_changes] at hinner
      have hroot : q.run.fromRoot = true := (henter.trans hbody).fromRoot.trans root
      obtain ⟨htree, within, hwithin⟩ := ihb .full (h.2.1 .full) (henter.fromRoot.trans root)
        trivial hb (by rw [Progress.enter_changes]; omega)
      obtain ⟨computed, hsame⟩ :=
        q.settle_same (p.enter r .validating).2 (Outcome.merge [hint, said])
      obtain ⟨htree', ts, hts⟩ := ihn _ (h.2.2 _) (by rw [hsame]; exact hroot) trivial hd
        (by rw [Progress.settle_changes]; omega)
      rw [Progress.enter_tree] at htree hwithin
      rw [Progress.settle_tree, htree] at htree' hts
      exact ⟨htree', _, .visit hwithin hts⟩

/-- Under one of its scopes a run in full judges what the tour gives. -/
theorem Tours.leads (h : w.Tours t o ts) {kind : Route → Prop} {place : Route}
    (mirrored : ∀ s ∈ ts, s.Mirrored t kind place) {p : Progress} (fresh : p.Fresh t)
    (covered : ∃ S ∈ p.run.scopes, S <+: place) :
    ∃ p', w.drive isOpen p = .done o p' ∧ p.Leads (Tour.judgedAll ts) p' := by
  induction h generalizing place p with
  | done o => exact ⟨p, rfl, .refl p⟩
  | read rest ih =>
    obtain ⟨p', hd, hl⟩ := ih mirrored fresh covered
    exact ⟨p', by rw [drive, fresh.tree, hd], hl⟩
  | @visit r d hint body next said o within ts inner rest ihi ihr =>
    rw [List.forall_mem_cons] at mirrored
    obtain ⟨⟨under, -, -, -, hwithin⟩, hts⟩ := mirrored
    obtain ⟨S, hS, hplace⟩ := covered
    have hcovers : S <+: r := hplace.trans under
    obtain ⟨p₁, scope, hl₁, hmeet⟩ := fresh.meet_covered hS hcovers d
    have fresh₁ := fresh.of_leads hl₁
    obtain ⟨p₂, hd₂, hl₂⟩ := ihi hwithin (fresh₁.enter r scope)
      ⟨S, by rw [Progress.enter_run]; exact hl₁.scopes S hS, hcovers⟩
    have hl := hl₁.trans (hl₂.visit fresh₁ (Outcome.merge [hint, said]))
    obtain ⟨p₃, hd₃, hl₃⟩ := ihr hts (fresh.of_leads hl) ⟨S, hl.scopes S hS, hplace⟩
    refine ⟨p₃, ?_, hl.trans hl₃⟩
    simp only [drive, hmeet, hd₂, hd₃]

end Walk

end Conform

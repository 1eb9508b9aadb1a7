import Conform.Proofs.Judged

/-!
# Scoped runs and full runs

A run at the root that changes no value makes the tour of its rule, and judges its places in that
order. A run at a place goes through what lies above in structural mode, is led to the same visits,
and judges under its target what the run at the root has judged there, in the same order. So it
leaves the same states under its target, but for the numbers in them.
-/

namespace Conform

/-- Whether every run in full that is led to this visit judges under its target what the tour gives
there. -/
def Tour.Repeats (t : Tree) (s : Tour) : Prop :=
  ∀ ⦃p : Progress⦄ (isOpen : String → Bool), p.Fresh t → p.run.target.Addressable →
    ∃ o p' js, p.Leads js p' ∧
      judgedUnder p.run.target.text js = judgedUnder p.run.target.text s.judged ∧
      ∀ next : Outcome → Walk,
        (Walk.visit s.route s.declaration s.hint s.body next).drive isOpen p =
          (next o).drive isOpen p'

/-- So does every run in full whose walk asks for visits like that. -/
theorem Walk.Asks.leads {t : Tree} {w : Walk} {ts : List Tour} (h : w.Asks t ts)
    (repeats : ∀ s ∈ ts, s.Repeats t) {p : Progress} (isOpen : String → Bool) (fresh : p.Fresh t)
    (target : p.run.target.Addressable) :
    ∃ o p' js, w.drive isOpen p = .done o p' ∧ p.Leads js p' ∧
      judgedUnder p.run.target.text js =
        judgedUnder p.run.target.text (Tour.judgedAll ts) := by
  induction h generalizing p with
  | done o => exact ⟨o, p, [], rfl, .refl p, rfl⟩
  | read rest ih =>
    obtain ⟨o, p', js, hd, hl, hj⟩ := ih repeats fresh target
    exact ⟨o, p', js, by rw [drive, fresh.tree, hd], hl, hj⟩
  | visit rest ih =>
    rw [List.forall_mem_cons] at repeats
    obtain ⟨o₁, p₁, js, hl₁, hj₁, hd₁⟩ := repeats.1 isOpen fresh target
    obtain ⟨o, p₂, ks, hd₂, hl₂, hj₂⟩ := ih o₁ repeats.2 (fresh.of_leads hl₁) (hl₁.target ▸ target)
    rw [hl₁.target] at hj₂
    refine ⟨o, p₂, js ++ ks, (hd₁ _).trans hd₂, hl₁.trans hl₂, ?_⟩
    rw [Tour.judgedAll, judgedUnder_append, judgedUnder_append, hj₁, hj₂]

/-- **Led to a steady visit, every run repeats it.** It passes the place over only if nothing there
lies under its target, goes through it to the same visits, or makes the tour itself. -/
theorem Tour.Steady.repeats {t : Tree} {place : Route} {s : Tour} (h : s.Steady t place) :
    s.Repeats t := by
  induction h with
  | @mk place s under addressable full structural within ih =>
    have hsteady : s.Steady t place := .mk under addressable full structural within
    have hjudged := hsteady.mem_judged
    obtain ⟨route, d, hint, body, said, ts⟩ := s
    intro p isOpen fresh target
    obtain ⟨p₁, hl₁, hmeet⟩ := fresh.meet route d
    have fresh₁ := fresh.of_leads hl₁
    have hscope : p.run.target ∈ p₁.run.scopes := hl₁.scopes _ fresh.scope
    rcases hmeet with ⟨hapart, hm⟩ | ⟨habove, hm⟩ | ⟨⟨S, hS, hcovers⟩, scope, hm⟩
    · refine ⟨Outcome.silent, p₁, [], hl₁, ?_, fun next => by simp only [Walk.drive, hm]⟩
      refine (List.filter_eq_nil_iff.2 fun j hj hunder => ?_).symm
      obtain ⟨r, hr, hroute, htext⟩ := hjudged j hj
      rw [htext, Path.isAtOrUnder_iff target hr] at hunder
      rcases List.prefix_or_prefix_of_prefix hunder hroute with h | h
      · exact (hapart _ hscope).1 h
      · exact (hapart _ hscope).2 h
    · obtain ⟨o, p₂, js, hd, hl₂, hj⟩ := structural.leads ih isOpen fresh₁ (hl₁.target ▸ target)
      rw [hl₁.target] at hj
      refine ⟨Outcome.silent, p₂, js, hl₁.trans hl₂, ?_, fun next => by
        simp only [Walk.drive, hm, hd]⟩
      have hself : Path.isAtOrUnder route.text p.run.target.text = false := by
        rw [Bool.eq_false_iff, ne_eq, Path.isAtOrUnder_iff target addressable]
        exact habove _ hscope
      rw [hj, Tour.judged, judgedUnder_append]
      simp [judgedUnder, hself]
    · obtain ⟨p₂, hd, hl₂⟩ := full.leads isOpen within (fresh₁.enter route scope)
        ⟨S, by rw [Progress.enter_run]; exact hS, hcovers⟩
      exact ⟨Outcome.merge [hint, said], _, _, hl₁.trans (hl₂.visit fresh₁ _),
        by rw [List.nil_append, Tour.judged], fun next => by simp only [Walk.drive, hm, hd]⟩

/-- A state but for the numbers of the run and of the failure. -/
def State.unstamped (s : State) : State := { s with valLock := 0, errLock := none }

/-- What is on record at a path where run `n` has given an outcome last, or none. -/
def Model.Left (m : Model) (n : Nat) (path : String) : Option Outcome → Prop
  | none => m.state? path = none
  | some o => ∃ e, m.state? path = some (State.settled n e o)

namespace Model.Left

variable {m : Model} {n : Nat} {path : String} {last : Option Outcome}

theorem unstamped (h : m.Left n path last) :
    (m.state? path).map State.unstamped = last.map (State.settled 0 none) := by
  cases last with
  | none => rw [show m.state? path = none from h]; rfl
  | some o => obtain ⟨e, he⟩ := h; rw [he]; rfl

theorem stamp (h : m.Left n path last) {st : State} (hst : m.state? path = some st) :
    st.valLock = n := by
  cases last with
  | none => rw [show m.state? path = none from h] at hst; cases hst
  | some o => obtain ⟨e, he⟩ := h; rw [he] at hst; cases hst; rfl

end Model.Left

namespace Progress

variable {t : Tree} {p p' : Progress} {js : List (String × Outcome)}

theorem Fresh.target_evicted (h : p.Fresh t) {q : String}
    (under : Path.isAtOrUnder q p.run.target.text = true) :
    p.evictionScopes.any (Path.isAtOrUnder q) = true := by
  unfold evictionScopes
  split
  · simp [Route.root, Route.text, Path.isAtOrUnder_root]
  · exact List.any_eq_true.2 ⟨_, List.mem_map_of_mem h.scope, under⟩

section

variable (h : p.Leads js p') (fresh : p.Fresh t) (unseen : ∀ q, p.run.visited.contains q = false)
include h unseen

theorem Leads.visited_eq (q : String) :
    p'.run.visited.contains q = (lastJudged js q).isSome := by
  have hvisited := h.visits q
  rw [unseen, Bool.false_eq_true, false_or] at hvisited
  rw [Bool.eq_iff_iff, hvisited, Option.isSome_iff_ne_none, ne_eq, lastJudged_eq_none,
    Classical.not_not]

include fresh

/-- Under its target a run that has started from nothing and changed no value leaves what it has
judged last, and nothing else. -/
theorem Leads.finish_left {q : String} (under : Path.isAtOrUnder q p.run.target.text = true) :
    p'.finish.1.Left p.run.ordinal q (lastJudged js q) := by
  have fresh' := fresh.of_leads h
  have hvisited := h.visited_eq unseen q
  cases hj : lastJudged js q with
  | none =>
    rw [hj] at hvisited
    have hevicted := fresh'.target_evicted (q := q) (h.target ▸ under)
    rw [Model.Left, Progress.finish_state?, Option.filter_eq_none_iff]
    intro st hst
    simp [hvisited, hevicted, fresh'.newest q st hst]
  | some o =>
    rw [hj] at hvisited
    obtain ⟨e, he⟩ := h.settled q o hj
    exact ⟨e, (finish_state?_visited hvisited).trans he⟩

/-- It answers what it has judged of its target last. Where it has not come there, it answers that
the target is not valid. -/
theorem Leads.finish_answer (positive : 0 < p.run.ordinal) (unjudged : p.run.computed = none) :
    p'.finish.2 = (lastJudged js p.run.target.text).any Outcome.passes := by
  have hleft := h.finish_left fresh unseen (q := p.run.target.text)
    (Path.isAtOrUnder_of_prefix List.prefix_rfl)
  cases hj : lastJudged js p.run.target.text with
  | none =>
    rw [hj, Model.Left, ← h.target] at hleft
    rw [finish_older, hleft, (h.computed.resolve_right (lastJudged_eq_none.1 hj)).trans unjudged]
    · rfl
    · rw [hleft, h.ordinal]
      exact positive
  | some o =>
    rw [hj, ← h.target] at hleft
    obtain ⟨e, he⟩ := hleft
    rw [Bool.eq_iff_iff, finish_verdict he h.ordinal.symm]
    all_goals
      simp only [State.settled, Option.any_some, Outcome.passes]
      cases o.isInvalid <;> decide

end

end Progress

namespace Call

variable (c : Call) (m : Model) (r : Route) (options : ValidateOptions)

theorem progress_scope :
    (c.progress m r options).run.target ∈ (c.progress m r options).run.scopes := by
  have hfold : ∀ (paths : List String) (base target : Route) (scopes : List Route),
      target ∈ scopes → target ∈ paths.foldl
        (fun scopes path => Run.addScope scopes (base.resolve path)) scopes := by
    intro paths base target
    induction paths with
    | nil => exact fun _ => id
    | cons path paths ih => exact fun scopes h => ih _ (Run.mem_addScope h)
  cases c <;> exact hfold _ _ _ _ List.mem_cons_self

end Call

/-- A tour from the root. -/
def Rule.tour (options : EvalOptions) (rule : Rule) (said : Outcome) (within : List Tour) : Tour :=
  ⟨[], rule.declaration, Outcome.silent, fun mode => rule.walk options mode [], said, within⟩

/-- A run at the root that changes no value makes a tour of its rule. -/
theorem Rule.tours_of_root {options : EvalOptions} {rule : Rule} (builtIn : rule.isBuiltIn = true)
    {isOpen : String → Bool} {p p' : Progress} (root : p.run.target = []) {o : Outcome}
    (hd : (Walk.visit [] rule.declaration Outcome.silent (fun mode => rule.walk options mode [])
      .done).drive isOpen p = .done o p')
    (still : p'.model.changes.length = p.model.changes.length) :
    p'.model.tree = p.model.tree ∧
      ∃ said within, (rule.walk options .full []).Tours p.model.tree said within := by
  have hfromRoot : p.run.fromRoot = true := by
    rw [Run.fromRoot, root]
    rfl
  have hconfined : (Walk.visit [] rule.declaration Outcome.silent
      (fun mode => rule.walk options mode []) .done).Confined [] fun _ => True :=
    ⟨List.prefix_rfl, fun mode => Rule.walk_confined options builtIn mode [], fun _ => trivial⟩
  obtain ⟨htree, ts, hts⟩ := hconfined.tours hfromRoot trivial hd still
  cases hts with
  | visit inner rest => exact ⟨htree, _, _, inner⟩

theorem Rule.tour_mirrored {options : EvalOptions} {rule : Rule} {t : Tree} {kind : Route → Prop}
    (mirrors : (rule.walker options).Mirrors t kind) (here : kind []) {said : Outcome}
    {within : List Tour} (h : (rule.walk options .full []).Tours t said within) :
    (rule.tour options said within).Mirrored t kind [] :=
  .mk List.prefix_rfl here h (mirrors here h).1 (mirrors here h).2

/-- A run at the root that changes no value judges the places of a steady tour. -/
theorem Rule.root_tour {options : EvalOptions} {rule : Rule} (builtIn : rule.isBuiltIn = true)
    (built : rule.Built Segment.Name) {isOpen : String → Bool} {t : Tree} (data : t.Addressable)
    {p p' : Progress} (fresh : p.Fresh t) (root : p.run.target = []) {o : Outcome}
    (hd : (Walk.visit [] rule.declaration Outcome.silent (fun mode => rule.walk options mode [])
      .done).drive isOpen p = .done o p')
    (still : p'.model.changes.length = p.model.changes.length) :
    ∃ said within, (rule.tour options said within).Steady t [] ∧
      p.Leads (rule.tour options said within).judged p' := by
  obtain ⟨-, said, within, htours⟩ := Rule.tours_of_root builtIn root hd still
  rw [fresh.tree] at htours
  have hsteady : (rule.tour options said within).Steady t [] :=
    Rule.tour_mirrored (Rule.walk_mirrors options data.ways built) (fun s hs => (by cases hs))
      htours
  obtain ⟨q, hq, hl⟩ := (Walk.Tours.visit htours (.done _)).leads isOpen
    (List.forall_mem_singleton.2 hsteady) fresh ⟨_, fresh.scope, root ▸ List.prefix_rfl⟩
  rw [hd] at hq
  cases hq
  rw [Tour.judgedAll, Tour.judgedAll, List.append_nil] at hl
  exact ⟨said, within, hsteady, hl⟩

/-- A call that finds the tour of the rule steady is answered, and judges at and under its target
what the tour gives there. -/
theorem Call.answer_of_tour (c : Call) {m : Model} {r : Route} {options : ValidateOptions}
    {tour : Tour} (h : tour.Steady m.tree []) {said : Outcome} {within : List Tour}
    (ofRule : tour = m.rule.tour (Call.evaluation m options) said within)
    (fresh : (c.progress m r options).Fresh m.tree)
    (target : (Model.runTarget r options).Addressable) (isOpen : String → Bool) :
    ∃ p js, c.answer m r options isOpen = (p.finish.1, .finished p.finish.2) ∧
      (c.progress m r options).Leads js p ∧
      ∀ q, Path.isAtOrUnder q (Model.runTarget r options).text = true →
        lastJudged js q = lastJudged tour.judged q := by
  obtain ⟨o, p, js, hleads, hjudged, hvisit⟩ := h.repeats isOpen fresh
    (by rw [c.progress_target]; exact target)
  rw [c.progress_target] at hjudged
  refine ⟨p, js, ?_, hleads, fun q under => ?_⟩
  · subst ofRule
    rw [c.answer_eq, Active.resume, c.drive_start]
    exact congrArg Stop.result (hvisit .done)
  · rw [← lastJudged_judgedUnder under js, hjudged, lastJudged_judgedUnder under]

namespace Overlap

theorem Numbered.progress_fresh {s : Overlap} (h : Numbered s) (c : Call) (r : Route)
    (options : ValidateOptions)
    (full : (options.withConfig s.model.config).onlyDirtyRefs = false) :
    (c.progress s.model r options).Fresh s.model.tree where
  full := by rw [Call.progress_onlyDirtyRefs, full]
  newest := h.progress_newest c r options
  open_ := (h.progress c r options).2
  tree := c.progress_tree s.model r options
  scope := c.progress_scope s.model r options

/-- **Scoped runs agree with full runs.** Let the schema hold built-in keywords only, and let no
name in it or in the data be one that a path cannot lead over. Where a run at the root, not keeping
to dirty places, tells of no change of a value, a run right after it at any place with the same
options tells of none either. If the run at the root has visited the place, then the second one
commits the same states there and below, but for the numbers, and it answers whether the place was
left without an error. Otherwise it answers that the place is not valid and leaves no record there.

A run that puts an old value back has told of two changes, and what it has judged in between need
not be what the next run judges. -/
theorem scoped_run_agrees {registry : Registry} {schema : Value} {rule : Rule} {data : Tree}
    {config : ModelConfig} {hist : List Event} {s : Overlap} (plain : registry.keywords = [])
    (compiled : compile registry schema = .ok rule) (schemaKeys : schema.Keyed Segment.Name)
    (before : Trace (fresh rule data config) hist s) (dataKeys : s.model.tree.Addressable)
    (c : Call) (r : Route) (options : ValidateOptions) (root : Model.runTarget r options = [])
    (full : (options.withConfig s.model.config).onlyDirtyRefs = false) {isOpen : String → Bool}
    {o : Outcome} {p : Progress}
    (completes : (c.start s.model r options).1.drive isOpen (c.start s.model r options).2 =
      .done o p)
    (still : p.finish.1.changes = s.model.changes) (c' : Call) (r' : Route) (scope : Option String)
    (path : String) (target : Model.runTarget r' { options with scope := scope } = Route.parse path)
    (isOpen' : String → Bool) :
    ∃ m valid, c'.answer p.finish.1 r' { options with scope := scope } isOpen' =
        (m, .finished valid) ∧ m.tree = p.finish.1.tree ∧ m.changes = p.finish.1.changes ∧
      match p.run.visited.contains (Path.normalize path) with
      | true =>
        (∀ q, Path.isAtOrUnder q (Path.normalize path) = true →
          (m.state? q).map State.unstamped = (p.finish.1.state? q).map State.unstamped ∧
            ∀ st, m.state? q = some st → st.valLock = p.finish.1.runs + 1) ∧
          ∃ st, p.finish.1.state? (Path.normalize path) = some st ∧
            (valid = true ↔ st.status ≠ .error)
      | false => valid = false ∧ m.state? (Path.normalize path) = none := by
  have builtIn := compile_isBuiltIn plain compiled
  have built := compile_built plain schemaKeys compiled
  have hrule : s.model.rule = rule := (Rising.trace builtIn before).rule
  have hfresh := ((Numbered.fresh rule data config).trace before).progress_fresh c r options full
  -- the run at the root makes a tour
  have hdrive := completes
  rw [c.drive_start, hrule] at hdrive
  have hkeeps := Walk.drive_keeps hdrive
  obtain ⟨said, within, hsteady, hleads⟩ := Rule.root_tour builtIn built dataKeys hfresh
    (by rw [c.progress_target, root]) hdrive
    (by rw [c.progress_changes]; exact congrArg List.length still)
  have hleft := fun q => hleads.finish_left hfresh (by simp) (q := q)
    (by rw [c.progress_target, root]; exact Path.isAtOrUnder_root q)
  have hvisited := hleads.visited_eq (by simp) (Path.normalize path)
  generalize htour : rule.tour (Call.evaluation s.model options) said within = tour
    at hsteady hleads hleft hvisited
  -- the run at the place is led to it
  have hanswer : c.answer s.model r options isOpen = (p.finish.1, .finished p.finish.2) := by
    rw [c.answer_eq, Active.resume, completes]
    rfl
  obtain ⟨es, s', run, htrace, hstep, -⟩ := Trace.of_answer s.underWay hanswer
  have after : Trace (fresh rule data config) _ ⟨p.finish.1, s.underWay⟩ :=
    .snoc (before.trans htrace) hstep
  have hrule' : p.finish.1.rule = rule := (Rising.trace builtIn after).rule
  have hconfig : p.finish.1.config = s.model.config := hkeeps.config.trans (by simp)
  have htree : p.finish.1.tree = s.model.tree := hleads.tree.trans (by simp)
  have hfresh' := ((Numbered.fresh rule data config).trace after).progress_fresh c' r'
    { options with scope := scope } (by rw [hconfig]; exact full)
  obtain ⟨p', js, hanswer', hleads', hsame⟩ := c'.answer_of_tour (htree ▸ hsteady)
    (by rw [← htour, hrule', Call.evaluation, Call.evaluation, hconfig]; rfl) hfresh'
    (target ▸ Route.parse_addressable path) isOpen'
  -- so it leaves what the tour gives there
  rw [target] at hsame
  have htarget : (c'.progress p.finish.1 r' { options with scope := scope }).run.target.text =
      Path.normalize path := by rw [c'.progress_target, target]; rfl
  have hleft' : ∀ q, Path.isAtOrUnder q (Path.normalize path) = true →
      p'.finish.1.Left (p.finish.1.runs + 1) q (lastJudged tour.judged q) := by
    intro q under
    rw [← hsame q under, ← c'.progress_ordinal p.finish.1 r' { options with scope := scope }]
    exact hleads'.finish_left hfresh' (by simp) (htarget ▸ under)
  have hself : Path.isAtOrUnder (Path.normalize path) (Path.normalize path) = true :=
    Path.isAtOrUnder_of_prefix List.prefix_rfl
  have hvalid := hleads'.finish_answer hfresh' (by simp) (by simp) (by simp)
  rw [htarget, hsame _ hself] at hvalid
  refine ⟨p'.finish.1, p'.finish.2, hanswer', hleads'.tree.trans (by simp),
    hleads'.told.trans (by simp), ?_⟩
  have htargetLeft := hleft (Path.normalize path)
  have htargetLeft' := hleft' (Path.normalize path) hself
  rw [hvisited]
  cases hj : lastJudged tour.judged (Path.normalize path) with
  | none =>
    rw [hj] at hvalid htargetLeft'
    exact ⟨hvalid, htargetLeft'⟩
  | some o =>
    rw [hj] at hvalid htargetLeft
    obtain ⟨e, he⟩ := htargetLeft
    refine ⟨fun q under => ⟨(hleft' q under).unstamped.trans (hleft q).unstamped.symm,
      fun st hst => (hleft' q under).stamp hst⟩, _, he, ?_⟩
    rw [hvalid]
    simp only [State.settled, Option.any_some, Outcome.passes]
    cases o.isInvalid <;> decide

/-- A schema whose second branch says of `/a` that it is an integer. -/
def branchSchema : Value :=
  .object [("anyOf", .array [.object [("type", .string "string")],
    .object [("properties", .object [("a", .object [("type", .string "integer")])])]])]

/-- The rule of `branchSchema`. -/
def branchRule : Rule :=
  .node "#" [.leaf (.annotations none [] {}), .anyOf
    [.node "#/anyOf/0" [.leaf (.annotations none [] {}), .leaf (.type [.string])] {} {},
    .node "#/anyOf/1" [.leaf (.annotations none [] {}), .properties
      [.mk "a" false (.node "#/anyOf/1/properties/a"
        [.leaf (.annotations none [] {}), .leaf (.type [.integer])] {} {})]] {} {}]] {} {}

theorem branchSchema_keyed : branchSchema.Keyed Segment.Name := by
  have hname : ∀ k ∈ ["anyOf", "type", "properties", "a"], Segment.Name k := by
    simp only [List.forall_mem_cons]
    refine ⟨?_, ?_, ?_, ?_, fun k hk => (by cases hk)⟩ <;> constructor <;> decide
  have hone : ∀ k ∈ ["anyOf", "type", "properties", "a"], ∀ v : Value, v.Keyed Segment.Name →
      (Value.object [(k, v)]).Keyed Segment.Name := fun k hk v hv =>
    .object (List.forall_mem_singleton.2 (hname k hk)) (List.forall_mem_singleton.2 hv)
  refine hone "anyOf" (by decide) _ (.array (List.forall_mem_cons.2 ⟨?_, ?_⟩))
  · exact hone "type" (by decide) _ (.string _)
  · exact List.forall_mem_singleton.2 (hone "properties" (by decide) _
      (hone "a" (by decide) _ (hone "type" (by decide) _ (.string _))))

def branchData : Tree := some (.object [("a", .int 7)])

theorem branchData_addressable : branchData.Addressable where
  keyed v hv := by
    cases hv
    refine .object (List.forall_mem_singleton.2 ?_) (List.forall_mem_singleton.2 (.number _))
    constructor <;> decide
  short r items hr := by
    match r with
    | [] => cases hr
    | s :: r =>
      simp only [branchData, Tree.get?, Option.bind_some, Tree.valueAt?, Tree.childOf?,
        Dict.get?] at hr
      by_cases hs : "a" = s.text
      · rw [if_pos hs] at hr
        cases r with
        | nil => cases hr
        | cons s' r => cases s' <;> cases hr
      · rw [if_neg hs] at hr
        cases hr

/-- A run at `/a` finds the branch by trying, as the run at the root did, and leaves there what that
run has left. At `/b`, where no branch leads, a run leaves nothing. -/
theorem scoped_run_agrees_branch :
    ∃ m, Call.validate.answer (Model.ofRule branchRule branchData {}) [] {} (fun _ => true) =
        (m, .finished true) ∧
      (∃ m' st, Call.validate.answer m [] { scope := some "/a" } (fun _ => true) =
        (m', .finished true) ∧ m'.state? "/a" = some st ∧ st.status = .success ∧ st.valLock = 2) ∧
      ∃ m', Call.prepare.answer m [] { scope := some "/b" } (fun _ => true) =
        (m', .finished false) ∧ m'.state? "/b" = none := by
  have compiled : compile Registry.standard branchSchema = .ok branchRule := rfl
  obtain ⟨o, p, completes, still, hvalid, hruns, ha, hb, hstate⟩ : ∃ o p,
      (Call.validate.start (Model.ofRule branchRule branchData {}) [] {}).1.drive (fun _ => true)
        (Call.validate.start (Model.ofRule branchRule branchData {}) [] {}).2 = .done o p ∧
      p.finish.1.changes = [] ∧ p.finish.2 = true ∧ p.finish.1.runs = 1 ∧
      p.run.visited.contains "/a" = true ∧ p.run.visited.contains "/b" = false ∧
      (p.finish.1.state? "/a").map State.status = some .success :=
    ⟨_, _, rfl, rfl, by decide +kernel, rfl, by decide +kernel, by decide +kernel,
      by decide +kernel⟩
  have hpaths : Path.normalize "/a" = "/a" ∧ Path.normalize "/b" = "/b" := by decide +kernel
  have hscoped := fun c' path => scoped_run_agrees rfl compiled branchSchema_keyed (.nil _)
    branchData_addressable .validate [] {} rfl rfl completes still c' [] (some path) path
  refine ⟨p.finish.1, ?_, ?_, ?_⟩
  · rw [Call.answer_eq, Active.resume, completes, ← hvalid]
    rfl
  · obtain ⟨m', valid, hanswer, -, -, hrest⟩ := hscoped .validate "/a" rfl fun _ => true
    rw [hpaths.1, ha] at hrest
    obtain ⟨hstates, st, hst, hiff⟩ := hrest
    obtain ⟨hsame, hstamp⟩ := hstates "/a" (by decide)
    rw [hst] at hsame hstate
    obtain ⟨st', hst', hunstamped⟩ := Option.map_eq_some_iff.1 hsame
    have hstatus : st.status = .success := Option.some.inj hstate
    have hstatus' : st'.unstamped.status = st.unstamped.status := by rw [hunstamped]
    obtain rfl : valid = true := hiff.2 (by rw [hstatus]; decide)
    exact ⟨m', st', hanswer, hst', hstatus'.trans hstatus, (hstamp st' hst').trans (by rw [hruns])⟩
  · obtain ⟨m', valid, hanswer, -, -, hrest⟩ := hscoped .prepare "/b" rfl fun _ => true
    rw [hpaths.2, hb] at hrest
    obtain ⟨rfl, hnone⟩ := hrest
    exact ⟨m', hanswer, hnone⟩

end Overlap

end Conform

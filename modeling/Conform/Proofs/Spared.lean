import Conform.Proofs.Apart
import Conform.Proofs.Scoped

/-!
# What a run spares

A run changes nothing outside its scopes. Above them its walk is in structural mode, where it looks
at values and tries branches on copies but writes nothing of its own. What it enters lies at or
under a scope, and there the walk keeps to the place. The scopes grow while the run is at work, and
those that it ends with are what counts: every record at a path under none of them is as it was, and
so is every value at a place that lies apart from all of them.
-/

namespace Conform

namespace Walk

/-- Whether a walk writes nothing outside its visits, and what it asks for there keeps to the place,
and in structural mode is a walk of this kind again. -/
def Surveys : Walk → Prop
  | done _ => True
  | fail _ => True
  | read _ next => ∀ v, (next v).Surveys
  | write .. => False
  | await .. => False
  | visit r _ _ body next =>
    (body .structural).Surveys ∧ (∀ mode, (body mode).Confined r fun _ => True) ∧
      ∀ o, (next o).Surveys

theorem Surveys.andThen {w : Walk} {k : Outcome → Walk} (h : w.Surveys)
    (hk : ∀ o, (k o).Surveys) : (w.andThen k).Surveys := by
  induction w with
  | done o => exact hk o
  | fail e => trivial
  | read r next ih => exact fun v => ih v (h v)
  | write r v next ih => exact absurd h id
  | await g next ih => exact absurd h id
  | visit r d hint body next _ ihn => exact ⟨h.1, h.2.1, fun o => ihn o (h.2.2 o)⟩

/-- Of a probe only what comes after it counts. -/
theorem Surveys.probe {w : Walk} {place : Route} {k : Outcome → Walk}
    (h : w.Confined place fun _ => True) (hk : ∀ o, (k o).Surveys) :
    (w.probe place k).Surveys := by
  intro v
  obtain ⟨x, hx⟩ := h.trial v
  dsimp only
  rw [hx]
  cases x with
  | passed o copy => exact hk o
  | broken e => trivial

/-- The walks of something that keeps to its place, and in structural mode writes nothing there. -/
structure SurveysAnywhere (walk : Mode → Route → Walk) : Prop where
  confined : ∀ mode route, (walk mode route).Confined route fun _ => True
  surveys : ∀ route, (walk .structural route).Surveys

end Walk

namespace Check

open Walk

variable {route : Route}

theorem visitAll_surveys (message : String) (ok : Bool) {vs : List Visit}
    (h : ∀ v ∈ vs, SurveysAnywhere v.walker.walk) : (visitAll message ok vs).Surveys := by
  induction vs generalizing ok with
  | nil => trivial
  | cons v vs ih =>
    obtain ⟨hv, hvs⟩ := List.forall_mem_cons.1 h
    exact ⟨hv.surveys v.route, fun mode => hv.confined mode v.route, fun o => ih _ hvs⟩

theorem propertiesWalk_surveys {visits : List Visit}
    (h : ∀ v ∈ visits, SurveysAnywhere v.walker.walk) : (propertiesWalk visits route).Surveys := by
  intro v
  dsimp only
  split
  · exact visitAll_surveys _ _ h
  · exact visitAll_surveys _ _ h
  · trivial

theorem additionalWalk_surveys (known : List String) {w : Walker} (h : SurveysAnywhere w.walk) :
    (additionalWalk known w route).Surveys := by
  intro v
  cases v with
  | none => trivial
  | some v =>
    refine visitAll_surveys _ _ fun u hu => ?_
    obtain ⟨k, -, rfl⟩ := List.mem_map.1 hu
    exact h

theorem itemsWalk_surveys {walkers : Nat → List Walker}
    (h : ∀ n, ∀ w ∈ walkers n, SurveysAnywhere w.walk) : (itemsWalk walkers route).Surveys := by
  intro v
  dsimp only
  split
  · refine visitAll_surveys _ _ fun u hu => ?_
    obtain ⟨i, hi, rfl⟩ := List.mem_mapIdx.1 hu
    exact h _ _ (List.getElem_mem hi)
  · trivial

theorem allOfWalk_surveys {ws : List Walker} (h : ∀ w ∈ ws, SurveysAnywhere w.walk)
    (os : List Outcome) : (allOfWalk .structural route os ws).Surveys := by
  induction ws generalizing os with
  | nil => trivial
  | cons w ws ih =>
    obtain ⟨hw, hws⟩ := List.forall_mem_cons.1 h
    exact (hw.surveys route).andThen fun o => ih hws _

theorem anyOfWalk_surveys {ws : List Walker} (h : ∀ w ∈ ws, SurveysAnywhere w.walk) :
    (anyOfWalk .structural route ws).Surveys := by
  induction ws with
  | nil => trivial
  | cons w ws ih =>
    obtain ⟨hw, hws⟩ := List.forall_mem_cons.1 h
    refine Surveys.probe (hw.confined .full route) fun o => ?_
    split
    · exact hw.surveys route
    · exact ih hws

theorem oneOfWalk_surveys {matched ws : List Walker} (hm : ∀ w ∈ matched, SurveysAnywhere w.walk)
    (h : ∀ w ∈ ws, SurveysAnywhere w.walk) :
    (oneOfWalk .structural route matched ws).Surveys := by
  induction ws generalizing matched with
  | nil =>
    match matched with
    | [] => trivial
    | [w] => exact (hm w List.mem_cons_self).surveys route
    | w :: w' :: rest => trivial
  | cons w ws ih =>
    obtain ⟨hw, hws⟩ := List.forall_mem_cons.1 h
    rw [oneOfWalk]
    refine Surveys.probe (hw.confined .full route) fun o => ih ?_ hws
    split
    · exact List.forall_mem_append.2 ⟨hm, List.forall_mem_singleton.2 hw⟩
    · exact hm

theorem conditionalWalk_surveys {condition : Walker} {met unmet : Option Walker}
    (hc : SurveysAnywhere condition.walk) (hm : ∀ w ∈ met, SurveysAnywhere w.walk)
    (hu : ∀ w ∈ unmet, SurveysAnywhere w.walk) :
    (conditionalWalk .structural route condition met unmet).Surveys := by
  refine Surveys.probe (hc.confined .full route) fun o => ?_
  have hchosen : ∀ w ∈ (if o.passes then met else unmet), SurveysAnywhere w.walk := by
    split
    · exact hm
    · exact hu
  split
  · next w hw => exact (hchosen w hw).surveys route
  · trivial

/-- Whether the walks of a check keep to their place, and write nothing there in structural mode if
they run in it at all. -/
structure Ready.Surveys (c : Ready) : Prop where
  confined : ∀ mode route, (c.walk mode route).Confined route fun _ => True
  surveys : c.isCompound = true → ∀ route, (c.walk .structural route).Surveys

theorem runAll_surveys {f : List Outcome → Outcome} {cs : List Ready}
    (h : ∀ c ∈ cs, c.Surveys) (os : List Outcome) :
    (runAll .structural route (fun os => done (f os)) os cs).Surveys := by
  induction cs generalizing os with
  | nil => trivial
  | cons c cs ih =>
    obtain ⟨hc, hcs⟩ := List.forall_mem_cons.1 h
    rw [runAll]
    cases hcompound : c.isCompound with
    | true =>
      rw [if_neg (by simp)]
      exact (hc.surveys hcompound route).andThen fun o => ih hcs _
    | false =>
      rw [if_pos (by simp)]
      exact ih hcs os

end Check

section

variable (options : EvalOptions)

open Walk

theorem surveys_nesting : Nesting (fun _ => True) (fun r => SurveysAnywhere (r.walk options))
    (fun c => Check.Ready.Surveys ⟨c.keyword, c.isCompound, c.walk options⟩) where
  node location checks messages declaration h := by
    refine ⟨(confined_nesting options).node location checks messages declaration fun c hc =>
      (h c hc).confined, fun route => ?_⟩
    rw [Rule.walk, readyChecks_eq_map]
    exact Check.runAll_surveys (List.forall_mem_map.2 h) []
  leaf l := ⟨(confined_nesting options).leaf l, fun hc => (by cases hc)⟩
  properties children h := by
    refine ⟨(confined_nesting options).properties children fun key required rule hp =>
      ⟨trivial, (h key required rule hp).2.confined⟩, fun _ route => ?_⟩
    show (Check.walk options _ _ _).Surveys
    rw [Check.walk, propertyVisits_eq_map]
    refine Check.propertiesWalk_surveys fun v hv => ?_
    obtain ⟨⟨key, required, rule⟩, hp, rfl⟩ := List.mem_map.1 hv
    exact (h key required rule hp).2
  additional keys rule h := by
    refine ⟨(confined_nesting options).additional keys rule h.confined, fun _ route => ?_⟩
    show (Check.walk options _ _ _).Surveys
    rw [Check.walk]
    exact Check.additionalWalk_surveys keys h
  items rule h := by
    refine ⟨(confined_nesting options).items rule h.confined, fun _ route => ?_⟩
    show (Check.walk options _ _ _).Surveys
    rw [Check.walk]
    refine Check.itemsWalk_surveys fun n w hw => ?_
    rw [List.eq_of_mem_replicate hw]
    exact h
  tuple rules h := by
    refine ⟨(confined_nesting options).tuple rules fun r hr => (h r hr).confined,
      fun _ route => ?_⟩
    have hws : ∀ w ∈ rules.map (Rule.walker options), SurveysAnywhere w.walk :=
      List.forall_mem_map.2 h
    show (Check.walk options _ _ _).Surveys
    rw [Check.walk, walkersOf_eq_map]
    exact Check.itemsWalk_surveys fun n w hw => hws w (List.mem_of_mem_take hw)
  allOf branches h := by
    refine ⟨(confined_nesting options).allOf branches fun r hr => (h r hr).confined,
      fun _ route => ?_⟩
    show (Check.walk options _ _ _).Surveys
    rw [Check.walk, walkersOf_eq_map]
    exact Check.allOfWalk_surveys (List.forall_mem_map.2 h) []
  anyOf branches h := by
    refine ⟨(confined_nesting options).anyOf branches fun r hr => (h r hr).confined,
      fun _ route => ?_⟩
    show (Check.walk options _ _ _).Surveys
    rw [Check.walk, walkersOf_eq_map]
    exact Check.anyOfWalk_surveys (List.forall_mem_map.2 h)
  oneOf branches h := by
    refine ⟨(confined_nesting options).oneOf branches fun r hr => (h r hr).confined,
      fun _ route => ?_⟩
    show (Check.walk options _ _ _).Surveys
    rw [Check.walk, walkersOf_eq_map]
    exact Check.oneOfWalk_surveys (fun w hw => (by cases hw)) (List.forall_mem_map.2 h)
  excluded rule h :=
    ⟨(confined_nesting options).excluded rule h.confined, fun hc => (by cases hc)⟩
  conditional condition met unmet hc hm hu := by
    refine ⟨(confined_nesting options).conditional condition met unmet hc.confined
      (fun r hr => (hm r hr).confined) (fun r hr => (hu r hr).confined), fun _ route => ?_⟩
    have hmap : ∀ r : Option Rule, (∀ r' ∈ r, SurveysAnywhere (r'.walk options)) →
        ∀ w ∈ r.map (Rule.walker options), SurveysAnywhere w.walk := by
      intro r hr w hw
      obtain ⟨r', hr', rfl⟩ := Option.map_eq_some_iff.1 hw
      exact hr r' hr'
    show (Check.walk options _ _ _).Surveys
    rw [Check.walk, walkerOf?_eq_map, walkerOf?_eq_map]
    exact Check.conditionalWalk_surveys hc (hmap met hm) (hmap unmet hu)

/-- **Nothing is written on the way.** In structural mode the walk of a rule of built-in keywords
writes nothing but in the visits that are granted in full. -/
theorem Rule.walk_surveys {r : Rule} (h : r.isBuiltIn = true) : SurveysAnywhere (r.walk options) :=
  (surveys_nesting options).rule (r.built_of_isBuiltIn h)

end

namespace Model

variable {path q : String} (h : path ≠ q) (m : Model)
include h

theorem commit_get?_ne (s : State) : (m.commit path s).records.get? q = m.records.get? q := by
  unfold commit
  split
  · exact Records.get?_update_ne _ h _
  · rfl

theorem rollBack_get?_ne (n : Nat) (previous : State) :
    (m.rollBack path n previous).records.get? q = m.records.get? q := by
  show (m.records.rollBack path n previous).get? q = _
  unfold Records.rollBack
  split
  · split
    · exact Records.get?_update_ne _ h _
    · rfl
  · rfl

end Model

namespace Progress

/-- What holds between two moments of a run: it has the scopes that it had, and whatever lies
outside those that it has now is as it was. -/
structure Spares (p p' : Progress) : Prop where
  target : p'.run.target = p.run.target
  scopes : ∀ S ∈ p.run.scopes, S ∈ p'.run.scopes
  records : ∀ path, (∀ S ∈ p'.run.scopes, Path.isAtOrUnder path S.text = false) →
    p'.model.records.get? path = p.model.records.get? path
  values : ∀ q v, (∀ S ∈ p'.run.scopes, S.Apart q) → p.model.tree.get? q = some v →
    p'.model.tree.get? q = some v

namespace Spares

variable {p p' p'' : Progress}

theorem refl (p : Progress) : p.Spares p := ⟨rfl, fun _ => id, fun _ _ => rfl, fun _ _ _ => id⟩

theorem trans (h : p.Spares p') (h' : p'.Spares p'') : p.Spares p'' where
  target := h'.target.trans h.target
  scopes S hS := h'.scopes S (h.scopes S hS)
  records path hp := (h'.records path hp).trans (h.records path fun S hS => hp S (h'.scopes S hS))
  values q v hq hv := h'.values q v hq (h.values q v (fun S hS => hq S (h'.scopes S hS)) hv)

/-- A change of one record that lies under a scope. -/
theorem of_record {S route : Route} (hS : S ∈ p'.run.scopes) (hr : S <+: route)
    (target : p'.run.target = p.run.target) (scopes : p'.run.scopes = p.run.scopes)
    (records : ∀ path, route.text ≠ path →
      p'.model.records.get? path = p.model.records.get? path)
    (tree : p'.model.tree = p.model.tree) : p.Spares p' where
  target := target
  scopes T hT := scopes ▸ hT
  records path hp := by
    refine records path fun he => ?_
    have hunder := Path.isAtOrUnder_of_prefix hr
    rw [he, hp S hS] at hunder
    cases hunder
  values q v _ hv := tree ▸ hv

theorem discover (p : Progress) (route : Route) (d : Declaration) :
    p.Spares ⟨p.run.discover route d, p.model⟩ where
  target := by simp
  scopes S hS := Run.mem_discover_scopes hS route d
  records _ _ := rfl
  values _ _ _ := id

section

variable {S route : Route} (hS : S ∈ p.run.scopes) (hr : S <+: route)
include hS hr

theorem enter (scope : Scope) : p.Spares (p.enter route scope).1 := by
  have hrun := p.enter_run route scope
  refine of_record (by rw [hrun]; exact hS) hr (by rw [hrun]; rfl) (by rw [hrun]; rfl)
    (fun path hne => ?_) (p.enter_tree route scope)
  unfold Progress.enter
  dsimp only
  split
  · rfl
  · dsimp only
    split
    · exact (Model.commit_get?_ne hne _ _).trans (Records.get?_update_ne _ hne _)
    · exact Records.get?_update_ne _ hne _

theorem settle {t : Ticket} (ht : t.route = route) (o : Outcome) : p.Spares (p.settle t o) := by
  obtain ⟨computed, hrun⟩ := p.settle_same t o
  refine of_record (by rw [hrun]; exact hS) hr (by rw [hrun]) (by rw [hrun])
    (fun path hne => ?_) (p.settle_tree t o)
  rw [← ht] at hne
  unfold Progress.settle
  dsimp only
  split
  · rfl
  · exact Model.commit_get?_ne hne _ _

theorem rollBack {t : Ticket} (ht : t.route = route) : p.Spares (p.rollBack t) := by
  have hrun := p.rollBack_run t
  refine of_record (by rw [hrun]; exact hS) hr (by rw [hrun]) (by rw [hrun])
    (fun path hne => ?_) ?_
  · rw [← ht] at hne
    unfold Progress.rollBack
    split
    · exact Model.rollBack_get?_ne hne _ _ _
    · rfl
  · unfold Progress.rollBack
    split <;> rfl

theorem write (v : Option Value) : p.Spares ⟨p.run, (p.model.write route v).model⟩ where
  target := rfl
  scopes _ := id
  records path _ := by rw [(p.model.write_records route v).records]
  values q w hq hw := by
    have hapart : route.Apart q := by
      obtain ⟨rest, rfl⟩ := hr
      exact (hq S hS).append rest
    unfold Model.write
    split
    · exact hw
    · dsimp only
      split <;> exact Tree.get?_set_apart hapart hw

end

end Spares

end Progress

/-- The run where it stopped, and the model as it is then. -/
def Stop.progress : Stop → Progress
  | done _ p => p
  | failed _ p => p
  | waiting _ _ p => p

namespace Progress

/-- A visit spares what its body and what comes after it spare, if a place that is entered lies at
or under a scope. -/
theorem Spares.visit {p : Progress} {isOpen : String → Bool} {r : Route} {d : Declaration}
    {hint : Outcome} {body : Mode → Walk} {next : Outcome → Walk}
    (through : ∀ q, p.Spares q → q.Spares ((body .structural).drive isOpen q).progress)
    (entered : ∀ q scope, p.Spares q → q.run = p.run.discover r d → q.run.classify r d = scope →
      scope = .validating ∨ scope = .preparing → ∃ S ∈ q.run.scopes, S <+: r ∧
        (q.enter r scope).1.Spares ((body .full).drive isOpen (q.enter r scope).1).progress)
    (rest : ∀ o q, p.Spares q → q.Spares ((next o).drive isOpen q).progress) :
    p.Spares ((Walk.visit r d hint body next).drive isOpen p).progress := by
  have hdiscover := Spares.discover p r d
  simp only [Walk.drive]
  rcases p.meet_cases r d with ⟨-, hm⟩ | ⟨-, hm⟩ | ⟨scope, hc, hscope, hm⟩
  · simp only [hm]
    exact hdiscover.trans (rest _ _ hdiscover)
  · have hbody := hdiscover.trans (through _ hdiscover)
    simp only [hm]
    cases hs : (body .structural).drive isOpen ⟨p.run.discover r d, p.model⟩ with
    | done o q =>
      rw [hs] at hbody
      exact hbody.trans (rest _ _ hbody)
    | failed e q =>
      rw [hs] at hbody
      exact hbody
    | waiting rest frames q =>
      rw [hs] at hbody
      exact hbody
  · obtain ⟨S, hS, hr, hbody⟩ := entered _ scope hdiscover rfl hc hscope
    have hroute := Progress.enter_route ⟨p.run.discover r d, p.model⟩ r scope
    have henter := Spares.enter hS hr scope
    simp only [hm]
    cases hs : (body .full).drive isOpen
      (Progress.enter ⟨p.run.discover r d, p.model⟩ r scope).1 with
    | done o q =>
      rw [hs] at hbody
      have hq := henter.trans hbody
      have hsettle := hdiscover.trans (hq.trans (Spares.settle (hq.scopes S hS) hr hroute
        (Outcome.merge [hint, o])))
      exact hsettle.trans (rest _ _ hsettle)
    | failed e q =>
      rw [hs] at hbody
      have hq := henter.trans hbody
      exact hdiscover.trans (hq.trans (Spares.rollBack (hq.scopes S hS) hr hroute))
    | waiting rest frames q =>
      rw [hs] at hbody
      exact hdiscover.trans (henter.trans hbody)

end Progress

open Progress

/-- Under a scope, a walk that keeps to its place does nothing outside. -/
theorem Walk.Confined.spares {w : Walk} {place : Route} {known : Tree → Prop}
    (h : w.Confined place known) (isOpen : String → Bool) {p : Progress} {S : Route}
    (hS : S ∈ p.run.scopes) (hplace : S <+: place) : p.Spares (w.drive isOpen p).progress := by
  induction w generalizing place known p with
  | done o => exact .refl p
  | fail e => exact .refl p
  | read r next ih => exact ih _ (h.2 _) hS hplace
  | write r v next ih =>
    have hwrite := Spares.write hS (hplace.trans h.1) v
    simp only [Walk.drive]
    split
    · exact hwrite
    · exact hwrite.trans (ih h.2.2.2 hS hplace)
  | await g next ih => exact absurd h id
  | visit r d hint body next ihb ihn =>
    have hr := hplace.trans h.1
    refine Spares.visit (fun q hq => ?_) (fun q scope hq _ _ _ => ?_) fun o q hq => ?_
    · exact ihb .structural (h.2.1 .structural) (hq.scopes S hS) hr
    · have hS' := hq.scopes S hS
      exact ⟨S, hS', hr, ihb .full (h.2.1 .full) ((Spares.enter hS' hr scope).scopes S hS') hr⟩
    · exact ihn o (h.2.2 o) (hq.scopes S hS) hplace

/-- Wherever it is led, a walk that changes only what it visits spares all that lies outside the
scopes of its run. -/
theorem Walk.Surveys.spares {w : Walk} (h : w.Surveys) (isOpen : String → Bool) {p : Progress}
    (mem : p.run.target ∈ p.run.scopes) : p.Spares (w.drive isOpen p).progress := by
  induction w generalizing p with
  | done o => exact .refl p
  | fail e => exact .refl p
  | read r next ih => exact ih _ (h _) mem
  | write r v next ih => exact absurd h id
  | await g next ih => exact absurd h id
  | visit r d hint body next ihb ihn =>
    have hmem : ∀ q : Progress, p.Spares q → q.run.target ∈ q.run.scopes := fun q hq =>
      hq.target ▸ hq.scopes _ mem
    refine Spares.visit (fun q hq => ?_) (fun q scope hq _ hc hscope => ?_) fun o q hq => ?_
    · exact ihb .structural h.1 (hmem q hq)
    · -- the place is entered, so it lies under a scope, and what is done there keeps to it
      have hlies := Run.classify_lies (hmem q hq) r d
      obtain ⟨S, hS, hr⟩ : ∃ S ∈ q.run.scopes, S <+: r := by
        rw [hc] at hlies
        rcases hscope with rfl | rfl <;> exact hlies
      exact ⟨S, hS, hr,
        (h.2.1 .full).spares isOpen ((Spares.enter hS hr scope).scopes S hS) hr⟩
    · exact ihn o (h.2.2 o) (hmem q hq)

/-- What a run forgets in the end lies under its scopes. -/
theorem Progress.finish_spares {p : Progress} (mem : p.run.target ∈ p.run.scopes) :
    p.Spares ⟨p.run, p.finish.1⟩ where
  target := rfl
  scopes _ := id
  records path hp := by
    have hout : p.evictionScopes.any (Path.isAtOrUnder path) = false := by
      unfold evictionScopes
      split
      · next hroot =>
        have htarget : p.run.target = [] := List.isEmpty_iff.1 hroot
        have hunder := hp _ mem
        rw [htarget, Route.text, Path.isAtOrUnder_root] at hunder
        cases hunder
      · rw [List.any_map, List.any_eq_false]
        intro S hS
        simp [hp S hS]
    show (p.model.records.evict _ _ _).get? path = _
    rw [Records.get?_evict, hout]
    cases p.model.records.get? path <;> simp
  values _ _ _ := id

namespace Call

variable (c : Call) (m : Model) (r : Route) (options : ValidateOptions)

/-- The scopes that a run ends with: those that it began with, and the places of the rules that it
has met and found to depend on its target. -/
def finalScopes (isOpen : String → Bool) : List Route :=
  ((c.start m r options).1.drive isOpen (c.start m r options).2).progress.run.scopes

theorem progress_scopes :
    (c.progress m r options).run.scopes = m.initialScopes (Model.runTarget r options) := by
  cases c with
  | prepare => rfl
  | validate =>
    have hstate : (m.mark (Model.runTarget r options)).state (Model.runTarget r options) =
        m.state (Model.runTarget r options) := by
      rw [Model.state, Model.state, Model.mark, Model.entry_update, if_pos rfl]
    show (m.mark (Model.runTarget r options)).initialScopes _ = _
    rw [Model.initialScopes, hstate]
    rfl

/-- Before its first step a run has at most marked its target. -/
theorem progress_spares (path : String)
    (h : Path.isAtOrUnder path (Model.runTarget r options).text = false) :
    (c.progress m r options).model.records.get? path = m.records.get? path := by
  cases c with
  | prepare => rfl
  | validate =>
    refine Records.get?_update_ne _ (fun he => ?_) _
    rw [← he, Path.isAtOrUnder_of_prefix List.prefix_rfl] at h
    cases h

end Call

/-- **A scoped run touches only its scopes.** Let a model's rule come from a schema of built-in
keywords. The scopes that a run ends with hold its target and what the target was found to depend
on. Every record at a path that lies at or under none of them is as it was before the run, with its
state and its flags, or is still not there. And every value at a place that lies under none of them
and holds none of them is as it was. -/
theorem scoped_run_spares {registry : Registry} {schema : Value} {m : Model}
    (plain : registry.keywords = []) (compiled : compile registry schema = .ok m.rule) (c : Call)
    (r : Route) (options : ValidateOptions) (isOpen : String → Bool) :
    (∀ S ∈ m.initialScopes (Model.runTarget r options), S ∈ c.finalScopes m r options isOpen) ∧
    (∀ path, (∀ S ∈ c.finalScopes m r options isOpen, Path.isAtOrUnder path S.text = false) →
      (c.answer m r options isOpen).1.records.get? path = m.records.get? path) ∧
    ∀ q v, (∀ S ∈ c.finalScopes m r options isOpen,
        Path.isAtOrUnder q.text S.text = false ∧ Path.isAtOrUnder S.text q.text = false) →
      m.tree.get? q = some v → (c.answer m r options isOpen).1.tree.get? q = some v := by
  have hrule := Rule.walk_surveys (Call.evaluation m options) (compile_isBuiltIn plain compiled)
  have hmem := c.progress_scope m r options
  have hstart := c.progress_spares m r options
  have hscopes := c.progress_scopes m r options
  have htarget := c.progress_target m r options
  have htree := c.progress_tree m r options
  have hfinal : c.finalScopes m r options isOpen = _ :=
    congrArg (fun s => s.progress.run.scopes) (c.drive_start m r options isOpen)
  have hanswer : c.answer m r options isOpen = _ :=
    (c.answer_eq ..).trans (congrArg Stop.result (c.drive_start ..))
  generalize c.progress m r options = p at hmem hstart hscopes htarget htree hfinal hanswer
  generalize hw : Walk.visit [] m.rule.declaration Outcome.silent
    (fun mode => m.rule.walk (Call.evaluation m options) mode []) .done = w at hfinal hanswer
  have hsurveys : w.Surveys := by
    rw [← hw]
    exact ⟨hrule.surveys [], fun mode => hrule.confined mode [], fun _ => trivial⟩
  -- what the run leaves is what its walk leaves, less what is forgotten in the end
  have hspares : p.Spares ⟨(w.drive isOpen p).progress.run, (c.answer m r options isOpen).1⟩ := by
    have hwalk := hsurveys.spares isOpen hmem
    rw [hanswer]
    cases hd : w.drive isOpen p with
    | done o q =>
      rw [hd] at hwalk
      exact hwalk.trans (Progress.finish_spares (hwalk.target ▸ hwalk.scopes _ hmem))
    | failed e q =>
      rw [hd] at hwalk
      exact hwalk
    | waiting rest frames q =>
      rw [hd] at hwalk
      exact hwalk
  rw [hfinal]
  refine ⟨fun S hS => hspares.scopes S (hscopes ▸ hS), fun path hp => ?_, fun q v hq hv => ?_⟩
  · have hout := hp _ (hspares.scopes _ hmem)
    rw [htarget] at hout
    exact (hspares.records path hp).trans (hstart path hout)
  · refine hspares.values q v (fun S hS => ?_) (htree ▸ hv)
    exact Path.apart_of_paths (hq S hS).1 (hq S hS).2

/-- The rule of `/a`, which is 1 at first, of `/b`, which depends on it, and of `/c`. -/
def dependentRule : Rule :=
  .node "#" [.leaf (.annotations none [] {}), .properties
    [.mk "a" false (.node "#/properties/a" [.leaf (.annotations (some (.int 1)) [] {})] {} {}),
    .mk "b" false (.node "#/properties/b"
      [.leaf (.annotations none [] { dependsOn := ["../a"] })] {} ⟨["../a"], true⟩),
    .mk "c" false (.node "#/properties/c" [.leaf (.annotations none [] {})] {} {})]] {} ⟨[], true⟩

/-- A run at `/a` fills in its value and judges `/b` as well. What `/c` holds and what is on record
there stay. -/
theorem scoped_run_spares_dependent :
    ∃ m, Call.validate.answer (Model.ofRule dependentRule (some (.object [("c", .int 5)])) {})
        [.key "c"] {} (fun _ => true) = (m, .finished true) ∧
      Call.validate.finalScopes m [.key "a"] {} (fun _ => true) = [[.key "a"], [.key "b"]] ∧
      (m.records.get? "/c").isSome = true ∧
      (Call.validate.answer m [.key "a"] {} fun _ => true).1.records.get? "/c" =
        m.records.get? "/c" ∧
      (Call.validate.answer m [.key "a"] {} fun _ => true).1.tree.get? [.key "c"] =
        some (.int 5) := by
  obtain ⟨m, hm⟩ : ∃ m, m = (Call.validate.answer (Model.ofRule dependentRule
    (some (.object [("c", .int 5)])) {}) [.key "c"] {} fun _ => true).1 := ⟨_, rfl⟩
  have answer : Call.validate.answer (Model.ofRule dependentRule
      (some (.object [("c", .int 5)])) {}) [.key "c"] {} (fun _ => true) =
      (m, .finished true) := by
    rw [hm]
    exact Prod.ext rfl (RunResult.eq_of_valid? (by decide +kernel))
  have compiled : compile Registry.standard (.object [("properties", .object
      [("a", .object [("default", .int 1)]), ("b", .object [("dependsOn", .string "../a")]),
      ("c", .object [])])]) = .ok m.rule := by
    rw [hm]
    rfl
  have scopes : Call.validate.finalScopes m [.key "a"] {} (fun _ => true) =
      [[.key "a"], [.key "b"]] := by
    rw [hm]
    decide +kernel
  obtain ⟨-, hrecords, hvalues⟩ := scoped_run_spares rfl compiled .validate [.key "a"] {}
    fun _ => true
  rw [scopes] at hrecords hvalues
  refine ⟨m, answer, scopes, ?_, hrecords "/c" (by decide +kernel),
    hvalues [.key "c"] _ (by decide +kernel) ?_⟩
  · rw [hm]
    decide +kernel
  · rw [hm]
    rfl

end Conform

import Conform.Proofs.Collected
import Conform.Proofs.Flagged
import Conform.Proofs.Scoped

/-!
# Dependents

A run that is sent to a place joins to its scopes every place it comes to whose rule depends on the
target. Of those that a run at the root has visited it comes to all: the rules around one of them
are flagged, so none of their places is passed over, and in structural mode their walks ask for the
same visits as in full. So whatever depends on a place is judged again together with it.

What counts is the node of the schema that is applied by the visit. What a branch of that node says
it depends on becomes part of the outcome, and no run asks for it there.
-/

namespace Conform

namespace Run

/-- A place that depends on the target is a scope when it is met. -/
theorem classify_dependent {r : Run} {route : Route} {d : Declaration}
    (h : r.dependsOnTarget route d = true) :
    (r.discover route d).classify route d = .validating := by
  unfold discover
  cases hroot : r.fromRoot with
  | true => simp [classify, hroot]
  | false =>
    rw [if_pos ⟨rfl, h⟩]
    have hmem : (addScope r.scopes route).contains route = true := by
      unfold addScope
      split
      · assumption
      · simp
    unfold classify
    dsimp only
    rw [hmem, if_pos rfl]
    split <;> rfl

theorem classify_flagged {r : Run} {route : Route} {d : Declaration}
    (h : d.declaresDependents = true) : r.classify route d ≠ .unrelated := by
  unfold classify
  rw [h, Bool.or_true, if_pos rfl]
  split
  · exact nofun
  · split
    · exact nofun
    · split <;> exact nofun

end Run

namespace Progress

variable {p : Progress} {route : Route} {d : Declaration}

theorem meet_flagged (h : d.declaresDependents = true) : (p.meet route d).2 ≠ .passed := by
  rcases p.meet_cases route d with ⟨hc, -⟩ | ⟨-, hm⟩ | ⟨scope, -, -, hm⟩
  · exact absurd hc (Run.classify_flagged h)
  · rw [hm]
    exact nofun
  · rw [hm]
    exact nofun

theorem meet_dependent (h : p.run.dependsOnTarget route d = true) :
    (p.meet route d).2 ≠ .through := by
  rcases p.meet_cases route d with ⟨-, hm⟩ | ⟨hc, -⟩ | ⟨scope, -, -, hm⟩
  · rw [hm]
    exact nofun
  · rw [Run.classify_dependent h] at hc
    cases hc
  · rw [hm]
    exact nofun

end Progress

namespace Active

/-- Whether the run comes to a visit of the place by a rule that declares this, and how it meets
it. -/
def Meets (s : Active × Model) (route : Route) (d : Declaration) (scope : Scope) : Prop :=
  ∃ run hint body next frames m, Steps s (⟨run, .visit route d hint body next, frames⟩, m) ∧
    (run.discover route d).classify route d = scope

theorem Meets.of_steps {s t : Active × Model} {route : Route} {d : Declaration} {scope : Scope}
    (h : Steps s t) (ht : Meets t route d scope) : Meets s route d scope := by
  obtain ⟨run, hint, body, next, frames, m, hsteps, hscope⟩ := ht
  exact ⟨run, hint, body, next, frames, m, h.trans hsteps, hscope⟩

section

variable {p q q' : Progress} {r : Route} {d : Declaration} {hint o : Outcome} {body : Mode → Walk}
  {next : Outcome → Walk} {frames : List Frame} {isOpen : String → Bool}

theorem Steps.passed (hm : p.meet r d = (q, .passed)) :
    Steps (⟨p.run, .visit r d hint body next, frames⟩, p.model)
      (⟨q.run, next Outcome.silent, frames⟩, q.model) :=
  .head (by simp [next?, beginVisit, hm]) (.refl _)

theorem Steps.begin_through (hm : p.meet r d = (q, .through)) :
    Steps (⟨p.run, .visit r d hint body next, frames⟩, p.model)
      (⟨q.run, body .structural, .through next :: frames⟩, q.model) :=
  .head (by simp [next?, beginVisit, hm]) (.refl _)

theorem Steps.begin_entered {t : Ticket} (hm : p.meet r d = (q, .entered t)) :
    Steps (⟨p.run, .visit r d hint body next, frames⟩, p.model)
      (⟨q.run, body .full, .entered t hint next :: frames⟩, q.model) :=
  .head (by simp [next?, beginVisit, hm]) (.refl _)

/-- A walk that comes to its outcome inside a visit ends the visit. -/
theorem Steps.end_visit {w : Walk} {frame : Frame} {u : Active × Model}
    (hd : w.drive isOpen q = .done o q') (he : endVisit q' o (frame :: frames) = some u) :
    Steps (⟨q.run, w, frame :: frames⟩, q.model) u := by
  have hsteps := Walk.drive_steps isOpen w q (frame :: frames)
  rw [hd] at hsteps
  exact hsteps.trans (.head he (.refl _))

end

end Active

namespace Tour

theorem judged_subset_judgedAll {s : Tour} {ts : List Tour} (h : s ∈ ts) :
    s.judged ⊆ judgedAll ts := by
  induction h with
  | head ts => exact List.subset_append_left _ _
  | tail _ _ ih => exact List.Subset.trans ih (List.subset_append_right _ _)

/-- What is visited on a tour is judged on it. -/
theorem Within.mem_judged {x s : Tour} (h : x.Within s) :
    x.route.text ∈ s.judged.map Prod.fst := by
  induction h with
  | self =>
    obtain ⟨route, d, hint, body, said, within⟩ := x
    rw [judged, List.map_append]
    exact List.mem_append_right _ (List.mem_singleton.2 rfl)
  | @step s s' mem _ ih =>
    obtain ⟨route, d, hint, body, said, within⟩ := s
    rw [judged, List.map_append]
    exact List.mem_append_left _ (List.map_subset _ (judged_subset_judgedAll mem) ih)

end Tour

namespace Progress

/-- Whether a run that is about to do `w`, and is to judge `js`, comes to every visit on the tours
that depends on its target, as one of its scopes, and judges the place. -/
def Serves (p : Progress) (w : Walk) (js : List (String × Outcome)) (ts : List Tour) : Prop :=
  ∀ s ∈ ts, ∀ x : Tour, x.Within s → p.run.dependsOnTarget x.route x.declaration = true →
    x.route.text ∈ js.map Prod.fst ∧
      ∀ frames, Active.Meets (⟨p.run, w, frames⟩, p.model) x.route x.declaration .validating

namespace Serves

variable {p q : Progress} {w w' : Walk} {js ks : List (String × Outcome)} {s : Tour}
  {ts : List Tour}

theorem of_steps (h : q.Serves w' js ts) (target : q.run.target = p.run.target)
    (steps : ∀ frames, Active.Steps (⟨p.run, w, frames⟩, p.model) (⟨q.run, w', frames⟩, q.model)) :
    p.Serves w js ts := by
  intro s hs x hx hdepends
  obtain ⟨hj, hmeets⟩ := h s hs x hx (by rw [Run.dependsOnTarget, target]; exact hdepends)
  exact ⟨hj, fun frames => .of_steps (steps frames) (hmeets frames)⟩

theorem cons (h : p.Serves w js [s]) (h' : p.Serves w ks ts) : p.Serves w (js ++ ks) (s :: ts) := by
  intro s' hs x hx hdepends
  rw [List.map_append, List.mem_append]
  rcases List.mem_cons.1 hs with rfl | hs
  · exact (h s' List.mem_cons_self x hx hdepends).imp .inl id
  · exact (h' s' hs x hx hdepends).imp .inr id

/-- A visit serves its tour if what is done within does, and the place itself is judged where it
depends on the target. -/
theorem visit {frame : Frame} {next : Outcome → Walk} (h : q.Serves w ks s.within)
    (target : q.run.target = p.run.target)
    (begins : ∀ frames, Active.Steps
      (⟨p.run, .visit s.route s.declaration s.hint s.body next, frames⟩, p.model)
      (⟨q.run, w, frame :: frames⟩, q.model))
    (inner : ∀ q ∈ ks.map Prod.fst, q ∈ js.map Prod.fst)
    (self : p.run.dependsOnTarget s.route s.declaration = true → s.route.text ∈ js.map Prod.fst) :
    p.Serves (.visit s.route s.declaration s.hint s.body next) js [s] := by
  intro s' hs x hx hdepends
  rw [List.mem_singleton.1 hs] at hx
  cases hx with
  | self =>
    exact ⟨self hdepends, fun frames =>
      ⟨_, _, _, _, _, _, .refl _, Run.classify_dependent hdepends⟩⟩
  | step mem hx =>
    obtain ⟨hj, hmeets⟩ := h _ mem x hx (by rw [Run.dependsOnTarget, target]; exact hdepends)
    exact ⟨inner _ hj, fun frames => .of_steps (begins frames) (hmeets _)⟩

end Serves

end Progress

/-- Under one of its scopes a run in full serves the whole tour. -/
theorem Walk.Tours.serves {t : Tree} {w : Walk} {o : Outcome} {ts : List Tour} (h : w.Tours t o ts)
    {kind : Route → Prop} {place : Route} (mirrored : ∀ s ∈ ts, s.Mirrored t kind place)
    {p : Progress} (fresh : p.Fresh t) (covered : ∃ S ∈ p.run.scopes, S <+: place) :
    p.Serves w (Tour.judgedAll ts) ts := by
  induction h generalizing place p with
  | done o => exact fun s hs => (by cases hs)
  | read rest ih =>
    exact (ih mirrored fresh covered).of_steps rfl fun frames =>
      .head (by rw [Active.next?, fresh.tree]) (.refl _)
  | @visit r d hint body next said o within ts inner rest ihi ihr =>
    rw [List.forall_mem_cons] at mirrored
    obtain ⟨⟨under, -, -, -, hwithin⟩, hts⟩ := mirrored
    obtain ⟨S, hS, hplace⟩ := covered
    have hcovers : S <+: r := hplace.trans under
    -- the place lies under a scope, so it is entered and its walk is the one in full
    obtain ⟨p₁, scope, hl₁, hmeet⟩ := fresh.meet_covered hS hcovers d
    have fresh₁ := fresh.of_leads hl₁
    have fresh₂ := fresh₁.enter r scope
    have hcovered : ∃ S ∈ (p₁.enter r scope).1.run.scopes, S <+: r :=
      ⟨S, by rw [Progress.enter_run]; exact hl₁.scopes S hS, hcovers⟩
    obtain ⟨p₂, hd₂, hl₂⟩ := inner.leads (fun _ => true) hwithin fresh₂ hcovered
    have hl := hl₁.trans (hl₂.visit fresh₁ (Outcome.merge [hint, said]))
    have hrest := ihr hts (fresh.of_leads hl) ⟨S, hl.scopes S hS, hplace⟩
    refine Progress.Serves.cons ?_ (hrest.of_steps hl.target fun frames =>
      (Active.Steps.begin_entered hmeet).trans (.end_visit hd₂ rfl))
    refine (ihi hwithin fresh₂ hcovered).visit (s := ⟨r, d, hint, body, said, within⟩)
      ((p₁.enter_keeps r scope).target.trans hl₁.target) (fun frames => .begin_entered hmeet)
      (fun q hq => ?_) fun _ => Tour.Within.self.mem_judged
    rw [Tour.judged, List.map_append]
    exact List.mem_append_left _ hq

/-- Whether every run in full that is led to this visit serves the tour, whatever is to come after
it. -/
def Tour.Served (t : Tree) (s : Tour) : Prop :=
  ∀ ⦃p : Progress⦄ (isOpen : String → Bool), p.Fresh t → ∃ o p' js, p.Leads js p' ∧
    ∀ next : Outcome → Walk,
      (Walk.visit s.route s.declaration s.hint s.body next).drive isOpen p =
        (next o).drive isOpen p' ∧
      (∀ frames, Active.Steps
        (⟨p.run, .visit s.route s.declaration s.hint s.body next, frames⟩, p.model)
        (⟨p'.run, next o, frames⟩, p'.model)) ∧
      p.Serves (.visit s.route s.declaration s.hint s.body next) js [s]

/-- So does every run in full whose walk asks for visits like that. -/
theorem Walk.Asks.serves {t : Tree} {w : Walk} {ts : List Tour} (h : w.Asks t ts)
    (served : ∀ s ∈ ts, s.Served t) {p : Progress} (isOpen : String → Bool) (fresh : p.Fresh t) :
    ∃ o p' js, w.drive isOpen p = .done o p' ∧ p.Leads js p' ∧ p.Serves w js ts := by
  induction h generalizing p with
  | done o => exact ⟨o, p, [], rfl, .refl p, fun s hs => (by cases hs)⟩
  | read rest ih =>
    obtain ⟨o, p', js, hd, hl, hs⟩ := ih served fresh
    exact ⟨o, p', js, by rw [drive, fresh.tree, hd], hl, hs.of_steps rfl fun frames =>
      .head (by rw [Active.next?, fresh.tree]) (.refl _)⟩
  | @visit r d hint body next said within ts rest ih =>
    rw [List.forall_mem_cons] at served
    obtain ⟨o₁, p₁, js, hl₁, hvisit⟩ := served.1 isOpen fresh
    obtain ⟨hd₁, hsteps, hs₁⟩ := hvisit next
    obtain ⟨o, p₂, ks, hd₂, hl₂, hs₂⟩ := ih o₁ served.2 (fresh.of_leads hl₁)
    exact ⟨o, p₂, js ++ ks, hd₁.trans hd₂, hl₁.trans hl₂,
      hs₁.cons (hs₂.of_steps hl₁.target hsteps)⟩

/-- **Led to a flagged visit, every run serves its tour.** It passes the place over only if no rule
on the tour is flagged, goes through it only if the place itself does not depend on the target, and
makes the tour otherwise. -/
theorem Tour.Mirrored.served {t : Tree} {kind : Route → Prop} {place : Route} {s : Tour}
    (h : s.Mirrored t kind place) {flag : Bool} (flagged : s.Flagged flag) : s.Served t := by
  induction h generalizing flag with
  | @mk place s under ofKind full structural within ih =>
    obtain ⟨route, d, hint, body, said, ts⟩ := s
    intro p isOpen fresh
    obtain ⟨p₁, hl₁, hmeet⟩ := fresh.meet route d
    have fresh₁ := fresh.of_leads hl₁
    have hinner : ∀ s' ∈ ts, s'.Served t := by
      cases flagged with
      | mk _ _ hflagged => exact fun s' hs' => ih s' hs' (hflagged s' hs')
    rcases hmeet with ⟨-, hm⟩ | ⟨-, hm⟩ | ⟨⟨S, hS, hcovers⟩, scope, hm⟩
    · -- nothing here depends on the target, or the flags would have led the run on
      refine ⟨Outcome.silent, p₁, [], hl₁, fun next => ⟨by simp only [Walk.drive, hm],
        fun frames => .passed hm, fun s' hs' x hx hdepends => ?_⟩⟩
      rw [List.mem_singleton.1 hs'] at hx
      have hne : x.declaration.dependsOn ≠ [] := by
        intro he
        rw [Run.dependsOnTarget, he] at hdepends
        cases hdepends
      exact absurd (congrArg Prod.snd hm) (Progress.meet_flagged (flagged.of_within hx hne))
    · -- the place itself does not, or it would be a scope, and the walk asks for the same visits
      obtain ⟨o, p₂, js, hd, hl₂, hs⟩ := structural.serves hinner isOpen fresh₁
      refine ⟨Outcome.silent, p₂, js, hl₁.trans hl₂, fun next => ⟨by
        simp only [Walk.drive, hm, hd], fun frames =>
        (Active.Steps.begin_through hm).trans (.end_visit hd rfl), ?_⟩⟩
      exact hs.visit (s := ⟨route, d, hint, body, said, ts⟩) hl₁.target
        (fun frames => .begin_through hm) (fun q hq => hq)
        fun hdepends => absurd (congrArg Prod.snd hm) (Progress.meet_dependent hdepends)
    · have fresh₂ := fresh₁.enter route scope
      have hcovered : ∃ S ∈ (p₁.enter route scope).1.run.scopes, S <+: route :=
        ⟨S, by rw [Progress.enter_run]; exact hS, hcovers⟩
      obtain ⟨p₂, hd, hl₂⟩ := full.leads isOpen within fresh₂ hcovered
      refine ⟨Outcome.merge [hint, said], _, _, hl₁.trans (hl₂.visit fresh₁ _), fun next => ⟨by
        simp only [Walk.drive, hm, hd], fun frames =>
        (Active.Steps.begin_entered hm).trans (.end_visit hd rfl), ?_⟩⟩
      refine (full.serves within fresh₂ hcovered).visit (s := ⟨route, d, hint, body, said, ts⟩)
        ((p₁.enter_keeps route scope).target.trans hl₁.target)
        (fun frames => .begin_entered hm) (fun q hq => ?_) fun _ => ?_
      · rw [List.nil_append, List.map_append]
        exact List.mem_append_left _ hq
      · rw [List.nil_append, List.map_append]
        exact List.mem_append_right _ (List.mem_singleton.2 rfl)

/-- Whether all that is still to be visited after the innermost visit has ended with `o` is part of
the tour. A run at the root goes through no place. -/
def Tour.Awaits (t : Tree) (tour : Tour) : Outcome → List Frame → Prop
  | _, [] => True
  | _, .through _ :: _ => False
  | o, .entered _ hint next :: frames =>
    ∃ o' ts, (next (Outcome.merge [hint, o])).Tours t o' ts ∧ (∀ s ∈ ts, s.Within tour) ∧
      Tour.Awaits t tour o' frames

/-- A run at the root that is on its way along the tour, and is to change no value. -/
structure Tour.Followed (t : Tree) (tour : Tour) (a : Active) (m : Model) : Prop where
  root : a.run.fromRoot = true
  tree : m.tree = t
  ahead : ∃ o ts, a.rest.Tours t o ts ∧ (∀ s ∈ ts, s.Within tour) ∧ tour.Awaits t o a.frames

namespace Tour.Followed

variable {t : Tree} {tour : Tour} {a a' : Active} {m m' : Model}

theorem next (h : tour.Followed t a m) (hs : a.next? m = some (a', m')) :
    tour.Followed t a' m' := by
  obtain ⟨root, tree, o, ts, htours, hwithin, hawaits⟩ := h
  obtain ⟨run, rest, frames⟩ := a
  cases htours with
  | done o =>
    cases frames with
    | nil => cases hs
    | cons frame frames =>
      cases frame with
      | through next => exact absurd hawaits id
      | entered ticket hint next =>
        obtain ⟨o', us, hus, hus', hrest⟩ := hawaits
        obtain ⟨computed, hrun⟩ := Progress.settle_same ⟨run, m⟩ ticket (Outcome.merge [hint, o])
        cases hs
        refine ⟨?_, (Progress.settle_tree _ _ _).trans tree, o', us, hus, hus', hrest⟩
        rw [hrun]
        exact root
  | read rest =>
    cases hs
    exact ⟨root, tree, o, ts, by rw [tree]; exact rest, hwithin, hawaits⟩
  | @visit r d hint body next said _ within ts inner rest =>
    rw [List.forall_mem_cons] at hwithin
    have hmeet := Progress.meet_fromRoot (p := ⟨run, m⟩) (r := r) (d := d) root
    simp only [Active.next?, Active.beginVisit, hmeet, Option.some.injEq] at hs
    cases hs
    refine ⟨(Progress.enter_keeps ⟨run, m⟩ r .validating).fromRoot.trans root,
      (Progress.enter_tree ⟨run, m⟩ r .validating).trans tree, said, within, inner,
      fun s hs => hwithin.1.of_mem hs, o, ts, rest, hwithin.2, hawaits⟩

theorem steps {s s' : Active × Model} (h : tour.Followed t s.1 s.2) (hs : Active.Steps s s') :
    tour.Followed t s'.1 s'.2 := by
  induction hs with
  | refl s => exact h
  | head step _ ih => exact ih (h.next step)

/-- **A run at the root meets what is on its tour, and nothing else.** -/
theorem meets {s : Active × Model} (h : tour.Followed t s.1 s.2) {route : Route} {d : Declaration}
    {scope : Scope} (hm : Active.Meets s route d scope) :
    ∃ x : Tour, x.Within tour ∧ x.route = route ∧ x.declaration = d := by
  obtain ⟨run, hint, body, next, frames, m', hsteps, -⟩ := hm
  obtain ⟨o, ts, htours, hwithin, -⟩ := (h.steps hsteps).ahead
  cases htours with
  | visit inner rest => exact ⟨_, hwithin _ List.mem_cons_self, rfl, rfl⟩

end Tour.Followed

/-- The tour of a rule is served by every run. -/
theorem Rule.tour_served {options : EvalOptions} {rule : Rule} (builtIn : rule.isBuiltIn = true)
    (collects : rule.Collects) {t : Tree} {said : Outcome} {within : List Tour}
    (h : (rule.walk options .full []).Tours t said within) :
    (rule.tour options said within).Served t := by
  have hmirrors := Rule.walk_mirrors options t.ways_all (rule.built_of_isBuiltIn builtIn)
  have hraises := Rule.walker_raises options t builtIn collects
  exact (Rule.tour_mirrored hmirrors trivial h).served (.mk id hraises.own (hraises.within h))

namespace Call

variable (c : Call) {m m' : Model} {r : Route} {options : ValidateOptions}

/-- A run begins with a visit of the root. -/
theorem start_eq (m : Model) (r : Route) (options : ValidateOptions) :
    c.start m r options = (⟨(c.progress m r options).run,
      .visit [] m.rule.declaration Outcome.silent
        (fun mode => m.rule.walk (Call.evaluation m options) mode []) .done, []⟩,
      (c.progress m r options).model) := by
  cases c <;> rfl

/-- A run at the root that is answered and tells of no change has made a tour. -/
theorem tours_of_answer {isOpen : String → Bool} {valid : Bool} (builtIn : m.rule.isBuiltIn = true)
    (root : Model.runTarget r options = [])
    (answer : c.answer m r options isOpen = (m', .finished valid))
    (still : m'.changes = m.changes) :
    m'.tree = m.tree ∧ m'.config = m.config ∧ ∃ said within,
      (m.rule.walk (Call.evaluation m options) .full []).Tours m.tree said within := by
  obtain ⟨o, p, hdrive, hfinish⟩ := Call.drive_of_answer answer
  obtain rfl : p.finish.1 = m' := congrArg Prod.fst hfinish
  have htours := Rule.tours_of_root builtIn ((c.progress_target m r options).trans root) hdrive
    (by rw [c.progress_changes]; exact congrArg List.length still)
  rw [c.progress_tree] at htours
  exact ⟨htours.1, (Walk.drive_keeps hdrive).config.trans (by simp), htours.2⟩

variable {said : Outcome} {within : List Tour} {x : Tour}
  (tours : (m.rule.walk (Call.evaluation m options) .full []).Tours m.tree said within)
include tours

/-- What it has met is on that tour. -/
theorem within_of_meets (root : Model.runTarget r options = []) {route : Route} {d : Declaration}
    {scope : Scope} (met : Active.Meets (c.start m r options) route d scope) :
    ∃ x : Tour, x.Within (m.rule.tour (Call.evaluation m options) said within) ∧
      x.route = route ∧ x.declaration = d := by
  have hfollowed : (m.rule.tour (Call.evaluation m options) said within).Followed m.tree
      (c.start m r options).1 (c.start m r options).2 := by
    rw [c.start_eq]
    refine ⟨?_, c.progress_tree m r options, _, _, .visit tours (.done _),
      List.forall_mem_singleton.2 .self, trivial⟩
    rw [Run.fromRoot, c.progress_target, root]
    rfl
  exact hfollowed.meets met

/-- A run that finds the tree of a tour meets what depends on its target there as a scope, and
commits there. -/
theorem commits_of_within (builtIn : m.rule.isBuiltIn = true) (collects : m.rule.Collects)
    (fresh : (c.progress m r options).Fresh m.tree)
    (hx : x.Within (m.rule.tour (Call.evaluation m options) said within))
    (depends : (c.progress m r options).run.dependsOnTarget x.route x.declaration = true)
    (isOpen : String → Bool) :
    Active.Meets (c.start m r options) x.route x.declaration .validating ∧
      ∃ m' valid, c.answer m r options isOpen = (m', .finished valid) ∧
        ∃ errLock o, m'.state? x.route.text =
          some (State.settled (m.runs + 1) errLock o) := by
  obtain ⟨o, p, js, hleads, hvisit⟩ := Rule.tour_served builtIn collects tours isOpen fresh
  obtain ⟨hdrive, -, hserves⟩ := hvisit .done
  obtain ⟨hjudged, hmeets⟩ := hserves _ List.mem_cons_self x hx depends
  refine ⟨?_, p.finish.1, p.finish.2, ?_, ?_⟩
  · rw [c.start_eq]
    exact hmeets []
  · rw [c.answer_eq, Active.resume, c.drive_start]
    exact congrArg Stop.result hdrive
  · cases hlast : lastJudged js x.route.text with
    | none => exact absurd hjudged (lastJudged_eq_none.1 hlast)
    | some o =>
      obtain ⟨errLock, hstate⟩ := hleads.settled _ _ hlast
      have hvisited := (hleads.visits x.route.text).2 (.inr hjudged)
      rw [c.progress_ordinal] at hstate
      exact ⟨errLock, o, (Progress.finish_state?_visited hvisited).trans hstate⟩

end Call

namespace Overlap

/-- **Dependents are judged again.** Let a run at the root of a model, whose rule comes from a
schema of built-in keywords, tell of no change of a value, and let it come to a place whose rule, by
its own node, depends on the target of the run right after it or on something that holds that
target. Where that run evaluates rules by the same options and does not keep to dirty places, it is
answered, meets the place as one of its scopes, and commits there under its own number. -/
theorem dependents_revalidated {registry : Registry} {schema : Value} {rule : Rule} {data : Tree}
    {config : ModelConfig} {hist : List Event} {s : Overlap} (plain : registry.keywords = [])
    (compiled : compile registry schema = .ok rule) (before : Trace (fresh rule data config) hist s)
    {c : Call} {r : Route} {options : ValidateOptions} {isOpen : String → Bool} {m : Model}
    {valid : Bool} (root : Model.runTarget r options = [])
    (answer : c.answer s.model r options isOpen = (m, .finished valid))
    (still : m.changes = s.model.changes) {place : Route} {d : Declaration}
    (met : Active.Meets (c.start s.model r options) place d .validating) (c' : Call) (r' : Route)
    (options' : ValidateOptions)
    (same : Call.evaluation s.model options' = Call.evaluation s.model options)
    (full : (options'.withConfig s.model.config).onlyDirtyRefs = false) {path : String}
    (declared : path ∈ d.dependsOn)
    (holds : (Model.runTarget r' options').startsWith (place.resolve path) = true)
    (isOpen' : String → Bool) :
    Active.Meets (c'.start m r' options') place d .validating ∧
      ∃ m' valid', c'.answer m r' options' isOpen' = (m', .finished valid') ∧
        ∃ errLock o, m'.state? place.text = some (State.settled (m.runs + 1) errLock o) := by
  have builtIn := compile_isBuiltIn plain compiled
  have collects := Registry.Compiles.collects ⟨_, compiled⟩
  have hrule : s.model.rule = rule := (Rising.trace builtIn before).rule
  -- the place is on the tour of the run at the root
  obtain ⟨htree, hconfig, said, within, tours⟩ :=
    c.tours_of_answer (hrule ▸ builtIn) root answer still
  obtain ⟨x, hx, rfl, rfl⟩ := c.within_of_meets tours root met
  -- and the next run finds everything as it was
  obtain ⟨hist', after⟩ := before.after_answer answer
  have hrule' : m.rule = s.model.rule := (Rising.trace builtIn after).rule.trans hrule.symm
  have hsame : Call.evaluation m options' = Call.evaluation s.model options := by
    rw [← same, Call.evaluation, Call.evaluation, hconfig]
  have hfresh := ((Numbered.fresh rule data config).trace after).progress_fresh c' r' options'
    (by rw [hconfig]; exact full)
  rw [← hrule', ← htree, ← hsame] at tours
  rw [← hrule', ← hsame] at hx
  have hfinal : m.rule = rule := hrule'.trans hrule
  refine c'.commits_of_within tours (hfinal ▸ builtIn) (hfinal ▸ collects) hfresh hx ?_ isOpen'
  rw [Run.dependsOnTarget, c'.progress_target]
  exact List.any_eq_true.2 ⟨path, declared, holds⟩

/-- The rule of `/a` and of `/b`, which depends on it. -/
def pairRule : Rule :=
  .node "#" [.leaf (.annotations none [] {}), .properties
    [.mk "a" false (.node "#/properties/a" [.leaf (.annotations none [] {})] {} {}),
    .mk "b" false (.node "#/properties/b"
      [.leaf (.annotations none [] { dependsOn := ["../a"] })] {} ⟨["../a"], true⟩)]] {} ⟨[], true⟩

def pairData : Tree := some (.object [("a", .int 1), ("b", .int 2)])

/-- A run at `/a` judges `/b` as well. -/
theorem dependents_revalidated_pair :
    ∃ m m' valid, Call.validate.answer (Model.ofRule pairRule pairData {}) [] {} (fun _ => true) =
        (m, .finished true) ∧
      Active.Meets (Call.prepare.start m [.key "a"] {}) [.key "b"] ⟨["../a"], true⟩ .validating ∧
      Call.prepare.answer m [.key "a"] {} (fun _ => true) = (m', .finished valid) ∧
      (m'.state? "/b").map State.valLock = some 2 := by
  have compiled : compile Registry.standard (.object [("properties", .object
      [("a", .object []), ("b", .object [("dependsOn", .string "../a")])])]) = .ok pairRule := rfl
  have answer : Call.validate.answer (Model.ofRule pairRule pairData {}) [] {} (fun _ => true) =
      (_, .finished true) := Prod.ext rfl (RunResult.eq_of_valid? (by decide +kernel))
  -- the root, `/a` and its end come before `/b`
  have met : Active.Meets (Call.validate.start (Model.ofRule pairRule pairData {}) [] {})
      [.key "b"] ⟨["../a"], true⟩ .validating :=
    ⟨_, _, _, _, _, _, .head rfl (.head rfl (.head rfl (.head rfl (.head rfl (.head rfl
      (.refl _)))))), rfl⟩
  obtain ⟨met', m', valid, answer', errLock, o, hstate⟩ := dependents_revalidated rfl compiled
    (.nil _) rfl answer rfl met .prepare [.key "a"] {} rfl rfl List.mem_cons_self rfl fun _ => true
  exact ⟨_, m', valid, answer, met', answer', congrArg (Option.map State.valLock) hstate⟩

/-- The rule of `/a` and of `/b`, a branch of which depends on it. -/
def branchedRule : Rule :=
  .node "#" [.leaf (.annotations none [] {}), .properties
    [.mk "a" false (.node "#/properties/a" [.leaf (.annotations none [] {})] {} {}),
    .mk "b" false (.node "#/properties/b" [.leaf (.annotations none [] {}), .allOf
      [.node "#/properties/b/allOf/0"
        [.leaf (.annotations none [] { dependsOn := ["../a"] })] {} ⟨["../a"], true⟩]] {}
      ⟨[], true⟩)]] {} ⟨[], true⟩

/-- What a branch depends on is forgotten: it is not so that a place is judged again as soon as an
outcome that a run at the root has given it tells that it depends on the target. -/
theorem dependents_of_branches_missed :
    ¬ ∀ (schema : Value) (rule : Rule) (data : Tree) (hist : List Event) (s t : Overlap) (run : Run)
      (valid : Bool), compile Registry.standard schema = .ok rule →
      Trace (fresh rule data {}) hist s → Step s (.returned run valid) t → run.fromRoot = true →
      t.model.changes = [] → ∀ (place : Route) (o : Outcome) (st : State),
      (o, st) ∈ settlings hist run.ordinal place.text → ∀ path ∈ o.dependsOn, ∀ r : Route,
      r.startsWith (place.resolve path) = true → ∀ (m : Model) (valid' : Bool),
      Call.validate.answer t.model r {} (fun _ => true) = (m, .finished valid') →
      (m.state? place.text).map State.valLock = some (t.model.runs + 1) := by
  intro h
  have compiled : compile Registry.standard (.object [("properties", .object
      [("a", .object []), ("b", .object [("allOf", .array
        [.object [("dependsOn", .string "../a")]])])])]) = .ok branchedRule := rfl
  obtain ⟨before, returns⟩ :=
    Trace.solo branchedRule pairData {} .validate [] {} 20 rfl (by decide +kernel)
  have hlock := h _ _ _ _ _ _ _ _ compiled before returns rfl rfl [.key "b"] _ _
    (List.mem_of_getLast? rfl) "../a" (by decide +kernel) [.key "a"] (by decide +kernel) _ true
    (Prod.ext rfl (RunResult.eq_of_valid? (by decide +kernel)))
  revert hlock
  decide +kernel

end Overlap

end Conform

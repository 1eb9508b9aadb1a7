import Conform.Proofs.Admits
import Conform.Proofs.Probe

/-!
# Rules that never fail

Built-in keywords give an outcome for every value: the only error they could meet is a refused
write. Where no property has an index as its name, a rule that is started at a place which admits
writes is led to such places only, since whatever it writes on its way leaves room above them. So no
write of a default, a filter, a trimmed or coerced value, and no removal of a key is refused, on the
data or on the copy of a probe.
-/

namespace Conform

namespace Walk

/-- On this tree the walk meets no error, however its visits are met: it writes where writes are
admitted, and it waits for nothing. -/
def Safe : Walk → Tree → Prop
  | done _, _ => True
  | fail _, _ => False
  | read r next, t => (next (t.get? r)).Safe t
  | write r v next, t => Tree.Admits t r ∧ next.Safe (Tree.set t r v).result
  | await _ _, _ => False
  | visit r _ _ body next, t =>
    (∀ mode, (body mode).Safe t) ∧ ∀ t', Tree.Upholds t r t' → ∀ o, (next o).Safe t'

section

variable {w : Walk} {place : Route} {known : Tree → Prop} {t : Tree}

theorem Safe.of_read {r : Route} {next : Option Value → Walk} (h : (next (t.get? r)).Safe t) :
    (read r next).Safe t := h

theorem Safe.andThen {k : Outcome → Walk} (h : w.Safe t) (hc : w.Confined place known)
    (hk : ∀ o t', Tree.Upholds t place t' → (k o).Safe t') : (w.andThen k).Safe t := by
  induction w generalizing known t with
  | done o => exact hk o t (.refl t place)
  | fail e => exact absurd h id
  | read r next ih => exact ih _ h (hc.2 _) hk
  | write r v next ih =>
    have hup := h.1.upholds hc.1 v
    exact ⟨h.1, ih h.2 hc.2.2.2 fun o t' ht => hk o t' (hup.trans ht)⟩
  | await g next ih => exact absurd h id
  | visit r d hint body next _ ihn =>
    refine ⟨h.1, fun t' ht o => ihn o (h.2 t' ht o) (hc.2.2 o) fun o' t'' ht' => ?_⟩
    exact hk o' t'' ((ht.widen hc.1).trans ht')

/-- On a tree of its own it comes to an outcome. -/
theorem Safe.detached (h : w.Safe t) (hc : w.Confined place known) (isOpen : String → Bool) :
    ∃ o t', w.detached isOpen t = .finished o t' ∧ Tree.Upholds t place t' := by
  induction w generalizing place known t with
  | done o => exact ⟨o, t, rfl, .refl t place⟩
  | fail e => exact absurd h id
  | read r next ih => exact ih _ h (hc.2 _)
  | write r v next ih =>
    obtain ⟨o, t', hd, hup⟩ := ih h.2 hc.2.2.2
    refine ⟨o, t', ?_, (h.1.upholds hc.1 v).trans hup⟩
    simp only [Walk.detached, h.1.refusal v]
    exact hd
  | await g next ih => exact absurd h id
  | visit r d hint body next ihb ihn =>
    obtain ⟨said, t₁, hb, hup⟩ := ihb .full (h.1 .full) (hc.2.1 .full)
    obtain ⟨o, t', hn, hup'⟩ := ihn (Outcome.merge [hint, said]) (h.2 t₁ hup _) (hc.2.2 _)
    refine ⟨o, t', ?_, (hup.widen hc.1).trans hup'⟩
    simp only [Walk.detached, hb]
    exact hn

/-- Every run comes to an outcome of it, whichever places the run passes over or goes through. -/
theorem Safe.drive {p : Progress} (h : w.Safe p.model.tree) (hc : w.Confined place known)
    (hk : known p.model.tree) (isOpen : String → Bool) :
    ∃ o p', w.drive isOpen p = .done o p' ∧
      Tree.Upholds p.model.tree place p'.model.tree := by
  induction w generalizing place known p with
  | done o => exact ⟨o, p, rfl, .refl _ place⟩
  | fail e => exact absurd h id
  | read r next ih => exact ih _ h (hc.2 _) ⟨hk, rfl⟩
  | write r v next ih =>
    have new := hc.2.2.1 _ hk
    have hrefusal := h.1.refusal v
    obtain ⟨hdone, htree, -⟩ := Model.write_done new hrefusal
    obtain ⟨o, p', hd, hup⟩ := ih (p := ⟨p.run, (p.model.write r v).model⟩)
      (by rw [htree]; exact h.2) hc.2.2.2 ⟨_, hk, by rw [htree, ← hrefusal]⟩
    rw [htree] at hup
    refine ⟨o, p', ?_, (h.1.upholds hc.1 v).trans hup⟩
    simp only [Walk.drive, hdone]
    exact hd
  | await g next ih => exact absurd h id
  | visit r d hint body next ihb ihn =>
    obtain ⟨hbody, hnext⟩ := h
    simp only [Walk.drive]
    rcases p.meet_cases r d with ⟨-, hm⟩ | ⟨-, hm⟩ | ⟨scope, -, -, hm⟩
    · simp only [hm]
      exact ihn _ (p := ⟨p.run.discover r d, p.model⟩) (hnext _ (.refl _ r) _) (hc.2.2 _) trivial
    · obtain ⟨said, q, hb, hup⟩ := ihb .structural (p := ⟨p.run.discover r d, p.model⟩)
        (hbody .structural) (hc.2.1 .structural) trivial
      obtain ⟨o, p', hn, hup'⟩ := ihn Outcome.silent (hnext _ hup _) (hc.2.2 _) trivial
      simp only [hm, hb]
      exact ⟨o, p', hn, (hup.widen hc.1).trans hup'⟩
    · have htree := Progress.enter_tree ⟨p.run.discover r d, p.model⟩ r scope
      obtain ⟨said, q, hb, hup⟩ :=
        ihb .full (p := (Progress.enter ⟨p.run.discover r d, p.model⟩ r scope).1)
          (by rw [htree]; exact hbody .full) (hc.2.1 .full) trivial
      rw [htree] at hup
      have hsettle := q.settle_tree (Progress.enter ⟨p.run.discover r d, p.model⟩ r scope).2
        (Outcome.merge [hint, said])
      obtain ⟨o, p', hn, hup'⟩ := ihn (Outcome.merge [hint, said])
        (p := q.settle (Progress.enter ⟨p.run.discover r d, p.model⟩ r scope).2
          (Outcome.merge [hint, said])) (by rw [hsettle]; exact hnext _ hup _) (hc.2.2 _) trivial
      rw [hsettle] at hup'
      simp only [hm, hb]
      exact ⟨o, p', hn, (hup.widen hc.1).trans hup'⟩

/-- Tried on a copy it comes to an outcome too. -/
theorem Safe.probe {k : Outcome → Walk} (h : w.Safe t) (hc : w.Confined place fun _ => True)
    (hk : ∀ o, (k o).Safe t) : (w.probe place k).Safe t := by
  obtain ⟨o, t', hd, -⟩ := h.detached hc fun _ => true
  have hcopy : w.ComesTo place (t.get? place) (.passed o (t'.get? place)) :=
    hc.comesTo_append rfl (hc.comesTo_of_detached hd)
  refine Safe.of_read ?_
  rw [hcopy]
  exact hk o

end

/-- The walks of something that keeps to its place, and is safe at every place that admits
writes. -/
structure SafeAnywhere (walk : Mode → Route → Walk) : Prop where
  confined : ∀ mode route, (walk mode route).Confined route fun _ => True
  safe : ∀ mode route t, Tree.Admits t route → (walk mode route).Safe t

end Walk

namespace Leaf

open Walk

variable {route : Route} {t : Tree}

theorem judging_safe (judge : Value → Outcome) : (judging judge route).Safe t := by
  refine Safe.of_read ?_
  cases t.get? route <;> trivial

/-- What has been written is all that is left to do. -/
theorem write_safe {v : Option Value} {o : Outcome} (h : Tree.Admits t route) :
    (Walk.write route v (.done o)).Safe t := ⟨h, trivial⟩

/-- Keys are removed from an object, which stays one. -/
theorem removing_safe {ks : List String} (h : Tree.Admits t route) {d : Dict Value}
    (object : t.get? route = some (.object d)) : (removing route ks).Safe t := by
  induction ks generalizing t d with
  | nil => trivial
  | cons k ks ih =>
    have hchild : Tree.Admits t (route.childNamed k) := by
      rw [Route.childNamed, Tree.admits_child, object]
      exact ⟨h, trivial⟩
    have hrest : Tree.Admits (Tree.set t (route.childNamed k) none).result route :=
      ((hchild.upholds ⟨_, rfl⟩ none).here h)
    exact ⟨hchild, ih hrest (Tree.get?_set_field object (hchild.refusal none))⟩

theorem additionalKeysWalk_safe (options : EvalOptions) (known : List String)
    (h : Tree.Admits t route) : (additionalKeysWalk options known route).Safe t := by
  refine Safe.of_read ?_
  cases hv : t.get? route with
  | none => trivial
  | some v =>
    dsimp only
    split
    · trivial
    · next k ks hks =>
      split
      · cases v with
        | object d => exact removing_safe h hv
        | _ => cases hks
      · trivial

theorem typeWalk_safe (options : EvalOptions) (kinds : List Kind) (h : Tree.Admits t route) :
    (typeWalk options kinds route).Safe t := by
  refine Safe.of_read ?_
  cases t.get? route with
  | none => trivial
  | some v =>
    dsimp only
    split
    · trivial
    · split
      · split
        · exact write_safe h
        · trivial
      · trivial

theorem presentWalk_safe (h : Tree.Admits t route) : (presentWalk route).Safe t := by
  refine Safe.of_read ?_
  split
  · trivial
  · trivial
  · dsimp only
    split
    · trivial
    · split
      · trivial
      · exact write_safe h
  · trivial

theorem walk_safe (options : EvalOptions) (l : Leaf) (h : Tree.Admits t route) :
    (l.walk options route).Safe t := by
  cases l with
  | annotations default filters constant =>
    refine Safe.of_read ?_
    dsimp only
    split
    · trivial
    · exact write_safe h
  | type kinds => exact typeWalk_safe options kinds h
  | present needed =>
    cases needed with
    | true => exact presentWalk_safe h
    | false => trivial
  | additionalKeys known allowed =>
    cases allowed with
    | true => trivial
    | false => exact additionalKeysWalk_safe options known h
  | never => trivial
  | _ => exact judging_safe _

end Leaf

namespace Check

open Walk

variable {route : Route} {t : Tree}

/-- Each visit is of a child that admits writes, and goes on to admit them whatever is done at and
below the children visited before it. -/
theorem visitAll_safe (route : Route) (message : String) (ok : Bool) {vs : List Visit}
    (h : ∀ v ∈ vs, SafeAnywhere v.walker.walk ∧
      ∃ s, v.route = route.child s ∧ Tree.Admits t (route.child s)) :
    (visitAll message ok vs).Safe t := by
  induction vs generalizing t ok with
  | nil => trivial
  | cons v vs ih =>
    obtain ⟨⟨hwalk, s, hs, hadmits⟩, hrest⟩ := List.forall_mem_cons.1 h
    refine ⟨fun mode => hwalk.safe mode v.route t (hs ▸ hadmits), fun t' ht o => ih _ ?_⟩
    intro v' hv'
    obtain ⟨hwalk', s', hs', hadmits'⟩ := hrest v' hv'
    exact ⟨hwalk', s', hs', (hs ▸ ht : Tree.Upholds t (route.child s) t').admits hadmits'⟩

theorem propertiesWalk_safe {visits : List Visit} (hroute : Tree.Admits t route)
    (h : ∀ v ∈ visits, SafeAnywhere v.walker.walk ∧ ∃ k, v.route = route.child (.key k)) :
    (propertiesWalk visits route).Safe t := by
  have hvisits : (∀ k, Tree.Takes (t.get? route) (.key k)) →
      ∀ v ∈ visits, SafeAnywhere v.walker.walk ∧
        ∃ s, v.route = route.child s ∧ Tree.Admits t (route.child s) := by
    intro htakes v hv
    obtain ⟨hwalk, k, hk⟩ := h v hv
    exact ⟨hwalk, _, hk, Tree.admits_child.2 ⟨hroute, htakes k⟩⟩
  refine Safe.of_read ?_
  split
  · next hnone => exact visitAll_safe route _ _ (hvisits fun k => by rw [hnone]; trivial)
  · next d hobject => exact visitAll_safe route _ _ (hvisits fun k => by rw [hobject]; trivial)
  · trivial

theorem additionalWalk_safe {known : List String} {w : Walker} (hroute : Tree.Admits t route)
    (h : SafeAnywhere w.walk) : (additionalWalk known w route).Safe t := by
  refine Safe.of_read ?_
  cases hv : t.get? route with
  | none => trivial
  | some v =>
    refine visitAll_safe route _ _ fun u hu => ?_
    obtain ⟨k, hk, rfl⟩ := List.mem_map.1 hu
    refine ⟨h, _, rfl, Tree.admits_child.2 ⟨hroute, ?_⟩⟩
    cases v with
    | object d =>
      rw [hv]
      trivial
    | _ => cases hk

theorem itemsWalk_safe {walkers : Nat → List Walker} (hroute : Tree.Admits t route)
    (h : ∀ n, ∀ w ∈ walkers n, SafeAnywhere w.walk) (hlength : ∀ n, (walkers n).length ≤ n) :
    (itemsWalk walkers route).Safe t := by
  refine Safe.of_read ?_
  split
  · next items hv =>
    refine visitAll_safe route _ _ fun u hu => ?_
    obtain ⟨i, hi, rfl⟩ := List.mem_mapIdx.1 hu
    refine ⟨h _ _ (List.getElem_mem hi), _, rfl, Tree.admits_child.2 ⟨hroute, ?_⟩⟩
    rw [hv]
    exact Nat.lt_of_lt_of_le hi (hlength _)
  · trivial

theorem allOfWalk_safe (mode : Mode) (hroute : Tree.Admits t route) {ws : List Walker}
    (h : ∀ w ∈ ws, SafeAnywhere w.walk) (os : List Outcome) :
    (allOfWalk mode route os ws).Safe t := by
  induction ws generalizing os t with
  | nil => trivial
  | cons w ws ih =>
    obtain ⟨hw, hws⟩ := List.forall_mem_cons.1 h
    exact (hw.safe mode route t hroute).andThen (hw.confined mode route)
      fun o t' ht => ih (ht.here hroute) hws _

theorem anyOfWalk_safe (mode : Mode) (hroute : Tree.Admits t route) {ws : List Walker}
    (h : ∀ w ∈ ws, SafeAnywhere w.walk) : (anyOfWalk mode route ws).Safe t := by
  induction ws with
  | nil => trivial
  | cons w ws ih =>
    obtain ⟨hw, hws⟩ := List.forall_mem_cons.1 h
    refine (hw.safe .full route t hroute).probe (hw.confined .full route) fun o => ?_
    split
    · exact hw.safe mode route t hroute
    · exact ih hws

theorem oneOfWalk_safe (mode : Mode) (hroute : Tree.Admits t route) {matched ws : List Walker}
    (hm : ∀ w ∈ matched, SafeAnywhere w.walk) (h : ∀ w ∈ ws, SafeAnywhere w.walk) :
    (oneOfWalk mode route matched ws).Safe t := by
  induction ws generalizing matched with
  | nil =>
    match matched with
    | [] => trivial
    | [w] => exact (hm w List.mem_cons_self).safe mode route t hroute
    | w :: w' :: rest => trivial
  | cons w ws ih =>
    obtain ⟨hw, hws⟩ := List.forall_mem_cons.1 h
    rw [oneOfWalk]
    refine (hw.safe .full route t hroute).probe (hw.confined .full route) fun o => ih ?_ hws
    split
    · exact List.forall_mem_append.2 ⟨hm, List.forall_mem_singleton.2 hw⟩
    · exact hm

theorem excludedWalk_safe (hroute : Tree.Admits t route) {w : Walker} (h : SafeAnywhere w.walk) :
    (excludedWalk w route).Safe t :=
  (h.safe .full route t hroute).probe (h.confined .full route) fun _ => trivial

theorem conditionalWalk_safe (mode : Mode) (hroute : Tree.Admits t route) {condition : Walker}
    {met unmet : Option Walker} (hc : SafeAnywhere condition.walk)
    (hm : ∀ w ∈ met, SafeAnywhere w.walk) (hu : ∀ w ∈ unmet, SafeAnywhere w.walk) :
    (conditionalWalk mode route condition met unmet).Safe t := by
  refine (hc.safe .full route t hroute).probe (hc.confined .full route) fun o => ?_
  have hchosen : ∀ w ∈ (if o.passes then met else unmet), SafeAnywhere w.walk := by
    split
    · exact hm
    · exact hu
  split
  · next w hw => exact (hchosen w hw).safe mode route t hroute
  · trivial

/-- Checks in a row, each of which keeps to the place and is safe there. -/
theorem runAll_safe (mode : Mode) (hroute : Tree.Admits t route) {f : List Outcome → Outcome}
    {cs : List Ready} (h : ∀ c ∈ cs, SafeAnywhere c.walk) (os : List Outcome) :
    (runAll mode route (fun os => done (f os)) os cs).Safe t := by
  induction cs generalizing os t with
  | nil => trivial
  | cons c cs ih =>
    obtain ⟨hc, hcs⟩ := List.forall_mem_cons.1 h
    unfold runAll
    split
    · exact ih hroute hcs os
    · exact (hc.safe mode route t hroute).andThen (hc.confined mode route)
        fun o t' ht => ih (ht.here hroute) hcs _

end Check

section

variable (options : EvalOptions)

open Walk

theorem safe_nesting : Nesting (fun name => ∀ i, Segment.ofText name ≠ .index i)
    (fun r => SafeAnywhere (r.walk options)) (fun c => SafeAnywhere (c.walk options)) where
  node location checks messages declaration h := by
    refine ⟨(confined_nesting options).node location checks messages declaration fun c hc =>
      (h c hc).confined, fun mode route t hroute => ?_⟩
    rw [Rule.walk, readyChecks_eq_map]
    exact Check.runAll_safe mode hroute (List.forall_mem_map.2 h) []
  leaf l := by
    refine ⟨(confined_nesting options).leaf l, fun mode route t hroute => ?_⟩
    rw [Check.walk]
    exact l.walk_safe options hroute
  properties children h := by
    refine ⟨(confined_nesting options).properties children fun key required rule hp =>
      ⟨trivial, (h key required rule hp).2.confined⟩, fun mode route t hroute => ?_⟩
    rw [Check.walk, propertyVisits_eq_map]
    refine Check.propertiesWalk_safe hroute fun v hv => ?_
    obtain ⟨⟨key, required, rule⟩, hp, rfl⟩ := List.mem_map.1 hv
    obtain ⟨hkey, hrule⟩ := h key required rule hp
    refine ⟨hrule, ?_⟩
    cases hs : Segment.ofText key with
    | index i => exact absurd hs (hkey i)
    | key k => exact ⟨k, congrArg route.child hs⟩
  additional keys rule h := by
    refine ⟨(confined_nesting options).additional keys rule h.confined,
      fun mode route t hroute => ?_⟩
    rw [Check.walk]
    exact Check.additionalWalk_safe hroute h
  items rule h := by
    refine ⟨(confined_nesting options).items rule h.confined, fun mode route t hroute => ?_⟩
    rw [Check.walk]
    refine Check.itemsWalk_safe hroute (fun n w hw => ?_)
      fun n => Nat.le_of_eq List.length_replicate
    rw [List.eq_of_mem_replicate hw]
    exact h
  tuple rules h := by
    refine ⟨(confined_nesting options).tuple rules fun r hr => (h r hr).confined,
      fun mode route t hroute => ?_⟩
    have hws : ∀ w ∈ rules.map (Rule.walker options), SafeAnywhere w.walk :=
      List.forall_mem_map.2 h
    rw [Check.walk, walkersOf_eq_map]
    exact Check.itemsWalk_safe hroute
      (fun n w hw => hws w (List.mem_of_mem_take hw)) fun n => List.length_take_le n _
  allOf branches h := by
    refine ⟨(confined_nesting options).allOf branches fun r hr => (h r hr).confined,
      fun mode route t hroute => ?_⟩
    rw [Check.walk, walkersOf_eq_map]
    exact Check.allOfWalk_safe mode hroute (List.forall_mem_map.2 h) []
  anyOf branches h := by
    refine ⟨(confined_nesting options).anyOf branches fun r hr => (h r hr).confined,
      fun mode route t hroute => ?_⟩
    rw [Check.walk, walkersOf_eq_map]
    exact Check.anyOfWalk_safe mode hroute (List.forall_mem_map.2 h)
  oneOf branches h := by
    refine ⟨(confined_nesting options).oneOf branches fun r hr => (h r hr).confined,
      fun mode route t hroute => ?_⟩
    rw [Check.walk, walkersOf_eq_map]
    exact Check.oneOfWalk_safe mode hroute (fun w hw => (by cases hw)) (List.forall_mem_map.2 h)
  excluded rule h := by
    refine ⟨(confined_nesting options).excluded rule h.confined, fun mode route t hroute => ?_⟩
    rw [Check.walk]
    exact Check.excludedWalk_safe hroute h
  conditional condition met unmet hc hm hu := by
    refine ⟨(confined_nesting options).conditional condition met unmet hc.confined
      (fun r hr => (hm r hr).confined) (fun r hr => (hu r hr).confined),
      fun mode route t hroute => ?_⟩
    have hmap : ∀ r : Option Rule, (∀ r' ∈ r, SafeAnywhere (r'.walk options)) →
        ∀ w ∈ r.map (Rule.walker options), SafeAnywhere w.walk := by
      intro r hr w hw
      obtain ⟨r', hr', rfl⟩ := Option.map_eq_some_iff.1 hw
      exact hr r' hr'
    rw [Check.walk, walkerOf?_eq_map, walkerOf?_eq_map]
    exact Check.conditionalWalk_safe mode hroute hc (hmap met hm) (hmap unmet hu)

/-- **Rules are safe.** Wherever writes are admitted, the walk of a rule whose properties are all
named by keys meets no error. -/
theorem Rule.walk_safe {r : Rule} (builtIn : r.isBuiltIn = true)
    (named : ∀ name ∈ r.propertyNames, ∀ i, Segment.ofText name ≠ .index i) :
    SafeAnywhere (r.walk options) :=
  (safe_nesting options).rule (r.built_of_names builtIn named)

end

namespace Active

/-- All steps of a run lie on the way to its last one. -/
theorem Steps.to_last {s t u : Active × Model} (h : Steps s t) (h' : Steps s u)
    (last : u.1.next? u.2 = none) : Steps t u := by
  induction h with
  | refl => exact h'
  | head hs _ ih =>
    cases h' with
    | refl => rw [last] at hs; cases hs
    | head hs' h'' =>
      rw [hs] at hs'
      cases hs'
      exact ih h''

theorem Steps.failing {s t : Active × Model} (h : Steps s t) (hf : s.1.failing = true) :
    t.1.failing = true := by
  induction h with
  | refl => exact hf
  | head hs _ ih => exact ih ((effect hs).failing_of hf)

end Active

/-- **Validation never fails.** Where a schema of built-in keywords declares no property under an
index, evaluating its rule gives an outcome for every value. Every run of a model of it, at the root
or at any other place, whatever the model holds and whatever the options are, is answered with a
verdict, and of the writes that it comes to none is refused. -/
theorem validation_never_fails {registry : Registry} {schema : Value} {rule : Rule}
    (plain : registry.keywords = []) (compiled : compile registry schema = .ok rule)
    (named : ∀ name ∈ rule.propertyNames, ∀ i, Segment.ofText name ≠ .index i) :
    (∀ (options : EvalOptions) (isOpen : String → Bool) (value : Option Value),
      ∃ o t, rule.evaluateDetached options isOpen value = .finished o t) ∧
    ∀ m : Model, m.rule = rule → ∀ (c : Call) (r : Route) (options : ValidateOptions),
      (∀ isOpen, ∃ m' valid, c.answer m r options isOpen = (m', .finished valid)) ∧
      ∀ a m', Active.Steps (c.start m r options) (a, m') → ∀ place v next,
        a.rest = .write place v next → ∃ changed, (m'.write place v).result = .ok changed := by
  have builtIn := compile_isBuiltIn plain compiled
  have hsafe := fun options => Rule.walk_safe options builtIn named
  refine ⟨fun options isOpen value => ?_, fun m hm c r options => ?_⟩
  · obtain ⟨o, t, hd, -⟩ := ((hsafe options).safe .full [] value (Tree.admits_root value)).detached
      ((hsafe options).confined .full []) isOpen
    exact ⟨o, t, hd⟩
  · subst hm
    have hdrive : ∀ isOpen, ∃ o p,
        (c.start m r options).1.drive isOpen (c.start m r options).2 = .done o p := by
      intro isOpen
      rw [c.drive_start]
      have hwalk := hsafe (Call.evaluation m options)
      generalize hw : Walk.visit [] m.rule.declaration Outcome.silent
        (fun mode => m.rule.walk (Call.evaluation m options) mode []) .done = w
      have hvisit : w.Safe (c.progress m r options).model.tree := by
        rw [← hw]
        exact ⟨fun mode => hwalk.safe mode [] _ (Tree.admits_root _), fun _ _ _ => trivial⟩
      have hconfined : w.Confined [] fun _ => True := by
        rw [← hw]
        exact ⟨List.prefix_rfl, fun mode => hwalk.confined mode [], fun _ => trivial⟩
      obtain ⟨o, p, hd, -⟩ := hvisit.drive hconfined trivial isOpen
      exact ⟨o, p, hd⟩
    refine ⟨fun isOpen => ?_, fun a m' hsteps place v next hrest => ?_⟩
    · obtain ⟨o, p, hd⟩ := hdrive isOpen
      rw [c.answer_eq, Active.resume, hd]
      exact ⟨_, _, rfl⟩
    · cases hw : (m'.write place v).result with
      | ok changed => exact ⟨changed, rfl⟩
      | error e =>
        -- the run would be on its way out from then on, and it ends with an outcome
        exfalso
        obtain ⟨o, p, hd⟩ := hdrive fun _ => true
        have hend := (c.start m r options).1.drive_steps (fun _ => true) (c.start m r options).2
        rw [hd] at hend
        have hnext : a.next? m' = some (⟨a.run, .fail (.storage e), a.frames⟩,
            (m'.write place v).model) := by
          simp only [Active.next?, hrest, hw]
        have hfail := (hsteps.trans (.head hnext (.refl _))).to_last hend rfl
        cases hfail.failing rfl

/-- The rule of a car whose wheels are counted from 4, and whose owner is a text. -/
def carRule : Rule :=
  .node "#" [.leaf (.annotations none [] {}),
    .properties
      [.mk "car" false (.node "#/properties/car" [.leaf (.annotations none [] {}),
        .properties [.mk "wheels" false (.node "#/properties/car/properties/wheels"
          [.leaf (.annotations (some (.int 4)) [] {})] {} {})]] {} {}),
      .mk "owner" false (.node "#/properties/owner"
        [.leaf (.annotations none [] {}), .leaf (.type [.string])] {} {})]] {} {}

/-- The default makes the object that it belongs to, and a number is turned into a text. -/
theorem validation_never_fails_car :
    (∃ o t, carRule.evaluateDetached { coerceTypes := true } (fun _ => true)
      (some (.object [("owner", .int 7)])) = .finished o t) ∧
    ∃ m valid, Call.validate.answer (Model.ofRule carRule none {}) [.key "car", .key "wheels"] {}
      (fun _ => true) = (m, .finished valid) := by
  have compiled : compile Registry.standard (.object [("properties", .object
      [("car", .object [("properties", .object
        [("wheels", .object [("default", .int 4)])])]),
      ("owner", .object [("type", .string "string")])])]) = .ok carRule := rfl
  have named : ∀ name ∈ carRule.propertyNames, ∀ i, Segment.ofText name ≠ .index i := by
    intro name hname i
    have hnames : carRule.propertyNames = ["car", "wheels", "owner"] := rfl
    rw [hnames] at hname
    simp only [List.mem_cons, List.not_mem_nil, or_false] at hname
    rcases hname with rfl | rfl | rfl <;> exact fun h => nomatch h
  obtain ⟨hdetached, hruns⟩ := validation_never_fails rfl compiled named
  exact ⟨hdetached _ _ _, (hruns _ rfl .validate _ _).1 _⟩

end Conform

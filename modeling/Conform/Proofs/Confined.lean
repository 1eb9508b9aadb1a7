import Conform.Proofs.Below
import Conform.Proofs.Nesting
import Conform.Proofs.Paths

/-!
# Walks that keep to their place

The walk of a rule of built-in keywords touches nothing but the place it is started at and what lies
below: it reads, writes and visits nowhere else, it removes the place itself never, and it waits for
no gate. What it writes is never there yet, so every write changes the tree.
-/

namespace Conform

namespace Walk

/-- Whether a walk keeps to a place on every tree that is `known` to be possible. -/
def Confined : Walk → Route → (Tree → Prop) → Prop
  | done _, _, _ => True
  | fail _, _, _ => True
  | read r next, place, known =>
    place <+: r ∧ ∀ v, (next v).Confined place fun t => known t ∧ t.get? r = v
  | write r v next, place, known =>
    place <+: r ∧ (r = place → v.isSome) ∧ (∀ t, known t → sameValue? (t.get? r) v = false) ∧
      next.Confined place fun t' => ∃ t, known t ∧ Tree.set t r v = ⟨t', none⟩
  | await _ _, _, _ => False
  | visit r _ _ body next, place, _ =>
    place <+: r ∧ (∀ mode, (body mode).Confined r fun _ => True) ∧
      ∀ o, (next o).Confined place fun _ => True

theorem Confined.of_imp {w : Walk} {place : Route} {known known' : Tree → Prop}
    (h : w.Confined place known) (hk : ∀ t, known' t → known t) : w.Confined place known' := by
  induction w generalizing known known' with
  | done o => trivial
  | fail e => trivial
  | read r next ih => exact ⟨h.1, fun v => ih v (h.2 v) fun t ht => ⟨hk t ht.1, ht.2⟩⟩
  | write r v next ih =>
    obtain ⟨hr, hsome, hnew, hnext⟩ := h
    exact ⟨hr, hsome, fun t ht => hnew t (hk t ht),
      ih hnext fun t' ⟨t, ht, hset⟩ => ⟨t, hk t ht, hset⟩⟩
  | await g next ih => exact h
  | visit r d hint body next _ _ => exact h

/-- A walk that keeps to a place keeps to whatever holds that place. -/
theorem Confined.widen {w : Walk} {place wider : Route} {known : Tree → Prop}
    (h : w.Confined place known) (hp : wider <+: place) : w.Confined wider known := by
  induction w generalizing known with
  | done o => trivial
  | fail e => trivial
  | read r next ih => exact ⟨hp.trans h.1, fun v => ih v (h.2 v)⟩
  | write r v next ih =>
    obtain ⟨hr, hsome, hnew, hnext⟩ := h
    refine ⟨hp.trans hr, fun he => hsome ?_, hnew, ih hnext⟩
    subst he
    exact hp.eq_of_length_le hr.length_le
  | await g next ih => exact h
  | visit r d hint body next _ ihn => exact ⟨hp.trans h.1, h.2.1, fun o => ihn o (h.2.2 o)⟩

theorem Confined.andThen {w : Walk} {place : Route} {known : Tree → Prop} {k : Outcome → Walk}
    (h : w.Confined place known) (hk : ∀ o, (k o).Confined place fun _ => True) :
    (w.andThen k).Confined place known := by
  induction w generalizing known with
  | done o => exact (hk o).of_imp fun _ _ => trivial
  | fail e => trivial
  | read r next ih => exact ⟨h.1, fun v => ih v (h.2 v)⟩
  | write r v next ih => exact ⟨h.1, h.2.1, h.2.2.1, ih h.2.2.2⟩
  | await g next ih => exact h
  | visit r d hint body next _ ihn => exact ⟨h.1, h.2.1, fun o => ihn o (h.2.2 o)⟩

/-- What a walk on a copy comes to. -/
inductive Trial where
  | passed (outcome : Outcome) (copy : Tree)
  | broken (error : RuleError)

/-- What is done after the walk on the copy. -/
def Trial.goOn (k : Outcome → Tree → Walk) : Trial → Walk
  | passed o copy => k o copy
  | broken e => fail e

/-- On a copy of what lies at `base`, the walk comes to `x` whatever is done afterwards. -/
def ComesTo (w : Walk) (base : Route) (copy : Tree) (x : Trial) : Prop :=
  ∀ k, w.shield base k copy = x.goOn k

theorem ComesTo.unique {w : Walk} {base : Route} {copy : Tree} {x y : Trial}
    (hx : w.ComesTo base copy x) (hy : w.ComesTo base copy y) : x = y := by
  have h := (hx fun o t => .write [] t (.done o)).symm.trans (hy fun o t => .write [] t (.done o))
  cases x <;> cases y <;> simp_all [Trial.goOn]

section

variable {base q : Route} {copy : Tree}

theorem shield_read (next : Option Value → Walk) (k : Outcome → Tree → Walk) :
    (read (base ++ q) next).shield base k copy = (next (copy.get? q)).shield base k copy := by
  rw [shield, Route.below?_append]

theorem shield_write_refused {v : Option Value} {e : PathError}
    (h : (Tree.set copy q v).refusal = some e) (next : Walk) (k : Outcome → Tree → Walk) :
    (write (base ++ q) v next).shield base k copy = fail (.storage e) := by
  simp only [shield, Route.below?_append, h]

theorem shield_write {v : Option Value} (h : (Tree.set copy q v).refusal = none) (next : Walk)
    (k : Outcome → Tree → Walk) :
    (write (base ++ q) v next).shield base k copy =
      next.shield base k (Tree.set copy q v).result := by
  simp only [shield, Route.below?_append, h]

end

/-- **Nothing leaves the copy.** A walk that keeps to the place which it has a copy of asks for
nothing outside: all that is left of it is what comes after it. -/
theorem Confined.trial {w : Walk} {base : Route} {known : Tree → Prop}
    (h : w.Confined base known) (copy : Tree) : ∃ x, w.ComesTo base copy x := by
  induction w generalizing known copy with
  | done o => exact ⟨.passed o copy, fun k => rfl⟩
  | fail e => exact ⟨.broken e, fun k => rfl⟩
  | read r next ih =>
    obtain ⟨q, rfl⟩ := h.1
    obtain ⟨x, hx⟩ := ih (copy.get? q) (h.2 _) copy
    exact ⟨x, fun k => (shield_read next k).trans (hx k)⟩
  | write r v next ih =>
    obtain ⟨q, rfl⟩ := h.1
    cases hw : (Tree.set copy q v).refusal with
    | some e => exact ⟨.broken (.storage e), fun k => shield_write_refused hw next k⟩
    | none =>
      obtain ⟨x, hx⟩ := ih h.2.2.2 (Tree.set copy q v).result
      exact ⟨x, fun k => (shield_write hw next k).trans (hx k)⟩
  | await g next ih => exact absurd h id
  | visit r d hint body next ihb ihn =>
    obtain ⟨x, hx⟩ := ihb .full ((h.2.1 .full).widen h.1) copy
    cases x with
    | broken e => exact ⟨.broken e, fun k => hx _⟩
    | passed o copy' =>
      obtain ⟨y, hy⟩ := ihn (Outcome.merge [hint, o]) (h.2.2 _) copy'
      exact ⟨y, fun k => (hx _).trans (hy k)⟩

theorem Confined.probe {w : Walk} {place : Route} {known : Tree → Prop} {k : Outcome → Walk}
    (h : w.Confined place fun _ => True) (hk : ∀ o, (k o).Confined place fun _ => True) :
    (w.probe place k).Confined place known := by
  refine ⟨List.prefix_rfl, fun v => ?_⟩
  obtain ⟨x, hx⟩ := h.trial v
  dsimp only
  rw [hx]
  cases x with
  | passed o copy => exact (hk o).of_imp fun _ _ => trivial
  | broken e => trivial

end Walk

/-- Whether the walk of a nested rule keeps to every place it is started at. -/
def Walker.Confined (w : Walker) : Prop :=
  ∀ mode route, (w.walk mode route).Confined route fun _ => True

/-- Coercion turns a value into another one. -/
theorem Kind.same_of_coerce? {k : Kind} {v w : Value} (h : k.coerce? v = some w) :
    v.same w = false := by
  have hmap : ∀ {α : Type} {o : Option α} {f : α → Value}, (∀ a, v.same (f a) = false) →
      o.map f = some w → v.same w = false := by
    intro α o f hf ho
    obtain ⟨a, -, rfl⟩ := Option.map_eq_some_iff.1 ho
    exact hf a
  unfold Kind.coerce? at h
  split at h
  · exact hmap (fun a => rfl) h
  · cases h
    rfl
  · next s =>
    simp only [Option.orElse_eq_orElse, Option.orElse_eq_or, Option.or_eq_some_iff] at h
    rcases h with h | ⟨-, h⟩
    · exact hmap (fun a => rfl) h
    · exact hmap (fun a => rfl) h
  · cases h
    rfl
  · exact hmap (fun a => rfl) h
  · exact hmap (fun a => rfl) h
  · cases h
    rfl
  · cases h
    rfl
  · split at h
    · cases h
      rfl
    · cases h
  · cases h
  · next hv =>
    cases h
    cases v with
    | array items => exact absurd rfl (hv items)
    | _ => rfl
  · cases h

namespace Leaf

theorem judging_confined (judge : Value → Outcome) (route : Route) {known : Tree → Prop} :
    (judging judge route).Confined route known := by
  refine ⟨List.prefix_rfl, fun v => ?_⟩
  cases v <;> trivial

theorem annotationsWalk_confined (default : Option Value) (filters : List Filter)
    (constant : Outcome) (route : Route) {known : Tree → Prop} :
    (annotationsWalk default filters constant route).Confined route known := by
  refine ⟨List.prefix_rfl, fun stored => ?_⟩
  dsimp only
  split
  · trivial
  · next hne =>
    refine ⟨List.prefix_rfl, fun _ => ?_, fun t ht => ?_, trivial⟩
    · cases hv : prepared default filters stored with
      | some v => rfl
      | none =>
        have hstored : stored = none := by
          rw [prepared, Option.map_eq_none_iff] at hv
          cases stored with
          | none => rfl
          | some v => cases hv
        rw [hv, hstored] at hne
        exact absurd rfl hne
    · rw [ht.2]
      simpa using hne

theorem typeWalk_confined (options : EvalOptions) (kinds : List Kind) (route : Route)
    {known : Tree → Prop} : (typeWalk options kinds route).Confined route known := by
  refine ⟨List.prefix_rfl, fun v => ?_⟩
  cases v with
  | none => trivial
  | some v =>
    dsimp only
    split
    · trivial
    · split
      · split
        · next w hw =>
          obtain ⟨k, -, hk⟩ := List.exists_of_findSome?_eq_some hw
          refine ⟨List.prefix_rfl, fun _ => rfl, fun t ht => ?_, trivial⟩
          rw [ht.2]
          exact Kind.same_of_coerce? hk
        · trivial
      · trivial

theorem presentWalk_confined (route : Route) {known : Tree → Prop} :
    (presentWalk route).Confined route known := by
  refine ⟨List.prefix_rfl, fun v => ?_⟩
  dsimp only
  split
  · trivial
  · trivial
  · next s =>
    split
    · trivial
    · split
      · trivial
      · next hne =>
        refine ⟨List.prefix_rfl, fun _ => rfl, fun t ht => ?_, trivial⟩
        rw [ht.2]
        simpa [sameValue?, Value.same] using Ne.symm hne
  · trivial

/-- Every key that is removed is there until then. -/
theorem removing_confined (route : Route) {ks : List String} {known : Tree → Prop}
    (h : ∀ t, known t → ∃ d, t.get? route = some (.object d) ∧ ks.Sublist (Dict.keys d)) :
    (removing route ks).Confined route known := by
  induction ks generalizing known with
  | nil => trivial
  | cons k ks ih =>
    refine ⟨⟨_, rfl⟩, fun he => ?_, fun t ht => ?_, ih fun t' ⟨t, ht, hset⟩ => ?_⟩
    · simp [Route.childNamed, Route.child] at he
    · obtain ⟨d, hd, hks⟩ := h t ht
      exact Tree.new_removal hd (hks.subset List.mem_cons_self)
    · obtain ⟨d, hd, hks⟩ := h t ht
      have hget := Tree.get?_set_field hd (k := k) (by rw [hset])
      rw [hset] at hget
      exact ⟨_, hget, Dict.sublist_keys_erase hks⟩

theorem additionalKeysWalk_confined (options : EvalOptions) (keys : List String) (route : Route)
    {known : Tree → Prop} : (additionalKeysWalk options keys route).Confined route known := by
  refine ⟨List.prefix_rfl, fun v => ?_⟩
  cases v with
  | none => trivial
  | some v =>
    dsimp only
    split
    · trivial
    · next k ks hks =>
      split
      · refine removing_confined route fun t ht => ?_
        cases v with
        | object d =>
          refine ⟨d, ht.2, ?_⟩
          rw [← hks]
          exact List.filter_sublist
        | _ => cases hks
      · trivial

/-- A leaf looks at its own place alone. -/
theorem walk_confined (options : EvalOptions) (route : Route) (l : Leaf) {known : Tree → Prop} :
    (l.walk options route).Confined route known := by
  cases l with
  | annotations default filters constant =>
    exact annotationsWalk_confined default filters constant route
  | type kinds => exact typeWalk_confined options kinds route
  | present needed =>
    cases needed with
    | true => exact presentWalk_confined route
    | false => trivial
  | additionalKeys keys allowed =>
    cases allowed with
    | true => trivial
    | false => exact additionalKeysWalk_confined options keys route
  | never => trivial
  | _ => exact judging_confined _ route

end Leaf

namespace Check

open Walk

variable {known : Tree → Prop} {route : Route}

theorem visitAll_confined (message : String) (ok : Bool) {vs : List Visit}
    (h : ∀ v ∈ vs, v.walker.Confined ∧ route <+: v.route) :
    (visitAll message ok vs).Confined route known := by
  induction vs generalizing ok known with
  | nil => trivial
  | cons v vs ih =>
    obtain ⟨hv, hr⟩ := h v List.mem_cons_self
    exact ⟨hr, fun mode => hv mode v.route,
      fun o => ih _ fun v hv => h v (List.mem_cons_of_mem _ hv)⟩

theorem propertiesWalk_confined {visits : List Visit}
    (h : ∀ v ∈ visits, v.walker.Confined ∧ route <+: v.route) :
    (propertiesWalk visits route).Confined route known := by
  refine ⟨List.prefix_rfl, fun v => ?_⟩
  dsimp only
  split
  · exact visitAll_confined _ _ h
  · exact visitAll_confined _ _ h
  · trivial

theorem additionalWalk_confined (keys : List String) {w : Walker} (h : w.Confined) :
    (additionalWalk keys w route).Confined route known := by
  refine ⟨List.prefix_rfl, fun v => ?_⟩
  dsimp only
  split
  · trivial
  · refine visitAll_confined _ _ fun v hv => ?_
    obtain ⟨k, -, rfl⟩ := List.mem_map.1 hv
    exact ⟨h, ⟨_, rfl⟩⟩

theorem itemsWalk_confined {walkers : Nat → List Walker} (h : ∀ n, ∀ w ∈ walkers n, w.Confined) :
    (itemsWalk walkers route).Confined route known := by
  refine ⟨List.prefix_rfl, fun v => ?_⟩
  dsimp only
  split
  · refine visitAll_confined _ _ fun v hv => ?_
    obtain ⟨i, hi, rfl⟩ := List.mem_mapIdx.1 hv
    exact ⟨h _ _ (List.getElem_mem hi), ⟨_, rfl⟩⟩
  · trivial

theorem allOfWalk_confined (mode : Mode) {ws : List Walker} (h : ∀ w ∈ ws, w.Confined)
    (os : List Outcome) : (allOfWalk mode route os ws).Confined route known := by
  induction ws generalizing os known with
  | nil => trivial
  | cons w ws ih =>
    refine Confined.andThen ((h w List.mem_cons_self mode route).of_imp fun _ _ => trivial) ?_
    exact fun o => ih (fun w hw => h w (List.mem_cons_of_mem _ hw)) _

theorem anyOfWalk_confined (mode : Mode) {ws : List Walker} (h : ∀ w ∈ ws, w.Confined) :
    (anyOfWalk mode route ws).Confined route known := by
  induction ws generalizing known with
  | nil => trivial
  | cons w ws ih =>
    refine (h w List.mem_cons_self .full route).probe fun o => ?_
    split
    · exact h w List.mem_cons_self mode route
    · exact ih fun w hw => h w (List.mem_cons_of_mem _ hw)

theorem oneOfWalk_confined (mode : Mode) {matched ws : List Walker}
    (hm : ∀ w ∈ matched, w.Confined) (h : ∀ w ∈ ws, w.Confined) :
    (oneOfWalk mode route matched ws).Confined route known := by
  induction ws generalizing matched known with
  | nil =>
    unfold oneOfWalk
    split
    · trivial
    · exact (hm _ List.mem_cons_self mode route).of_imp fun _ _ => trivial
    · trivial
    · next he => cases he
  | cons w ws ih =>
    rw [oneOfWalk]
    refine (h w List.mem_cons_self .full route).probe fun o =>
      ih ?_ fun w hw => h w (List.mem_cons_of_mem _ hw)
    split
    · intro w' hw'
      rcases List.mem_append.1 hw' with hw' | hw'
      · exact hm w' hw'
      · rw [List.mem_singleton.1 hw']
        exact h w List.mem_cons_self
    · exact hm

theorem conditionalWalk_confined (mode : Mode) {condition : Walker} {met unmet : Option Walker}
    (hc : condition.Confined) (hm : ∀ w ∈ met, w.Confined) (hu : ∀ w ∈ unmet, w.Confined) :
    (conditionalWalk mode route condition met unmet).Confined route known := by
  refine (hc .full route).probe fun o => ?_
  split
  · next w hw =>
    split at hw
    · exact hm w hw mode route
    · exact hu w hw mode route
  · trivial

theorem runAll_confined (mode : Mode) {finish : List Outcome → Walk}
    (hfinish : ∀ os, (finish os).Confined route fun _ => True) {cs : List Ready}
    (h : ∀ c ∈ cs, (c.walk mode route).Confined route fun _ => True) (os : List Outcome) :
    (runAll mode route finish os cs).Confined route known := by
  induction cs generalizing os known with
  | nil => exact (hfinish os).of_imp fun _ _ => trivial
  | cons c cs ih =>
    unfold runAll
    split
    · exact ih (fun c hc => h c (List.mem_cons_of_mem _ hc)) os
    · refine Confined.andThen ((h c List.mem_cons_self).of_imp fun _ _ => trivial) fun o => ?_
      exact ih (fun c hc => h c (List.mem_cons_of_mem _ hc)) _

end Check

section

variable (options : EvalOptions)

theorem confined_nesting : Nesting (fun _ => True) (fun r => (r.walker options).Confined)
    (fun c => ∀ mode route, (c.walk options mode route).Confined route fun _ => True) where
  node location checks messages declaration h mode route := by
    show ((Rule.node location checks messages declaration).walk options mode route).Confined _ _
    rw [Rule.walk, readyChecks_eq_map]
    refine Check.runAll_confined mode (fun os => ?_) (List.forall_mem_map.2 fun c hc => ?_) []
    · trivial
    · exact h c hc mode route
  leaf l mode route := by
    rw [Check.walk]
    exact l.walk_confined options route
  properties children h mode route := by
    rw [Check.walk, propertyVisits_eq_map]
    refine Check.propertiesWalk_confined fun v hv => ?_
    obtain ⟨⟨key, required, rule⟩, hp, rfl⟩ := List.mem_map.1 hv
    exact ⟨(h key required rule hp).2, ⟨_, rfl⟩⟩
  additional keys rule h mode route := by
    rw [Check.walk]
    exact Check.additionalWalk_confined keys h
  items rule h mode route := by
    rw [Check.walk]
    refine Check.itemsWalk_confined fun n w hw => ?_
    rw [List.eq_of_mem_replicate hw]
    exact h
  tuple rules h mode route := by
    rw [Check.walk, walkersOf_eq_map]
    exact Check.itemsWalk_confined fun n w hw =>
      List.forall_mem_map.2 h w (List.mem_of_mem_take hw)
  allOf branches h mode route := by
    rw [Check.walk, walkersOf_eq_map]
    exact Check.allOfWalk_confined mode (List.forall_mem_map.2 h) []
  anyOf branches h mode route := by
    rw [Check.walk, walkersOf_eq_map]
    exact Check.anyOfWalk_confined mode (List.forall_mem_map.2 h)
  oneOf branches h mode route := by
    rw [Check.walk, walkersOf_eq_map]
    exact Check.oneOfWalk_confined mode (fun w hw => (by cases hw)) (List.forall_mem_map.2 h)
  excluded rule h mode route := by
    rw [Check.walk]
    exact Walk.Confined.probe (h .full route) fun _ => trivial
  conditional condition met unmet hc hm hu mode route := by
    have hmap : ∀ r : Option Rule, (∀ r' ∈ r, (r'.walker options).Confined) →
        ∀ w ∈ r.map (Rule.walker options), w.Confined := by
      intro r hr w hw
      obtain ⟨r', hr', rfl⟩ := Option.map_eq_some_iff.1 hw
      exact hr r' hr'
    rw [Check.walk, walkerOf?_eq_map, walkerOf?_eq_map]
    exact Check.conditionalWalk_confined mode hc (hmap met hm) (hmap unmet hu)

/-- **Rules keep to their place.** The walk of a rule of built-in keywords touches nothing but the
place it is started at and what lies below it. -/
theorem Rule.walk_confined {r : Rule} (h : r.isBuiltIn = true) (mode : Mode) (route : Route) :
    (r.walk options mode route).Confined route fun _ => True :=
  (confined_nesting options).rule (r.built_of_isBuiltIn h) mode route

end

end Conform

import Conform.Proofs.Below
import Conform.Proofs.BuiltIn
import Conform.Proofs.Paths

/-!
# Tours

The tour of an evaluation is the tree of its visits. While the tree of data stays as it is, the walk
of a rule in structural mode asks for the same visits as in full mode, whatever it is answered:
which places it is led to depends on the data and on what probes say, and the checks that are left
out lead nowhere.
-/

namespace Conform

/-- One visit: the place and what is asked for there, what the rule said and the visits within. -/
structure Tour where
  route : Route
  declaration : Declaration
  hint : Outcome
  body : Mode → Walk
  said : Outcome
  within : List Tour

namespace Walk

/-- In full, and without any write, the walk comes to an outcome after these visits. -/
inductive Tours (t : Tree) : Walk → Outcome → List Tour → Prop where
  | done (o : Outcome) : Tours t (done o) o []
  | read {r : Route} {next : Option Value → Walk} {o : Outcome} {ts : List Tour}
      (rest : Tours t (next (t.get? r)) o ts) : Tours t (read r next) o ts
  | visit {r : Route} {d : Declaration} {hint : Outcome} {body : Mode → Walk}
      {next : Outcome → Walk} {said o : Outcome} {within ts : List Tour}
      (inner : Tours t (body .full) said within)
      (rest : Tours t (next (Outcome.merge [hint, said])) o ts) :
      Tours t (visit r d hint body next) o (⟨r, d, hint, body, said, within⟩ :: ts)

/-- Whatever it is answered, and without any write, the walk asks for these visits. -/
inductive Asks (t : Tree) : Walk → List Tour → Prop where
  | done (o : Outcome) : Asks t (done o) []
  | read {r : Route} {next : Option Value → Walk} {ts : List Tour}
      (rest : Asks t (next (t.get? r)) ts) : Asks t (read r next) ts
  | visit {r : Route} {d : Declaration} {hint : Outcome} {body : Mode → Walk}
      {next : Outcome → Walk} {said : Outcome} {within ts : List Tour}
      (rest : ∀ o, Asks t (next o) ts) :
      Asks t (visit r d hint body next) (⟨r, d, hint, body, said, within⟩ :: ts)

variable {t : Tree}

theorem Tours.andThen {w : Walk} {k : Outcome → Walk} {o : Outcome} {ts : List Tour}
    (h : (w.andThen k).Tours t o ts) :
    ∃ o₁ ts₁ ts₂, ts = ts₁ ++ ts₂ ∧ w.Tours t o₁ ts₁ ∧ (k o₁).Tours t o ts₂ := by
  induction w generalizing ts with
  | done o₁ => exact ⟨o₁, [], ts, rfl, .done o₁, h⟩
  | fail e => cases h
  | read r next ih =>
    cases h with
    | read rest =>
      obtain ⟨o₁, ts₁, ts₂, hts, hw, hk⟩ := ih _ rest
      exact ⟨o₁, ts₁, ts₂, hts, .read hw, hk⟩
  | write r v next ih => cases h
  | await g next ih => cases h
  | visit r d hint body next ihb ihn =>
    cases h with
    | visit inner rest =>
      obtain ⟨o₁, ts₁, ts₂, rfl, hw, hk⟩ := ihn _ rest
      exact ⟨o₁, _ :: ts₁, ts₂, rfl, .visit inner hw, hk⟩

theorem Asks.andThen {w : Walk} {k : Outcome → Walk} {ts₁ ts₂ : List Tour} (h : w.Asks t ts₁)
    (hk : ∀ o, (k o).Asks t ts₂) : (w.andThen k).Asks t (ts₁ ++ ts₂) := by
  induction h with
  | done o => exact hk o
  | read rest ih => exact .read ih
  | visit rest ih => exact .visit ih

/-- Of a walk on a copy nothing is visited outside, and what comes after it is told the same
whatever it is. -/
theorem Tours.of_shield {base : Route} {w : Walk} {k : Outcome → Tree → Walk} {c : Tree}
    {o : Outcome} {ts : List Tour} (h : (w.shield base k c).Tours t o ts) :
    ∃ o₁ c₁, (k o₁ c₁).Tours t o ts ∧
      ∀ k' : Outcome → Tree → Walk, (k' o₁ c₁).Asks t ts → (w.shield base k' c).Asks t ts := by
  induction w generalizing k c with
  | done o₁ => exact ⟨o₁, c, h, fun k' hk => hk⟩
  | fail e => cases h
  | read r next ih =>
    simp only [shield] at h ⊢
    cases hq : Route.below? base r with
    | some q =>
      simp only [hq] at h
      exact ih _ h
    | none =>
      simp only [hq] at h
      cases h with
      | read rest =>
        obtain ⟨o₁, c₁, hk, hall⟩ := ih _ rest
        exact ⟨o₁, c₁, hk, fun k' hk' => .read (hall k' hk')⟩
  | write r v next ih =>
    simp only [shield] at h ⊢
    cases hq : Route.below? base r with
    | none =>
      simp only [hq] at h
      exact ih h
    | some q =>
      simp only [hq] at h
      cases hw : (Tree.set c q v).refusal with
      | some e =>
        simp only [hw] at h
        cases h
      | none =>
        simp only [hw] at h ⊢
        exact ih h
  | await g next ih => cases h
  | visit r d hint body next ihb ihn =>
    obtain ⟨o₁, c₁, hbody, hall⟩ := ihb .full h
    obtain ⟨o₂, c₂, hnext, hall₂⟩ := ihn _ hbody
    exact ⟨o₂, c₂, hnext, fun k' hk' => hall _ (hall₂ k' hk')⟩

theorem Tours.of_probe {base : Route} {w : Walk} {k : Outcome → Walk} {o : Outcome}
    {ts : List Tour} (h : (w.probe base k).Tours t o ts) :
    ∃ o₁, (k o₁).Tours t o ts ∧
      ∀ k' : Outcome → Walk, (k' o₁).Asks t ts → (w.probe base k').Asks t ts := by
  cases h with
  | read rest =>
    obtain ⟨o₁, c₁, hk, hall⟩ := rest.of_shield
    exact ⟨o₁, hk, fun k' hk' => .read (hall (fun o _ => k' o) hk')⟩

end Walk

/-- A visit under a place, and all visits within: they lie at places of a kind, and the walk in
structural mode asks for the same visits as the one in full. -/
inductive Tour.Mirrored (t : Tree) (kind : Route → Prop) : Route → Tour → Prop where
  | mk {place : Route} {s : Tour} (under : place <+: s.route) (ofKind : kind s.route)
      (full : (s.body .full).Tours t s.said s.within)
      (structural : (s.body .structural).Asks t s.within)
      (within : ∀ s' ∈ s.within, Tour.Mirrored t kind s.route s') : Tour.Mirrored t kind place s

/-- A mirrored tour of places that paths can lead to. -/
abbrev Tour.Steady (t : Tree) : Route → Tour → Prop := Tour.Mirrored t Route.Addressable

/-- Whether tours of the walk at any place of the kind are mirrored, and tell what it asks for in
structural mode. -/
def Walker.Mirrors (t : Tree) (kind : Route → Prop) (w : Walker) : Prop :=
  ∀ ⦃route o ts⦄, kind route → (w.walk .full route).Tours t o ts →
    (w.walk .structural route).Asks t ts ∧ ∀ s ∈ ts, s.Mirrored t kind route

namespace Leaf

open Walk

variable {t : Tree} {o : Outcome} {ts : List Tour}

/-- A leaf visits nothing. -/
theorem walk_tours {options : EvalOptions} {route : Route} {l : Leaf}
    (h : (l.walk options route).Tours t o ts) : ts = [] := by
  have hdone : ∀ {o' : Outcome}, (done o').Tours t o ts → ts = [] := by
    intro o' h
    cases h
    rfl
  have hjudging : ∀ {judge : Value → Outcome}, (judging judge route).Tours t o ts → ts = [] := by
    intro judge h
    cases h with
    | read rest => revert rest; cases t.get? route <;> exact hdone
  cases l with
  | annotations default filters constant =>
    cases h with
    | read rest =>
      revert rest
      dsimp only
      split
      · exact hdone
      · intro rest; cases rest
  | type kinds =>
    cases h with
    | read rest =>
      revert rest
      cases t.get? route with
      | none => exact hdone
      | some v =>
        dsimp only
        split
        · exact hdone
        · split
          · split
            · intro rest; cases rest
            · exact hdone
          · exact hdone
  | present needed =>
    cases needed with
    | false => exact hdone h
    | true =>
      cases h with
      | read rest =>
        revert rest
        dsimp only
        split
        · exact hdone
        · exact hdone
        · split
          · exact hdone
          · split
            · exact hdone
            · intro rest; cases rest
        · exact hdone
  | additionalKeys known allowed =>
    cases allowed with
    | true => exact hdone h
    | false =>
      cases h with
      | read rest =>
        revert rest
        cases t.get? route with
        | none => exact hdone
        | some v =>
          dsimp only
          split
          · exact hdone
          · split
            · intro rest; cases rest
            · exact hdone
  | never => exact hdone h
  | _ => exact hjudging h

end Leaf

/-- Whether a path can lead to every place of the tree: keys are names, and no array is longer than
an index can count. No memory could hold such an array, so the second is no loss. -/
structure Tree.Addressable (t : Tree) : Prop where
  keyed : ∀ v, t = some v → v.Keyed Segment.Name
  short : ∀ r items, t.get? r = some (.array items) → items.length ≤ Segment.indexLimit

theorem Value.Keyed.childOf? {ok : String → Prop} {v w : Value} {s : Segment} (h : v.Keyed ok)
    (hw : Tree.childOf? v s = some w) : w.Keyed ok := by
  cases h with
  | object keys values => exact values _ (Dict.mem_of_get? hw)
  | @array items values =>
    cases s with
    | index i => exact values _ (List.mem_of_getElem? hw)
    | key k => cases hw
  | _ => cases s <;> cases hw

theorem Tree.Addressable.extraKeys {t : Tree} (h : t.Addressable) {r : Route} {v : Value}
    (hv : t.get? r = some v) (known : List String) :
    ∀ k ∈ Leaf.extraKeys known v, Segment.Name k := by
  obtain ⟨root, rfl, hr⟩ := Option.bind_eq_some_iff.1 hv
  have keyed := Tree.valueAt?_of_child Value.Keyed.childOf? (h.keyed root rfl) hr
  intro k hk
  cases keyed with
  | object keys values =>
    obtain ⟨f, hf, rfl⟩ := List.mem_map.1 (List.mem_filter.1 hk).1
    exact keys f hf
  | _ => cases hk

theorem Route.Addressable.child {r : Route} (h : r.Addressable) {s : Segment}
    (hs : s.Addressable) : (r.child s).Addressable := by
  intro s' hs'
  rcases List.mem_append.1 hs' with hs' | hs'
  · exact h s' hs'
  · rw [List.mem_singleton.1 hs']
    exact hs

/-- Whether places of a kind are all that a walk over the tree is led to from one of them, where
the properties that it is told of have names of another kind. -/
structure Tree.Ways (t : Tree) (names : String → Prop) (kind : Route → Prop) : Prop where
  property : ∀ ⦃r k⦄, kind r → names k → kind (r.childNamed k)
  extra : ∀ ⦃r v⦄, kind r → t.get? r = some v → ∀ known, ∀ k ∈ Leaf.extraKeys known v,
    kind (r.childNamed k)
  item : ∀ ⦃r items⦄, kind r → t.get? r = some (.array items) → ∀ i < items.length,
    kind (r.child (.index i))

theorem Tree.Addressable.ways {t : Tree} (h : t.Addressable) :
    t.Ways Segment.Name Route.Addressable where
  property _ _ hr hk := hr.child hk.addressable
  extra _ _ hr hv known k hk := hr.child (h.extraKeys hv known k hk).addressable
  item r items hr hv _ hi := hr.child
    (Segment.addressable_index (Nat.lt_of_lt_of_le hi (h.short r items hv)))

/-- To the kind of all places any walk is led. -/
theorem Tree.ways_all (t : Tree) : t.Ways (fun _ => True) fun _ => True :=
  ⟨fun _ _ _ _ => trivial, fun _ _ _ _ _ _ _ => trivial, fun _ _ _ _ _ _ => trivial⟩

namespace Check

open Walk

variable {t : Tree} {names : String → Prop} {kind : Route → Prop} {route : Route} {o : Outcome}
  {ts : List Tour}

/-- Whether a visit is one of a place below that is of the kind, with a walker whose tours are
mirrored. -/
def Visit.Mirrors (t : Tree) (kind : Route → Prop) (route : Route) (v : Visit) : Prop :=
  v.walker.Mirrors t kind ∧ route <+: v.route ∧ kind v.route

theorem visitAll_mirrors {message : String} {ok : Bool} {vs : List Visit}
    (hvs : ∀ v ∈ vs, v.Mirrors t kind route) (h : (visitAll message ok vs).Tours t o ts) :
    (∀ message ok, (visitAll message ok vs).Asks t ts) ∧ ∀ s ∈ ts, s.Mirrored t kind route := by
  induction vs generalizing ok ts with
  | nil =>
    cases h
    exact ⟨fun message ok => .done _, fun s hs => (by cases hs)⟩
  | cons v vs ih =>
    obtain ⟨⟨hv, hunder, hroute⟩, hvs⟩ := List.forall_mem_cons.1 hvs
    cases h with
    | visit inner rest =>
      obtain ⟨hasks, hmirrored⟩ := ih hvs rest
      obtain ⟨hstructural, hwithin⟩ := hv hroute inner
      exact ⟨fun message ok => .visit fun o => hasks message _,
        List.forall_mem_cons.2 ⟨.mk hunder hroute inner hstructural hwithin, hmirrored⟩⟩

theorem propertiesWalk_mirrors {visits : List Visit} (hvs : ∀ v ∈ visits, v.Mirrors t kind route)
    (h : (propertiesWalk visits route).Tours t o ts) :
    (propertiesWalk visits route).Asks t ts ∧ ∀ s ∈ ts, s.Mirrored t kind route := by
  cases h with
  | read rest =>
    suffices hnext : _ ∧ ∀ s ∈ ts, s.Mirrored t kind route from ⟨.read hnext.1, hnext.2⟩
    revert rest
    dsimp only
    split
    · exact fun rest => (visitAll_mirrors hvs rest).imp (fun h => h _ _) id
    · exact fun rest => (visitAll_mirrors hvs rest).imp (fun h => h _ _) id
    · intro rest
      cases rest
      exact ⟨.done _, fun s hs => (by cases hs)⟩

theorem additionalWalk_mirrors (ways : t.Ways names kind) (hroute : kind route)
    {known : List String} {w : Walker} (hw : w.Mirrors t kind)
    (h : (additionalWalk known w route).Tours t o ts) :
    (additionalWalk known w route).Asks t ts ∧ ∀ s ∈ ts, s.Mirrored t kind route := by
  cases h with
  | read rest =>
    suffices hnext : _ ∧ ∀ s ∈ ts, s.Mirrored t kind route from ⟨.read hnext.1, hnext.2⟩
    revert rest
    cases hv : t.get? route with
    | none =>
      intro rest
      cases rest
      exact ⟨.done _, fun s hs => (by cases hs)⟩
    | some v =>
      intro rest
      refine (visitAll_mirrors (fun u hu => ?_) rest).imp (fun h => h _ _) id
      obtain ⟨k, hk, rfl⟩ := List.mem_map.1 hu
      exact ⟨hw, ⟨_, rfl⟩, ways.extra hroute hv known k hk⟩

theorem itemsWalk_mirrors (ways : t.Ways names kind) (hroute : kind route)
    {walkers : Nat → List Walker} (hws : ∀ n, ∀ w ∈ walkers n, w.Mirrors t kind)
    (hlength : ∀ n, (walkers n).length ≤ n) (h : (itemsWalk walkers route).Tours t o ts) :
    (itemsWalk walkers route).Asks t ts ∧ ∀ s ∈ ts, s.Mirrored t kind route := by
  cases h with
  | read rest =>
    suffices hnext : _ ∧ ∀ s ∈ ts, s.Mirrored t kind route from ⟨.read hnext.1, hnext.2⟩
    revert rest
    dsimp only
    split
    · next items hv =>
      intro rest
      refine (visitAll_mirrors (fun u hu => ?_) rest).imp (fun h => h _ _) id
      obtain ⟨i, hi, rfl⟩ := List.mem_mapIdx.1 hu
      exact ⟨hws _ _ (List.getElem_mem hi), ⟨_, rfl⟩,
        ways.item hroute hv i (Nat.lt_of_lt_of_le hi (hlength _))⟩
    · intro rest
      cases rest
      exact ⟨.done _, fun s hs => (by cases hs)⟩

theorem allOfWalk_mirrors (hroute : kind route) {os : List Outcome} {ws : List Walker}
    (hws : ∀ w ∈ ws, w.Mirrors t kind) (h : (allOfWalk .full route os ws).Tours t o ts) :
    (∀ os, (allOfWalk .structural route os ws).Asks t ts) ∧ ∀ s ∈ ts, s.Mirrored t kind route := by
  induction ws generalizing os ts with
  | nil =>
    cases h
    exact ⟨fun os => .done _, fun s hs => (by cases hs)⟩
  | cons w ws ih =>
    obtain ⟨hw, hws⟩ := List.forall_mem_cons.1 hws
    obtain ⟨o₁, ts₁, ts₂, rfl, hfirst, hrest⟩ := h.andThen
    obtain ⟨hasks, hmirrored⟩ := hw hroute hfirst
    obtain ⟨hasks', hmirrored'⟩ := ih hws hrest
    refine ⟨fun os => hasks.andThen fun o => hasks' _, fun s hs => ?_⟩
    exact (List.mem_append.1 hs).elim (hmirrored s) (hmirrored' s)

theorem anyOfWalk_mirrors (hroute : kind route) {ws : List Walker}
    (hws : ∀ w ∈ ws, w.Mirrors t kind) (h : (anyOfWalk .full route ws).Tours t o ts) :
    (anyOfWalk .structural route ws).Asks t ts ∧ ∀ s ∈ ts, s.Mirrored t kind route := by
  induction ws with
  | nil =>
    cases h
    exact ⟨.done _, fun s hs => (by cases hs)⟩
  | cons w ws ih =>
    obtain ⟨hw, hws⟩ := List.forall_mem_cons.1 hws
    obtain ⟨o₁, hk, hall⟩ := Walk.Tours.of_probe h
    cases hp : o₁.passes with
    | true =>
      rw [hp, if_pos rfl] at hk
      obtain ⟨hasks, hmirrored⟩ := hw hroute hk
      exact ⟨hall _ (by rwa [hp, if_pos rfl]), hmirrored⟩
    | false =>
      rw [hp, if_neg Bool.false_ne_true] at hk
      obtain ⟨hasks, hmirrored⟩ := ih hws hk
      exact ⟨hall _ (by rwa [hp, if_neg Bool.false_ne_true]), hmirrored⟩

theorem oneOfWalk_mirrors (hroute : kind route) {matched ws : List Walker}
    (hm : ∀ w ∈ matched, w.Mirrors t kind) (hws : ∀ w ∈ ws, w.Mirrors t kind)
    (h : (oneOfWalk .full route matched ws).Tours t o ts) :
    (oneOfWalk .structural route matched ws).Asks t ts ∧ ∀ s ∈ ts, s.Mirrored t kind route := by
  induction ws generalizing matched with
  | nil =>
    match matched with
    | [] =>
      cases h
      exact ⟨.done _, fun s hs => (by cases hs)⟩
    | [w] => exact hm w List.mem_cons_self hroute h
    | w :: w' :: rest =>
      cases h
      exact ⟨.done _, fun s hs => (by cases hs)⟩
  | cons w ws ih =>
    obtain ⟨hw, hws⟩ := List.forall_mem_cons.1 hws
    rw [oneOfWalk] at h ⊢
    obtain ⟨o₁, hk, hall⟩ := h.of_probe
    have hmatched : ∀ w' ∈ (if o₁.passes then matched ++ [w] else matched), w'.Mirrors t kind := by
      split
      · intro w' hw'
        rcases List.mem_append.1 hw' with hw' | hw'
        · exact hm w' hw'
        · rw [List.mem_singleton.1 hw']
          exact hw
      · exact hm
    obtain ⟨hasks, hmirrored⟩ := ih hmatched hws hk
    exact ⟨hall _ hasks, hmirrored⟩

theorem excludedWalk_tours {w : Walker} (h : (excludedWalk w route).Tours t o ts) : ts = [] := by
  obtain ⟨o₁, hk, -⟩ := Walk.Tours.of_probe h
  cases hk
  rfl

theorem conditionalWalk_mirrors (hroute : kind route) {condition : Walker}
    {met unmet : Option Walker} (hm : ∀ w ∈ met, w.Mirrors t kind)
    (hu : ∀ w ∈ unmet, w.Mirrors t kind)
    (h : (conditionalWalk .full route condition met unmet).Tours t o ts) :
    (conditionalWalk .structural route condition met unmet).Asks t ts ∧
      ∀ s ∈ ts, s.Mirrored t kind route := by
  obtain ⟨o₁, hk, hall⟩ := Walk.Tours.of_probe h
  cases hc : (if o₁.passes then met else unmet) with
  | none =>
    rw [hc] at hk
    cases hk
    exact ⟨hall _ (by rw [hc]; exact .done _), fun s hs => (by cases hs)⟩
  | some w =>
    have hw : w.Mirrors t kind := by
      split at hc
      · exact hm w hc
      · exact hu w hc
    rw [hc] at hk
    obtain ⟨hasks, hmirrored⟩ := hw hroute hk
    exact ⟨hall _ (by rw [hc]; exact hasks), hmirrored⟩

/-- Whether the tours of a check are mirrored. A check that does not lead to places below has
none. -/
def Ready.Mirrors (t : Tree) (kind : Route → Prop) (c : Ready) : Prop :=
  ∀ ⦃route o ts⦄, kind route → (c.walk .full route).Tours t o ts →
    (c.isCompound = true → (c.walk .structural route).Asks t ts) ∧
      (c.isCompound = false → ts = []) ∧ ∀ s ∈ ts, s.Mirrored t kind route

theorem Ready.Mirrors.of_compound {c : Ready} (compound : c.isCompound = true)
    (h : ∀ ⦃route o ts⦄, kind route → (c.walk .full route).Tours t o ts →
      (c.walk .structural route).Asks t ts ∧ ∀ s ∈ ts, s.Mirrored t kind route) :
    c.Mirrors t kind :=
  fun _ _ _ hroute hc => ⟨fun _ => (h hroute hc).1,
    fun hn => absurd compound (by rw [hn]; exact Bool.false_ne_true), (h hroute hc).2⟩

/-- In structural mode the checks that are left out have no tours. -/
theorem runAll_mirrors (hroute : kind route) {f : List Outcome → Outcome}
    {os : List Outcome} {cs : List Ready} (hcs : ∀ c ∈ cs, c.Mirrors t kind)
    (h : (runAll .full route (fun os => done (f os)) os cs).Tours t o ts) :
    (∀ os, (runAll .structural route (fun os => done (f os)) os cs).Asks t ts) ∧
      ∀ s ∈ ts, s.Mirrored t kind route := by
  induction cs generalizing os ts with
  | nil =>
    cases h
    exact ⟨fun os => .done _, fun s hs => (by cases hs)⟩
  | cons c cs ih =>
    obtain ⟨hc, hcs⟩ := List.forall_mem_cons.1 hcs
    rw [runAll_full] at h
    obtain ⟨o₁, ts₁, ts₂, rfl, hfirst, hrest⟩ := h.andThen
    obtain ⟨hasks, hnone, hmirrored⟩ := hc hroute hfirst
    obtain ⟨hasks', hmirrored'⟩ := ih hcs hrest
    refine ⟨fun os => ?_, fun s hs => (List.mem_append.1 hs).elim (hmirrored s) (hmirrored' s)⟩
    rw [runAll]
    cases hcompound : c.isCompound with
    | true =>
      rw [if_neg (by simp)]
      exact (hasks hcompound).andThen fun o => hasks' _
    | false =>
      rw [if_pos (by simp), hnone hcompound]
      exact hasks' os

end Check

section

variable (options : EvalOptions) {t : Tree} {names : String → Prop} {kind : Route → Prop}

theorem mirrors_nesting (ways : t.Ways names kind) :
    Nesting names (fun r => (r.walker options).Mirrors t kind)
      (fun c => Check.Ready.Mirrors t kind ⟨c.keyword, c.isCompound, c.walk options⟩) where
  node location checks messages declaration h route o ts hroute hr := by
    have hcs : ∀ c ∈ readyChecks options checks, c.Mirrors t kind := by
      rw [readyChecks_eq_map]
      exact List.forall_mem_map.2 h
    simp only [Rule.walker] at hr ⊢
    rw [Rule.walk] at hr ⊢
    exact (Check.runAll_mirrors hroute hcs hr).imp (fun h => h []) id
  leaf l route o ts hroute h := by
    simp only at h ⊢
    rw [Check.walk] at h
    rw [l.walk_tours h]
    exact ⟨fun hc => (by cases hc), fun _ => rfl, fun s hs => (by cases hs)⟩
  properties children h := .of_compound rfl fun route o ts hroute hr => by
    simp only at hr ⊢
    rw [Check.walk, propertyVisits_eq_map] at hr ⊢
    refine Check.propertiesWalk_mirrors (fun v hv => ?_) hr
    obtain ⟨⟨key, required, rule⟩, hp, rfl⟩ := List.mem_map.1 hv
    obtain ⟨hkey, hrule⟩ := h key required rule hp
    exact ⟨hrule, ⟨_, rfl⟩, ways.property hroute hkey⟩
  additional keys rule h := .of_compound rfl fun route o ts hroute hr => by
    simp only at hr ⊢
    rw [Check.walk] at hr ⊢
    exact Check.additionalWalk_mirrors ways hroute h hr
  items rule h := .of_compound rfl fun route o ts hroute hr => by
    simp only at hr ⊢
    rw [Check.walk] at hr ⊢
    refine Check.itemsWalk_mirrors ways hroute (fun n w hw => ?_)
      (fun n => Nat.le_of_eq List.length_replicate) hr
    rw [List.eq_of_mem_replicate hw]
    exact h
  tuple rules h := .of_compound rfl fun route o ts hroute hr => by
    simp only at hr ⊢
    rw [Check.walk, walkersOf_eq_map] at hr ⊢
    exact Check.itemsWalk_mirrors ways hroute
      (fun n w hw => List.forall_mem_map.2 h w (List.mem_of_mem_take hw))
      (fun n => List.length_take_le n _) hr
  allOf branches h := .of_compound rfl fun route o ts hroute hr => by
    simp only at hr ⊢
    rw [Check.walk, walkersOf_eq_map] at hr ⊢
    exact (Check.allOfWalk_mirrors hroute (List.forall_mem_map.2 h) hr).imp (fun h => h []) id
  anyOf branches h := .of_compound rfl fun route o ts hroute hr => by
    simp only at hr ⊢
    rw [Check.walk, walkersOf_eq_map] at hr ⊢
    exact Check.anyOfWalk_mirrors hroute (List.forall_mem_map.2 h) hr
  oneOf branches h := .of_compound rfl fun route o ts hroute hr => by
    simp only at hr ⊢
    rw [Check.walk, walkersOf_eq_map] at hr ⊢
    exact Check.oneOfWalk_mirrors hroute (fun w hw => (by cases hw)) (List.forall_mem_map.2 h) hr
  excluded rule h route o ts hroute hr := by
    simp only at hr
    rw [Check.walk] at hr
    rw [Check.excludedWalk_tours hr]
    exact ⟨fun hc => (by cases hc), fun _ => rfl, fun s hs => (by cases hs)⟩
  conditional condition met unmet hc hm hu := .of_compound rfl fun route o ts hroute hr => by
    have hmap : ∀ r : Option Rule, (∀ r' ∈ r, (r'.walker options).Mirrors t kind) →
        ∀ w ∈ r.map (Rule.walker options), w.Mirrors t kind := by
      intro r hr w hw
      obtain ⟨r', hr', rfl⟩ := Option.map_eq_some_iff.1 hw
      exact hr r' hr'
    simp only at hr ⊢
    rw [Check.walk, walkerOf?_eq_map, walkerOf?_eq_map] at hr ⊢
    exact Check.conditionalWalk_mirrors hroute (hmap met hm) (hmap unmet hu) hr

/-- **The same visits in both modes.** The walk of a rule asks in structural mode for the visits
that it makes in full mode, and so does the rule at each of these places. -/
theorem Rule.walk_mirrors (ways : t.Ways names kind) {r : Rule} (h : r.Built names) :
    (r.walker options).Mirrors t kind := (mirrors_nesting options ways).rule h

end

end Conform

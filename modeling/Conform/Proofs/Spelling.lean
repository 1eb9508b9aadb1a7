import Conform.Proofs.Below
import Conform.Proofs.Leaves
import Conform.Proofs.Paths

/-!
# What keys are spelled like

Let the names of properties in a schema, and the keys of all that the schema and the data hold, be
of one kind. Then a walk never meets another key. Whatever it writes is a default of the schema, or
what filters, trimming and coercion make of a value, and a write makes no other keys than those of
its route; and the routes that it reads, writes and visits lead over names of properties, keys and
positions of the data.
-/

namespace Conform

namespace Segment

/-- A kind of keys that the texts of all positions are of. -/
def Digits (name : String → Prop) : Prop := ∀ i < indexLimit, name (toString i)

/-- Whether the text of a segment is of the kind and names this very segment. -/
structure Spelled (name : String → Prop) (s : Segment) : Prop where
  spelled : name s.text
  named : ofText s.text = s

variable {name : String → Prop}

theorem spelled_ofText {k : String} (h : name k) : (ofText k).Spelled name :=
  ⟨by rwa [text_ofText], by rw [text_ofText]⟩

theorem spelled_index (digits : Digits name) {i : Nat} (h : i < indexLimit) :
    (index i).Spelled name := ⟨digits i h, ofText_toString h⟩

theorem Spelled.index_lt {i : Nat} (h : (index i).Spelled name) : i < indexLimit :=
  (ofText_eq_index_iff.1 h.named).2

end Segment

/-- Whether every step of a route is of the kind. -/
def Route.Spelled (name : String → Prop) (r : Route) : Prop := ∀ s ∈ r, s.Spelled name

namespace Route.Spelled

variable {name : String → Prop} {r : Route}

theorem child (h : r.Spelled name) {s : Segment} (hs : s.Spelled name) : (r.child s).Spelled name :=
  List.forall_mem_append.2 ⟨h, List.forall_mem_singleton.2 hs⟩

theorem childNamed (h : r.Spelled name) {k : String} (hk : name k) :
    (r.childNamed k).Spelled name := h.child (Segment.spelled_ofText hk)

theorem of_below? (h : r.Spelled name) {base q : Route} (hq : Route.below? base r = some q) :
    Route.Spelled name q := by
  rw [Route.eq_append_of_below? hq] at h
  exact (List.forall_mem_append.1 h).2

end Route.Spelled

/-- At every depth, keys are of the kind, and no array is longer than an index can count. No memory
could hold such an array, so the second is no loss. -/
inductive Value.Spelled (name : String → Prop) : Value → Prop where
  | null : Value.Spelled name .null
  | bool (b : Bool) : Value.Spelled name (.bool b)
  | number (n : Number) : Value.Spelled name (.number n)
  | string (s : String) : Value.Spelled name (.string s)
  | array {items : List Value} (short : items.length ≤ Segment.indexLimit)
      (values : ∀ v ∈ items, Value.Spelled name v) : Value.Spelled name (.array items)
  | object {fields : List (String × Value)} (keys : ∀ f ∈ fields, name f.1)
      (values : ∀ f ∈ fields, Value.Spelled name f.2) : Value.Spelled name (.object fields)

def Tree.Spelled (name : String → Prop) (t : Tree) : Prop := ∀ v ∈ t, v.Spelled name

namespace Value.Spelled

variable {name : String → Prop} {d : List (String × Value)} {items : List Value} {k : String}
  {w : Value}

theorem single (hk : name k) (hw : w.Spelled name) : (Value.object [(k, w)]).Spelled name :=
  .object (List.forall_mem_singleton.2 hk) (List.forall_mem_singleton.2 hw)

theorem key (h : (Value.object d).Spelled name) {f : String × Value} (hf : f ∈ d) :
    name f.1 := by
  cases h with
  | object keys values => exact keys f hf

theorem field (h : (Value.object d).Spelled name) {f : String × Value} (hf : f ∈ d) :
    f.2.Spelled name := by
  cases h with
  | object keys values => exact values f hf

theorem get? (h : (Value.object d).Spelled name) (k : String) :
    Tree.Spelled name (Dict.get? k d) :=
  fun _ hw => h.field (Dict.mem_of_get? hw)

theorem insert (h : (Value.object d).Spelled name) (hk : name k) (hw : w.Spelled name) :
    (Value.object (Dict.insert k w d)).Spelled name := by
  refine .object (fun f hf => ?_) fun f hf => ?_
  · rcases Dict.eq_or_mem_of_mem_insert hf with rfl | hf
    · exact hk
    · exact h.key hf
  · rcases Dict.eq_or_mem_of_mem_insert hf with rfl | hf
    · exact hw
    · exact h.field hf

theorem erase (h : (Value.object d).Spelled name) (k : String) :
    (Value.object (Dict.erase k d)).Spelled name :=
  .object (fun _ hf => h.key (Dict.mem_of_mem_erase hf))
    fun _ hf => h.field (Dict.mem_of_mem_erase hf)

theorem item (h : (Value.array items).Spelled name) (hw : w ∈ items) : w.Spelled name := by
  cases h with
  | array short values => exact values w hw

theorem set (h : (Value.array items).Spelled name) {i : Nat} (hw : w.Spelled name) :
    (Value.array (items.set i w)).Spelled name := by
  cases h with
  | array short values =>
    refine .array (by rwa [List.length_set]) fun v hv => ?_
    rcases List.mem_or_eq_of_mem_set hv with hv | rfl
    · exact values v hv
    · exact hw

/-- A write behind the last item fills the gap with nulls. -/
theorem extend (h : (Value.array items).Spelled name) {i : Nat} (hlimit : i < Segment.indexLimit)
    (hi : ¬i < items.length) (hw : w.Spelled name) :
    (Value.array (items ++ List.replicate (i - items.length) Value.null ++ [w])).Spelled name := by
  cases h with
  | array short values =>
    refine .array ?_ fun v hv => ?_
    · simp only [List.length_append, List.length_replicate, List.length_singleton]
      omega
    · rcases List.mem_append.1 hv with hv | hv
      · rcases List.mem_append.1 hv with hv | hv
        · exact values v hv
        · rw [List.eq_of_mem_replicate hv]
          exact .null
      · rw [List.mem_singleton.1 hv]
        exact hw

end Value.Spelled

namespace Tree

variable {name : String → Prop}

theorem spelled_none : Spelled name none := all_none

theorem spelled_some {v : Value} : Spelled name (some v) ↔ v.Spelled name := all_some

theorem Spelled.orElse {t t' : Tree} (h : t.Spelled name) (h' : t'.Spelled name) :
    Spelled name (t <|> t') := by
  cases t with
  | none => exact h'
  | some v => exact h

/-- A child that is written gets the key or the position of its segment. -/
theorem spelled_hereditary : Hereditary (Value.Spelled name) (Segment.Spelled name) where
  null := .null
  container s := by
    cases s with
    | index i => exact .array (Nat.zero_le _) fun _ hw => nomatch hw
    | key k => exact .object (fun _ hf => nomatch hf) fun _ hf => nomatch hf
  child {v w s} h hw := by
    cases v with
    | object d => exact h.get? s.text w (by cases s <;> exact hw)
    | array items =>
      cases s with
      | index i => exact h.item (List.mem_of_getElem? hw)
      | key k => cases hw
    | _ => cases s <;> cases hw
  insert h hs hw := h.insert hs.spelled hw
  erase h k := h.erase k
  set h _ hw := h.set hw
  extend h hs hi hw := h.extend hs.index_lt hi hw

theorem Spelled.get? {t : Tree} (h : t.Spelled name) (r : Route) : Spelled name (t.get? r) :=
  spelled_hereditary.get? h r

theorem Spelled.set {t : Tree} (h : t.Spelled name) {r : Route} (hr : r.Spelled name)
    {value : Option Value} (hv : Spelled name value) :
    (Tree.set t r value).result.Spelled name :=
  spelled_hereditary.write h hr hv

end Tree

namespace Walk

/-- Whether all keys that the walk writes and is led over are of the kind, as long as those that it
reads are. -/
def Spelled (name : String → Prop) : Walk → Prop
  | done _ => True
  | fail _ => True
  | read _ next => ∀ v, Tree.Spelled name v → (next v).Spelled name
  | write r v next => r.Spelled name ∧ Tree.Spelled name v ∧ next.Spelled name
  | await _ next => next.Spelled name
  | visit r _ _ body next =>
    r.Spelled name ∧ (∀ mode, (body mode).Spelled name) ∧ ∀ o, (next o).Spelled name

variable {name : String → Prop} {w : Walk}

theorem Spelled.andThen (h : w.Spelled name) {k : Outcome → Walk} (hk : ∀ o, (k o).Spelled name) :
    (w.andThen k).Spelled name := by
  induction w with
  | done o => exact hk o
  | fail e => trivial
  | read r next ih => exact fun v hv => ih v (h v hv)
  | write r v next ih => exact ⟨h.1, h.2.1, ih h.2.2⟩
  | await g next ih => exact ih h
  | visit r d hint body next _ ihn => exact ⟨h.1, h.2.1, fun o => ihn o (h.2.2 o)⟩

theorem Spelled.shield (h : w.Spelled name) {base : Route} {k : Outcome → Tree → Walk} {t : Tree}
    (ht : t.Spelled name) (hk : ∀ o t', Tree.Spelled name t' → (k o t').Spelled name) :
    (w.shield base k t).Spelled name := by
  induction w generalizing k t with
  | done o => exact hk o t ht
  | fail e => trivial
  | read r next ih =>
    rw [Walk.shield]
    split
    · exact ih _ (h _ (ht.get? _)) ht hk
    · exact fun v hv => ih v (h v hv) ht hk
  | write r v next ih =>
    obtain ⟨hr, hv, hnext⟩ := h
    rw [Walk.shield]
    split
    · next q hq =>
      dsimp only
      split
      · trivial
      · exact ih hnext (ht.set (hr.of_below? hq) hv) hk
    · exact ih hnext ht hk
  | await g next ih => exact ih h ht hk
  | visit r d hint body next ihb ihn =>
    obtain ⟨-, hbody, hnext⟩ := h
    exact ihb .full (hbody .full) ht fun o t' ht' => ihn _ (hnext _) ht' hk

theorem Spelled.probe (h : w.Spelled name) {place : Route} {k : Outcome → Walk}
    (hk : ∀ o, (k o).Spelled name) : (w.probe place k).Spelled name :=
  fun _ hv => h.shield hv fun o _ _ => hk o

/-- The walks of something that keeps to keys of the kind at any place that it reaches over them. -/
def SpelledAnywhere (name : String → Prop) (walk : Mode → Route → Walk) : Prop :=
  ∀ mode route, route.Spelled name → (walk mode route).Spelled name

end Walk

/-- Whether what a leaf fills in, and what it makes of such a value by its filters, has keys of the
kind. -/
def Leaf.Spelled (name : String → Prop) : Leaf → Prop
  | annotations default filters _ =>
    Tree.Spelled name default ∧ ∀ f ∈ filters, ∀ v, v.Spelled name → (f.apply v).Spelled name
  | _ => True

section

variable {name : String → Prop}

theorem Filter.spelled_of_builtIn {f : Filter} (h : f ∈ Filter.builtIn) {v : Value}
    (hv : v.Spelled name) : (f.apply v).Spelled name := by
  have hstrings : ∀ n g, ((onStrings n g).apply v).Spelled name := by
    intro n g
    cases v with
    | string s => exact .string _
    | _ => exact hv
  simp only [builtIn, List.mem_cons, List.not_mem_nil, or_false] at h
  rcases h with rfl | rfl | rfl <;> exact hstrings _ _

/-- A value is turned into one without keys, or becomes the item of an array. -/
theorem Kind.spelled_coerce? {k : Kind} {v : Value} (hv : v.Spelled name) :
    Tree.Spelled name (k.coerce? v) := by
  have hmap : ∀ {α : Type} (f : α → Value) (x : Option α), (∀ a, (f a).Spelled name) →
      Tree.Spelled name (x.map f) := by
    intro α f x hf w hw
    obtain ⟨a, -, rfl⟩ := Option.map_eq_some_iff.1 hw
    exact hf a
  unfold coerce?
  split
  · exact hmap _ _ fun i => .number _
  · exact Tree.spelled_some.2 (.number _)
  · exact (hmap _ _ fun i => .number _).orElse (hmap _ _ fun x => .number _)
  · exact Tree.spelled_some.2 (.number _)
  · exact hmap _ _ fun b => .bool b
  · exact hmap _ _ fun b => .bool b
  · exact Tree.spelled_some.2 (.string _)
  · exact Tree.spelled_some.2 (.string _)
  · split
    · exact Tree.spelled_some.2 .null
    · exact Tree.spelled_none
  · exact Tree.spelled_none
  · have hshort : 1 ≤ Segment.indexLimit := by decide
    exact Tree.spelled_some.2 (.array hshort (List.forall_mem_singleton.2 hv))
  · exact Tree.spelled_none

namespace Leaf

variable {route : Route}

theorem judging_spelled (judge : Value → Outcome) : (judging judge route).Spelled name := by
  intro v _
  cases v <;> trivial

theorem spelled_prepared {default : Option Value} {filters : List Filter} {stored : Tree}
    (hd : Tree.Spelled name default)
    (hf : ∀ f ∈ filters, ∀ v, v.Spelled name → (f.apply v).Spelled name)
    (hs : stored.Spelled name) : Tree.Spelled name (prepared default filters stored) := by
  have hfold : ∀ v : Value, v.Spelled name →
      (filters.foldl (fun v f => f.apply v) v).Spelled name := by
    induction filters with
    | nil => exact fun v hv => hv
    | cons f filters ih =>
      obtain ⟨hf, hfs⟩ := List.forall_mem_cons.1 hf
      exact fun v hv => ih hfs _ (hf v hv)
  intro w hw
  obtain ⟨v, hv, rfl⟩ := Option.map_eq_some_iff.1 hw
  exact hfold v (hs.orElse hd v hv)

theorem extraKeys_spelled {v : Value} (hv : v.Spelled name) (known : List String) :
    ∀ k ∈ extraKeys known v, name k := by
  intro k hk
  cases v with
  | object d =>
    obtain ⟨f, hf, rfl⟩ := List.mem_map.1 (List.mem_filter.1 hk).1
    exact hv.key hf
  | _ => cases hk

theorem removing_spelled (hroute : route.Spelled name) {ks : List String}
    (hks : ∀ k ∈ ks, name k) : (removing route ks).Spelled name := by
  induction ks with
  | nil => trivial
  | cons k ks ih =>
    obtain ⟨hk, hks⟩ := List.forall_mem_cons.1 hks
    exact ⟨hroute.childNamed hk, Tree.spelled_none, ih hks⟩

theorem additionalKeysWalk_spelled (options : EvalOptions) (known : List String)
    (hroute : route.Spelled name) : (additionalKeysWalk options known route).Spelled name := by
  intro v hv
  cases v with
  | none => trivial
  | some v =>
    have hkeys := extraKeys_spelled (Tree.spelled_some.1 hv) known
    dsimp only
    split
    · trivial
    · next k ks hks =>
      rw [hks] at hkeys
      split
      · exact removing_spelled hroute hkeys
      · trivial

theorem typeWalk_spelled (options : EvalOptions) (kinds : List Kind) (hroute : route.Spelled name) :
    (typeWalk options kinds route).Spelled name := by
  intro v hv
  cases v with
  | none => trivial
  | some v =>
    dsimp only
    split
    · trivial
    · split
      · split
        · next w hw =>
          obtain ⟨k, -, hk⟩ := List.exists_of_findSome?_eq_some hw
          exact ⟨hroute, Tree.spelled_some.2
            (Kind.spelled_coerce? (Tree.spelled_some.1 hv) w hk), trivial⟩
        · trivial
      · trivial

theorem presentWalk_spelled (hroute : route.Spelled name) : (presentWalk route).Spelled name := by
  intro v _
  dsimp only
  split
  · trivial
  · trivial
  · split
    · trivial
    · split
      · trivial
      · exact ⟨hroute, Tree.spelled_some.2 (.string _), trivial⟩
  · trivial

theorem walk_spelled (options : EvalOptions) {l : Leaf} (h : l.Spelled name)
    (hroute : route.Spelled name) : (l.walk options route).Spelled name := by
  cases l with
  | annotations default filters constant =>
    intro v hv
    dsimp only
    split
    · trivial
    · exact ⟨hroute, spelled_prepared h.1 h.2 hv, trivial⟩
  | type kinds => exact typeWalk_spelled options kinds hroute
  | present needed =>
    cases needed with
    | true => exact presentWalk_spelled hroute
    | false => trivial
  | additionalKeys known allowed =>
    cases allowed with
    | true => trivial
    | false => exact additionalKeysWalk_spelled options known hroute
  | never => trivial
  | _ => exact judging_spelled _

end Leaf

end

namespace Check

open Walk

variable {name : String → Prop} {route : Route}

theorem visitAll_spelled (message : String) (ok : Bool) {vs : List Visit}
    (h : ∀ v ∈ vs, SpelledAnywhere name v.walker.walk ∧ v.route.Spelled name) :
    (visitAll message ok vs).Spelled name := by
  induction vs generalizing ok with
  | nil => trivial
  | cons v vs ih =>
    obtain ⟨⟨hwalk, hroute⟩, hvs⟩ := List.forall_mem_cons.1 h
    exact ⟨hroute, fun mode => hwalk mode v.route hroute, fun o => ih _ hvs⟩

theorem propertiesWalk_spelled {visits : List Visit}
    (h : ∀ v ∈ visits, SpelledAnywhere name v.walker.walk ∧ v.route.Spelled name) :
    (propertiesWalk visits route).Spelled name := by
  intro v _
  dsimp only
  split
  · exact visitAll_spelled _ _ h
  · exact visitAll_spelled _ _ h
  · trivial

theorem additionalWalk_spelled (known : List String) {w : Walker} (hroute : route.Spelled name)
    (h : SpelledAnywhere name w.walk) : (additionalWalk known w route).Spelled name := by
  intro v hv
  cases v with
  | none => trivial
  | some v =>
    have hkeys := Leaf.extraKeys_spelled (Tree.spelled_some.1 hv) known
    refine visitAll_spelled _ _ fun u hu => ?_
    obtain ⟨k, hk, rfl⟩ := List.mem_map.1 hu
    exact ⟨h, hroute.childNamed (hkeys k hk)⟩

theorem itemsWalk_spelled (digits : Segment.Digits name) {walkers : Nat → List Walker}
    (hroute : route.Spelled name)
    (h : ∀ n, ∀ w ∈ walkers n, SpelledAnywhere name w.walk)
    (hlength : ∀ n, (walkers n).length ≤ n) : (itemsWalk walkers route).Spelled name := by
  intro v hv
  dsimp only
  split
  · next items =>
    cases Tree.spelled_some.1 hv with
    | array short =>
      refine visitAll_spelled _ _ fun u hu => ?_
      obtain ⟨i, hi, rfl⟩ := List.mem_mapIdx.1 hu
      have hlt : i < Segment.indexLimit :=
        Nat.lt_of_lt_of_le (Nat.lt_of_lt_of_le hi (hlength _)) short
      exact ⟨h _ _ (List.getElem_mem hi), hroute.child (Segment.spelled_index digits hlt)⟩
  · trivial

theorem allOfWalk_spelled (mode : Mode) (hroute : route.Spelled name) {ws : List Walker}
    (h : ∀ w ∈ ws, SpelledAnywhere name w.walk) (os : List Outcome) :
    (allOfWalk mode route os ws).Spelled name := by
  induction ws generalizing os with
  | nil => trivial
  | cons w ws ih =>
    obtain ⟨hw, hws⟩ := List.forall_mem_cons.1 h
    exact (hw mode route hroute).andThen fun o => ih hws _

theorem anyOfWalk_spelled (mode : Mode) (hroute : route.Spelled name) {ws : List Walker}
    (h : ∀ w ∈ ws, SpelledAnywhere name w.walk) : (anyOfWalk mode route ws).Spelled name := by
  induction ws with
  | nil => trivial
  | cons w ws ih =>
    obtain ⟨hw, hws⟩ := List.forall_mem_cons.1 h
    refine (hw .full route hroute).probe fun o => ?_
    split
    · exact hw mode route hroute
    · exact ih hws

theorem oneOfWalk_spelled (mode : Mode) (hroute : route.Spelled name) {matched ws : List Walker}
    (hm : ∀ w ∈ matched, SpelledAnywhere name w.walk) (h : ∀ w ∈ ws, SpelledAnywhere name w.walk) :
    (oneOfWalk mode route matched ws).Spelled name := by
  induction ws generalizing matched with
  | nil =>
    match matched with
    | [] => trivial
    | [w] => exact hm w List.mem_cons_self mode route hroute
    | w :: w' :: rest => trivial
  | cons w ws ih =>
    obtain ⟨hw, hws⟩ := List.forall_mem_cons.1 h
    rw [oneOfWalk]
    refine (hw .full route hroute).probe fun o => ih ?_ hws
    split
    · exact List.forall_mem_append.2 ⟨hm, List.forall_mem_singleton.2 hw⟩
    · exact hm

theorem excludedWalk_spelled (hroute : route.Spelled name) {w : Walker}
    (h : SpelledAnywhere name w.walk) : (excludedWalk w route).Spelled name :=
  (h .full route hroute).probe fun _ => trivial

theorem conditionalWalk_spelled (mode : Mode) (hroute : route.Spelled name) {condition : Walker}
    {met unmet : Option Walker} (hc : SpelledAnywhere name condition.walk)
    (hm : ∀ w ∈ met, SpelledAnywhere name w.walk) (hu : ∀ w ∈ unmet, SpelledAnywhere name w.walk) :
    (conditionalWalk mode route condition met unmet).Spelled name := by
  refine (hc .full route hroute).probe fun o => ?_
  have hchosen : ∀ w ∈ (if o.passes then met else unmet), SpelledAnywhere name w.walk := by
    split
    · exact hm
    · exact hu
  split
  · next w hw => exact hchosen w hw mode route hroute
  · trivial

theorem runAll_spelled (mode : Mode) (hroute : route.Spelled name) {f : List Outcome → Outcome}
    {cs : List Ready} (h : ∀ c ∈ cs, SpelledAnywhere name c.walk) (os : List Outcome) :
    (runAll mode route (fun os => done (f os)) os cs).Spelled name := by
  induction cs generalizing os with
  | nil => trivial
  | cons c cs ih =>
    obtain ⟨hc, hcs⟩ := List.forall_mem_cons.1 h
    unfold runAll
    split
    · exact ih hcs os
    · exact (hc mode route hroute).andThen fun o => ih hcs _

end Check

section

variable {name : String → Prop} (options : EvalOptions)

open Walk

mutual

/-- A rule whose names and leaves are of the kind keeps its walks so. -/
theorem Rule.walk_spelled (digits : Segment.Digits name) {r : Rule}
    (h : r.Made name (Leaf.Spelled name)) : SpelledAnywhere name (r.walk options) := by
  intro mode route hroute
  match r, h with
  | .node location checks messages declaration, .node made =>
    rw [Rule.walk, readyChecks_eq_map]
    exact Check.runAll_spelled mode hroute
      (List.forall_mem_map.2 fun c hc => Check.walk_spelled digits (made c hc)) []

theorem Check.walk_spelled (digits : Segment.Digits name) {c : Check}
    (h : c.Made name (Leaf.Spelled name)) : SpelledAnywhere name (c.walk options) := by
  have hwalkers : ∀ rules : List Rule, (∀ r ∈ rules, SpelledAnywhere name (r.walk options)) →
      ∀ w ∈ rules.map (Rule.walker options), SpelledAnywhere name w.walk :=
    fun rules h => List.forall_mem_map.2 h
  intro mode route hroute
  match c, h with
  | .leaf l, .leaf holds =>
    rw [Check.walk]
    exact l.walk_spelled options holds hroute
  | .properties children, .properties names made =>
    rw [Check.walk, propertyVisits_eq_map]
    refine Check.propertiesWalk_spelled fun v hv => ?_
    obtain ⟨⟨key, required, rule⟩, hp, rfl⟩ := List.mem_map.1 hv
    exact ⟨Rule.walk_spelled digits (made key required rule hp),
      hroute.childNamed (names key required rule hp)⟩
  | .additional known rule, .additional made =>
    rw [Check.walk]
    exact Check.additionalWalk_spelled known hroute (Rule.walk_spelled digits made)
  | .items rule, .items made =>
    rw [Check.walk]
    refine Check.itemsWalk_spelled digits hroute (fun n w hw => ?_)
      fun n => Nat.le_of_eq List.length_replicate
    rw [List.eq_of_mem_replicate hw]
    exact Rule.walk_spelled digits made
  | .tuple rules, .tuple made =>
    have hws := hwalkers rules fun r hr => Rule.walk_spelled digits (made r hr)
    rw [Check.walk, walkersOf_eq_map]
    exact Check.itemsWalk_spelled digits hroute (fun n w hw => hws w (List.mem_of_mem_take hw))
      fun n => List.length_take_le n _
  | .allOf branches, .allOf made =>
    rw [Check.walk, walkersOf_eq_map]
    exact Check.allOfWalk_spelled mode hroute
      (hwalkers branches fun r hr => Rule.walk_spelled digits (made r hr)) []
  | .anyOf branches, .anyOf made =>
    rw [Check.walk, walkersOf_eq_map]
    exact Check.anyOfWalk_spelled mode hroute
      (hwalkers branches fun r hr => Rule.walk_spelled digits (made r hr))
  | .oneOf branches, .oneOf made =>
    rw [Check.walk, walkersOf_eq_map]
    exact Check.oneOfWalk_spelled mode hroute (fun w hw => (nomatch hw))
      (hwalkers branches fun r hr => Rule.walk_spelled digits (made r hr))
  | .excluded rule, .excluded made =>
    rw [Check.walk]
    exact Check.excludedWalk_spelled hroute (Rule.walk_spelled digits made)
  | .conditional condition met unmet, .conditional made whenMet whenUnmet =>
    rw [Check.walk, walkerOf?_eq_map, walkerOf?_eq_map]
    refine Check.conditionalWalk_spelled mode hroute (Rule.walk_spelled digits made) ?_ ?_
    · intro w hw
      obtain ⟨r, hr, rfl⟩ := Option.map_eq_some_iff.1 hw
      exact Rule.walk_spelled digits (whenMet r hr)
    · intro w hw
      obtain ⟨r, hr, rfl⟩ := Option.map_eq_some_iff.1 hw
      exact Rule.walk_spelled digits (whenUnmet r hr)

end

end

section

variable {name : String → Prop}

theorem BuiltIn.schemas_spelled {k : BuiltIn} {payload : Value} (h : payload.Spelled name) :
    ∀ v ∈ k.schemas payload, v.Spelled name := by
  unfold BuiltIn.schemas
  split
  · cases h with
    | object keys values => exact List.forall_mem_map.2 values
  · cases h with
    | array short values => exact values
  · cases h with
    | array short values => exact values
  · cases h with
    | array short values => exact values
  · cases h with
    | array short values => exact values
  · exact List.forall_mem_singleton.2 h
  · exact List.forall_mem_singleton.2 h
  · exact List.forall_mem_singleton.2 h
  · exact List.forall_mem_singleton.2 h
  · exact fun v hv => nomatch hv

theorem Value.spread_spelled :
    Spread (Value.Spelled name) name (Leaf.Spelled name) where
  never := trivial
  annotations hfields h := by
    obtain ⟨hdefault, -, -, names, -, hfilters⟩ := Annotations.parse_eq_ok h
    refine ⟨fun v hv => ?_, fun f hf v hv => ?_⟩
    · rw [hdefault] at hv
      rcases hfields with rfl | hfields
      · cases hv
      · exact hfields.get? _ v hv
    · exact Filter.spelled_of_builtIn (Annotations.mem_of_namedFilters hfilters f hf) hv
  keyword _ _ made := by cases made <;> trivial
  names hfields hmem _ he := (hfields.field hmem).key he
  nested hfields hmem := BuiltIn.schemas_spelled (hfields.field hmem)
  branches hfields _ _ hv := hfields.get? _ _ hv

end

end Conform

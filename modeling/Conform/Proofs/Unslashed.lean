import Conform.Proofs.Spelling

/-!
# Keys without slashes

A path is cut at its slashes, so a key that holds one cannot be told from two steps. Where no key of
a schema and of the data holds a slash, a walk never meets such a key.
-/

namespace Conform

/-- A key that does not cut a path. -/
def NoSlash (k : String) : Prop := '/' ∉ k.toList

theorem Segment.digits_noSlash : Segment.Digits NoSlash := fun _ h => (addressable_index h).no_slash

namespace Segment

/-- Whether the text of a segment is one piece of a path and names this very segment. -/
structure Unslashed (s : Segment) : Prop where
  no_slash : '/' ∉ s.text.toList
  named : ofText s.text = s

theorem unslashed_iff {s : Segment} : s.Unslashed ↔ s.Spelled NoSlash :=
  ⟨fun h => ⟨h.no_slash, h.named⟩, fun h => ⟨h.spelled, h.named⟩⟩

theorem unslashed_ofText {k : String} (h : '/' ∉ k.toList) : (ofText k).Unslashed :=
  unslashed_iff.2 (spelled_ofText h)

end Segment

/-- Whether every step of a route is one piece of its text. -/
def Route.Unslashed (r : Route) : Prop := ∀ s ∈ r, s.Unslashed

theorem Route.unslashed_iff {r : Route} : r.Unslashed ↔ r.Spelled NoSlash :=
  forall₂_congr fun _ _ => Segment.unslashed_iff

/-- At every depth, no key holds a slash, and no array is longer than an index can count. No memory
could hold such an array, so the second is no loss. -/
inductive Value.Unslashed : Value → Prop where
  | null : Value.Unslashed .null
  | bool (b : Bool) : Value.Unslashed (.bool b)
  | number (n : Number) : Value.Unslashed (.number n)
  | string (s : String) : Value.Unslashed (.string s)
  | array {items : List Value} (short : items.length ≤ Segment.indexLimit)
      (values : ∀ v ∈ items, Value.Unslashed v) : Value.Unslashed (.array items)
  | object {fields : List (String × Value)} (keys : ∀ f ∈ fields, '/' ∉ f.1.toList)
      (values : ∀ f ∈ fields, Value.Unslashed f.2) : Value.Unslashed (.object fields)

def Tree.Unslashed (t : Tree) : Prop := ∀ v ∈ t, v.Unslashed

theorem Value.unslashed_iff {v : Value} : v.Unslashed ↔ v.Spelled NoSlash := by
  constructor
  · intro h
    induction h with
    | null => exact .null
    | bool b => exact .bool b
    | number n => exact .number n
    | string s => exact .string s
    | array short _ ih => exact .array short ih
    | object keys _ ih => exact .object keys ih
  · intro h
    induction h with
    | null => exact .null
    | bool b => exact .bool b
    | number n => exact .number n
    | string s => exact .string s
    | array short _ ih => exact .array short ih
    | object keys _ ih => exact .object keys ih

namespace Tree

theorem unslashed_iff {t : Tree} : t.Unslashed ↔ t.Spelled NoSlash :=
  forall₂_congr fun _ _ => Value.unslashed_iff

theorem unslashed_some {v : Value} : Unslashed (some v) ↔ v.Unslashed :=
  ⟨fun h => h v rfl, fun h _ hw => Option.some.inj hw ▸ h⟩

theorem Unslashed.get? {t : Tree} (h : t.Unslashed) (r : Route) : Unslashed (t.get? r) :=
  unslashed_iff.2 ((unslashed_iff.1 h).get? r)

/-- What a write leaves, be it refused or not. -/
theorem Unslashed.set {t : Tree} (h : t.Unslashed) {r : Route} (hr : r.Unslashed)
    {value : Option Value} (hv : Unslashed value) : (Tree.set t r value).result.Unslashed :=
  unslashed_iff.2 ((unslashed_iff.1 h).set (Route.unslashed_iff.1 hr) (unslashed_iff.1 hv))

end Tree

namespace Walk

/-- Whether all that the walk writes and all places that it is led to are without slashes, as long
as the values that it reads are. -/
def Unslashed : Walk → Prop
  | done _ => True
  | fail _ => True
  | read _ next => ∀ v, Tree.Unslashed v → (next v).Unslashed
  | write r v next => r.Unslashed ∧ Tree.Unslashed v ∧ next.Unslashed
  | await _ next => next.Unslashed
  | visit r _ _ body next =>
    r.Unslashed ∧ (∀ mode, (body mode).Unslashed) ∧ ∀ o, (next o).Unslashed

theorem unslashed_iff {w : Walk} : w.Unslashed ↔ w.Spelled NoSlash := by
  induction w with
  | done o => exact .rfl
  | fail e => exact .rfl
  | read r next ih => exact forall_congr' fun v => imp_congr Tree.unslashed_iff (ih v)
  | write r v next ih => exact and_congr Route.unslashed_iff (and_congr Tree.unslashed_iff ih)
  | await g next ih => exact ih
  | visit r d hint body next ihb ihn =>
    exact and_congr Route.unslashed_iff (and_congr (forall_congr' ihb) (forall_congr' ihn))

/-- The walks of something that meets no slash at any place that it reaches without one. -/
def UnslashedAnywhere (walk : Mode → Route → Walk) : Prop :=
  ∀ mode route, route.Unslashed → (walk mode route).Unslashed

end Walk

/-- Whether what a leaf fills in or makes of a value by its filters has no slash in a key. -/
def Leaf.Unslashed : Leaf → Prop
  | annotations default filters _ =>
    Tree.Unslashed default ∧ ∀ f ∈ filters, ∀ v, v.Unslashed → (f.apply v).Unslashed
  | _ => True

theorem Leaf.unslashed_iff {l : Leaf} : l.Unslashed ↔ l.Spelled NoSlash := by
  cases l with
  | annotations default filters constant =>
    exact and_congr Tree.unslashed_iff (forall₂_congr fun _ _ => forall_congr' fun _ =>
      imp_congr Value.unslashed_iff Value.unslashed_iff)
  | _ => exact .rfl

theorem Leaf.unslashed_eq : Leaf.Unslashed = Leaf.Spelled NoSlash :=
  funext fun _ => propext unslashed_iff

/-- A rule whose names and leaves are without slashes keeps its walks so. -/
theorem Rule.walk_unslashed (options : EvalOptions) {r : Rule}
    (h : r.Made (fun k => '/' ∉ k.toList) Leaf.Unslashed) :
    Walk.UnslashedAnywhere (r.walk options) := by
  rw [Leaf.unslashed_eq] at h
  exact fun mode route hroute => Walk.unslashed_iff.2
    (Rule.walk_spelled options Segment.digits_noSlash h mode route (Route.unslashed_iff.1 hroute))

theorem Value.spread_unslashed :
    Spread Unslashed (fun k => '/' ∉ k.toList) Leaf.Unslashed := by
  rw [Leaf.unslashed_eq, show Value.Unslashed = Value.Spelled NoSlash from
    funext fun _ => propext unslashed_iff]
  exact Value.spread_spelled

end Conform

import Conform.Proofs.Below
import Conform.Proofs.Pointer

/-!
# Data in which no key stands twice

Writes keep the keys of all objects distinct. In such data every value is the same as itself, and
what is removed is gone, but for a slot of an array, which is null then.
-/

namespace Conform

/-- No object in a tree holds a key twice. -/
def Tree.Distinct (t : Tree) : Prop := t.All Value.Distinct

namespace Value.Distinct

variable {d : List (String × Value)} {items : List Value} {w : Value}

/-- What an object or an array of distinct keys holds has distinct keys. -/
theorem childOf? {v w : Value} {s : Segment} (h : v.Distinct)
    (hw : Tree.childOf? v s = some w) : w.Distinct := by
  cases h with
  | object keys values => exact values _ (Dict.mem_of_get? (k := s.text) (by cases s <;> exact hw))
  | array values =>
    cases s with
    | index i => exact values w (List.mem_of_getElem? hw)
    | key k => cases hw
  | _ => cases s <;> cases hw

theorem insert (h : (Value.object d).Distinct) (k : String) (hw : w.Distinct) :
    (Value.object (Dict.insert k w d)).Distinct := by
  cases h with
  | object keys values =>
    refine .object (Dict.keys_nodup_insert keys k w) fun f hf => ?_
    rcases Dict.eq_or_mem_of_mem_insert hf with rfl | hf
    · exact hw
    · exact values f hf

theorem erase (h : (Value.object d).Distinct) (k : String) :
    (Value.object (Dict.erase k d)).Distinct := by
  cases h with
  | object keys values =>
    refine .object ?_ fun f hf => values f (Dict.mem_of_mem_erase hf)
    rw [Dict.keys_erase]
    exact keys.erase k

theorem set (h : (Value.array items).Distinct) (i : Nat) (hw : w.Distinct) :
    (Value.array (items.set i w)).Distinct := by
  cases h with
  | array values =>
    refine .array fun v hv => ?_
    rcases List.mem_or_eq_of_mem_set hv with hv | rfl
    · exact values v hv
    · exact hw

theorem extend (h : (Value.array items).Distinct) (n : Nat) (hw : w.Distinct) :
    (Value.array (items ++ List.replicate n Value.null ++ [w])).Distinct := by
  cases h with
  | array values =>
    refine .array fun v hv => ?_
    simp only [List.mem_append, List.mem_replicate, List.mem_singleton] at hv
    rcases hv with (hv | ⟨-, rfl⟩) | rfl
    · exact values v hv
    · exact .null
    · exact hw

end Value.Distinct

namespace Value

theorem sameItems_self {items : List Value} (h : ∀ v ∈ items, v.same v = true) :
    sameItems items items = true := by
  induction items with
  | nil => rfl
  | cons v items ih =>
    obtain ⟨hv, hitems⟩ := List.forall_mem_cons.1 h
    rw [sameItems, hv, ih hitems, Bool.and_self]

theorem sameFields_of_get? {fields d : List (String × Value)}
    (get : ∀ f ∈ fields, Dict.get? f.1 d = some f.2) (h : ∀ f ∈ fields, f.2.same f.2 = true) :
    sameFields fields d = true := by
  induction fields with
  | nil => rfl
  | cons f fields ih =>
    obtain ⟨hf, hfields⟩ := List.forall_mem_cons.1 h
    obtain ⟨hget, hrest⟩ := List.forall_mem_cons.1 get
    simp only [sameFields, hget, hf, ih hrest hfields, Bool.and_self]

/-- Data in which no key stands twice is the same as itself. -/
theorem Distinct.same_self {v : Value} (h : v.Distinct) : v.same v = true := by
  induction h with
  | null => rfl
  | bool b => exact decide_eq_true rfl
  | number n => exact n.same_self
  | string s => exact decide_eq_true rfl
  | array _ ih => exact sameItems_self ih
  | object keys _ ih =>
    rw [same, sameFields_of_get? (fun f hf => Dict.get?_of_mem keys hf) ih]
    simp

end Value

/-- Only nothing is the same as nothing. -/
theorem sameValue?_none (t : Tree) : sameValue? t none = t.isNone := by
  cases t <;> rfl

namespace Tree

theorem distinct_hereditary : Hereditary Value.Distinct fun _ => True where
  null := .null
  container s := by
    cases s with
    | index i => exact .array fun _ hw => nomatch hw
    | key k => exact .object List.nodup_nil fun _ hf => nomatch hf
  child h hw := h.childOf? hw
  insert h _ hw := h.insert _ hw
  erase h k := h.erase k
  set h i hw := h.set i hw
  extend h _ _ hw := h.extend _ hw

/-- Whether a place is a slot of an array. -/
def IsSlot (t : Tree) (r : Route) : Prop :=
  ∃ q i items, r = q ++ [.index i] ∧ t.get? q = some (.array items)

theorem isSlot_append {t : Tree} {q : Route} {s : Segment} {holder : Value}
    (h : t.get? q = some holder) :
    t.IsSlot (q ++ [s]) ↔ ∃ i items, s = .index i ∧ holder = .array items := by
  constructor
  · rintro ⟨q', i, items, hr, hq'⟩
    obtain ⟨rfl, hs⟩ := List.append_inj' hr rfl
    exact ⟨i, items, List.head_eq_of_cons_eq hs, Option.some.inj (h.symm.trans hq')⟩
  · rintro ⟨i, items, rfl, rfl⟩
    exact ⟨q, i, items, rfl, h⟩

/-- A child that is removed is gone, but an item of an array is null then. -/
theorem get?_set_child {v x : Value} {s : Segment} (distinct : v.Distinct)
    (hx : childOf? v s = some x) :
    ((∃ i items, s = .index i ∧ v = .array items) →
      get? (set (some v) [s] none).result [s] = some .null) ∧
    ((¬∃ i items, s = .index i ∧ v = .array items) →
      get? (set (some v) [s] none).result [s] = none) := by
  have hset : get? (set (some v) [s] none).result [s] =
      childOf? (changeChild [s] [] v s fun _ => ⟨none, none⟩).result s := by
    have hopened : openedFor s v = v := by
      cases v with
      | null => cases s <;> cases hx
      | _ => rfl
    rw [set_cons _ _ _ _ (fun _ => rfl), setBelow, Option.getD_some, hopened]
    exact valueAt?_singleton _ s
  rw [hset]
  constructor
  · rintro ⟨i, items, rfl, rfl⟩
    obtain ⟨hi, -⟩ := List.getElem?_eq_some_iff.1 hx
    simp only [changeChild, dif_pos hi, Option.getD_none]
    exact List.getElem?_set_self hi
  · intro hslot
    cases distinct with
    | object keys values =>
      simp only [changeChild]
      cases s <;> exact Dict.get?_erase_self keys
    | @array items values =>
      cases s with
      | key k => cases hx
      | index i => exact absurd ⟨i, items, rfl, rfl⟩ hslot
    | _ => cases s <;> cases hx

/-- A value that is removed is gone, but a slot of an array is null then. -/
theorem get?_set_none {t : Tree} {r : Route} (distinct : t.Distinct) (hx : (t.get? r).isSome)
    (accepted : (set t r none).refusal = none) :
    (t.IsSlot r → get? (set t r none).result r = some .null) ∧
      (¬t.IsSlot r → get? (set t r none).result r = none) := by
  rcases List.eq_nil_or_concat r with rfl | ⟨q, s, rfl⟩
  · refine ⟨?_, fun _ => rfl⟩
    rintro ⟨q, i, items, hr, -⟩
    cases q <;> cases hr
  · rw [List.concat_eq_append] at hx accepted ⊢
    obtain ⟨x, hx⟩ := Option.isSome_iff_exists.1 hx
    rw [get?_append] at hx
    obtain ⟨holder, hq, hchild⟩ := Option.bind_eq_some_iff.1 hx
    rw [valueAt?_singleton] at hchild
    rw [get?_append, (get?_set_append (fun hs => (by cases hs)) accepted).2, hq, isSlot_append hq]
    exact get?_set_child (distinct_hereditary.get? distinct q holder hq) hchild

end Tree

end Conform

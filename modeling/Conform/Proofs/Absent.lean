import Conform.Proofs.Reading
import Conform.Proofs.Refused

/-!
# Removing what is not there

A removal at a place that is undefined finds nothing to take away. It leaves the tree as it is where
the place above is undefined as well, or holds a value that has no such child. But a place above
that holds null is opened, as if something was to be written: it holds an empty container from then
on.
-/

namespace Conform

theorem Dict.erase_of_get?_none {β : Type} {k : String} {d : Dict β} (h : d.get? k = none) :
    d.erase k = d := by
  induction d with
  | nil => rfl
  | cons p d ih =>
    rw [Dict.get?] at h
    split at h
    · cases h
    · next hk => rw [Dict.erase, if_neg hk, ih h]

namespace Tree

variable {tree : Tree} {path path' above above' p r : Route} {holder u w : Value} {s : Segment}

/-- What a removal of its child `s` makes of a value. -/
def without (u : Value) (s : Segment) : Value :=
  (changeChild [] [] (openedFor s u) s fun _ => ⟨none, none⟩).result

theorem without_null (s : Segment) : without .null s = containerFor s := by
  cases s <;> rfl

theorem without_object (d : Dict Value) (s : Segment) :
    without (.object d) s = .object (d.erase s.text) := by
  cases s <;> rfl

/-- Where there is no such child, nothing but null is changed. -/
theorem without_absent (hu : u ≠ .null) (h : childOf? u s = none) : without u s = u := by
  rw [without, openedFor_of_ne_null hu]
  cases u with
  | object d =>
    have h : Dict.get? s.text d = none := by cases s <;> exact h
    simp only [changeChild, Dict.erase_of_get?_none h]
  | array items =>
    cases s with
    | key k => rfl
    | index i =>
      have hi : ¬i < items.length := Nat.not_lt.2 (List.getElem?_eq_none_iff.1 h)
      simp only [changeChild, dif_neg hi]
  | _ => cases s <;> rfl

/-- Two changes that make the same of the child that is there make the same of its holder. -/
theorem changeChild_congr {change change' : Option Value → Written (Option Value)}
    (h : childOf? holder s = some w) (hc : (change (some w)).result = (change' (some w)).result) :
    (changeChild path above holder s change).result =
      (changeChild path' above' holder s change').result := by
  cases holder with
  | object d =>
    have h : Dict.get? s.text d = some w := by cases s <;> exact h
    simp only [changeChild, h, hc]
    cases (change' (some w)).result <;> rfl
  | array items =>
    cases s with
    | key k => cases h
    | index i =>
      obtain ⟨hi, rfl⟩ := List.getElem?_eq_some_iff.1 h
      simp only [changeChild, dif_pos hi, hc]
  | _ => cases s <;> cases h

/-- A removal of a child is a write of what it makes of the holder. -/
theorem setBelow_none {t : Segment} (h : valueAt? holder (t :: p) = some u) :
    (setBelow path none above holder (t :: (p ++ [s]))).result =
      (setBelow path' (some (without u s)) above' holder (t :: p)).result := by
  induction p generalizing holder above above' t with
  | nil =>
    rw [valueAt?_singleton] at h
    refine changeChild_congr h (congrArg some ?_)
    exact (changeChild_alike (fun c => .refl _) ..).result
  | cons t' p ih =>
    rw [valueAt?_cons, Option.bind_eq_some_iff] at h
    obtain ⟨w, hw, h⟩ := h
    refine changeChild_congr hw (congrArg some (ih ?_))
    rwa [Option.getD_some, valueAt?_openedFor]

theorem set_none_child (h : tree.get? p = some u) :
    (set tree (p ++ [s]) none).result = (set tree p (some (without u s))).result := by
  obtain ⟨v, rfl, hv⟩ := Option.bind_eq_some_iff.1 h
  cases p with
  | nil =>
    cases hv
    rw [List.nil_append, set_cons _ _ _ _ fun _ => rfl]
    exact congrArg some (changeChild_alike (fun c => .refl _) ..).result
  | cons t p =>
    have parent : (get? (some v) (t :: (p ++ [s])).dropLast).isSome := by
      rw [← List.cons_append, List.dropLast_concat, h]
      rfl
    rw [List.cons_append, set_cons _ _ _ _ fun _ => parent, set_cons_some]
    refine congrArg some (setBelow_none ?_)
    rwa [valueAt?_openedFor]

/-- The container that is made in a null place changes the tree. -/
theorem set_container_ne (h : tree.get? p = some .null) (s : Segment) :
    (set tree p (some (containerFor s))).result ≠ tree := by
  intro hsame
  have accepted : (set tree p (some (containerFor s))).refusal = none := by
    rw [set_refusal_eq tree p _ .null, set_get?_self h]
  have hread := get?_set_self accepted
  rw [hsame, h] at hread
  cases s <;> cases hread

/-- **What removing nothing does.** A removal at an undefined place leaves the tree as it is exactly
if the place above is not null. A null place above becomes an empty container for the step below it,
and nothing else is changed. -/
theorem removal_of_nothing {tree : Tree} {r : Route} (h : tree.get? r = none) :
    ((set tree r none).result = tree ↔ tree.get? r.dropLast ≠ some .null) ∧
    ∀ p s, r = p ++ [s] → tree.get? p = some .null →
      (set tree r none).result = (set tree p (some (containerFor s))).result := by
  rcases List.eq_nil_or_concat r with rfl | ⟨p, s, rfl⟩
  · rw [get?_root] at h
    subst h
    exact ⟨by simp, fun p s hr => absurd hr.symm (List.append_ne_nil_of_right_ne_nil p (by simp))⟩
  · rw [List.concat_eq_append] at h ⊢
    rw [List.dropLast_concat]
    have opened : tree.get? p = some .null →
        (set tree (p ++ [s]) none).result = (set tree p (some (containerFor s))).result := by
      intro hp
      rw [set_none_child hp, without_null]
    refine ⟨⟨fun hsame hp => ?_, fun hp => ?_⟩, fun p' s' hr hp => ?_⟩
    · rw [opened hp] at hsame
      exact set_container_ne hp s hsame
    · cases hu : tree.get? p with
      | none =>
        rw [set_of_no_parent (r := p ++ [s]) (by simp) (by rw [List.dropLast_concat, hu])]
      | some u =>
        have hnull : u ≠ .null := fun he => hp (he ▸ hu)
        rw [get?_append, hu, get?_singleton] at h
        rw [set_none_child hu, without_absent hnull h, set_get?_self hu]
    · obtain ⟨rfl, hs⟩ := List.append_inj' hr rfl
      cases hs
      exact opened hp

/-- Nothing is removed from the object at `a`, and an array is made where `b` was null. -/
theorem removal_of_nothing_twice : ∃ tree,
    tree = some (.object [("a", .object []), ("b", .null)]) ∧
    (set tree [.key "a", .key "x"] none).result = tree ∧
    (set tree [.key "b", .index 0] none).result = (set tree [.key "b"] (some (.array []))).result ∧
    (set tree [.key "b", .index 0] none).result ≠ tree := by
  obtain ⟨tree, htree⟩ : ∃ tree : Tree, tree = some (.object [("a", .object []), ("b", .null)]) :=
    ⟨_, rfl⟩
  have habsent : tree.get? [.key "a", .key "x"] = none := by
    rw [htree]
    rfl
  have hnone : tree.get? [.key "b", .index 0] = none := by
    rw [htree]
    rfl
  have hnull : tree.get? [.key "b"] = some .null := by
    rw [htree]
    rfl
  obtain ⟨iff, opened⟩ := removal_of_nothing hnone
  refine ⟨tree, htree, (removal_of_nothing habsent).1.2 ?_, opened [.key "b"] (.index 0) rfl hnull,
    fun hsame => iff.1 hsame hnull⟩
  rw [htree]
  exact fun he => (by cases he)

/-- **A removal can make a container.** Nothing is there but null. -/
theorem removal_makes_container :
    ¬∀ (tree : Tree) (r : Route), tree.get? r = none → (set tree r none).result = tree := by
  intro h
  have hsame := h (some .null) [.key "a"] rfl
  cases hsame

end Tree

end Conform

import Conform.Proofs.Apart

/-!
# Trees as lenses

A place of a tree can be read and written like a field of a record. What has been written is read
there, a second write forgets the first, and no other place is changed, but for the slots that an
array gains in front of the item that is written: those are null from then on. Objects keep the
order of their keys.
-/

namespace Conform

namespace Dict

variable {β : Type}

/-- Whether the keys of `d` that are still in `d'` stand there in the order they had. -/
def KeepsOrder (d d' : Dict β) : Prop := (d'.keys.filter (· ∈ d.keys)).Sublist d.keys

theorem KeepsOrder.refl (d : Dict β) : d.KeepsOrder d := List.filter_sublist

theorem keepsOrder_insert (k : String) (v : β) (d : Dict β) : d.KeepsOrder (d.insert k v) := by
  rw [KeepsOrder, keys_insert]
  split
  · exact List.filter_sublist
  · next hk =>
    rw [List.filter_append]
    simp [hk]

theorem keepsOrder_erase (k : String) (d : Dict β) : d.KeepsOrder (d.erase k) := by
  rw [KeepsOrder, keys_erase]
  exact List.filter_sublist.trans List.erase_sublist

end Dict

namespace Tree

variable {path above : Route} {holder : Value} {s t : Segment}
  {change change' : Option Value → Written (Option Value)}

/-- A holder that is written into is null only if it was. -/
theorem changeChild_ne_null (h : holder ≠ .null) :
    (changeChild path above holder s change).result ≠ .null := by
  cases holder with
  | null => exact absurd rfl h
  | object d =>
    simp only [changeChild]
    split <;> exact fun he => (by cases he)
  | array items =>
    cases s with
    | key k => exact fun he => (by cases he)
    | index i =>
      simp only [changeChild]
      split
      · exact fun he => (by cases he)
      · split
        · exact fun he => (by cases he)
        · split <;> exact fun he => (by cases he)
  | _ => cases s <;> exact h

theorem openedFor_ne_null (s : Segment) (v : Value) : openedFor s v ≠ .null := by
  cases v with
  | null => cases s <;> exact fun h => (by cases h)
  | _ => exact fun h => (by cases h)

theorem openedFor_of_ne_null {v : Value} (h : v ≠ .null) (s : Segment) : openedFor s v = v := by
  cases v with
  | null => exact absurd rfl h
  | _ => rfl

/-- A write below a container that is opened for it leaves a container. -/
theorem openedFor_setBelow (path above : Route) (value : Option Value) (v : Value) (s : Segment)
    (r : Route) :
    openedFor s (setBelow path value above (openedFor s v) (s :: r)).result =
      (setBelow path value above (openedFor s v) (s :: r)).result := by
  refine openedFor_of_ne_null ?_ s
  cases r <;> exact changeChild_ne_null (openedFor_ne_null s v)

/-- A change of a child after another one, which it makes nothing of, is as good as alone. -/
theorem changeChild_changeChild
    (h : ∀ c, ∃ v, (change c).result = some v ∧ change' (some v) = change' c)
    (isSome : ∀ c, (change' c).result.isSome) :
    changeChild path above (changeChild path above holder s change).result s change' =
      changeChild path above holder s change' := by
  cases holder with
  | object d =>
    obtain ⟨v, hv, hsame⟩ := h (Dict.get? s.text d)
    obtain ⟨w, hw⟩ := Option.isSome_iff_exists.1 (isSome (Dict.get? s.text d))
    simp only [changeChild, hv, Dict.get?_insert_self, hsame, hw, Dict.insert_insert]
  | array items =>
    cases s with
    | key k => rfl
    | index i =>
      by_cases hi : i < items.length
      · obtain ⟨v, hv, hsame⟩ := h (some items[i])
        simp only [changeChild, dif_pos hi, hv, Option.getD_some, List.length_set,
          List.getElem_set_self, hsame, List.set_set]
      · obtain ⟨v, hv, hsame⟩ := h (some .null)
        obtain ⟨w, hw⟩ := Option.isSome_iff_exists.1 (isSome (some .null))
        by_cases hpad : i + 1 - items.length ≤ paddingLimit
        · have hlen := length_padding (Nat.le_of_not_lt hi)
          obtain ⟨hlt, hitem⟩ :=
            List.getElem?_eq_some_iff.1 (getElem?_padded (Nat.le_of_not_lt hi) v)
          have hset : (items ++ List.replicate (i - items.length) Value.null ++ [v]).set i w =
              items ++ List.replicate (i - items.length) Value.null ++ [w] := by
            rw [List.set_append_right _ _ (Nat.le_of_eq hlen), hlen, Nat.sub_self,
              List.set_cons_zero]
          simp only [changeChild, dif_neg hi, hv, if_pos hpad, dif_pos hlt, hitem, hsame, hw,
            Option.getD_some, hset]
        · simp only [changeChild, dif_neg hi, hv, if_neg hpad]
  | _ => cases s <;> rfl

theorem setBelow_setBelow (v w : Value) (r : Route) :
    setBelow path (some w) above (setBelow path (some v) above holder r).result r =
      setBelow path (some w) above holder r := by
  induction r generalizing above holder with
  | nil => rfl
  | cons s r ih =>
    cases r with
    | nil => exact changeChild_changeChild (fun c => ⟨v, rfl, rfl⟩) fun c => rfl
    | cons t r =>
      refine changeChild_changeChild (fun c => ⟨_, rfl, ?_⟩) fun c => rfl
      simp only [Option.getD_some, openedFor_setBelow, ih]

theorem set_cons_some (tree : Tree) (s : Segment) (r : Route) (v : Value) :
    set tree (s :: r) (some v) =
      ⟨some (setBelow (s :: r) (some v) [] (openedFor s (tree.getD .null)) (s :: r)).result,
        (setBelow (s :: r) (some v) [] (openedFor s (tree.getD .null)) (s :: r)).refusal⟩ :=
  set_cons tree s r (some v) fun h => nomatch h

/-- **A second write forgets the first.** It leaves what it leaves alone, the order of keys
included, and is refused alike. -/
theorem set_set (tree : Tree) (r : Route) (v w : Value) :
    set (set tree r (some v)).result r (some w) = set tree r (some w) := by
  cases r with
  | nil => rfl
  | cons s r =>
    rw [set_cons_some tree, set_cons_some tree, set_cons_some]
    simp only [Option.getD_some, openedFor_setBelow, setBelow_setBelow]

theorem changeChild_keepsOrder {d : Dict Value} : ∃ d',
    (changeChild path above (.object d) s change).result = .object d' ∧ d.KeepsOrder d' := by
  simp only [changeChild]
  split
  · exact ⟨_, rfl, Dict.keepsOrder_insert ..⟩
  · exact ⟨_, rfl, Dict.keepsOrder_erase ..⟩

theorem ne_null_of_object {v : Value} {q : Route} {d : Dict Value}
    (h : valueAt? v q = some (.object d)) : v ≠ .null := by
  rintro rfl
  cases q with
  | nil => cases h
  | cons t q =>
    rw [valueAt?_null] at h
    cases h

theorem setBelow_keepsOrder {r q : Route} {value : Option Value} {d : Dict Value}
    (h : ¬ r.map Segment.text <+: q.map Segment.text) (hq : valueAt? holder q = some (.object d)) :
    ∃ d', valueAt? (setBelow path value above holder r).result q = some (.object d') ∧
      d.KeepsOrder d' := by
  induction r generalizing q holder above with
  | nil => exact absurd List.nil_prefix h
  | cons s r ih =>
    cases q with
    | nil =>
      cases hq
      have hstep : ∃ d', (setBelow path value above (.object d) (s :: r)).result = .object d' ∧
          d.KeepsOrder d' := by
        cases r <;> exact changeChild_keepsOrder
      obtain ⟨d', hd', horder⟩ := hstep
      exact ⟨d', congrArg some hd', horder⟩
    | cons t q =>
      by_cases hst : s.text = t.text
      · rw [List.map_cons, List.map_cons, hst, List.prefix_cons_inj] at h
        cases r with
        | nil => exact absurd List.nil_prefix h
        | cons s' r =>
          rw [valueAt?_cons, Option.bind_eq_some_iff] at hq
          obtain ⟨u, hu, hq⟩ := hq
          have hopened : openedFor s' u = u := openedFor_of_ne_null (ne_null_of_object hq) s'
          rcases childOf?_setBelow_same hst with hsame | hchild
          · exact ⟨d, by rw [valueAt?_cons, hsame, hu]; exact hq, .refl d⟩
          · rw [hu, Option.getD_some, hopened] at hchild
            rw [valueAt?_cons, hchild]
            exact ih h hq
      · have hapart : Route.Apart (s :: r) (t :: q) := .inl hst
        rcases valueAt?_setBelow_beside hapart with hsame | gains
        · exact ⟨d, hsame.trans hq, .refl d⟩
        · cases gains.undefined.symm.trans hq

/-- **Objects keep the order of their keys,** wherever the place is that is written, unless it is
the object itself or what holds it. -/
theorem set_keepsOrder {tree : Tree} {r q : Route} {d : Dict Value}
    (h : ¬ r.map Segment.text <+: q.map Segment.text) (hq : tree.get? q = some (.object d))
    (value : Option Value) : ∃ d', (set tree r value).result.get? q = some (.object d') ∧
      d.KeepsOrder d' := by
  obtain ⟨v, rfl, hv⟩ := Option.bind_eq_some_iff.1 hq
  cases r with
  | nil => exact absurd List.nil_prefix h
  | cons s r =>
    rw [set]
    split
    · exact ⟨d, hq, .refl d⟩
    · rw [Option.getD_some, openedFor_of_ne_null (ne_null_of_object hv)]
      exact setBelow_keepsOrder h hv

/-- **Trees are lenses.** A value that has been written is read at its place; a second write there
leaves what it leaves by itself, the order of keys included; and a write or a removal at one place
leaves every other as it was, unless one of them holds the other by the texts of their steps:
nothing but the slots that an array gains turns from undefined to null. All objects that do not lie
at or below the place keep the order of the keys that remain. -/
theorem set_lawful (tree : Tree) (r q : Route) :
    (∀ v, (set tree r (some v)).refusal = none → (set tree r (some v)).result.get? r = some v) ∧
    (∀ v w, set (set tree r (some v)).result r (some w) = set tree r (some w)) ∧
    ∀ value,
      (¬ r.map Segment.text <+: q.map Segment.text →
        ¬ q.map Segment.text <+: r.map Segment.text →
        (set tree r value).result.get? q = tree.get? q ∨
          Gains tree (set tree r value).result r q) ∧
      (¬ r.map Segment.text <+: q.map Segment.text →
        ∀ d, tree.get? q = some (.object d) →
          ∃ d', (set tree r value).result.get? q = some (.object d') ∧ Dict.KeepsOrder d d') := by
  refine ⟨fun v => get?_set_self, fun v w => set_set tree r v w, fun value => ⟨fun hr hq => ?_,
    fun hr d hd => set_keepsOrder hr hd value⟩⟩
  refine get?_set_beside (Classical.byContradiction fun hapart => ?_) value
  rcases Route.prefix_of_not_apart hapart with h | h
  · exact hr h
  · exact hq h

/-- The array `a` has one item and is written at its index 3: it gains the slots 1 and 2, and the
object around it keeps its keys in order. -/
theorem set_lawful_padded : ∃ (d d' : Dict Value), d = [("b", .int 1), ("a", .array [.bool true])] ∧
    set (some (.object d)) [.key "a", .index 3] (some (.string "x")) = ⟨some (.object d'), none⟩ ∧
    get? (some (.object d')) [.key "a", .index 3] = some (.string "x") ∧
    Gains (some (.object d)) (some (.object d')) [.key "a", .index 3] [.key "a", .index 2] ∧
    d.KeepsOrder d' := by
  obtain ⟨d, hd⟩ : ∃ d : Dict Value, d = [("b", .int 1), ("a", .array [.bool true])] := ⟨_, rfl⟩
  obtain ⟨d', hset⟩ : ∃ d', set (some (.object d)) [.key "a", .index 3] (some (.string "x")) =
      ⟨some (.object d'), none⟩ := by
    rw [hd]
    exact ⟨_, rfl⟩
  obtain ⟨read, -, others⟩ := set_lawful (some (.object d)) [.key "a", .index 3]
    [.key "a", .index 2]
  obtain ⟨-, -, around⟩ := set_lawful (some (.object d)) [.key "a", .index 3] []
  have hread := read (.string "x") (by rw [hset])
  have hslot := (others (some (.string "x"))).1 (by decide +kernel) (by decide +kernel)
  obtain ⟨e, he, horder⟩ := (around (some (.string "x"))).2 (by decide) d rfl
  rw [hset] at hread hslot he
  cases he
  refine ⟨d, d', hd, hset, hread, hslot.resolve_left fun hsame => ?_, horder⟩
  subst hd
  cases hset
  cases hsame

end Tree

end Conform

import Conform.Proofs.Below
import Conform.Proofs.Paths

/-!
# Places that lie apart

Two places lie apart if neither holds the other: their routes part at some step, and the steps at
which they part have different texts. A step is compared by its text, since in an object an index
and the key of the same digits are one field. What is written at one place leaves every value at a
place apart from it as it is, whether the write is refused or not.
-/

namespace Conform

namespace Segment

theorem eq_of_text_index {i j : Nat} (h : (index i).text = (index j).text) : i = j := by
  have hdigits : Nat.toDigits 10 i = Nat.toDigits 10 j := by
    rwa [text, text, Nat.toString_eq_ofList_toDigits, Nat.toString_eq_ofList_toDigits,
      String.ofList_inj] at h
  calc
    i = Nat.ofDigitChars 10 (Nat.toDigits 10 i) 0 := Nat.ofDigitChars_ten_toDigits.symm
    _ = Nat.ofDigitChars 10 (Nat.toDigits 10 j) 0 := by rw [hdigits]
    _ = j := Nat.ofDigitChars_ten_toDigits

end Segment

namespace Route

/-- Whether neither of two routes leads through the place of the other. -/
def Apart : Route → Route → Prop
  | s :: r, t :: q => s.text ≠ t.text ∨ Apart r q
  | _, _ => False

theorem text_congr {r q : Route} (h : r.map Segment.text = q.map Segment.text) :
    r.text = q.text := by
  have hsteps : ∀ r : Route,
      (r.map fun s => "/" ++ s.text) = (r.map Segment.text).map ("/" ++ ·) := by
    intro r
    rw [List.map_map]
    rfl
  cases r with
  | nil =>
    cases q with
    | nil => rfl
    | cons t q => cases h
  | cons s r =>
    cases q with
    | nil => cases h
    | cons t q =>
      rw [text, text, hsteps, hsteps, h]
      · exact List.cons_ne_nil t q
      · exact List.cons_ne_nil s r

/-- Routes that are not apart lead one through the place of the other. -/
theorem prefix_of_not_apart {r q : Route} (h : ¬ r.Apart q) :
    r.map Segment.text <+: q.map Segment.text ∨ q.map Segment.text <+: r.map Segment.text := by
  induction r generalizing q with
  | nil => exact .inl List.nil_prefix
  | cons s r ih =>
    cases q with
    | nil => exact .inr List.nil_prefix
    | cons t q =>
      rw [Apart, not_or, ne_eq, Classical.not_not] at h
      rw [List.map_cons, List.map_cons, h.1, List.prefix_cons_inj, List.prefix_cons_inj]
      exact ih h.2

/-- What a place is apart from, all places below that are apart from. -/
theorem Apart.append {r q : Route} (h : r.Apart q) (r' : Route) : (r ++ r').Apart q := by
  induction r generalizing q with
  | nil => exact absurd h id
  | cons s r ih =>
    cases q with
    | nil => exact absurd h id
    | cons t q => exact h.imp_right ih

@[simp] theorem apart_append_left (a r q : Route) : Apart (a ++ r) (a ++ q) ↔ r.Apart q := by
  induction a with
  | nil => rfl
  | cons s a ih => simp [Apart, ih]

/-- Whether `q` leads to a slot in front of an index on the way of `r`. -/
def Fronts (r q : Route) : Prop :=
  ∃ p p' i j rest, r = p ++ .index i :: rest ∧ q = p' ++ [.index j] ∧
    p'.map Segment.text = p.map Segment.text ∧ j < i

theorem Fronts.cons {r q : Route} (h : r.Fronts q) {s t : Segment} (hst : s.text = t.text) :
    Fronts (s :: r) (t :: q) := by
  obtain ⟨p, p', i, j, rest, rfl, rfl, hp, hj⟩ := h
  exact ⟨s :: p, t :: p', i, j, rest, rfl, rfl, by rw [List.map_cons, List.map_cons, hst, hp], hj⟩

end Route

namespace Path

theorem isAtOrUnder_of_map {a r : Route}
    (h : a.map Segment.text <+: r.map Segment.text) : isAtOrUnder r.text a.text = true := by
  obtain ⟨ts, hts⟩ := h
  have hq : r.map Segment.text = (a ++ r.drop a.length).map Segment.text := by
    have hlength : (a.map Segment.text).length = a.length := List.length_map ..
    rw [List.map_append, List.map_drop, ← hts, ← hlength, List.drop_left]
  rw [Route.text_congr hq]
  exact isAtOrUnder_of_prefix ⟨_, rfl⟩

/-- Places none of whose paths lies at or under the other's lie apart. -/
theorem apart_of_paths {a r : Route} (under : isAtOrUnder r.text a.text = false)
    (above : isAtOrUnder a.text r.text = false) : a.Apart r := by
  refine Classical.byContradiction fun h => ?_
  rcases Route.prefix_of_not_apart h with h | h
  · rw [isAtOrUnder_of_map h] at under
    cases under
  · rw [isAtOrUnder_of_map h] at above
    cases above

end Path

namespace Tree

variable {path above : Route} {holder : Value} {s t : Segment}
  {change : Option Value → Written (Option Value)}

/-- Whether `q` is a slot that an array has gained by a write at `r`: where nothing was, in front of
the item that the write leads to or through, null has been put. -/
structure Gains (before after : Tree) (r q : Route) : Prop where
  undefined : before.get? q = none
  null : after.get? q = some .null
  fronts : r.Fronts q
  array : ∃ items, after.get? q.dropLast = some (.array items)

theorem childOf?_openedFor (s t : Segment) (v : Value) :
    childOf? (openedFor s v) t = childOf? v t := by
  cases v with
  | null => cases s <;> cases t <;> rfl
  | _ => rfl

theorem valueAt?_null (s : Segment) (r : Route) : valueAt? .null (s :: r) = none := by
  cases s <;> rfl

/-- The slots between the items of an array and the one that is written are null. -/
theorem getElem?_slot {items : List Value} {i j : Nat} {v : Value} (hj : items.length ≤ j)
    (hji : j < i) :
    (items ++ List.replicate (i - items.length) Value.null ++ [v])[j]? = some .null := by
  rw [List.append_assoc, List.getElem?_append_right hj, List.getElem?_append_left,
    List.getElem?_replicate, if_pos]
  · omega
  · rw [List.length_replicate]
    omega

/-- No key reads anything from an array, whatever is written into it. -/
theorem childOf?_changeChild_key {items : List Value} {k : String} :
    childOf? (changeChild path above (.array items) s change).result (.key k) = none := by
  cases s with
  | key l => rfl
  | index i =>
    simp only [changeChild]
    split
    · rfl
    · split
      · rfl
      · split <;> rfl

/-- A child beside the one that is written is what it was, or it is a slot that the array gains. -/
theorem childOf?_changeChild_beside (h : s.text ≠ t.text) :
    childOf? (changeChild path above holder s change).result t = childOf? holder t ∨
      childOf? holder t = none ∧
        childOf? (changeChild path above holder s change).result t = some .null ∧
        (∃ items, (changeChild path above holder s change).result = .array items) ∧
        ∃ i j, s = .index i ∧ t = .index j ∧ j < i := by
  cases holder with
  | object d =>
    have hget : ∀ d' : Dict Value, childOf? (.object d') t = Dict.get? t.text d' := by
      intro d'
      cases t <;> rfl
    left
    simp only [changeChild]
    split
    · rw [hget, hget, Dict.get?_insert_ne h]
    · rw [hget, hget, Dict.get?_erase_ne h]
  | array items =>
    cases s with
    | key k => exact .inl rfl
    | index i =>
      cases t with
      | key l => exact .inl childOf?_changeChild_key
      | index j =>
        have hij : i ≠ j := fun he => h (by rw [he])
        simp only [changeChild]
        split
        · exact .inl (List.getElem?_set_ne hij)
        · next hi =>
          split
          · exact .inl rfl
          · split
            · by_cases hj : j < items.length
              · left
                show (items ++ _ ++ [_])[j]? = items[j]?
                rw [List.append_assoc, List.getElem?_append_left hj]
              · by_cases hji : j < i
                · refine .inr ⟨List.getElem?_eq_none (Nat.le_of_not_lt hj), ?_, ⟨_, rfl⟩,
                    i, j, rfl, rfl, hji⟩
                  exact getElem?_slot (Nat.le_of_not_lt hj) hji
                · left
                  show (items ++ List.replicate (i - items.length) .null ++ [_])[j]? = items[j]?
                  rw [List.getElem?_eq_none (Nat.le_of_not_lt hj), List.getElem?_eq_none]
                  simp only [List.length_append, List.length_replicate, List.length_singleton]
                  omega
            · exact .inl rfl
  | _ => exact .inl (by cases s <;> rfl)

/-- The child that is written becomes what the change makes of it, or nothing is changed. -/
theorem childOf?_changeChild_same (h : s.text = t.text) (isSome : ∀ c, (change c).result.isSome) :
    childOf? (changeChild path above holder s change).result t = childOf? holder t ∨
      ∃ c : Option Value, c.getD .null = (childOf? holder t).getD .null ∧
        childOf? (changeChild path above holder s change).result t = (change c).result := by
  cases holder with
  | object d =>
    have hget : ∀ d' : Dict Value, childOf? (.object d') t = Dict.get? t.text d' := by
      intro d'
      cases t <;> rfl
    obtain ⟨v, hv⟩ := Option.isSome_iff_exists.1 (isSome (Dict.get? s.text d))
    refine .inr ⟨Dict.get? s.text d, by rw [hget, h], ?_⟩
    simp only [changeChild, hv, hget, ← h, Dict.get?_insert_self]
  | array items =>
    cases s with
    | key k => exact .inl rfl
    | index i =>
      cases t with
      | key l => exact .inl childOf?_changeChild_key
      | index j =>
        obtain rfl := Segment.eq_of_text_index h
        by_cases hi : i < items.length
        · obtain ⟨v, hv⟩ := Option.isSome_iff_exists.1 (isSome (some items[i]))
          refine .inr ⟨some items[i], by simp [childOf?, hi], ?_⟩
          simp only [changeChild, dif_pos hi, hv, Option.getD_some]
          exact List.getElem?_set_self hi
        · obtain ⟨v, hv⟩ := Option.isSome_iff_exists.1 (isSome (some .null))
          by_cases hpad : i + 1 - items.length ≤ paddingLimit
          · refine .inr ⟨some .null, ?_, ?_⟩
            · simp [childOf?, List.getElem?_eq_none (Nat.le_of_not_lt hi)]
            · simp only [changeChild, dif_neg hi, hv, if_pos hpad]
              exact getElem?_padded (Nat.le_of_not_lt hi) v
          · left
            simp only [changeChild, dif_neg hi, hv, if_neg hpad]
  | _ => exact .inl (by cases s <;> rfl)

theorem childOf?_setBelow_same {s' : Segment} {r : Route} {value : Option Value}
    (h : s.text = t.text) :
    childOf? (setBelow path value above holder (s :: s' :: r)).result t = childOf? holder t ∨
      childOf? (setBelow path value above holder (s :: s' :: r)).result t =
        some (setBelow path value (above ++ [s]) (openedFor s' ((childOf? holder t).getD .null))
          (s' :: r)).result := by
  rw [setBelow]
  refine (childOf?_changeChild_same h fun c => rfl).imp_right ?_
  rintro ⟨c, hc, hchild⟩
  rw [hchild, hc]

/-- What a child holds, and what is held by the container that is opened in its place. -/
theorem valueAt?_openedFor_getD (s : Segment) (child : Option Value) {q : Route} (hq : q ≠ []) :
    valueAt? (openedFor s (child.getD .null)) q = child.bind (valueAt? · q) := by
  cases q with
  | nil => exact absurd rfl hq
  | cons t q =>
    rw [valueAt?_cons, childOf?_openedFor, ← valueAt?_cons]
    cases child with
    | none => exact valueAt?_null t q
    | some v => rfl

theorem valueAt?_setBelow_beside {r q : Route} {value : Option Value} (h : r.Apart q) :
    valueAt? (setBelow path value above holder r).result q = valueAt? holder q ∨
      Gains (some holder) (some (setBelow path value above holder r).result) r q := by
  induction r generalizing q holder above with
  | nil => exact absurd h id
  | cons s r ih =>
    cases q with
    | nil => exact absurd h id
    | cons t q =>
      by_cases hst : s.text = t.text
      · have hapart := h.resolve_left fun hne => hne hst
        cases r with
        | nil => exact absurd hapart id
        | cons s' r =>
          have hq : q ≠ [] := by
            rintro rfl
            exact hapart
          have hbefore := valueAt?_openedFor_getD s' (childOf? holder t) hq
          rw [← valueAt?_cons] at hbefore
          rcases childOf?_setBelow_same hst with hsame | hchild
          · left
            rw [valueAt?_cons, valueAt?_cons, hsame]
          · have hafter : ∀ q', valueAt? (setBelow path value above holder (s :: s' :: r)).result
                (t :: q') = valueAt? (setBelow path value (above ++ [s])
                  (openedFor s' ((childOf? holder t).getD .null)) (s' :: r)).result q' := by
              intro q'
              rw [valueAt?_cons, hchild]
              rfl
            rw [hafter, ← hbefore]
            refine (ih hapart).imp_right fun gains => ?_
            obtain ⟨items, hitems⟩ := gains.array
            exact
              { undefined := hbefore.symm.trans gains.undefined
                null := (hafter q).trans gains.null
                fronts := gains.fronts.cons hst
                array := ⟨items, by
                  rw [List.dropLast_cons_of_ne_nil hq]
                  exact (hafter q.dropLast).trans hitems⟩ }
      · have hstep : ∃ change, setBelow path value above holder (s :: r) =
            changeChild path above holder s change := by
          cases r <;> exact ⟨_, rfl⟩
        obtain ⟨change, hchange⟩ := hstep
        rw [hchange, valueAt?_cons, valueAt?_cons]
        rcases childOf?_changeChild_beside hst with hsame | ⟨hnone, hnull, ⟨items, hitems⟩, hfronts⟩
        · left
          rw [hsame]
        · rw [hnone, hnull]
          cases q with
          | cons t' q => exact .inl (valueAt?_null t' q)
          | nil =>
            obtain ⟨i, j, rfl, rfl, hj⟩ := hfronts
            exact .inr
              { undefined := (valueAt?_singleton holder _).trans hnone
                null := (valueAt?_singleton _ _).trans hnull
                fronts := ⟨[], [], i, j, r, rfl, rfl, rfl, hj⟩
                array := ⟨items, congrArg some hitems⟩ }

/-- **Other places stay.** What is written or removed leaves every place beside it as it was, but
for the slots that an array gains. -/
theorem get?_set_beside {tree : Tree} {r q : Route} (h : r.Apart q) (value : Option Value) :
    (set tree r value).result.get? q = tree.get? q ∨ Gains tree (set tree r value).result r q := by
  cases r with
  | nil => exact absurd h id
  | cons s r =>
    rw [set]
    split
    · exact .inl rfl
    · have hq : q ≠ [] := by
        rintro rfl
        exact h
      have hbefore : get? (some (openedFor s (tree.getD .null))) q = tree.get? q :=
        valueAt?_openedFor_getD s tree hq
      rw [← hbefore]
      refine (valueAt?_setBelow_beside h).imp_right fun gains => ?_
      exact { gains with undefined := hbefore.symm.trans gains.undefined }

/-- **Writes leave alone what lies apart.** -/
theorem get?_set_apart {tree : Tree} {r q : Route} (h : r.Apart q) {value : Option Value}
    {w : Value} (hq : tree.get? q = some w) : (tree.set r value).result.get? q = some w := by
  rcases get?_set_beside h value with hsame | gains
  · exact hsame.trans hq
  · rw [gains.undefined] at hq
    cases hq

end Tree

end Conform

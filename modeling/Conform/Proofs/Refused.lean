import Conform.Proofs.Admits
import Conform.Proofs.Lens
import Mathlib.Data.Nat.Find

/-!
# Refused writes

A write walks along its route through the containers that are there. Where the place is undefined or
null it makes one, an array before an index and an object before a key. It is refused at the first
step that its holder does not take: a step into a text, a number or a boolean, a key into an array,
an index too far behind the end of an array. Containers that have been made on the way stay, but
nothing else is changed, and none of the containers that were there loses anything.
-/

namespace Conform

namespace Tree

variable {path above r q : Route} {holder : Value} {s t : Segment} {e : PathError}

/-- A refusal comes from below, where the change was refused, or it leaves the child alone. -/
theorem childOf?_changeChild_refused {change : Option Value → Written (Option Value)}
    (hst : s.text = t.text) (h : (changeChild path above holder s change).refusal = some e) :
    childOf? (changeChild path above holder s change).result t = childOf? holder t ∨
      ∃ c : Option Value, c.getD .null = (childOf? holder t).getD .null ∧
        (change c).refusal = some e ∧ ∀ w, (change c).result = some w →
          childOf? (changeChild path above holder s change).result t = some w := by
  cases holder with
  | object d =>
    have hget : ∀ d' : Dict Value, childOf? (.object d') t = Dict.get? s.text d' := by
      intro d'
      cases t <;> exact hst ▸ rfl
    refine .inr ⟨Dict.get? s.text d, by rw [hget], ?_, fun w hw => ?_⟩
    · simp only [changeChild] at h
      split at h <;> exact h
    · simp only [changeChild, hw, hget, Dict.get?_insert_self]
  | array items =>
    cases s with
    | key k => exact .inl rfl
    | index i =>
      cases t with
      | key l => exact .inl childOf?_changeChild_key
      | index j =>
        obtain rfl := Segment.eq_of_text_index hst
        by_cases hi : i < items.length
        · simp only [changeChild, dif_pos hi] at h ⊢
          refine .inr ⟨some items[i], by simp [childOf?, hi], h, fun w hw => ?_⟩
          simp [childOf?, hi, hw]
        · simp only [changeChild, dif_neg hi] at h ⊢
          cases hc : (change (some .null)).result with
          | none => exact .inl rfl
          | some v =>
            simp only [hc] at h ⊢
            split at h
            · next hpad =>
              refine .inr ⟨some .null, ?_, h, fun w hw => ?_⟩
              · simp [childOf?, List.getElem?_eq_none (Nat.le_of_not_lt hi)]
              · rw [if_pos hpad, ← hw, hc]
                exact getElem?_padded (Nat.le_of_not_lt hi) v
            · next hpad =>
              rw [if_neg hpad]
              exact .inl rfl
  | _ => exact .inl (by cases s <;> rfl)

theorem valueAt?_setBelow_refused {value : Option Value} {v : Value}
    (h : (setBelow path value above v r).refusal = some e)
    (hq : r.map Segment.text <+: q.map Segment.text) :
    valueAt? (setBelow path value above v r).result q = valueAt? v q := by
  induction r generalizing above v q with
  | nil => cases h
  | cons s r ih =>
    cases q with
    | nil => exact absurd (List.prefix_nil.1 hq) (List.cons_ne_nil _ _)
    | cons t q =>
      rw [List.map_cons, List.map_cons, List.cons_prefix_cons] at hq
      obtain ⟨hst, hq⟩ := hq
      cases r with
      | nil =>
        rcases childOf?_changeChild_refused hst h with hsame | ⟨c, -, hc, -⟩
        · rw [valueAt?_cons, valueAt?_cons v, setBelow, hsame]
        · cases hc
      | cons s' r =>
        have hne : q ≠ [] := by
          rintro rfl
          exact absurd (List.prefix_nil.1 hq) (List.cons_ne_nil _ _)
        rcases childOf?_changeChild_refused hst h with hsame | ⟨c, hc, hrefused, hchild⟩
        · rw [valueAt?_cons, valueAt?_cons v, setBelow, hsame]
        · rw [valueAt?_cons, setBelow, hchild _ rfl, Option.bind_some, ih hrefused hq, hc,
            valueAt?_openedFor_getD s' _ hne, ← valueAt?_cons]

/-- A write that is refused may leave containers on the way, but nothing at its place or below. -/
theorem get?_set_refused_below {tree : Tree} {value : Option Value}
    (h : (set tree r value).refusal = some e) (hq : r.map Segment.text <+: q.map Segment.text) :
    get? (set tree r value).result q = get? tree q := by
  cases r with
  | nil => cases h
  | cons s r =>
    have hne : q ≠ [] := by
      rintro rfl
      exact absurd (List.prefix_nil.1 hq) (List.cons_ne_nil _ _)
    simp only [set] at h ⊢
    split at h
    · cases h
    · next hparent =>
      rw [if_neg hparent]
      exact (valueAt?_setBelow_refused h hq).trans (valueAt?_openedFor_getD s tree hne)

theorem get?_set_refused {tree : Tree} {value : Option Value}
    (h : (set tree r value).refusal = some e) : get? (set tree r value).result r = get? tree r :=
  get?_set_refused_below h List.prefix_rfl

/-- A write that is refused leaves every place that is there and does not lie above its own. -/
theorem get?_set_refused_of_not_above {tree : Tree} {value : Option Value} {w : Value}
    (h : (set tree r value).refusal = some e)
    (hq : ¬(q.map Segment.text <+: r.map Segment.text ∧ q.length < r.length))
    (hw : tree.get? q = some w) : (set tree r value).result.get? q = some w := by
  by_cases hapart : r.Apart q
  · exact get?_set_apart hapart hw
  · have below : r.map Segment.text <+: q.map Segment.text := by
      rcases Route.prefix_of_not_apart hapart with hle | hge
      · exact hle
      · have hlength : (r.map Segment.text).length ≤ (q.map Segment.text).length := by
          rw [List.length_map, List.length_map]
          exact Nat.le_of_not_lt fun hlt => hq ⟨hge, hlt⟩
        exact ⟨[], by rw [List.append_nil, hge.eq_of_length_le hlength]⟩
    rw [get?_set_refused_below h below, hw]

/-- Whether a value has all keys or items of another one, be they changed; a value that is no
container can become nothing else, unless it is null. -/
inductive Retains : Value → Value → Prop where
  | same (v : Value) : Retains v v
  | null (v : Value) : Retains .null v
  | object {d d' : Dict Value} (keys : ∀ k ∈ d.keys, k ∈ d'.keys) :
    Retains (.object d) (.object d')
  | array {items items' : List Value} (length : items.length ≤ items'.length) :
    Retains (.array items) (.array items')

theorem retains_changeChild {change : Option Value → Written (Option Value)}
    (isSome : ∀ c, (change c).result.isSome) :
    Retains holder (changeChild path above holder s change).result := by
  cases holder with
  | object d =>
    obtain ⟨w, hw⟩ := Option.isSome_iff_exists.1 (isSome (Dict.get? s.text d))
    simp only [changeChild, hw]
    refine .object fun k hk => ?_
    rw [Dict.keys_insert]
    split
    · exact hk
    · exact List.mem_append_left _ hk
  | array items =>
    cases s with
    | key k => exact .same _
    | index i =>
      simp only [changeChild]
      split
      · exact .array (Nat.le_of_eq (List.length_set ..).symm)
      · split
        · exact .same _
        · split
          · refine .array ?_
            rw [List.append_assoc, List.length_append]
            exact Nat.le_add_right ..
          · exact .same _
  | _ => cases s <;> exact .same _

theorem retains_openedFor {v w : Value} (h : Retains (openedFor s v) w) : Retains v w := by
  cases v with
  | null => exact .null w
  | _ => exact h

/-- A place that a write leads through keeps what it holds. -/
theorem retains_setBelow {v w : Value} (hq : q.map Segment.text <+: r.map Segment.text)
    (proper : q.length < r.length) (hw : valueAt? holder q = some w) :
    ∃ w', valueAt? (setBelow path (some v) above holder r).result q = some w' ∧ Retains w w' := by
  induction q generalizing above holder r with
  | nil =>
    cases hw
    cases r with
    | nil => cases proper
    | cons s r => cases r <;> exact ⟨_, rfl, retains_changeChild fun _ => rfl⟩
  | cons t q ih =>
    obtain ⟨s, s', r, rfl⟩ : ∃ s s' r', r = s :: s' :: r' := by
      match r, proper with
      | s :: s' :: r, _ => exact ⟨s, s', r, rfl⟩
    rw [List.map_cons, List.map_cons, List.cons_prefix_cons] at hq
    rcases childOf?_setBelow_same hq.1.symm with hsame | hchild
    · exact ⟨w, by rw [valueAt?_cons, hsame, ← valueAt?_cons, hw], .same w⟩
    · have proper : q.length < (s' :: r).length := Nat.lt_of_succ_lt_succ proper
      rw [valueAt?_cons, Option.bind_eq_some_iff] at hw
      obtain ⟨u, hu, hw⟩ := hw
      simp only [valueAt?_cons, hchild, Option.bind_some, hu, Option.getD_some]
      by_cases hnull : u = .null
      · subst hnull
        cases q with
        | nil =>
          cases hw
          exact ⟨_, rfl, .null _⟩
        | cons t' q =>
          rw [valueAt?_null] at hw
          cases hw
      · rw [openedFor_of_ne_null hnull]
        exact ih hq.2 proper hw

theorem get?_set_retains {tree : Tree} {v w : Value}
    (hq : q.map Segment.text <+: r.map Segment.text) (proper : q.length < r.length)
    (hw : tree.get? q = some w) :
    ∃ w', (set tree r (some v)).result.get? q = some w' ∧ Retains w w' := by
  cases r with
  | nil => cases proper
  | cons s r =>
    rw [set_cons_some]
    cases q with
    | nil =>
      rw [get?_root] at hw
      subst hw
      have hopened : valueAt? (openedFor s w) [] = some (openedFor s w) := rfl
      obtain ⟨w', hw', retains⟩ := retains_setBelow hq proper hopened
      exact ⟨w', hw', retains_openedFor retains⟩
    | cons t q =>
      refine retains_setBelow hq proper ?_
      rw [← hw]
      exact valueAt?_openedFor_getD s tree (List.cons_ne_nil t q)

/-- The holder that a walk finds at a place before the step that leads on from there: the value of
the place, or the empty container that is made for the step. What has been made on the way is empty,
so the place of a holder that has just been made is undefined in the tree before the write. -/
def holderAt (t : Tree) (place : Route) (s : Segment) : Value :=
  match t.get? place, s with
  | none, .index _ => .array []
  | none, .key _ => .object []
  | some .null, .index _ => .array []
  | some .null, .key _ => .object []
  | some v, _ => v

/-- Why a holder that lies at `place` does not take a step of the route `path`, if it does not. Null
is made a container first. -/
def obstacle? (path place : Route) : Value → Segment → Option PathError
  | .null, _ => none
  | .object _, _ => none
  | .array items, .index i =>
    if items.length + 65536 ≤ i then some (.indexOutOfRange path i items.length) else none
  | .array _, .key k => some (.keyIntoArray path k)
  | v, _ => some (.notAContainer path place v.kind)

/-- Whether the walk along `r`, the end of the route `path` that leads on from `above`, comes to an
obstacle at its `n`th step. -/
def MeetsFrom (path above : Route) (t : Tree) (r : Route) (n : Nat) (e : PathError) : Prop :=
  ∃ s, r[n]? = some s ∧
    obstacle? path (above ++ List.take n r) (t.holderAt (List.take n r) s) s = some e

/-- Whether the walk along a route comes to an obstacle at its `n`th step. -/
def Meets (t : Tree) (r : Route) (n : Nat) (e : PathError) : Prop :=
  ∃ s, r[n]? = some s ∧ obstacle? r (List.take n r) (t.holderAt (List.take n r) s) s = some e

/-- The refusal by the first obstacle on the walk. -/
def FirstFrom (path above : Route) (t : Tree) (r : Route) (e : PathError) : Prop :=
  ∃ n, MeetsFrom path above t r n e ∧ ∀ m < n, ∀ e', ¬MeetsFrom path above t r m e'

theorem holderAt_root (t : Tree) (s : Segment) :
    t.holderAt [] s = openedFor s (t.getD .null) := by
  cases t with
  | none => cases s <;> rfl
  | some v => cases v <;> cases s <;> rfl

theorem holderAt_cons (t : Tree) (s s' : Segment) (r : Route) :
    t.holderAt (s :: r) s' = holderAt (t.get? [s]) r s' := by
  unfold holderAt
  rw [get?_cons]

variable {tree : Tree}

theorem meetsFrom_zero : MeetsFrom path above tree (s :: r) 0 e ↔
    obstacle? path above (tree.holderAt [] s) s = some e := by
  simp [MeetsFrom]

theorem meetsFrom_succ {n : Nat} : MeetsFrom path above tree (s :: r) (n + 1) e ↔
    MeetsFrom path (above ++ [s]) (tree.get? [s]) r n e := by
  simp [MeetsFrom, holderAt_cons]

theorem not_firstFrom_nil : ¬FirstFrom path above tree [] e := by
  rintro ⟨n, ⟨s, hs, -⟩, -⟩
  cases hs

theorem firstFrom_cons : FirstFrom path above tree (s :: r) e ↔
    obstacle? path above (tree.holderAt [] s) s = some e ∨
      obstacle? path above (tree.holderAt [] s) s = none ∧
        FirstFrom path (above ++ [s]) (tree.get? [s]) r e := by
  constructor
  · rintro ⟨n, meets, first⟩
    cases n with
    | zero => exact .inl (meetsFrom_zero.1 meets)
    | succ n =>
      refine .inr ⟨Option.eq_none_iff_forall_ne_some.2 fun e' h =>
        first 0 (Nat.zero_lt_succ n) e' (meetsFrom_zero.2 h), n, meetsFrom_succ.1 meets, ?_⟩
      intro m hm e' h
      exact first (m + 1) (Nat.succ_lt_succ hm) e' (meetsFrom_succ.2 h)
  · rintro (h | ⟨free, n, meets, first⟩)
    · exact ⟨0, meetsFrom_zero.2 h, fun m hm => absurd hm (Nat.not_lt_zero m)⟩
    · refine ⟨n + 1, meetsFrom_succ.2 meets, fun m hm e' h => ?_⟩
      cases m with
      | zero =>
        rw [meetsFrom_zero, free] at h
        cases h
      | succ m => exact first m (Nat.lt_of_succ_lt_succ hm) e' (meetsFrom_succ.1 h)

/-- A change of a child is refused by the holder, or else by what the change meets below. -/
theorem changeChild_refusal (path above : Route) (s : Segment)
    (change : Value → Written (Option Value)) (isSome : ∀ u, (change u).result.isSome)
    (h : holder ≠ .null) :
    (changeChild path above holder s fun c => change (c.getD .null)).refusal =
      (obstacle? path above holder s).or (change ((childOf? holder s).getD .null)).refusal := by
  cases holder with
  | null => exact absurd rfl h
  | object d =>
    have hget : childOf? (.object d) s = Dict.get? s.text d := by cases s <;> rfl
    obtain ⟨w, hw⟩ := Option.isSome_iff_exists.1 (isSome ((Dict.get? s.text d).getD .null))
    simp only [changeChild, hw, hget, obstacle?, Option.none_or]
  | array items =>
    cases s with
    | key k => rfl
    | index i =>
      by_cases hi : i < items.length
      · have near : ¬items.length + 65536 ≤ i := by omega
        simp only [changeChild, dif_pos hi, obstacle?, if_neg near, Option.none_or, childOf?,
          List.getElem?_eq_getElem hi, Option.getD_some]
      · obtain ⟨w, hw⟩ := Option.isSome_iff_exists.1 (isSome .null)
        have hlimit : paddingLimit = 65536 := rfl
        by_cases far : items.length + 65536 ≤ i
        · have hpad : ¬i + 1 - items.length ≤ paddingLimit := by omega
          simp only [changeChild, dif_neg hi, Option.getD_some, hw, if_neg hpad, obstacle?,
            if_pos far, Option.some_or]
        · have hpad : i + 1 - items.length ≤ paddingLimit := by omega
          simp only [changeChild, dif_neg hi, Option.getD_some, hw, if_pos hpad, obstacle?,
            if_neg far, Option.none_or, childOf?, List.getElem?_eq_none (Nat.le_of_not_lt hi),
            Option.getD_none]
  | _ => cases s <;> rfl

/-- The first obstacle on the way decides. -/
theorem refusal_setBelow_iff {v : Value} :
    (setBelow path (some v) above (tree.holderAt [] s) (s :: r)).refusal = some e ↔
      FirstFrom path above tree (s :: r) e := by
  have hopened : ∀ (t : Tree) (s : Segment), t.holderAt [] s ≠ .null := fun t s => by
    rw [holderAt_root]
    exact openedFor_ne_null s _
  induction r generalizing tree above s with
  | nil =>
    have hstep := changeChild_refusal path above s (fun _ => ⟨some v, none⟩) (fun _ => rfl)
      (hopened tree s)
    rw [setBelow, hstep, firstFrom_cons, Option.or_none]
    exact ⟨.inl, fun h => h.resolve_right fun hrest => not_firstFrom_nil hrest.2⟩
  | cons s' r ih =>
    have hstep := changeChild_refusal path above s
      (fun u =>
        let w := setBelow path (some v) (above ++ [s]) (openedFor s' u) (s' :: r)
        ⟨some w.result, w.refusal⟩)
      (fun _ => rfl) (hopened tree s)
    have hchild : childOf? (tree.holderAt [] s) s = tree.get? [s] := by
      rw [holderAt_root, ← get?_openedFor tree s, get?_singleton]
    rw [setBelow, hstep, firstFrom_cons, Option.or_eq_some_iff, hchild, ← holderAt_root]
    exact or_congr_right (and_congr_right fun _ => ih)

theorem set_refusal_iff {v : Value} : (set tree r (some v)).refusal = some e ↔
    ∃ n, tree.Meets r n e ∧ ∀ m < n, ∀ e', ¬tree.Meets r m e' := by
  cases r with
  | nil => exact ⟨fun h => (by cases h), fun ⟨n, ⟨s, hs, _⟩, _⟩ => (by cases hs)⟩
  | cons s r =>
    rw [set_cons_some, ← holderAt_root]
    exact refusal_setBelow_iff

theorem set_refused_iff {v : Value} :
    (set tree r (some v)).refusal ≠ none ↔ ∃ n e, tree.Meets r n e := by
  classical
  constructor
  · intro h
    obtain ⟨e, he⟩ := Option.ne_none_iff_exists'.1 h
    obtain ⟨n, meets, -⟩ := set_refusal_iff.1 he
    exact ⟨n, e, meets⟩
  · intro h
    obtain ⟨e, meets⟩ := Nat.find_spec h
    have hfirst := set_refusal_iff (v := v).2
      ⟨_, meets, fun m hm e' hm' => Nat.find_min h hm ⟨e', hm'⟩⟩
    rw [hfirst]
    exact Option.some_ne_none e

/-- What is to be written does not decide whether a write is refused, or why. -/
theorem set_refusal_eq (tree : Tree) (r : Route) (v w : Value) :
    (set tree r (some v)).refusal = (set tree r (some w)).refusal :=
  Option.ext fun _ => set_refusal_iff.trans set_refusal_iff.symm

/-- The length that an array gets when it is padded up to an index, if the padding is within its
limit, in words of 64 bits: the sum is checked, the difference is not. -/
def paddedLength? (i length : UInt64) : Option UInt64 :=
  if i.toNat + 1 < UInt64.size ∧ i + 1 - length ≤ 65536 then some (i + 1) else none

/-- No array has room for as many items. -/
def itemLimit : Nat := Nat.pow 2 63

theorem toNat_succ {i : UInt64} (h : i.toNat + 1 < UInt64.size) : (i + 1).toNat = i.toNat + 1 := by
  rw [UInt64.toNat_add]
  exact Nat.mod_eq_of_lt h

theorem paddedLength?_eq {i length : UInt64} (behind : length.toNat ≤ i.toNat)
    (room : length.toNat < itemLimit) : paddedLength? i length =
      if length.toNat + 65536 ≤ i.toNat then none else some (i + 1) := by
  have hlimit : itemLimit = 9223372036854775808 := rfl
  have hsize : UInt64.size = 18446744073709551616 := rfl
  by_cases hsum : i.toNat + 1 < UInt64.size
  · have hadd := toNat_succ hsum
    have hsub : (i + 1 - length).toNat = i.toNat + 1 - length.toNat := by
      rw [UInt64.toNat_sub_of_le, hadd]
      rw [UInt64.le_iff_toNat_le, hadd]
      omega
    have hle : i + 1 - length ≤ 65536 ↔ ¬length.toNat + 65536 ≤ i.toNat := by
      rw [UInt64.le_iff_toNat_le, hsub, show (65536 : UInt64).toNat = 65536 from rfl]
      omega
    simp only [paddedLength?, hsum, hle, true_and, ite_not]
  · have far : length.toNat + 65536 ≤ i.toNat := by omega
    simp only [paddedLength?, hsum, false_and, if_false, if_pos far]

/-- Whether a write pads an array up to an index as machine words tell. -/
def PadsInWords (items : List Value) (i : UInt64) : Prop :=
  ∀ path above v (change : Option Value → Written (Option Value)),
    (change (some .null)).result = some v →
    match paddedLength? i (.ofNat items.length) with
    | some n => n.toNat = i.toNat + 1 ∧
        changeChild path above (.array items) (.index i.toNat) change =
          ⟨.array (items ++ List.replicate (i.toNat - items.length) .null ++ [v]),
            (change (some .null)).refusal⟩
    | none => items.length + 65536 ≤ i.toNat ∧
        changeChild path above (.array items) (.index i.toNat) change =
          ⟨.array items, some (.indexOutOfRange path i.toNat items.length)⟩

theorem padsInWords {items : List Value} {i : UInt64} (behind : items.length ≤ i.toNat)
    (room : items.length < itemLimit) : PadsInWords items i := by
  intro path above v change hv
  have hsize : UInt64.size = 18446744073709551616 := rfl
  have hi : i.toNat < UInt64.size := i.toNat_lt
  have hpadding : paddingLimit = 65536 := rfl
  have hlength : (UInt64.ofNat items.length).toNat = items.length :=
    UInt64.toNat_ofNat_of_lt (Nat.lt_of_le_of_lt behind hi)
  rw [← hlength] at behind room
  rw [paddedLength?_eq behind room, hlength]
  rw [hlength] at behind room
  by_cases far : items.length + 65536 ≤ i.toNat
  · have hpad : ¬i.toNat + 1 - items.length ≤ paddingLimit := by omega
    rw [if_pos far]
    refine ⟨far, ?_⟩
    simp only [changeChild, dif_neg (Nat.not_lt.2 behind), hv, if_neg hpad]
  · have hpad : i.toNat + 1 - items.length ≤ paddingLimit := by omega
    have hlimit : itemLimit = 9223372036854775808 := rfl
    rw [if_neg far]
    refine ⟨toNat_succ (by omega), ?_⟩
    simp only [changeChild, dif_neg (Nat.not_lt.2 behind), hv, if_pos hpad]

/-- **Writes are refused by the first obstacle.** A write is refused exactly if the walk along its
route comes to an obstacle, and the first one says why; what is to be written does not matter. The
sums and differences of indices and lengths are those of numbers without bounds, since machine words
of 64 bits tell the same. What is refused leaves every place as it was, but for the places that lie
above the one that was to be written: those keep all their keys and items. -/
theorem refused_by_first_obstacle (tree : Tree) (r : Route) :
    (∀ v e, (set tree r (some v)).refusal = some e ↔
      ∃ n, tree.Meets r n e ∧ ∀ m < n, ∀ e', ¬tree.Meets r m e') ∧
    (∀ v, (set tree r (some v)).refusal ≠ none ↔ ∃ n e, tree.Meets r n e) ∧
    (∀ v w, (set tree r (some v)).refusal = (set tree r (some w)).refusal) ∧
    (∀ items i, items.length ≤ i.toNat → items.length < itemLimit → PadsInWords items i) ∧
    ∀ v, (set tree r (some v)).refusal ≠ none →
      ∀ q w, tree.get? q = some w →
        (¬(q.map Segment.text <+: r.map Segment.text ∧ q.length < r.length) →
          (set tree r (some v)).result.get? q = some w) ∧
        ∃ w', (set tree r (some v)).result.get? q = some w' ∧ Retains w w' := by
  refine ⟨fun v e => set_refusal_iff, fun v => set_refused_iff, set_refusal_eq tree r,
    fun items i => padsInWords, fun v refused q w hq => ?_⟩
  obtain ⟨e, he⟩ := Option.ne_none_iff_exists'.1 refused
  by_cases proper : q.map Segment.text <+: r.map Segment.text ∧ q.length < r.length
  · exact ⟨fun h => absurd proper h, get?_set_retains proper.1 proper.2 hq⟩
  · have hsame := get?_set_refused_of_not_above he proper hq
    exact ⟨fun _ => hsame, w, hsame, .same w⟩

/-- An array is made at `a` and padded, an object is made in it and an array in that, which ends too
far before the index; `b` stays. At the largest index of all the sum does not fit into a word. -/
theorem refused_by_first_obstacle_far : ∃ tree r,
    tree = some (.object [("a", .null), ("b", .int 7)]) ∧
    r = [.key "a", .index 2, .key "x", .index 70000] ∧
    (set tree r (some (.int 1))).refusal = some (.indexOutOfRange r 70000 0) ∧
    (set tree r (some (.int 1))).result.get? [.key "b"] = some (.int 7) ∧
    (∃ w, (set tree r (some (.int 1))).result.get? [.key "a"] = some w ∧ Retains .null w) ∧
    PadsInWords [] 18446744073709551615 := by
  obtain ⟨r, hr⟩ : ∃ r : Route, r = [.key "a", .index 2, .key "x", .index 70000] := ⟨_, rfl⟩
  obtain ⟨tree, htree⟩ : ∃ tree : Tree, tree = some (.object [("a", .null), ("b", .int 7)]) :=
    ⟨_, rfl⟩
  obtain ⟨first, refused, -, words, kept⟩ := refused_by_first_obstacle tree r
  have meets : tree.Meets r 3 (.indexOutOfRange r 70000 0) := by
    rw [htree, hr]
    exact ⟨.index 70000, rfl, by decide +kernel⟩
  have hrefused := (refused (.int 1)).2 ⟨3, _, meets⟩
  refine ⟨tree, r, htree, hr, (first (.int 1) _).2 ⟨3, meets, ?_⟩, ?_, ?_,
    words [] _ (Nat.zero_le _) (by decide)⟩
  · rw [htree, hr]
    rintro m hm e' ⟨s, hs, he'⟩
    match m, hm with
    | 0, _ => cases hs; cases he'
    | 1, _ => cases hs; cases he'
    | 2, _ => cases hs; cases he'
  · refine (kept (.int 1) hrefused [.key "b"] (.int 7) (by rw [htree]; rfl)).1 ?_
    rw [hr]
    decide +kernel
  · exact (kept (.int 1) hrefused [.key "a"] .null (by rw [htree]; rfl)).2

end Tree

end Conform

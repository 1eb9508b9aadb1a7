import Conform.Proofs.Paths
import Conform.Tree

/-!
# Writing at a place and below it

A place seen by itself is a tree of its own: a write at it or below it, seen from there, is the same
write on that tree. Only the routes that an error tells depend on where the place lies.
-/

namespace Conform

namespace Tree

/-- Two writes that leave the same, and are refused alike. -/
structure Written.Alike {α : Type} (w w' : Written α) : Prop where
  result : w.result = w'.result
  refused : w.refusal = none ↔ w'.refusal = none

theorem Written.Alike.refl {α : Type} (w : Written α) : w.Alike w := ⟨rfl, .rfl⟩

/-- Where the holder lies matters to errors only. -/
theorem changeChild_alike {change change' : Option Value → Written (Option Value)}
    (h : ∀ c, (change c).Alike (change' c)) (path path' above above' : Route) (holder : Value)
    (s : Segment) :
    (changeChild path above holder s change).Alike (changeChild path' above' holder s change') := by
  cases holder with
  | object d =>
    have hc := h (Dict.get? s.text d)
    simp only [changeChild, hc.result]
    cases (change' (Dict.get? s.text d)).result <;> exact ⟨rfl, hc.refused⟩
  | array items =>
    cases s with
    | key k => exact ⟨rfl, by simp [changeChild]⟩
    | index i =>
      by_cases hi : i < items.length
      · have hc := h (some items[i])
        simp only [changeChild, dif_pos hi, hc.result]
        exact ⟨rfl, hc.refused⟩
      · have hc := h (some .null)
        simp only [changeChild, dif_neg hi, hc.result]
        cases (change' (some .null)).result with
        | none => exact .refl _
        | some v =>
          dsimp only
          split
          · exact ⟨rfl, hc.refused⟩
          · exact ⟨rfl, by simp⟩
  | _ => cases s <;> exact ⟨rfl, by simp [changeChild]⟩

theorem setBelow_alike (path path' above above' : Route) (value : Option Value) (holder : Value)
    (r : Route) :
    (setBelow path value above holder r).Alike (setBelow path' value above' holder r) := by
  induction r generalizing above above' holder with
  | nil => exact .refl _
  | cons s r ih =>
    cases r with
    | nil => exact changeChild_alike (fun c => .refl _) ..
    | cons t r =>
      refine changeChild_alike (fun c => ?_) ..
      have hw := ih (above ++ [s]) (above' ++ [s]) (openedFor t (c.getD .null))
      exact ⟨congrArg some hw.result, hw.refused⟩

/-- An array is padded up to the item that is written behind its end. -/
theorem length_padding {items : List Value} {i : Nat} (h : items.length ≤ i) :
    (items ++ List.replicate (i - items.length) Value.null).length = i := by
  rw [List.length_append, List.length_replicate]
  omega

theorem getElem?_padded {items : List Value} {i : Nat} (h : items.length ≤ i) (v : Value) :
    (items ++ List.replicate (i - items.length) Value.null ++ [v])[i]? = some v := by
  rw [List.getElem?_append_right (Nat.le_of_eq (length_padding h)), length_padding h, Nat.sub_self]
  rfl

/-- A write that is not refused has changed the child that was there, or null, and what it made of
it is the child from then on. -/
theorem childOf?_changeChild {path above : Route} {holder : Value} {s : Segment}
    {change : Option Value → Written (Option Value)}
    (h : (changeChild path above holder s change).refusal = none) :
    ∃ c : Option Value, c.getD .null = (childOf? holder s).getD .null ∧
      ∀ v, (change c).result = some v → (change c).refusal = none ∧
        childOf? (changeChild path above holder s change).result s = some v := by
  cases holder with
  | object d =>
    refine ⟨Dict.get? s.text d, by cases s <;> rfl, fun v hv => ?_⟩
    simp only [changeChild, hv] at h ⊢
    exact ⟨h, by cases s <;> simp [childOf?]⟩
  | array items =>
    cases s with
    | key k => cases h
    | index i =>
      by_cases hi : i < items.length
      · refine ⟨some items[i], by simp [childOf?, hi], fun v hv => ?_⟩
        simp only [changeChild, dif_pos hi, hv] at h ⊢
        exact ⟨h, by simp [childOf?, hi]⟩
      · refine ⟨some .null, by simp [childOf?, List.getElem?_eq_none (Nat.le_of_not_lt hi)],
          fun v hv => ?_⟩
        simp only [changeChild, dif_neg hi, hv] at h ⊢
        split at h
        · next hpad =>
          rw [if_pos hpad]
          exact ⟨h, getElem?_padded (Nat.le_of_not_lt hi) v⟩
        · cases h
  | _ => cases s <;> cases h

/-- A null place and the container that is opened in it hold nothing alike. -/
theorem valueAt?_openedFor (s : Segment) (v : Value) (r : Route) :
    valueAt? (openedFor s v) (s :: r) = valueAt? v (s :: r) := by
  cases v with
  | null => cases s <;> simp [openedFor, containerFor, valueAt?, childOf?]
  | _ => rfl

theorem valueAt?_cons (v : Value) (s : Segment) (r : Route) :
    valueAt? v (s :: r) = (childOf? v s).bind (valueAt? · r) := by
  rw [valueAt?]
  cases childOf? v s <;> rfl

theorem valueAt?_singleton (v : Value) (s : Segment) : valueAt? v [s] = childOf? v s := by
  rw [valueAt?_cons]
  cases childOf? v s <;> rfl

/-- A place below the child of a holder, in the holder and in the container that the child is or
becomes. -/
theorem valueAt?_child (v : Value) (s t : Segment) (r : Route) :
    valueAt? (openedFor t ((childOf? v s).getD .null)) (t :: r) = valueAt? v (s :: t :: r) := by
  rw [valueAt?_openedFor, valueAt?_cons v s]
  cases childOf? v s with
  | none => simp [valueAt?, childOf?]
  | some w => rfl

/-- Where the parent of what is to be removed is there, nothing but the write below is done. -/
theorem set_cons (t : Tree) (s : Segment) (q : Route) (value : Option Value)
    (parent : value = none → (get? t (s :: q).dropLast).isSome) :
    (set t (s :: q) value) =
      ⟨some (setBelow (s :: q) value [] (openedFor s (t.getD .null)) (s :: q)).result,
        (setBelow (s :: q) value [] (openedFor s (t.getD .null)) (s :: q)).refusal⟩ := by
  unfold set
  dsimp only
  rw [if_neg]
  rintro ⟨hv, hp⟩
  have := parent (Option.isNone_iff_eq_none.1 hv)
  simp [Option.isNone_iff_eq_none.1 hp] at this

/-- Elsewhere nothing is done. -/
theorem set_of_no_parent {t : Tree} {r : Route} (h : r ≠ []) (parent : get? t r.dropLast = none) :
    set t r none = ⟨t, none⟩ := by
  cases r with
  | nil => exact absurd rfl h
  | cons s r =>
    unfold set
    dsimp only
    rw [if_pos ⟨rfl, by rw [parent]; rfl⟩]

theorem valueAt?_setBelow {p q path above : Route} {value : Option Value} {v : Value} (hp : p ≠ [])
    (here : q = [] → value.isSome)
    (parent : value = none → (valueAt? v (p ++ q.dropLast)).isSome)
    (h : (setBelow path value above v (p ++ q)).refusal = none) :
    (set (valueAt? v p) q value).refusal = none ∧
      valueAt? (setBelow path value above v (p ++ q)).result p =
        (set (valueAt? v p) q value).result := by
  induction p generalizing v above with
  | nil => exact absurd rfl hp
  | cons s p ih =>
    cases p with
    | cons t p =>
      simp only [List.cons_append, setBelow] at h parent ⊢
      obtain ⟨c, hc, hchild⟩ := childOf?_changeChild h
      obtain ⟨hrefusal, hget⟩ := hchild _ rfl
      simp only [hc] at hrefusal hget
      have hih := ih (by simp) (fun hv => by
        simpa only [List.cons_append, valueAt?_child] using parent hv) hrefusal
      rw [valueAt?_child] at hih
      refine ⟨hih.1, ?_⟩
      rw [valueAt?_cons, hget]
      exact hih.2
    | nil =>
      cases q with
      | nil =>
        obtain ⟨w, rfl⟩ := Option.isSome_iff_exists.1 (here rfl)
        obtain ⟨c, -, hchild⟩ := childOf?_changeChild h
        refine ⟨rfl, ?_⟩
        rw [valueAt?_cons]
        simp only [List.append_nil, setBelow] at hchild ⊢
        rw [(hchild w rfl).2]
        rfl
      | cons t q =>
        simp only [List.cons_append, List.nil_append, setBelow] at h ⊢
        obtain ⟨c, hc, hchild⟩ := childOf?_changeChild h
        obtain ⟨hrefusal, hget⟩ := hchild _ rfl
        simp only [hc] at hrefusal hget
        have halike := setBelow_alike path (t :: q) (above ++ [s]) [] value
          (openedFor t ((childOf? v s).getD .null)) (t :: q)
        have hv := valueAt?_singleton v s
        have hset := set_cons (childOf? v s) t q value fun hv => by
          have := parent hv
          rwa [List.singleton_append, valueAt?_cons] at this
        rw [hv, hset]
        refine ⟨halike.refused.1 hrefusal, ?_⟩
        rw [valueAt?_cons, hget, Option.bind_some, halike.result]
        rfl

/-- **A write seen from above.** A write at a place or below it, unless it is refused, is not
refused on the value of the place by itself either, and leaves the same there. Removing the place
itself is another matter: in an array that leaves null. -/
theorem get?_set_append {t : Tree} {p q : Route} {value : Option Value}
    (here : q = [] → value.isSome) (h : (set t (p ++ q) value).refusal = none) :
    (set (get? t p) q value).refusal = none ∧
      get? (set t (p ++ q) value).result p = (set (get? t p) q value).result := by
  cases p with
  | nil => simpa using h
  | cons s p =>
    have hget : ∀ r, get? t (s :: r) = valueAt? (openedFor s (t.getD .null)) (s :: r) := by
      intro r
      rw [valueAt?_openedFor]
      cases t with
      | none => simp [valueAt?, childOf?]
      | some v => rfl
    have hdrop : value = none → (s :: p ++ q).dropLast = s :: (p ++ q.dropLast) := by
      rintro rfl
      exact List.dropLast_append_of_ne_nil fun hq => (by cases here hq)
    by_cases hparent : value = none → (get? t (s :: (p ++ q.dropLast))).isSome
    · have hset := set_cons t s (p ++ q) value fun hv => by
        rw [← List.cons_append, hdrop hv]
        exact hparent hv
      rw [List.cons_append] at h ⊢
      rw [hset] at h ⊢
      rw [hget p]
      refine valueAt?_setBelow (by simp) here (fun hv => ?_) h
      rw [List.cons_append, ← hget]
      exact hparent hv
    · rw [Classical.not_imp, Bool.not_eq_true, Option.isSome_eq_false_iff,
        Option.isNone_iff_eq_none] at hparent
      obtain ⟨rfl, hparent⟩ := hparent
      have hq : q ≠ [] := fun hq => (by cases here hq)
      rw [set_of_no_parent (r := s :: p ++ q) (by simp) (by rw [hdrop rfl, hparent]),
        set_of_no_parent hq (by rw [← get?_append]; exact hparent)]
      exact ⟨rfl, rfl⟩

/-- What has been written is there. -/
theorem get?_set_self {t : Tree} {r : Route} {v : Value} (h : (set t r (some v)).refusal = none) :
    get? (set t r (some v)).result r = some v := by
  have h : (set t (r ++ []) (some v)).refusal = none := by rwa [List.append_nil]
  have hget := (get?_set_append (fun _ => rfl) h).2
  rwa [List.append_nil] at hget

section

variable {t : Tree} {r : Route} {d : Dict Value} {k : String}

/-- The fields of an object lie below its place, each at the step that its key names. -/
theorem get?_childNamed (k : String) (object : get? t r = some (.object d)) :
    get? t (r.childNamed k) = d.get? k := by
  rw [Route.childNamed, Route.child, get?_append, object, get?, Option.bind_some,
    valueAt?_singleton, childOf?, Segment.text_ofText]

/-- The removal of a key that is there asks for a change. -/
theorem new_removal (object : get? t r = some (.object d)) (hk : k ∈ d.keys) :
    sameValue? (get? t (r.childNamed k)) none = false := by
  obtain ⟨v, hv⟩ : ∃ v, Dict.get? k d = some v :=
    Option.isSome_iff_exists.1 ((Dict.mem_keys_iff k d).1 hk)
  rw [get?_childNamed k object, hv]
  rfl

/-- What removing a field leaves of an object. -/
theorem get?_set_field (object : get? t r = some (.object d))
    (h : (set t (r.childNamed k) none).refusal = none) :
    get? (set t (r.childNamed k) none).result r = some (.object (d.erase k)) := by
  rw [Route.childNamed, Route.child] at h ⊢
  rw [(get?_set_append (fun hs => (by cases hs)) h).2, object]
  exact congrArg (fun key => some (Value.object (d.erase key))) (Segment.text_ofText k)

end

/-- Whether the value, if there is one, has the property. -/
def All (P : Value → Prop) (t : Tree) : Prop := ∀ v ∈ t, P v

variable {P : Value → Prop} {ok : Segment → Prop}

theorem all_none : All P none := fun _ h => nomatch h

theorem all_some {v : Value} : All P (some v) ↔ P v :=
  ⟨fun h => h v rfl, fun h _ hw => Option.some.inj hw ▸ h⟩

theorem All.getD {t : Tree} (h : t.All P) {v : Value} (hv : P v) : P (t.getD v) := by
  cases t with
  | none => exact hv
  | some w => exact all_some.1 h

/-- What children have from their holders, all that lies below has. -/
theorem valueAt?_of_child (child : ∀ {v w s}, P v → childOf? v s = some w → P w) {v w : Value}
    {r : Route} (h : P v) (hw : valueAt? v r = some w) : P w := by
  induction r generalizing v with
  | nil => exact Option.some.inj hw ▸ h
  | cons s r ih =>
    rw [valueAt?_cons, Option.bind_eq_some_iff] at hw
    obtain ⟨u, hu, hw⟩ := hw
    exact ih (child h hu) hw

/-- Whether a property goes from holders to children, and stays with a holder that is changed in one
child, where the segment is of a kind and the new child has the property. -/
structure Hereditary (P : Value → Prop) (ok : Segment → Prop) : Prop where
  null : P .null
  container (s : Segment) : P (containerFor s)
  child {v w : Value} {s : Segment} (h : P v) (hw : childOf? v s = some w) : P w
  insert {d : Dict Value} {s : Segment} {w : Value} (h : P (.object d)) (hs : ok s) (hw : P w) :
    P (.object (d.insert s.text w))
  erase {d : Dict Value} (h : P (.object d)) (k : String) : P (.object (d.erase k))
  set {items : List Value} {w : Value} (h : P (.array items)) (i : Nat) (hw : P w) :
    P (.array (items.set i w))
  extend {items : List Value} {i : Nat} {w : Value} (h : P (.array items)) (hs : ok (.index i))
    (hi : ¬i < items.length) (hw : P w) :
    P (.array (items ++ List.replicate (i - items.length) .null ++ [w]))

namespace Hereditary

variable (here : Hereditary P ok)

include here

theorem childOf? {v : Value} (h : P v) (s : Segment) : All P (childOf? v s) :=
  fun _ hw => here.child h hw

theorem get? {t : Tree} (h : t.All P) (r : Route) : All P (t.get? r) := by
  intro w hw
  obtain ⟨v, hv, hw⟩ := Option.bind_eq_some_iff.1 hw
  exact valueAt?_of_child here.child (h v hv) hw

theorem openedFor {v : Value} (h : P v) (s : Segment) : P (openedFor s v) := by
  cases v with
  | null => exact here.container s
  | _ => exact h

theorem changeChild {path above : Route} {v : Value} {s : Segment}
    {change : Option Value → Written (Option Value)} (h : P v) (hs : ok s)
    (hc : ∀ c, All P c → All P (change c).result) :
    P (changeChild path above v s change).result := by
  cases v with
  | object d =>
    have hchild := hc _ (here.childOf? h (.key s.text))
    simp only [Tree.changeChild]
    cases hw : (change (Dict.get? s.text d)).result with
    | none => exact here.erase h s.text
    | some w => exact here.insert h hs (hchild w hw)
  | array items =>
    cases s with
    | key k => exact h
    | index i =>
      by_cases hi : i < items.length
      · have hold : All P (some items[i]) :=
          all_some.2 (here.child (s := .index i) h (List.getElem?_eq_getElem hi))
        simp only [Tree.changeChild, dif_pos hi]
        exact here.set h i ((hc _ hold).getD here.null)
      · simp only [Tree.changeChild, dif_neg hi]
        cases hw : (change (some .null)).result with
        | none => exact h
        | some w =>
          dsimp only
          split
          · exact here.extend h hs hi (hc _ (all_some.2 here.null) w hw)
          · exact h
  | _ => cases s <;> exact h

theorem setBelow {path above r : Route} {value : Option Value} {holder : Value} (h : P holder)
    (hr : ∀ s ∈ r, ok s) (hv : All P value) : P (setBelow path value above holder r).result := by
  induction r generalizing above holder with
  | nil => exact hv.getD h
  | cons s r ih =>
    obtain ⟨hs, hr⟩ := List.forall_mem_cons.1 hr
    cases r with
    | nil => exact here.changeChild h hs fun _ _ => hv
    | cons t r =>
      refine here.changeChild h hs fun c hc => all_some.2 ?_
      exact ih (here.openedFor (hc.getD here.null) t) hr

/-- What a write leaves, be it refused or not. -/
theorem write {t : Tree} (h : t.All P) {r : Route} (hr : ∀ s ∈ r, ok s) {value : Option Value}
    (hv : All P value) : All P (Tree.set t r value).result := by
  unfold Tree.set
  split
  · exact hv
  · split
    · exact h
    · exact all_some.2 (here.setBelow (here.openedFor (h.getD here.null) _) hr hv)

end Hereditary

end Tree

end Conform

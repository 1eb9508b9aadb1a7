import Conform.Proofs.Below

/-!
# Places that admit writes

A write is refused where the way to its place leads through a holder that cannot hold the next step:
a text or a number, an array that ends before an index, an array under a key. Where every holder on
the way takes its step, or is not there yet and the step is a key, nothing is refused. And a write
at or below a place leaves all holders above the place able to hold what they could hold.
-/

namespace Conform

namespace Tree

/-- Whether a holder takes a write at or below its child `s`. What is undefined becomes an object.
Null is left out, though it takes any key: no rule looks into it. -/
def Takes : Tree → Segment → Prop
  | none, .key _ => True
  | some (.object _), _ => True
  | some (.array items), .index i => i < items.length
  | _, _ => False

/-- Whether every holder on the way to a place takes its step. -/
def Admits (t : Tree) (r : Route) : Prop :=
  ∀ p s q, r = p ++ s :: q → Takes (t.get? p) s

/-- Whether every holder above a place takes at least the steps that it took. -/
def Upholds (t : Tree) (place : Route) (t' : Tree) : Prop :=
  ∀ p s q, place = p ++ s :: q → ∀ s', Takes (t.get? p) s' → Takes (t'.get? p) s'

section

variable {t t' t'' : Tree} {r place : Route} {s : Segment}

theorem get?_cons (t : Tree) (s : Segment) (r : Route) : t.get? (s :: r) = get? (t.get? [s]) r :=
  get?_append t [s] r

theorem get?_singleton (v : Value) (s : Segment) : get? (some v) [s] = childOf? v s := by
  rw [get?, Option.bind_some, valueAt?_cons]
  cases childOf? v s <;> rfl

theorem admits_root (t : Tree) : t.Admits [] := by
  intro p s q h
  cases p <;> cases h

theorem admits_cons : t.Admits (s :: r) ↔ t.Takes s ∧ Admits (t.get? [s]) r := by
  constructor
  · intro h
    refine ⟨get?_root t ▸ h [] s r rfl, fun p s' q hr => ?_⟩
    rw [← get?_cons]
    exact h (s :: p) s' q (by rw [hr]; rfl)
  · rintro ⟨htakes, hrest⟩ p s' q hr
    cases p with
    | nil =>
      cases hr
      rwa [get?_root]
    | cons s₁ p =>
      cases hr
      rw [get?_cons]
      exact hrest p s' q rfl

theorem admits_append : t.Admits (r ++ place) ↔ t.Admits r ∧ Admits (t.get? r) place := by
  induction r generalizing t with
  | nil => simp [admits_root]
  | cons s r ih =>
    rw [List.cons_append, admits_cons, admits_cons, ih, ← get?_cons, and_assoc]

theorem admits_child : t.Admits (r.child s) ↔ t.Admits r ∧ Takes (t.get? r) s := by
  rw [Route.child, admits_append, admits_cons]
  exact and_congr_right fun _ => and_iff_left (admits_root _)

/-- A holder takes a write at each child that it has. -/
theorem takes_of_child {v w : Value} (h : childOf? v s = some w) : Takes (some v) s := by
  cases v with
  | object d => trivial
  | array items =>
    cases s with
    | key k => cases h
    | index i => exact (List.getElem?_eq_some_iff.1 h).1
  | _ => cases s <;> cases h

/-- Where a value is, every holder on the way takes its step. -/
theorem admits_of_get? {w : Value} (h : t.get? r = some w) : t.Admits r := by
  intro p s q hr
  rw [hr, get?_append, get?_cons] at h
  cases hp : t.get? p with
  | none =>
    rw [hp] at h
    cases h
  | some v =>
    rw [hp, get?_singleton] at h
    cases hc : childOf? v s with
    | none =>
      rw [hc] at h
      cases h
    | some u => exact takes_of_child hc

theorem Takes.openedFor (h : t.Takes s) : Takes (some (openedFor s (t.getD .null))) s := by
  cases t with
  | none =>
    cases s with
    | index i => exact absurd h id
    | key k => trivial
  | some v => cases v <;> cases s <;> first | exact h | exact absurd h id

/-- What is opened for a write holds nothing but what the place held. -/
theorem get?_openedFor (t : Tree) (s : Segment) :
    get? (some (Tree.openedFor s (t.getD .null))) [s] = t.get? [s] := by
  rw [get?, Option.bind_some, valueAt?_openedFor]
  cases t with
  | none => cases s <;> rfl
  | some v => rfl

theorem Admits.openedFor (h : t.Admits (s :: r)) :
    Admits (some (Tree.openedFor s (t.getD .null))) (s :: r) := by
  rw [admits_cons] at h ⊢
  rw [get?_openedFor]
  exact ⟨h.1.openedFor, h.2⟩

theorem refusal_changeChild {path above : Route} {holder : Value}
    {change : Option Value → Written (Option Value)} (h : Takes (some holder) s)
    (hc : (change (childOf? holder s)).refusal = none) :
    (changeChild path above holder s change).refusal = none := by
  cases holder with
  | object d =>
    have hget : childOf? (.object d) s = Dict.get? s.text d := by cases s <;> rfl
    rw [hget] at hc
    simp only [changeChild]
    split <;> exact hc
  | array items =>
    cases s with
    | key k => exact absurd h id
    | index i =>
      have hi : i < items.length := h
      rw [childOf?, List.getElem?_eq_getElem hi] at hc
      simp only [changeChild, dif_pos hi]
      exact hc
  | _ => cases s <;> exact absurd h id

theorem refusal_setBelow {path above : Route} {value : Option Value} {holder : Value} {r : Route}
    (h : Admits (some holder) r) : (setBelow path value above holder r).refusal = none := by
  induction r generalizing above holder with
  | nil => rfl
  | cons s r ih =>
    obtain ⟨htakes, hrest⟩ := admits_cons.1 h
    cases r with
    | nil => exact refusal_changeChild htakes rfl
    | cons s' r =>
      refine refusal_changeChild htakes (ih ?_)
      rw [get?_singleton] at hrest
      exact hrest.openedFor

/-- **Admitted, a write is not refused.** -/
theorem Admits.refusal (h : t.Admits r) (value : Option Value) :
    (t.set r value).refusal = none := by
  cases r with
  | nil => rfl
  | cons s r =>
    rw [set]
    split
    · rfl
    · exact refusal_setBelow h.openedFor

theorem Upholds.refl (t : Tree) (place : Route) : t.Upholds place t := fun _ _ _ _ _ => id

theorem Upholds.trans (h : t.Upholds place t') (h' : t'.Upholds place t'') :
    t.Upholds place t'' :=
  fun p s q hp s' hs => h' p s q hp s' (h p s q hp s' hs)

/-- Above a wider place there are fewer holders. -/
theorem Upholds.widen {wider : Route} (h : t.Upholds place t') (hp : wider <+: place) :
    t.Upholds wider t' := by
  obtain ⟨q', rfl⟩ := hp
  intro p s q he
  exact h p s (q ++ q') (by rw [he, List.append_assoc]; rfl)

/-- Of a place and its siblings, what was admitted still is. -/
theorem Upholds.admits {s' : Segment} (h : t.Upholds (r.child s) t') (ht : t.Admits (r.child s')) :
    t'.Admits (r.child s') := by
  intro p s₁ q he
  refine h p (if q = [] then s else s₁) (if q = [] then [] else q.dropLast ++ [s]) ?_ s₁
    (ht p s₁ q he)
  rw [Route.child] at he ⊢
  split
  · next hq =>
    subst hq
    rw [(List.append_inj' he rfl).1]
  · next hq =>
    have hlast : r ++ [s'] = (p ++ s₁ :: q.dropLast) ++ [q.getLast hq] := by
      rw [he, List.append_assoc, List.cons_append, List.dropLast_concat_getLast]
    rw [(List.append_inj' hlast rfl).1, List.append_assoc]
    rfl

theorem Upholds.here (h : t.Upholds r t') (ht : t.Admits r) : t'.Admits r :=
  fun p s q hr => h p s q hr s (ht p s q hr)

theorem takes_changeChild {path above : Route} {holder : Value}
    {change : Option Value → Written (Option Value)} {s' : Segment} (h : Takes (some holder) s)
    (h' : Takes (some holder) s') :
    Takes (some (changeChild path above holder s change).result) s' := by
  cases holder with
  | object d =>
    simp only [changeChild]
    split <;> trivial
  | array items =>
    cases s with
    | key k => exact absurd h id
    | index i =>
      have hi : i < items.length := h
      simp only [changeChild, dif_pos hi]
      cases s' with
      | key k => exact absurd h' id
      | index j =>
        have hj : j < items.length := h'
        show j < (items.set i _).length
        rwa [List.length_set]
  | _ => cases s <;> exact absurd h id

/-- A holder that is written into takes what it took. -/
theorem takes_set {q : Route} {value : Option Value} {s' : Segment} (h : t.Takes s)
    (h' : t.Takes s') : (t.set (s :: q) value).result.Takes s' := by
  rw [set]
  split
  · exact h'
  · have hs' : Takes (some (Tree.openedFor s (t.getD .null))) s' := by
      cases t with
      | none =>
        cases s with
        | index i => exact absurd h id
        | key k => trivial
      | some v => cases v <;> cases s' <;> first | exact h' | exact absurd h' id
    cases q <;> exact takes_changeChild h.openedFor hs'

/-- **Writes uphold what lies above them.** -/
theorem Admits.upholds (h : t.Admits r) (hp : place <+: r) (value : Option Value) :
    t.Upholds place (t.set r value).result := by
  have hwhole : t.Upholds r (t.set r value).result := by
    intro p s q hr s' hs'
    have hrefusal := h.refusal value
    subst hr
    rw [(get?_set_append (fun hq => (by cases hq)) hrefusal).2]
    exact takes_set (h p s q rfl) hs'
  exact hwhole.widen hp

end

end Tree

end Conform

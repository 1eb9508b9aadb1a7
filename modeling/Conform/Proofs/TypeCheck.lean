import Conform.Proofs.Hosts

/-!
# Type checks

A type check looks at the value of its place, and coerces it if it is of none of the declared kinds.
The table of what a kind accepts and the table of what a value is made into for it are two, and they
agree: what has been made for a kind is of that kind. So a check that passes leaves a value of a
declared kind, which it lets stand when it is run again, and a check that fails has changed nothing
and could make nothing.
-/

namespace Conform

/-- What a value is made into for a kind is of that kind. -/
theorem Kind.accepts_of_coerce? {k : Kind} {v w : Value} (h : k.coerce? v = some w) :
    k.accepts w = true := by
  have hmap : ∀ {α : Type} {o : Option α} {f : α → Value}, (∀ a, k.accepts (f a) = true) →
      o.map f = some w → k.accepts w = true := by
    intro α o f hf ho
    obtain ⟨a, -, rfl⟩ := Option.map_eq_some_iff.1 ho
    exact hf a
  unfold Kind.coerce? at h
  split at h
  · exact hmap (fun i => rfl) h
  · cases h
    rfl
  · simp only [Option.orElse_eq_orElse, Option.orElse_eq_or, Option.or_eq_some_iff] at h
    rcases h with h | ⟨-, h⟩
    · exact hmap (fun i => rfl) h
    · exact hmap (fun x => rfl) h
  · cases h
    rfl
  · exact hmap (fun b => rfl) h
  · exact hmap (fun b => rfl) h
  · cases h
    rfl
  · cases h
    rfl
  · split at h
    · cases h
      rfl
    · cases h
  · cases h
  · cases h
    rfl
  · cases h

/-- What is left of a walk after its first look, which has found `v`. -/
def Walk.seeing (v : Option Value) : Walk → Walk
  | read _ next => next v
  | w => w

namespace Leaf

/-- What a type check does about a value: it lets a value of its kinds stand, it writes the first
one that can be made of another, or it fails. -/
inductive TypeStep (options : EvalOptions) (kinds : List Kind) (route : Route) (v : Value) :
    Walk → Prop where
  | accepted (accepts : ∃ k ∈ kinds, k.accepts v = true) :
      TypeStep options kinds route v (.done Outcome.pass)
  | coerced {w : Value} (rejects : ∀ k ∈ kinds, k.accepts v = false)
      (enabled : options.coerceTypes = true) (made : kinds.findSome? (·.coerce? v) = some w) :
      TypeStep options kinds route v (.write route (some w) (.done Outcome.pass))
  | refused (rejects : ∀ k ∈ kinds, k.accepts v = false)
      (unmade : options.coerceTypes = true → ∀ k ∈ kinds, k.coerce? v = none) :
      TypeStep options kinds route v (.done
        (Outcome.fail ("must be of type " ++ Json.joined " or " (kinds.map Kind.name))))

variable (options : EvalOptions) (kinds : List Kind) (route : Route) (v : Value)

theorem typeWalk_step :
    TypeStep options kinds route v ((typeWalk options kinds route).seeing (some v)) := by
  simp only [typeWalk, Walk.seeing]
  cases hany : kinds.any (·.accepts v) with
  | true => exact .accepted (List.any_eq_true.1 hany)
  | false =>
    have rejects : ∀ k ∈ kinds, k.accepts v = false :=
      fun k hk => Bool.eq_false_iff.2 (List.any_eq_false.1 hany k hk)
    cases hc : options.coerceTypes with
    | false => exact .refused rejects fun h => (by rw [hc] at h; cases h)
    | true =>
      cases hw : kinds.findSome? (·.coerce? v) with
      | some w => exact .coerced rejects hc hw
      | none => exact .refused rejects fun _ => List.findSome?_eq_none_iff.1 hw

variable {options kinds route v}

theorem TypeStep.of_accepts {step : Walk} (h : TypeStep options kinds route v step)
    (accepts : ∃ k ∈ kinds, k.accepts v = true) : step = .done Outcome.pass := by
  obtain ⟨k, hk, ha⟩ := accepts
  cases h with
  | accepted => rfl
  | coerced rejects => rw [rejects k hk] at ha; cases ha
  | refused rejects => rw [rejects k hk] at ha; cases ha

/-- A value that a check has written is of one of the kinds. -/
theorem accepts_of_made {w : Value} (made : kinds.findSome? (·.coerce? v) = some w) :
    ∃ k ∈ kinds, k.accepts w = true := by
  obtain ⟨k, hk, hw⟩ := List.exists_of_findSome?_eq_some made
  exact ⟨k, hk, Kind.accepts_of_coerce? hw⟩

theorem new_of_made {w : Value} (made : kinds.findSome? (·.coerce? v) = some w) :
    v.same w = false := by
  obtain ⟨k, -, hw⟩ := List.exists_of_findSome?_eq_some made
  exact Kind.same_of_coerce? hw

variable {h h' : Host} {o : Outcome}

theorem typeWalk_returns_iff (served : h.view route = some v) :
    (typeWalk options kinds route).Returns h o h' ↔
      ((typeWalk options kinds route).seeing (some v)).Returns h o h' := by
  rw [← served]
  exact Walk.returns_read_iff (Host.serves_of_view served)

/-- A check that has passed passes again, and without a write. -/
theorem typeWalk_again (served : h.view route = some v)
    (accepts : ∃ k ∈ kinds, k.accepts v = true) :
    ∃ w, h.view route = some w ∧ (∃ k ∈ kinds, k.accepts w = true) ∧
      (typeWalk options kinds route).seeing (some w) = .done Outcome.pass ∧
      ∀ o' h'', (typeWalk options kinds route).Returns h o' h'' ↔ o' = Outcome.pass ∧ h'' = h := by
  have hstep := (typeWalk_step options kinds route v).of_accepts accepts
  refine ⟨v, served, accepts, hstep, fun o' h'' => ?_⟩
  rw [typeWalk_returns_iff served, hstep, Walk.returns_done_iff, eq_comm]

end Leaf

/-- **Type checks are sound and stable.** Wherever a check is run on a value that is there, alone,
by a run of a model or on a copy, it comes to an outcome. It asks for a write only at its place,
with coercion on and for a value of none of its kinds, and without a write it changes nothing. If it
passes, the value at its place is of one of the kinds, and the check, run again, passes without a
write. If it fails, it has changed nothing, the value is of none of the kinds, and with coercion on
none of them can be made of it. -/
theorem type_check_sound (options : EvalOptions) (kinds : List Kind) (route : Route) {h : Host}
    {v : Value} (served : h.view route = some v) :
    let check := Leaf.walk options route (.type kinds)
    (∃ o h', check.Returns h o h') ∧
    (∀ r u next, check.seeing (some v) = .write r u next →
      r = route ∧ options.coerceTypes = true ∧ ∀ k ∈ kinds, k.accepts v = false) ∧
    ∀ o h', check.Returns h o h' →
      (h' ≠ h → ∃ u next, check.seeing (some v) = .write route u next) ∧
      (o.passes = true → ∃ w, h'.view route = some w ∧ (∃ k ∈ kinds, k.accepts w = true) ∧
        check.seeing (some w) = .done Outcome.pass ∧
        ∀ o₂ h₂, check.Returns h' o₂ h₂ ↔ o₂ = Outcome.pass ∧ h₂ = h') ∧
      (o.passes = false → h' = h ∧ (∀ k ∈ kinds, k.accepts v = false) ∧
        (options.coerceTypes = true → ∀ k ∈ kinds, k.coerce? v = none)) := by
  simp only [Leaf.walk, Leaf.typeWalk_returns_iff served]
  have hstep := Leaf.typeWalk_step options kinds route v
  generalize (Leaf.typeWalk options kinds route).seeing (some v) = step at hstep ⊢
  cases hstep with
  | accepted accepts =>
    refine ⟨⟨_, _, Walk.returns_done_iff.2 ⟨rfl, rfl⟩⟩, fun r u next hw => (by cases hw),
      fun o h' real => ?_⟩
    obtain ⟨rfl, rfl⟩ := Walk.returns_done_iff.1 real
    exact ⟨fun hne => absurd rfl hne, fun _ => Leaf.typeWalk_again served accepts,
      fun hfail => (by cases hfail)⟩
  | @coerced w rejects enabled made =>
    have new := Leaf.new_of_made made
    refine ⟨⟨_, _, (Walk.returns_write_iff served new).2 (Walk.returns_done_iff.2 ⟨rfl, rfl⟩)⟩,
      fun r u next hw => ?_, fun o h' real => ?_⟩
    · cases hw
      exact ⟨rfl, enabled, rejects⟩
    · obtain ⟨rfl, rfl⟩ := Walk.returns_done_iff.1 ((Walk.returns_write_iff served new).1 real)
      exact ⟨fun _ => ⟨_, _, rfl⟩,
        fun _ => Leaf.typeWalk_again (Host.view_put served new) (Leaf.accepts_of_made made),
        fun hfail => (by cases hfail)⟩
  | refused rejects unmade =>
    refine ⟨⟨_, _, Walk.returns_done_iff.2 ⟨rfl, rfl⟩⟩, fun r u next hw => (by cases hw),
      fun o h' real => ?_⟩
    obtain ⟨rfl, rfl⟩ := Walk.returns_done_iff.1 real
    exact ⟨fun hne => absurd rfl hne, fun hpass => (by cases hpass),
      fun _ => ⟨rfl, rejects, unmade⟩⟩

/-- A text with blanks around a number is made into the number, which stands from then on. -/
theorem type_check_sound_text :
    let check := Leaf.walk { coerceTypes := true } [.key "a"] (.type [.boolean, .integer])
    let h : Host := .alone (some (.object [("a", .string " 3 ")]))
    let h' : Host := .alone (some (.object [("a", .int 3)]))
    h.view [.key "a"] = some (.string " 3 ") ∧ check.Returns h Outcome.pass h' ∧
      ∀ o₂ h₂, check.Returns h' o₂ h₂ ↔ o₂ = Outcome.pass ∧ h₂ = h' := by
  intro check h h'
  have served : h.view [.key "a"] = some (.string " 3 ") := rfl
  have real : check.Returns h Outcome.pass h' :=
    .alone (rfl : check.detached (fun _ => true) _ = _)
  obtain ⟨-, -, hall⟩ := type_check_sound { coerceTypes := true } [.boolean, .integer] [.key "a"]
    served
  obtain ⟨-, hpass, -⟩ := hall _ _ real
  obtain ⟨w, -, -, -, hagain⟩ := hpass rfl
  exact ⟨served, real, hagain⟩

end Conform

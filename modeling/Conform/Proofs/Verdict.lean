import Conform.Outcome
import Mathlib.Data.List.Induction

/-!
# Verdicts

A verdict is true, false, or none where no keyword applies. The verdict of a fold of outcomes is the
conjunction of theirs; keywords join the verdicts on places below and on branches in other ways.
-/

namespace Conform

namespace Verdict

/-- False if one of the verdicts is false, else true if one is true. -/
def conjunction (vs : List (Option Bool)) : Option Bool :=
  if some false ∈ vs then some false else if some true ∈ vs then some true else none

/-- Whether none of the verdicts on the places below is false. -/
def below (vs : List (Option Bool)) : Option Bool := some (decide (some false ∉ vs))

/-- The first verdict that is not false. -/
def first (vs : List (Option Bool)) : Option Bool := (vs.find? (· ≠ some false)).getD (some false)

/-- The verdict that alone is not false. -/
def only (vs : List (Option Bool)) : Option Bool :=
  match vs.filter (· ≠ some false) with
  | [b] => b
  | _ => some false

theorem conjunction_congr {vs ws : List (Option Bool)} (h : ∀ b, some b ∈ vs ↔ some b ∈ ws) :
    conjunction vs = conjunction ws := by
  simp only [conjunction, h]

theorem conjunction_none_cons (vs : List (Option Bool)) :
    conjunction (none :: vs) = conjunction vs :=
  conjunction_congr fun b => by simp

theorem conjunction_concat (vs : List (Option Bool)) (b : Option Bool) :
    conjunction (vs ++ [b]) = conjunction [conjunction vs, b] := by
  unfold conjunction
  by_cases hf : some false ∈ vs
  · simp [hf]
  · by_cases ht : some true ∈ vs <;> cases b <;> simp [hf, ht]

end Verdict

namespace Outcome

open Verdict

theorem add_valid (m o : Outcome) : (m.add o).valid = conjunction [m.valid, o.valid] := by
  have hv : (m.add o).valid = (if m.supersedes o then o else m).valid := rfl
  rw [hv]
  cases hm : m.valid with
  | none => rcases ho : o.valid with _ | _ | _ <;> simp [supersedes, conjunction, hm, ho]
  | some b =>
    cases b with
    | false => simp [supersedes, conjunction, hm]
    | true =>
      rcases ho : o.valid with _ | _ | _
      · simp [supersedes, conjunction, hm, ho]
      · simp [supersedes, conjunction, hm, ho]
      · simp only [supersedes, hm, ho]
        split <;> simp [conjunction, hm, ho]

theorem merge_valid (os : List Outcome) : (merge os).valid = conjunction (os.map valid) := by
  induction os using List.reverseRecOn with
  | nil => rfl
  | append_singleton os o ih =>
    rw [merge_concat, add_valid, ih, List.map_append, List.map_singleton, ← conjunction_concat]

/-- What the parent has to say about a place is no verdict. -/
theorem merge_hint_valid {hint : Outcome} (h : hint.valid = none) (o : Outcome) :
    (merge [hint, o]).valid = o.valid := by
  rw [merge_valid, List.map_cons, List.map_singleton, h]
  rcases o.valid with _ | _ | _ <;> rfl

theorem check_valid (ok : Bool) (text : String) : (check ok text).valid = some ok := by
  cases ok <;> rfl

theorem passes_iff {o : Outcome} : o.passes = true ↔ o.valid ≠ some false := by
  simp [passes, isInvalid]

end Outcome

end Conform

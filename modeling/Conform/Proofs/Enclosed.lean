import Conform.Rule
import Mathlib.Logic.Relation

/-!
# Rules within rules

The rules that a check holds, whatever the check does with them, and those that the checks of a node
hold. A rule encloses itself and what the rules that it holds enclose. Where every flag is raised by
the node and by the rules directly in it, a rule is flagged exactly if it encloses one that depends
on other places by its own node.
-/

namespace Conform

def Property.rule : Property → Rule
  | mk _ _ rule => rule

/-- The rules that a check holds, in order. -/
def Check.rules : Check → List Rule
  | leaf _ => []
  | properties children => children.map Property.rule
  | additional _ rule => [rule]
  | items rule => [rule]
  | tuple rules => rules
  | allOf branches => branches
  | anyOf branches => branches
  | oneOf branches => branches
  | excluded rule => [rule]
  | conditional condition met unmet => condition :: (met.toList ++ unmet.toList)
  | custom _ _ rules _ => rules

/-- The rules that the checks of a node hold, in order. -/
def Rule.rules : Rule → List Rule
  | node _ checks _ _ => checks.flatMap Check.rules

/-- A rule itself, or a rule nested in it at any depth. -/
def Rule.Encloses : Rule → Rule → Prop := Relation.ReflTransGen fun r x => x ∈ r.rules

theorem Check.sizeOf_lt_of_mem_rules {c : Check} {x : Rule} (h : x ∈ c.rules) :
    sizeOf x < sizeOf c := by
  cases c with
  | leaf l => cases h
  | properties children =>
    obtain ⟨⟨key, required, rule⟩, hp, rfl⟩ := List.mem_map.1 h
    have hlt := List.sizeOf_lt_of_mem hp
    simp only [Property.rule, Property.mk.sizeOf_spec, properties.sizeOf_spec] at hlt ⊢
    omega
  | additional known rule | items rule | excluded rule =>
    obtain rfl := List.mem_singleton.1 h
    simp only [additional.sizeOf_spec, items.sizeOf_spec, excluded.sizeOf_spec]
    omega
  | tuple rules | allOf rules | anyOf rules | oneOf rules | custom _ _ rules _ =>
    have hlt := List.sizeOf_lt_of_mem (show x ∈ rules from h)
    simp only [tuple.sizeOf_spec, allOf.sizeOf_spec, anyOf.sizeOf_spec, oneOf.sizeOf_spec,
      custom.sizeOf_spec]
    omega
  | conditional condition met unmet =>
    simp only [rules, List.mem_cons, List.mem_append, Option.mem_toList] at h
    rw [conditional.sizeOf_spec]
    rcases h with rfl | rfl | rfl
    · omega
    · rw [Option.some.sizeOf_spec]
      omega
    · rw [Option.some.sizeOf_spec]
      omega

theorem Rule.sizeOf_lt_of_mem_rules {r x : Rule} (h : x ∈ r.rules) : sizeOf x < sizeOf r := by
  obtain ⟨location, checks, messages, declaration⟩ := r
  obtain ⟨c, hc, hx⟩ := List.mem_flatMap.1 h
  have hcheck := List.sizeOf_lt_of_mem hc
  have hrule := Check.sizeOf_lt_of_mem_rules hx
  rw [node.sizeOf_spec]
  omega

/-- What holds of a rule as soon as it holds of the rules that the rule holds, holds of all. -/
theorem Rule.rules_induction {P : Rule → Prop} (step : ∀ r, (∀ x ∈ r.rules, P x) → P r)
    (r : Rule) : P r :=
  step r fun x _ => rules_induction step x
termination_by sizeOf r
decreasing_by exact sizeOf_lt_of_mem_rules ‹_›

/-- Whether a check holds a rule that is flagged. -/
def Check.declaresDependents (c : Check) : Bool := c.rules.any Rule.declaresDependents

theorem Check.declaresDependents_of_mem {c : Check} {x : Rule} (hx : x ∈ c.rules)
    (h : x.declaresDependents = true) : c.declaresDependents = true :=
  List.any_eq_true.2 ⟨x, hx, h⟩

/-- The flag of the rule is raised exactly if its node depends on other places or one of the rules
that it holds is flagged. -/
def Rule.Flagged (r : Rule) : Prop :=
  r.declaresDependents = (!r.dependsOn.isEmpty || r.rules.any declaresDependents)

/-- The flags of the rule and of all rules nested in it are raised like that. -/
def Rule.Collects (r : Rule) : Prop := ∀ x, r.Encloses x → x.Flagged

namespace Rule

variable {r x : Rule}

theorem Collects.of_mem (h : r.Collects) (hx : x ∈ r.rules) : x.Collects :=
  fun y hy => h y (.head hx hy)

theorem Collects.node (flagged : r.Flagged) (h : ∀ x ∈ r.rules, x.Collects) : r.Collects := by
  intro y hy
  rcases hy.cases_head with rfl | ⟨x, hx, hy⟩
  · exact flagged
  · exact h x hx y hy

theorem Collects.flagged_of_dependsOn (h : r.Collects) (depends : r.dependsOn ≠ []) :
    r.declaresDependents = true := by
  have flagged : r.Flagged := h r .refl
  rw [flagged, Bool.or_eq_true]
  exact .inl (by simpa using depends)

theorem Collects.flagged_of_check {location : String} {checks : List Check}
    {messages : NodeMessages} {declaration : Declaration}
    (h : (Rule.node location checks messages declaration).Collects) {c : Check} (hc : c ∈ checks)
    (hflag : c.declaresDependents = true) :
    (Rule.node location checks messages declaration).declaresDependents = true := by
  have flagged : (Rule.node location checks messages declaration).Flagged := h _ .refl
  obtain ⟨x, hx, hraised⟩ := List.any_eq_true.1 hflag
  rw [flagged, Bool.or_eq_true]
  exact .inr (List.any_eq_true.2 ⟨x, List.mem_flatMap.2 ⟨c, hc, hx⟩, hraised⟩)

/-- A rule is flagged exactly if it encloses one that depends on other places by its own node. -/
theorem Collects.declaresDependents_iff (h : r.Collects) :
    r.declaresDependents = true ↔ ∃ x, r.Encloses x ∧ x.dependsOn ≠ [] := by
  induction r using rules_induction with
  | step r ih =>
    have hown : (!r.dependsOn.isEmpty) = true ↔ r.dependsOn ≠ [] := by simp
    have flagged : r.Flagged := h r .refl
    rw [flagged, Bool.or_eq_true, List.any_eq_true, hown]
    constructor
    · rintro (hr | ⟨y, hy, hflag⟩)
      · exact ⟨r, .refl, hr⟩
      · obtain ⟨x, hx, depends⟩ := (ih y hy (h.of_mem hy)).1 hflag
        exact ⟨x, .head hy hx, depends⟩
    · rintro ⟨x, hx, depends⟩
      rcases hx.cases_head with rfl | ⟨y, hy, hx⟩
      · exact .inl depends
      · exact .inr ⟨y, hy, (ih y hy (h.of_mem hy)).2 ⟨x, hx, depends⟩⟩

end Rule

end Conform

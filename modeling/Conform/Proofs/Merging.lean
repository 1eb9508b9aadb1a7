import Conform.Proofs.Verdict

/-!
# Outcomes folded into one

A fold of outcomes says what one of them says: the first failure; where nothing fails, the first
pass that has a text; else the first pass. Everything else is gathered from all of them. Which
outcomes are folded first makes no difference.
-/

namespace Conform

namespace Outcome

/-- How much an outcome counts in a fold: nothing without a verdict, least for a pass without a
text, most for a failure. -/
def weight (o : Outcome) : Nat :=
  match o.valid with
  | none => 0
  | some true => if o.message.isSome then 2 else 1
  | some false => 3

theorem supersedes_eq (m o : Outcome) : m.supersedes o = decide (m.weight < o.weight) := by
  unfold supersedes weight
  rcases m.valid with _ | _ | _ <;> rcases o.valid with _ | _ | _ <;>
    cases m.message <;> cases o.message <;> rfl

/-- Whether `m` has the verdict, the text and the keyword of `o`. -/
def Echoes (m o : Outcome) : Prop :=
  m.valid = o.valid ∧ m.message = o.message ∧ m.keyword = o.keyword

section

variable {m o p : Outcome}

theorem Echoes.symm (h : m.Echoes o) : o.Echoes m := ⟨h.1.symm, h.2.1.symm, h.2.2.symm⟩

theorem Echoes.trans (h : m.Echoes o) (h' : o.Echoes p) : m.Echoes p :=
  ⟨h.1.trans h'.1, h.2.1.trans h'.2.1, h.2.2.trans h'.2.2⟩

theorem Echoes.weight (h : m.Echoes o) : m.weight = o.weight := by
  rw [Outcome.weight, Outcome.weight, h.1, h.2.1]

/-- What counts more takes over. -/
theorem add_echoes_new (h : m.weight < o.weight) : (m.add o).Echoes o := by
  have hs : m.supersedes o = true := by simp [supersedes_eq, h]
  simp [Echoes, add, hs]

/-- What counts no more than what is there is not heard. -/
theorem add_echoes_old (h : o.weight ≤ m.weight) : (m.add o).Echoes m := by
  have hs : m.supersedes o = false := by simp [supersedes_eq, h]
  simp [Echoes, add, hs]

theorem weight_add (m o : Outcome) : (m.add o).weight = max m.weight o.weight := by
  rcases Nat.lt_or_ge m.weight o.weight with h | h
  · rw [(add_echoes_new h).weight, Nat.max_eq_right (Nat.le_of_lt h)]
  · rw [(add_echoes_old h).weight, Nat.max_eq_left h]

end

/-- The outcome that speaks for all: the first failure; where nothing fails, the first pass that
has a text; else the first pass. -/
def speaker? (os : List Outcome) : Option Outcome :=
  (os.find? (·.valid = some false)).or <|
    (os.find? fun o => o.valid = some true ∧ o.message.isSome).or <|
      os.find? (·.valid = some true)

theorem weight_eq_zero {o : Outcome} : o.weight = 0 ↔ o.valid = none := by
  unfold weight
  rcases o.valid with _ | _ | _ <;> cases o.message <;> simp

theorem weight_cases (o : Outcome) :
    o.weight = 0 ∨ o.weight = 1 ∨ o.weight = 2 ∨ o.weight = 3 := by
  unfold weight
  rcases o.valid with _ | _ | _ <;> cases o.message <;> simp

theorem weight_eq_three {o : Outcome} : o.weight = 3 ↔ o.valid = some false := by
  unfold weight
  rcases o.valid with _ | _ | _ <;> cases o.message <;> simp

theorem weight_eq_two {o : Outcome} :
    o.weight = 2 ↔ o.valid = some true ∧ o.message.isSome := by
  unfold weight
  rcases o.valid with _ | _ | _ <;> cases o.message <;> simp

theorem weight_pass {o : Outcome} : 0 < o.weight ∧ o.weight < 3 ↔ o.valid = some true := by
  unfold weight
  rcases o.valid with _ | _ | _ <;> cases o.message <;> simp

theorem speaker?_eq (os : List Outcome) :
    speaker? os = (os.find? (·.weight = 3)).or ((os.find? (·.weight = 2)).or
      (os.find? fun o => 0 < o.weight ∧ o.weight < 3)) := by
  simp only [speaker?, weight_eq_three, weight_eq_two, weight_pass]

theorem speaker?_concat (os : List Outcome) (o : Outcome) :
    speaker? (os ++ [o]) =
      if ((speaker? os).getD silent).weight < o.weight then some o else speaker? os := by
  simp only [speaker?_eq, List.find?_append]
  cases hf : os.find? (·.weight = 3) with
  | some a =>
    have ha : a.weight = 3 := by simpa using List.find?_some hf
    rcases o.weight_cases with ho | ho | ho | ho <;> simp [ha, ho]
  | none =>
    cases hw : os.find? (·.weight = 2) with
    | some a =>
      have ha : a.weight = 2 := by simpa using List.find?_some hw
      rcases o.weight_cases with ho | ho | ho | ho <;> simp [ha, ho]
    | none =>
      cases hp : os.find? (fun o => 0 < o.weight ∧ o.weight < 3) with
      | some a =>
        have ha : a.weight = 1 := by
          have hpass : 0 < a.weight ∧ a.weight < 3 := by simpa using List.find?_some hp
          have hquiet : a.weight ≠ 2 := by
            simpa using List.find?_eq_none.1 hw a (List.mem_of_find?_eq_some hp)
          omega
        rcases o.weight_cases with ho | ho | ho | ho <;> simp [ha, ho]
      | none =>
        have hs : silent.weight = 0 := rfl
        rcases o.weight_cases with ho | ho | ho | ho <;> simp [hs, ho]

theorem merge_echoes (os : List Outcome) : (merge os).Echoes ((speaker? os).getD silent) := by
  induction os using List.reverseRecOn with
  | nil => exact ⟨rfl, rfl, rfl⟩
  | append_singleton os o ih =>
    rw [merge_concat, speaker?_concat, ← ih.weight]
    split
    · next h => exact add_echoes_new h
    · next h => exact (add_echoes_old (Nat.le_of_not_lt h)).trans ih

theorem merge_failure_first {os : List Outcome} {o : Outcome}
    (before : ∀ u ∈ os, u.isInvalid = false) (ho : o.isInvalid = true) (after : List Outcome) :
    (merge (os ++ o :: after)).Echoes o := by
  have hfirst : (os ++ o :: after).find? (·.valid = some false) = some o :=
    List.find?_eq_some_iff_append.2 ⟨ho, os, after, rfl, fun u hu => by
      rw [Bool.not_eq_true']
      exact before u hu⟩
  have hvoice := merge_echoes (os ++ o :: after)
  rw [speaker?, hfirst] at hvoice
  exact hvoice

@[simp] theorem add_required (m o : Outcome) :
    (m.add o).required = (m.required || o.required) := rfl

@[simp] theorem add_readOnly (m o : Outcome) :
    (m.add o).readOnly = (m.readOnly || o.readOnly) := rfl

@[simp] theorem add_writeOnly (m o : Outcome) :
    (m.add o).writeOnly = (m.writeOnly || o.writeOnly) := rfl

@[simp] theorem add_dependsOn (m o : Outcome) :
    (m.add o).dependsOn = m.dependsOn ++ o.dependsOn := rfl

@[simp] theorem add_annotations (m o : Outcome) :
    (m.add o).annotations = Dict.overlay m.annotations o.annotations := rfl

theorem merge_flags (os : List Outcome) : (merge os).required = os.any required ∧
    (merge os).readOnly = os.any readOnly ∧ (merge os).writeOnly = os.any writeOnly := by
  induction os using List.reverseRecOn with
  | nil => exact ⟨rfl, rfl, rfl⟩
  | append_singleton os o ih => simp [merge_concat, ih]

theorem merge_dependsOn (os : List Outcome) :
    (merge os).dependsOn = os.flatMap dependsOn := by
  induction os using List.reverseRecOn with
  | nil => rfl
  | append_singleton os o ih => simp [merge_concat, ih]

/-- All annotations are written over each other in their order. -/
theorem merge_annotations (os : List Outcome) :
    (merge os).annotations = Dict.ofEntries (os.flatMap annotations) := by
  induction os using List.reverseRecOn with
  | nil => rfl
  | append_singleton os o ih =>
    rw [merge_concat, add_annotations, ih, List.flatMap_append, Dict.ofEntries, Dict.ofEntries,
      Dict.overlay_append, List.flatMap_singleton]

/-- What folding leaves: no text without a verdict, and no annotation twice. -/
structure Folded (o : Outcome) : Prop where
  quiet : o.valid = none → o.message = none ∧ o.keyword = none
  keys : (Dict.keys o.annotations).Nodup

theorem Folded.add {m : Outcome} (h : m.Folded) (o : Outcome) : (m.add o).Folded where
  quiet hv := by
    have hnone : (m.add o).weight = 0 := weight_eq_zero.2 hv
    rw [weight_add] at hnone
    obtain ⟨hmv, hmm, hmk⟩ := add_echoes_old (m := m) (o := o) (by omega)
    rw [hmm, hmk]
    exact h.quiet (hmv ▸ hv)
  keys := Dict.keys_nodup_overlay h.keys _

theorem merge_folded (os : List Outcome) : (merge os).Folded := by
  induction os using List.reverseRecOn with
  | nil => exact ⟨fun _ => ⟨rfl, rfl⟩, List.nodup_nil⟩
  | append_singleton os o ih =>
    rw [merge_concat]
    exact ih.add o

section

variable {m m' o o' : Outcome}

theorem add_echoes_left (h : m.Echoes m') (o : Outcome) : (m.add o).Echoes (m'.add o) := by
  rcases Nat.lt_or_ge m.weight o.weight with hw | hw
  · exact (add_echoes_new hw).trans (add_echoes_new (h.weight ▸ hw)).symm
  · exact (add_echoes_old hw).trans (h.trans (add_echoes_old (h.weight ▸ hw)).symm)

theorem add_echoes_right (m : Outcome) (h : o.Echoes o') : (m.add o).Echoes (m.add o') := by
  rcases Nat.lt_or_ge m.weight o.weight with hw | hw
  · exact (add_echoes_new hw).trans (h.trans (add_echoes_new (h.weight ▸ hw)).symm)
  · exact (add_echoes_old hw).trans (add_echoes_old (h.weight ▸ hw)).symm

theorem add_assoc_echoes (m o p : Outcome) : ((m.add o).add p).Echoes (m.add (o.add p)) := by
  rcases Nat.lt_or_ge o.weight p.weight with hop | hop
  · refine Echoes.trans ?_ (add_echoes_right m (add_echoes_new hop)).symm
    rcases Nat.lt_or_ge m.weight o.weight with hmo | hmo
    · exact (add_echoes_left (add_echoes_new hmo) p).trans
        ((add_echoes_new hop).trans (add_echoes_new (Nat.lt_trans hmo hop)).symm)
    · exact add_echoes_left (add_echoes_old hmo) p
  · refine Echoes.trans (add_echoes_old ?_) (add_echoes_right m (add_echoes_old hop)).symm
    rw [weight_add]
    exact Nat.le_trans hop (Nat.le_max_right ..)

/-- Two outcomes with one voice that have gathered the same are the same. -/
theorem Echoes.eq (h : m.Echoes o) (required : m.required = o.required)
    (readOnly : m.readOnly = o.readOnly) (writeOnly : m.writeOnly = o.writeOnly)
    (dependsOn : m.dependsOn = o.dependsOn) (annotations : m.annotations = o.annotations) :
    m = o := by
  obtain ⟨hv, hm, hk⟩ := h
  cases m
  cases o
  simp_all

theorem add_assoc (m : Outcome) (h : o.Folded) (p : Outcome) :
    (m.add o).add p = m.add (o.add p) :=
  (add_assoc_echoes m o p).eq (Bool.or_assoc ..) (Bool.or_assoc ..) (Bool.or_assoc ..)
    (List.append_assoc ..) (Dict.overlay_overlay h.keys ..).symm

/-- Joined behind nothing, a folded outcome stays what it is. -/
theorem Folded.silent_add (h : o.Folded) : silent.add o = o := by
  have hvoice : (silent.add o).Echoes o := by
    rcases Nat.eq_zero_or_pos o.weight with hw | hw
    · have hv := weight_eq_zero.1 hw
      obtain ⟨hm, hk⟩ := h.quiet hv
      exact (add_echoes_old (Nat.le_of_eq hw)).trans ⟨hv.symm, hm.symm, hk.symm⟩
    · exact add_echoes_new hw
  exact hvoice.eq (Bool.false_or _) (Bool.false_or _) (Bool.false_or _) (List.nil_append _)
    (Dict.overlay_new (d := []) h.keys)

theorem Folded.merge_silent (h : o.Folded) : merge [silent, o] = o := by
  have hadd : merge [silent, o] = (silent.add silent).add o := rfl
  rw [hadd, add_silent, h.silent_add]

end

theorem merge_append (os ps : List Outcome) : merge (os ++ ps) = (merge os).add (merge ps) := by
  induction ps using List.reverseRecOn with
  | nil => rw [List.append_nil, merge_nil, add_silent]
  | append_singleton ps p ih =>
    rw [← List.append_assoc, merge_concat, merge_concat, ih, add_assoc _ (merge_folded ps)]

theorem merge_singleton_merge (os : List Outcome) : merge [merge os] = merge os :=
  (merge_folded os).silent_add

/-- **Folds nest.** Outcomes that stand next to each other can be folded first. -/
theorem merge_nested (os ps qs : List Outcome) :
    merge (os ++ merge ps :: qs) = merge (os ++ ps ++ qs) := by
  rw [List.append_cons, merge_append, merge_append os, merge_singleton_merge, ← merge_append,
    ← merge_append]

theorem merge_flatten (parts : List (List Outcome)) :
    merge (parts.map merge) = merge parts.flatten := by
  induction parts with
  | nil => rfl
  | cons os parts ih =>
    rw [List.map_cons, ← List.nil_append (_ :: _), merge_nested, List.nil_append, merge_append, ih,
      ← merge_append, List.flatten_cons]

/-- **What a fold says.** The verdict is false if one is false, else true if one is true, else none;
text and keyword are those of the outcome that speaks for all; the flags are raised if one outcome
raises them; dependencies are lined up; annotations have their keys in the order in which they
appear first, each with the value that is given last. And folds nest: what is folded in parts comes
to the same. -/
theorem merge_exact (os : List Outcome) (parts : List (List Outcome)) :
    ((merge os).valid = Verdict.conjunction (os.map valid) ∧
      (merge os).message = (speaker? os).bind message ∧
      (merge os).keyword = (speaker? os).bind keyword) ∧
    ((merge os).required = os.any required ∧ (merge os).readOnly = os.any readOnly ∧
      (merge os).writeOnly = os.any writeOnly) ∧
    (merge os).dependsOn = os.flatMap dependsOn ∧
    (Dict.keys (merge os).annotations = (os.flatMap (·.annotations.keys)).eraseDups ∧
      ∀ k, Dict.get? k (merge os).annotations = Dict.get? k (os.flatMap annotations).reverse) ∧
    merge (parts.map merge) = merge parts.flatten := by
  obtain ⟨-, hm, hk⟩ := merge_echoes os
  refine ⟨⟨merge_valid os, ?_, ?_⟩, merge_flags os, merge_dependsOn os, ⟨?_, fun k => ?_⟩,
    merge_flatten parts⟩
  · rw [hm]
    cases speaker? os <;> rfl
  · rw [hk]
    cases speaker? os <;> rfl
  · rw [merge_annotations, Dict.keys_ofEntries]
    exact congrArg List.eraseDups (List.map_flatMap ..)
  · rw [merge_annotations, Dict.get?_ofEntries]

end Outcome

end Conform

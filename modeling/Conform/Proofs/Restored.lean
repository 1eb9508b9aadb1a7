import Conform.Proofs.Dirty

/-!
# What a reset restores

A reset writes the value that the place had at first, by the same way as any other write. If that
is refused, the place stays as it is. Else its flags are cleared and it has its first value again,
with one exception: the slot of an array that was undefined at first cannot be made undefined
again. It is null then.
-/

namespace Conform

namespace Model

variable {m : Model} {r : Route}

/-- Whether a slot of an array that was undefined at first has a value. -/
def Filled (m : Model) (r : Route) : Prop :=
  m.initialValue r = none ∧ (m.value r).isSome ∧ m.tree.IsSlot r

theorem reset_tree (m : Model) (r : Route) :
    (m.reset r).1.tree = (m.write r (m.initialValue r)).model.tree := by
  unfold reset
  dsimp only
  split <;> rfl

theorem write_initial (m : Model) (r : Route) (v : Option Value) :
    (m.write r v).model.initial = m.initial := by
  unfold write
  split
  · rfl
  · dsimp only
    split <;> rfl

theorem reset_initial (m : Model) (r : Route) : (m.reset r).1.initial = m.initial := by
  have hw := m.write_initial r (m.initialValue r)
  unfold reset
  dsimp only
  split <;> exact hw

/-- A reset that is not refused clears the flags of its path. -/
theorem reset_flags (accepted : (m.reset r).2 = none) :
    ((m.reset r).1.entry r.text).dirty = false ∧ ((m.reset r).1.entry r.text).touched = false ∧
      ((m.reset r).1.entry r.text).validated = false := by
  unfold reset at accepted ⊢
  dsimp only at accepted ⊢
  split at accepted
  · cases accepted
  · simp [entry_update]

theorem reset_of_same (h : sameValue? (m.value r) (m.initialValue r) = true) :
    (m.reset r).2 = none ∧ (m.reset r).1.tree = m.tree := by
  rw [reset_tree, reset, write_same h]
  exact ⟨rfl, rfl⟩

theorem reset_of_other (h : sameValue? (m.value r) (m.initialValue r) = false) :
    (m.reset r).2 = (Tree.set m.tree r (m.initialValue r)).refusal ∧
      (m.reset r).1.tree = (Tree.set m.tree r (m.initialValue r)).result := by
  refine ⟨?_, (m.reset_tree r).trans (write_new_tree h)⟩
  cases hr : (Tree.set m.tree r (m.initialValue r)).refusal with
  | none => rw [reset, (write_done h hr).1]
  | some e => rw [reset, write_refused h hr]

/-- A reset that is refused leaves all records and the value of its place. -/
theorem reset_refused {e : PathError} (h : (m.reset r).2 = some e) :
    (∀ q, (m.reset r).1.entry q = m.entry q) ∧ (m.reset r).1.value r = m.value r := by
  cases hsame : sameValue? (m.value r) (m.initialValue r) with
  | true => cases h.symm.trans (reset_of_same hsame).1
  | false =>
    obtain ⟨hrefusal, htree⟩ := reset_of_other hsame
    refine ⟨fun q => ?_, ?_⟩
    · rw [reset, write_refused hsame (hrefusal.symm.trans h), entry, (m.write_records r _).records]
      rfl
    · rw [value, htree]
      exact Tree.get?_set_refused (hrefusal.symm.trans h)

/-- What a reset that is not refused leaves at its place. -/
theorem reset_value (distinct : m.tree.Distinct) (initial : m.initial.Distinct)
    (accepted : (m.reset r).2 = none) :
    (m.Filled r → (m.reset r).1.value r = some .null) ∧
      (¬m.Filled r → sameValue? ((m.reset r).1.value r) (m.initialValue r) = true) := by
  cases hsame : sameValue? (m.value r) (m.initialValue r) with
  | true =>
    have hvalue : (m.reset r).1.value r = m.value r := by
      rw [value, (reset_of_same hsame).2]
      rfl
    rw [hvalue]
    refine ⟨?_, fun _ => hsame⟩
    rintro ⟨hnone, hsome, -⟩
    rw [hnone, sameValue?_none, Option.isNone_iff_eq_none] at hsame
    rw [hsame] at hsome
    cases hsome
  | false =>
    obtain ⟨hrefusal, htree⟩ := reset_of_other hsame
    rw [accepted] at hrefusal
    rw [value, htree]
    cases hinitial : m.initialValue r with
    | some w =>
      rw [hinitial] at hrefusal
      rw [Tree.get?_set_self hrefusal.symm]
      refine ⟨fun filled => ?_, fun _ => ?_⟩
      · cases hinitial.symm.trans filled.1
      · exact (Tree.distinct_hereditary.get? initial r w hinitial).same_self
    | none =>
      have hsome : (m.value r).isSome := by
        rw [hinitial, sameValue?_none] at hsame
        exact Option.isNone_eq_false_iff.1 hsame
      rw [hinitial] at hrefusal
      obtain ⟨hslot, hgone⟩ := Tree.get?_set_none distinct hsome hrefusal.symm
      refine ⟨fun filled => hslot filled.2.2, fun open_ => ?_⟩
      rw [hgone fun h => open_ ⟨hinitial, hsome, h⟩]
      rfl

/-- What sets, resets and touches at any places make of a model. -/
inductive Handled (m : Model) : Model → Prop where
  | nil : Handled m m
  | set {m' : Model} (h : Handled m m') (r : Route) (v : Option Value)
      (distinct : Tree.Distinct v) : Handled m (m'.setValue r v).1
  | reset {m' : Model} (h : Handled m m') (r : Route) : Handled m (m'.reset r).1
  | touch {m' : Model} (h : Handled m m') (r : Route) : Handled m (m'.touch r)

theorem setValue_initial (m : Model) (r : Route) (v : Option Value) :
    (m.setValue r v).1.initial = m.initial := by
  have hw := m.write_initial r v
  unfold setValue
  dsimp only
  split <;> exact hw

theorem Handled.initial {m' : Model} (h : m.Handled m') : m'.initial = m.initial := by
  induction h with
  | nil => rfl
  | set _ r v _ ih => exact (setValue_initial _ r v).trans ih
  | reset _ r ih => exact (reset_initial _ r).trans ih
  | touch _ r ih => exact ih

theorem write_distinct (h : m.tree.Distinct) {v : Option Value} (hv : Tree.Distinct v) :
    (m.write r v).model.tree.Distinct :=
  write_tree h (Tree.distinct_hereditary.write h (fun _ _ => trivial) hv)

theorem Handled.distinct {m' : Model} (h : m.Handled m') (tree : m.tree.Distinct)
    (initial : m.initial.Distinct) : m'.tree.Distinct := by
  induction h with
  | nil => exact tree
  | set _ r v distinct ih =>
    rw [setValue_tree]
    exact write_distinct ih distinct
  | @reset m' h r ih =>
    rw [reset_tree]
    refine write_distinct ih (Tree.distinct_hereditary.get? ?_ r)
    rw [h.initial]
    exact initial
  | touch _ r ih => exact ih

/-- **What a reset restores.** Whatever references have been set, reset and touched: a reset that is
not refused clears the flags of its place and gives it the value that it had at first, be it none;
but a slot of an array that was undefined at first and has a value becomes null, which is a change.
A reset that is refused leaves the flags and the value as they are. -/
theorem reset_restores {rule : Rule} {data : Tree} {config : ModelConfig} {m : Model}
    (distinct : data.Distinct) (h : (ofRule rule data config).Handled m) (r : Route) :
    ((m.reset r).2 = none →
      (((m.reset r).1.entry r.text).dirty = false ∧ ((m.reset r).1.entry r.text).touched = false ∧
        ((m.reset r).1.entry r.text).validated = false) ∧
      (¬m.Filled r → sameValue? ((m.reset r).1.value r) (data.get? r) = true ∧
        (m.reset r).1.changed r = false) ∧
      (m.Filled r → (m.reset r).1.value r = some .null ∧ (m.reset r).1.changed r = true)) ∧
    ((m.reset r).2 ≠ none →
      (∀ q, (m.reset r).1.entry q = m.entry q) ∧ (m.reset r).1.value r = m.value r) := by
  have hinitial : m.initial = data := h.initial
  have hfirst : (m.reset r).1.initialValue r = data.get? r := by
    rw [initialValue, reset_initial, hinitial]
  refine ⟨fun accepted => ⟨reset_flags accepted, ?_⟩, fun refused => ?_⟩
  · obtain ⟨hslot, hrestored⟩ := reset_value (h.distinct distinct distinct)
      (hinitial.symm ▸ distinct) accepted
    have hchanged : (m.reset r).1.changed r =
        !sameValue? ((m.reset r).1.value r) (data.get? r) := by
      rw [changed, hfirst]
    refine ⟨fun open_ => ?_, fun filled => ?_⟩
    · have hsame := hrestored open_
      rw [initialValue, hinitial] at hsame
      exact ⟨hsame, by rw [hchanged, hsame]; rfl⟩
    · have hnone := filled.1
      rw [initialValue, hinitial] at hnone
      exact ⟨hslot filled, by rw [hchanged, hslot filled, hnone]; rfl⟩
  · obtain ⟨e, he⟩ := Option.ne_none_iff_exists'.1 refused
    exact reset_refused he

/-- A member that is set to another value and then reset. -/
theorem reset_restores_member : ∃ m,
    (ofRule Overlap.memberRule (some (.object [("a", .int 1)])) {}).Handled m ∧
    (m.entry "/a").dirty = true ∧ m.changed [.key "a"] = true ∧
    ((m.reset [.key "a"]).1.entry "/a").dirty = false ∧
    (m.reset [.key "a"]).1.changed [.key "a"] = false := by
  obtain ⟨m, hm⟩ : ∃ m, m = ((ofRule Overlap.memberRule (some (.object [("a", .int 1)]))
    {}).setValue [.key "a"] (some (.int 2))).1 := ⟨_, rfl⟩
  have distinct : Tree.Distinct (some (.object [("a", .int 1)])) := by
    refine Tree.all_some.2 (.object (by decide) fun f hf => ?_)
    cases List.mem_singleton.1 hf
    exact .number _
  have handled : (ofRule Overlap.memberRule (some (.object [("a", .int 1)])) {}).Handled m :=
    hm ▸ .set .nil [.key "a"] (some (.int 2)) (Tree.all_some.2 (.number _))
  have accepted : (m.reset [.key "a"]).2 = none := by
    rw [hm]
    decide +kernel
  obtain ⟨flags, restored, -⟩ := (reset_restores distinct handled [.key "a"]).1 accepted
  have open_ : ¬m.Filled [.key "a"] := by
    rintro ⟨hnone, -⟩
    rw [hm] at hnone
    cases hnone
  refine ⟨m, handled, ?_, ?_, flags.1, (restored open_).2⟩
  · rw [hm]
    decide +kernel
  · rw [hm]
    decide +kernel

/-- **A reset can leave another value.** The empty array gets an item, and the item is reset. -/
theorem reset_leaves_null :
    ¬∀ (schema : Value) (rule : Rule) (data : Tree) (config : ModelConfig) (m : Model) (r : Route),
      compile Registry.standard schema = .ok rule → data.Distinct →
      (ofRule rule data config).Handled m → r.Addressable → (m.reset r).2 = none →
      sameValue? ((m.reset r).1.value r) (data.get? r) = true ∧
        (m.reset r).1.changed r = false := by
  intro h
  have distinct : Tree.Distinct (some (.array [])) :=
    Tree.all_some.2 (.array fun _ hv => nomatch hv)
  have handled : (ofRule (.node "#" [.leaf (.annotations none [] {})] {} {})
      (some (.array [])) {}).Handled _ :=
    .set .nil [.index 0] (some (.int 5)) (Tree.all_some.2 (.number _))
  have addressable : Route.Addressable [.index 0] :=
    List.forall_mem_singleton.2 (Segment.addressable_index (by decide))
  have same := (h (.object []) _ _ {} _ _ rfl distinct handled addressable (by decide +kernel)).2
  revert same
  decide +kernel

end Model

end Conform

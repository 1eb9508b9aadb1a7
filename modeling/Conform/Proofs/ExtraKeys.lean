import Conform.Proofs.Absent
import Conform.Proofs.Hosts

/-!
# Extra keys

With removal on, a check of additional keys takes the unknown ones away, one write for each. The key
is made a step of a route for that, be it an index or a key, and the step comes back to its text at
the object: whatever the keys are, the writes meet the fields that they were made for. What is left
is the object of the known keys, and a place that does not lead through the object has not changed.
-/

namespace Conform

namespace Dict

variable {β : Type}

/-- What is left of a dictionary after keys have been erased one after another. -/
def eraseAll (ks : List String) (d : Dict β) : Dict β := ks.foldl (fun d k => d.erase k) d

theorem eraseAll_cons (k : String) (ks : List String) (d : Dict β) :
    d.eraseAll (k :: ks) = (d.erase k).eraseAll ks := rfl

theorem eraseAll_of_not_mem {p : String × β} {ks : List String} (h : p.1 ∉ ks) (d : Dict β) :
    eraseAll ks (p :: d) = p :: d.eraseAll ks := by
  induction ks generalizing d with
  | nil => rfl
  | cons k ks ih =>
    rw [List.mem_cons, not_or] at h
    rw [eraseAll_cons, eraseAll_cons, erase, if_neg h.1]
    exact ih h.2 (d.erase k)

/-- To erase all keys of a kind, each as often as it is there, leaves the entries of the others. -/
theorem eraseAll_filter (extra : String → Bool) (d : Dict β) :
    d.eraseAll (d.keys.filter extra) = d.filter (fun p => !extra p.1) := by
  induction d with
  | nil => rfl
  | cons p d ih =>
    by_cases hp : extra p.1
    · have hkeys : (keys (p :: d)).filter extra = p.1 :: (keys d).filter extra :=
        List.filter_cons_of_pos hp
      rw [hkeys, eraseAll_cons, erase, if_pos rfl, ih, List.filter_cons_of_neg (by simp [hp])]
    · have hkeys : (keys (p :: d)).filter extra = (keys d).filter extra :=
        List.filter_cons_of_neg hp
      have hnot : p.1 ∉ (keys d).filter extra := fun hm => hp (List.mem_filter.1 hm).2
      rw [hkeys, eraseAll_of_not_mem hnot, ih, List.filter_cons_of_pos (by simp [hp])]

end Dict

theorem Route.childNamed_append (a r : Route) (k : String) :
    (a ++ r).childNamed k = a ++ r.childNamed k :=
  List.append_assoc a r _

namespace Tree

variable {t : Tree} {r : Route} {d : Dict Value}

/-- The removal of a field is a write of the object without it. -/
theorem set_field_none (object : t.get? r = some (.object d)) (k : String) :
    set t (r.childNamed k) none = ⟨(set t r (some (.object (d.erase k)))).result, none⟩ := by
  have admits : t.Admits (r.childNamed k) := by
    rw [Route.childNamed, admits_child, object]
    exact ⟨admits_of_get? object, trivial⟩
  have result : (set t (r.childNamed k) none).result =
      (set t r (some (.object (d.erase k)))).result := by
    rw [Route.childNamed, Route.child, set_none_child object, without_object, Segment.text_ofText]
  rw [← result, ← admits.refusal none]

end Tree

section

variable {h : Host} {q : Route} {d : Dict Value} {k : String}

theorem Host.over_put_field (object : h.tree.get? q = some (.object d)) (hk : k ∈ d.keys) :
    h.Over q (.object (d.erase k)) (h.put ((h.base ++ q).childNamed k) none) where
  base := h.base_put _ _
  tree := by
    rw [Route.childNamed_append, tree_put (Tree.new_removal object hk),
      Tree.set_field_none object]

namespace Leaf

/-- Keys of an object are removed, and each of the writes is done. -/
theorem removing_returns {ks : List String} (object : h.tree.get? q = some (.object d))
    (there : ks.Sublist d.keys) : ∃ h', h.Over q (.object (d.eraseAll ks)) h' ∧
      ∀ o h₁, (removing (h.base ++ q) ks).Returns h o h₁ ↔ o = Outcome.pass ∧ h₁ = h' := by
  induction ks generalizing h d with
  | nil =>
    refine ⟨h, .refl object, fun o h₁ => ?_⟩
    rw [removing, Walk.returns_done_iff, eq_comm]
  | cons k ks ih =>
    have hk : k ∈ d.keys := there.subset List.mem_cons_self
    have hover := Host.over_put_field object hk
    obtain ⟨h', hrest, hreturns⟩ := ih (hover.get?_self object) (Dict.sublist_keys_erase there)
    refine ⟨h', hover.trans hrest, fun o h₁ => ?_⟩
    have accepted : (Tree.set h.tree (q.childNamed k) none).refusal = none := by
      rw [Tree.set_field_none object]
    rw [← hreturns, hover.base, removing, Route.childNamed_append,
      Walk.returns_put_iff (Tree.new_removal object hk) accepted]

variable {options : EvalOptions} {known : List String} {route : Route} {v : Value}

/-- With removal on, the check is the removal of the extra keys. -/
theorem additionalKeysWalk_returns_iff (enabled : options.removeAdditional = true)
    (served : h.view route = some v) {o : Outcome} {h' : Host} :
    (additionalKeysWalk options known route).Returns h o h' ↔
      (removing route (extraKeys known v)).Returns h o h' := by
  rw [additionalKeysWalk, Walk.returns_read_iff (Host.serves_of_view served), served]
  dsimp only
  cases extraKeys known v with
  | nil => rfl
  | cons k ks => simp only [enabled, if_true]

theorem extraKeys_filter (known : List String) (d : Dict Value) :
    extraKeys known (.object (d.filter fun p => known.contains p.1)) = [] := by
  refine List.filter_eq_nil_iff.2 fun k hk => ?_
  obtain ⟨p, hp, rfl⟩ := List.mem_map.1 hk
  simpa using (List.mem_filter.1 hp).2

end Leaf

end

/-- **Extra keys are removed exactly.** With removal on, a check of additional keys on an object, be
it alone, in a run of a model or on a copy, passes and comes to nothing else. It leaves at its place
the entries of the known keys in their order. Each place beside it is as it was, and to write the
object back gives the whole tree back. The check, run again, passes and changes nothing. -/
theorem extra_keys_removed {options : EvalOptions} (enabled : options.removeAdditional = true)
    (known : List String) {route : Route} {h : Host} {d : Dict Value}
    (served : h.view route = some (.object d)) :
    let check := Leaf.walk options route (.additionalKeys known false)
    let kept : Dict Value := d.filter fun p => known.contains p.1
    ∃ h', (∀ o h₁, check.Returns h o h₁ ↔ o = Outcome.pass ∧ h₁ = h') ∧
      h'.view route = some (.object kept) ∧
      (∀ r, route.Apart r → h'.view r = h.view r) ∧
      (∃ q, route = h.base ++ q ∧ h'.base = h.base ∧
        h'.tree = (Tree.set h.tree q (some (.object kept))).result ∧
        (Tree.set h'.tree q (some (.object d))).result = h.tree) ∧
      ∀ o h₁, check.Returns h' o h₁ ↔ o = Outcome.pass ∧ h₁ = h' := by
  intro check kept
  obtain ⟨q, rfl, object⟩ := Host.exists_of_view served
  have hkept : d.eraseAll (Leaf.extraKeys known (.object d)) = kept := by
    rw [Leaf.extraKeys, Dict.eraseAll_filter]
    simp only [Bool.not_not, kept]
  obtain ⟨h', hover, hreturns⟩ := Leaf.removing_returns object
    (show (Leaf.extraKeys known (.object d)).Sublist d.keys from List.filter_sublist)
  rw [hkept] at hover
  have after := hover.view_self object
  refine ⟨h', fun o h₁ => ?_, after, fun r apart => hover.view_apart object apart,
    ⟨q, rfl, hover.base, hover.tree, hover.back object⟩, fun o h₁ => ?_⟩
  · exact (Leaf.additionalKeysWalk_returns_iff enabled served).trans (hreturns o h₁)
  · refine (Leaf.additionalKeysWalk_returns_iff enabled after).trans ?_
    rw [Leaf.extraKeys_filter, Leaf.removing, Walk.returns_done_iff, eq_comm]

/-- Fields whose keys are indices, nearly indices, or nothing that a path could lead over. -/
def oddFields : Dict Value :=
  [("007", .int 1), ("18446744073709551616", .int 2), ("keep", .int 3), ("", .int 4),
    ("a/b", .int 5), ("é", .int 6), ("7", .int 7), (".", .int 8), ("ü", .int 9)]

/-- Two of the fields stay, one of them behind others that go, and the item beside the object stays
null. -/
theorem extra_keys_removed_odd : ∃ h',
    (∀ o h₁, (Leaf.walk { removeAdditional := true } [.index 0]
        (.additionalKeys ["é", "absent", "keep"] false)).Returns
      (.alone (some (.array [.object oddFields, .null]))) o h₁ ↔ o = Outcome.pass ∧ h₁ = h') ∧
    h'.view [.index 0] = some (.object [("keep", .int 3), ("é", .int 6)]) ∧
    h'.view [.index 1] = some .null ∧ h'.view [.index 2] = none := by
  have served : (Host.alone (some (.array [.object oddFields, .null]))).view [.index 0] =
      some (.object oddFields) := rfl
  have apart : ∀ i : Nat, i ≠ 0 → Route.Apart [.index 0] [.index i] :=
    fun i hi => .inl fun h => hi (Segment.eq_of_text_index h).symm
  have enabled : ({ removeAdditional := true } : EvalOptions).removeAdditional = true := rfl
  obtain ⟨h', hreturns, hkept, hbeside, -, -⟩ :=
    extra_keys_removed enabled ["é", "absent", "keep"] served
  refine ⟨h', hreturns, hkept, ?_, ?_⟩
  · rw [hbeside _ (apart 1 (by decide))]
    rfl
  · rw [hbeside _ (apart 2 (by decide))]
    rfl

end Conform

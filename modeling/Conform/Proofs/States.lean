import Conform.Model.Validate
import Conform.Proofs.Paths

/-!
# What operations do to states

Of the records of a model, overlapping runs see the state at each path and whether a newer run has
cleared the ground there. Every operation is described by what it does to these two, so that no
later proof looks into the maps.
-/

namespace Conform

namespace Records

/-- The state on record at a path, if there is a record. -/
def state? (r : Records) (path : String) : Option State := (r.get? path).map Entry.state

theorem get_state (r : Records) (path : String) :
    (r.get path).state = (r.state? path).getD {} := by
  cases h : r.get? path <;> simp [get, state?, h]

theorem mem_paths {r : Records} {path : String} :
    path ∈ r.paths ↔ (r.state? path).isSome = true := by
  rw [paths, Std.TreeMap.mem_keys, Std.TreeMap.mem_iff_isSome_getElem?, state?, Option.isSome_map]
  rfl

/-- A change of the record at one path, seen by the states. -/
theorem state?_update (r : Records) (path q : String) (f : Entry → Entry) :
    (r.update path f).state? q =
      if path = q then some (f (r.get path)).state else r.state? q := by
  by_cases h : path = q
  · subst q
    simp [state?, get?_update_self]
  · simp [state?, get?_update_ne r h, h]

theorem state?_rollBack (r : Records) (path q : String) (n : Nat) (previous : State) :
    (r.rollBack path n previous).state? q =
      if path = q ∧ ∃ s, r.state? path = some s ∧ s.valLock = n then some previous
      else r.state? q := by
  unfold rollBack
  cases he : r.get? path with
  | none => simp [state?, he]
  | some e =>
    by_cases hn : e.state.valLock = n
    · simp [hn, state?_update, show r.state? path = some e.state by simp [state?, he]]
    · simp [hn, show r.state? path = some e.state by simp [state?, he]]

theorem get?_evict (r : Records) (n : Nat) (scopes : List String) (keep : String → Bool)
    (q : String) :
    (r.evict n scopes keep).get? q =
      (r.get? q).filter fun e =>
        n < e.state.valLock || keep q || !scopes.any (Path.isAtOrUnder q) := by
  simp only [evict, get?, Std.TreeMap.getElem?_filter']

theorem state?_evict (r : Records) (n : Nat) (scopes : List String) (keep : String → Bool)
    (q : String) :
    (r.evict n scopes keep).state? q =
      (r.state? q).filter fun s =>
        n < s.valLock || keep q || !scopes.any (Path.isAtOrUnder q) := by
  rw [state?, state?, get?_evict]
  cases r.get? q with
  | none => rfl
  | some e => simp only [Option.filter_some, Option.map_some]; split <;> rfl

theorem superseded_iff (r : Records) (path : String) (n : Nat) :
    r.superseded path n = true ↔
      ∃ scope k, r.evicted[scope]? = some k ∧ n < k ∧ Path.isAtOrUnder path scope = true := by
  simp only [superseded, List.any_eq_true, Bool.and_eq_true, decide_eq_true_eq, Prod.exists,
    Std.TreeMap.mem_toList_iff_getElem?_eq_some]

/-- What is cleared for a run is cleared for every older one. -/
theorem superseded_of_le {r : Records} {path : String} {k n : Nat} (h : k ≤ n)
    (hn : r.superseded path n = true) : r.superseded path k = true := by
  obtain ⟨scope, j, hj, hlt, hu⟩ := (superseded_iff r path n).1 hn
  exact (superseded_iff r path k).2 ⟨scope, j, hj, by omega, hu⟩

/-- Noting that run `n` cleared one scope. -/
theorem superseded_note (r : Records) (n k : Nat) (scope path : String) :
    (Records.superseded
        ⟨r.entries, r.evicted.insert scope (max (r.evicted[scope]?.getD 0) n)⟩ path k = true) ↔
      r.superseded path k = true ∨ (k < n ∧ Path.isAtOrUnder path scope = true) := by
  simp only [superseded_iff, Std.TreeMap.getElem?_insert, Std.LawfulEqCmp.compare_eq_iff_eq]
  constructor
  · rintro ⟨s, j, hj, hlt, hu⟩
    by_cases hs : scope = s
    · subst s
      simp only [if_true, Option.some.injEq] at hj
      by_cases hk : k < n
      · exact .inr ⟨hk, hu⟩
      · cases he : r.evicted[scope]? with
        | none => simp [he] at hj; omega
        | some i =>
          simp [he] at hj
          exact .inl ⟨scope, i, he, by omega, hu⟩
    · simp only [if_neg hs] at hj
      exact .inl ⟨s, j, hj, hlt, hu⟩
  · rintro (⟨s, j, hj, hlt, hu⟩ | ⟨hk, hu⟩)
    · by_cases hs : scope = s
      · subst s
        exact ⟨scope, max j n, by simp [hj], by omega, hu⟩
      · exact ⟨s, j, by simp [hs, hj], hlt, hu⟩
    · exact ⟨scope, max (r.evicted[scope]?.getD 0) n, by simp, by omega, hu⟩

/-- An eviction clears its scopes for every run older than its own. -/
theorem superseded_evict (r : Records) (n k : Nat) (scopes : List String) (keep : String → Bool)
    (path : String) :
    (r.evict n scopes keep).superseded path k = true ↔
      r.superseded path k = true ∨ (k < n ∧ scopes.any (Path.isAtOrUnder path) = true) := by
  have main : ∀ (r : Records), Records.superseded ⟨r.entries, scopes.foldl
        (fun evicted scope => evicted.insert scope (max (evicted[scope]?.getD 0) n)) r.evicted⟩
        path k = true ↔
      r.superseded path k = true ∨ (k < n ∧ scopes.any (Path.isAtOrUnder path) = true) := by
    induction scopes with
    | nil => intro r; simp
    | cons scope scopes ih =>
      intro r
      have h := ih ⟨r.entries, r.evicted.insert scope (max (r.evicted[scope]?.getD 0) n)⟩
      rw [List.foldl_cons, h, superseded_note, List.any_cons, Bool.or_eq_true, or_assoc,
        ← and_or_left]
  exact main r

end Records

namespace Model

/-- The state on record at a path, if there is a record. -/
def state? (m : Model) (path : String) : Option State := m.records.state? path

theorem entry_state (m : Model) (path : String) :
    (m.entry path).state = (m.state? path).getD {} := m.records.get_state path

/-- What bounds the stamp of a record bounds the stamp that is read there. -/
theorem valLock_le_of_record {m : Model} {path : String} {n : Nat}
    (h : ∀ st, m.state? path = some st → st.valLock ≤ n) :
    ((m.state? path).getD {}).valLock ≤ n := by
  cases hst : m.state? path with
  | none => exact Nat.zero_le _
  | some st => exact h st hst

/-- A change that clears no ground, gives out no number to a run, and keeps the rule. -/
structure Kept (m m' : Model) : Prop where
  cleared : m'.records.superseded = m.records.superseded
  runs : m'.runs = m.runs
  rule : m'.rule = m.rule

theorem Kept.refl (m : Model) : Kept m m := ⟨rfl, rfl, rfl⟩

theorem Kept.trans {m m' m'' : Model} (h : Kept m m') (h' : Kept m' m'') : Kept m m'' :=
  ⟨h'.cleared.trans h.cleared, h'.runs.trans h.runs, h'.rule.trans h.rule⟩

/-- A change that leaves the records and the counters alone. -/
structure SameRecords (m m' : Model) : Prop extends Kept m m' where
  records : m'.records = m.records
  errors : m'.errors = m.errors

theorem SameRecords.refl (m : Model) : SameRecords m m := ⟨.refl m, rfl, rfl⟩

theorem SameRecords.state? {m m' : Model} (h : SameRecords m m') (q : String) :
    m'.state? q = m.state? q := by rw [Model.state?, Model.state?, h.records]

theorem write_records (m : Model) (r : Route) (v : Option Value) :
    SameRecords m (m.write r v).model := by
  unfold write
  split
  · exact .refl m
  · dsimp only
    split <;> exact ⟨⟨rfl, rfl, rfl⟩, rfl, rfl⟩

/-- A change that no state, number or cleared scope shows. A record may have been made. -/
structure SameStates (m m' : Model) : Prop extends Kept m m' where
  states : ∀ q, m'.state? q = m.state? q ∨ m.state? q = none ∧ m'.state? q = some {}
  errors : m'.errors = m.errors

namespace SameStates

theorem of_records {m m' : Model} (h : SameRecords m m') : SameStates m m' :=
  ⟨h.toKept, fun q => .inl (h.state? q), h.errors⟩

/-- A change of flags makes the record that it changes. -/
theorem update {m m' : Model} (h : SameStates m m') (path : String) (f : Entry → Entry)
    (hf : ∀ e, (f e).state = e.state) : SameStates m (m'.update path f) := by
  refine ⟨⟨h.cleared, h.runs, h.rule⟩, fun q => ?_, h.errors⟩
  have hq : (m'.update path f).state? q =
      if path = q then some ((m'.state? path).getD {}) else m'.state? q := by
    rw [← m'.entry_state, state?, Model.update]
    simp only [Records.state?_update, hf]
    rfl
  by_cases hp : path = q
  · subst q
    rw [hq, if_pos rfl]
    rcases h.states path with hs | ⟨hs, hs'⟩
    · cases he : m.state? path with
      | none => right; simp [hs, he]
      | some s => left; simp [hs, he]
    · right; simp [hs, hs']
  · rw [hq, if_neg hp]
    exact h.states q

end SameStates

theorem setValue_states (m : Model) (r : Route) (v : Option Value) :
    SameStates m (m.setValue r v).1 := by
  have h := SameStates.of_records (m.write_records r v)
  unfold setValue
  dsimp only
  split
  · exact h
  · exact h
  · exact h.update _ _ fun _ => rfl

theorem reset_states (m : Model) (r : Route) : SameStates m (m.reset r).1 := by
  have h := SameStates.of_records (m.write_records r (m.initialValue r))
  unfold reset
  dsimp only
  split
  · exact h
  · exact h.update _ _ fun _ => rfl

theorem touch_states (m : Model) (r : Route) : SameStates m (m.touch r) :=
  (SameStates.of_records (.refl m)).update _ _ fun _ => rfl

theorem mark_states (m : Model) (r : Route) : SameStates m (m.mark r) :=
  (SameStates.of_records (.refl m)).update _ _ fun _ => rfl

theorem mayCommit_iff (m : Model) (path : String) (n : Nat) :
    m.mayCommit path n = true ↔
      m.records.superseded path n = false ∧ ((m.state? path).getD {}).valLock ≤ n := by
  rw [← m.entry_state]
  simp [mayCommit]

theorem commit_state? (m : Model) (path q : String) (s : State) :
    (m.commit path s).state? q =
      if path = q ∧ m.mayCommit path s.valLock = true then some s else m.state? q := by
  unfold commit
  by_cases h : m.mayCommit path s.valLock = true
  · rw [if_pos h]
    simp only [h, and_true, state?, publish, Model.update, Records.state?_update]
  · rw [if_neg h]
    simp [h]

theorem commit_kept (m : Model) (path : String) (s : State) : Kept m (m.commit path s) := by
  unfold commit
  split <;> exact ⟨rfl, rfl, rfl⟩

theorem rollBack_state? (m : Model) (path q : String) (n : Nat) (previous : State) :
    (m.rollBack path n previous).state? q =
      if path = q ∧ ∃ s, m.state? path = some s ∧ s.valLock = n then some previous
      else m.state? q := m.records.state?_rollBack path q n previous

theorem rollBack_kept (m : Model) (path : String) (n : Nat) (previous : State) :
    Kept m (m.rollBack path n previous) := by
  refine ⟨?_, rfl, rfl⟩
  simp only [rollBack, Records.rollBack]
  split
  · split <;> rfl
  · rfl

theorem evict_state? (m : Model) (n : Nat) (scopes : List String) (keep : String → Bool)
    (q : String) :
    (m.evict n scopes keep).state? q =
      (m.state? q).filter fun s =>
        n < s.valLock || keep q || !scopes.any (Path.isAtOrUnder q) :=
  m.records.state?_evict n scopes keep q

end Model

end Conform

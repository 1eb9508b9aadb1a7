/-!
# Dictionaries in insertion order

A dictionary is the list of its entries. Writing a key that is there keeps its place, a new key
goes to the end, and erasing a key keeps the order of the rest. A list may hold a key twice; only
the first entry counts then, and no operation here makes such a list out of one without.
-/

namespace Conform

abbrev Dict (β : Type) := List (String × β)

namespace Dict

variable {β : Type}

def get? (k : String) : Dict β → Option β
  | [] => none
  | (k', v) :: d => if k' = k then some v else get? k d

def contains (k : String) (d : Dict β) : Bool := (d.get? k).isSome

def keys (d : Dict β) : List String := d.map Prod.fst

def insert (k : String) (v : β) : Dict β → Dict β
  | [] => [(k, v)]
  | (k', v') :: d => if k' = k then (k, v) :: d else (k', v') :: insert k v d

def erase (k : String) : Dict β → Dict β
  | [] => []
  | (k', v') :: d => if k' = k then d else (k', v') :: erase k d

/-- Every entry of `e` written over `d`, so that the later dictionary wins. -/
def overlay (d e : Dict β) : Dict β := e.foldl (fun d p => d.insert p.1 p.2) d

/-- The dictionary of a list of entries in which a later entry of a key wins. -/
def ofEntries (entries : List (String × β)) : Dict β := overlay [] entries

/-- The same keys in the same order, each with the value that `f` makes of its own, if `f` makes
one of all of them. -/
def traverse? {γ : Type} (f : β → Option γ) : Dict β → Option (Dict γ)
  | [] => some []
  | (k, v) :: d =>
    match f v, traverse? f d with
    | some w, some e => some ((k, w) :: e)
    | _, _ => none

@[simp] theorem get?_nil (k : String) : get? k ([] : Dict β) = none := rfl

@[simp] theorem get?_cons_self (k : String) (v : β) (d : Dict β) :
    get? k ((k, v) :: d) = some v := by simp [get?]

@[simp] theorem get?_insert_self (k : String) (v : β) (d : Dict β) :
    (d.insert k v).get? k = some v := by
  induction d with
  | nil => simp [insert]
  | cons p d ih => by_cases h : p.1 = k <;> simp [insert, get?, h, ih]

theorem get?_insert_ne {k l : String} (h : k ≠ l) (v : β) (d : Dict β) :
    (d.insert k v).get? l = d.get? l := by
  induction d with
  | nil => simp [insert, get?, h]
  | cons p d ih =>
    by_cases hk : p.1 = k
    · simp [insert, get?, hk, h]
    · by_cases hl : p.1 = l <;> simp [insert, get?, hk, hl, ih, h.symm]

theorem get?_erase_ne {k l : String} (h : k ≠ l) (d : Dict β) :
    (d.erase k).get? l = d.get? l := by
  induction d with
  | nil => rfl
  | cons p d ih =>
    by_cases hk : p.1 = k
    · simp [erase, get?, hk, h]
    · by_cases hl : p.1 = l <;> simp [erase, get?, hk, hl, ih, h.symm]

theorem mem_keys_iff (k : String) (d : Dict β) : k ∈ d.keys ↔ (d.get? k).isSome := by
  induction d with
  | nil => simp [keys]
  | cons p d ih =>
    by_cases h : p.1 = k
    · simp [keys, get?, h]
    · simpa [keys, get?, h, Ne.symm h] using ih

theorem mem_of_get? {k : String} {v : β} {d : Dict β} (h : d.get? k = some v) : (k, v) ∈ d := by
  induction d with
  | nil => cases h
  | cons p d ih =>
    rw [get?] at h
    split at h
    · next hk =>
      cases h
      rw [← hk]
      exact List.mem_cons_self
    · exact List.mem_cons_of_mem _ (ih h)

theorem get?_of_mem {d : Dict β} {k : String} {v : β} (nodup : d.keys.Nodup) (h : (k, v) ∈ d) :
    d.get? k = some v := by
  induction d with
  | nil => cases h
  | cons p d ih =>
    obtain ⟨hnot, hd⟩ := List.nodup_cons.1 nodup
    rcases List.mem_cons.1 h with rfl | h
    · exact get?_cons_self k v d
    · have hne : p.1 ≠ k := by
        rintro rfl
        exact hnot (List.mem_map.2 ⟨_, h, rfl⟩)
      rw [get?, if_neg hne]
      exact ih hd h

/-- Writing keeps the keys and their order, with a new key at the end. -/
theorem keys_insert (k : String) (v : β) (d : Dict β) :
    (d.insert k v).keys = if k ∈ d.keys then d.keys else d.keys ++ [k] := by
  induction d with
  | nil => rfl
  | cons p d ih =>
    by_cases h : p.1 = k
    · simp [keys, insert, h]
    · simp only [keys] at ih
      by_cases hk : k ∈ d.map Prod.fst <;> simp [keys, insert, h, Ne.symm h, ih, hk]

theorem keys_erase (k : String) (d : Dict β) : (d.erase k).keys = d.keys.erase k := by
  induction d with
  | nil => rfl
  | cons p d ih =>
    by_cases h : p.1 = k
    · simp [keys, erase, h]
    · simp only [keys] at ih
      simp [keys, erase, h, ih]

theorem sublist_keys_erase {k : String} {ks : List String} {d : Dict β}
    (h : (k :: ks).Sublist d.keys) : ks.Sublist (d.erase k).keys := by
  rw [keys_erase]
  simpa using h.erase k

theorem get?_erase_self {k : String} {d : Dict β} (nodup : d.keys.Nodup) :
    (d.erase k).get? k = none := by
  have hk : k ∉ (d.erase k).keys := by
    rw [keys_erase]
    exact nodup.not_mem_erase
  rwa [mem_keys_iff, Option.not_isSome_iff_eq_none] at hk

theorem eq_or_mem_of_mem_insert {p : String × β} {k : String} {v : β} {d : Dict β}
    (h : p ∈ d.insert k v) : p = (k, v) ∨ p ∈ d := by
  induction d with
  | nil => exact .inl (List.mem_singleton.1 h)
  | cons q d ih =>
    rw [insert] at h
    split at h
    · exact (List.mem_cons.1 h).imp_right (List.mem_cons_of_mem _)
    · rcases List.mem_cons.1 h with rfl | h
      · exact .inr List.mem_cons_self
      · exact (ih h).imp_right (List.mem_cons_of_mem _)

theorem mem_of_mem_erase {p : String × β} {k : String} {d : Dict β} (h : p ∈ d.erase k) :
    p ∈ d := by
  induction d with
  | nil => exact h
  | cons q d ih =>
    rw [erase] at h
    split at h
    · exact List.mem_cons_of_mem _ h
    · rcases List.mem_cons.1 h with rfl | h
      · exact List.mem_cons_self
      · exact List.mem_cons_of_mem _ (ih h)

theorem insert_insert (k : String) (v w : β) (d : Dict β) :
    (d.insert k v).insert k w = d.insert k w := by
  induction d with
  | nil => simp [insert]
  | cons p d ih => by_cases h : p.1 = k <;> simp [insert, h, ih]

theorem insert_new {k : String} {v : β} {d : Dict β} (h : k ∉ d.keys) :
    d.insert k v = d ++ [(k, v)] := by
  induction d with
  | nil => rfl
  | cons p d ih =>
    rw [keys, List.map_cons, List.mem_cons, not_or] at h
    rw [insert, if_neg (Ne.symm h.1), ih h.2, List.cons_append]

/-- A key that is there can be written before or after another one. -/
theorem insert_comm {k l : String} (h : k ≠ l) {d : Dict β} (hk : k ∈ d.keys) (v w : β) :
    (d.insert l w).insert k v = (d.insert k v).insert l w := by
  induction d with
  | nil => cases hk
  | cons p d ih =>
    by_cases hpk : p.1 = k
    · simp [insert, hpk, h]
    · have hd : k ∈ keys d := (List.mem_cons.1 hk).resolve_left (Ne.symm hpk)
      by_cases hpl : p.1 = l
      · simp [insert, hpl, h.symm]
      · simp [insert, hpk, hpl, ih hd]

theorem keys_nodup_insert {d : Dict β} (h : d.keys.Nodup) (k : String) (v : β) :
    (d.insert k v).keys.Nodup := by
  rw [keys_insert]
  split
  · exact h
  · next hk =>
    refine List.nodup_append.2 ⟨h, by simp, fun l hl l' hl' => ?_⟩
    rw [List.mem_singleton.1 hl']
    exact fun he => hk (he ▸ hl)

theorem overlay_cons (d : Dict β) (p : String × β) (e : Dict β) :
    d.overlay (p :: e) = (d.insert p.1 p.2).overlay e := rfl

theorem overlay_append (d e f : Dict β) : d.overlay (e ++ f) = (d.overlay e).overlay f :=
  List.foldl_append

theorem keys_nodup_overlay {d : Dict β} (h : d.keys.Nodup) (e : Dict β) :
    (d.overlay e).keys.Nodup := by
  induction e generalizing d with
  | nil => exact h
  | cons p e ih => exact ih (keys_nodup_insert h p.1 p.2)

/-- Entries of new keys, none of them twice, are added in their order. -/
theorem overlay_new {d e : Dict β} (h : (keys (d ++ e)).Nodup) : d.overlay e = d ++ e := by
  induction e generalizing d with
  | nil => simp [overlay]
  | cons p e ih =>
    have hp : p.1 ∉ d.keys := by
      intro hp
      rw [keys, List.map_append] at h
      exact (List.nodup_append.1 h).2.2 p.1 hp p.1 (by simp) rfl
    rw [overlay_cons, insert_new hp]
    simpa using ih (d := d ++ [p]) (by simpa using h)

/-- A key that is there can be written before entries of other keys or after them. -/
theorem insert_overlay {k : String} {d e : Dict β} (hd : k ∈ d.keys) (he : k ∉ e.keys) (v : β) :
    (d.overlay e).insert k v = (d.insert k v).overlay e := by
  induction e generalizing d with
  | nil => rfl
  | cons p e ih =>
    rw [keys, List.map_cons, List.mem_cons, not_or] at he
    have hkept : k ∈ (d.insert p.1 p.2).keys := by
      rw [mem_keys_iff, get?_insert_ne (Ne.symm he.1), ← mem_keys_iff]
      exact hd
    rw [overlay_cons, overlay_cons, ih hkept he.2, insert_comm he.1 hd]

theorem overlay_insert {e : Dict β} (he : e.keys.Nodup) (k : String) (v : β) (d : Dict β) :
    d.overlay (e.insert k v) = (d.overlay e).insert k v := by
  induction e generalizing d with
  | nil => rfl
  | cons p e ih =>
    obtain ⟨hp, he⟩ := List.nodup_cons.1 he
    by_cases hk : p.1 = k
    · subst hk
      have hd : p.1 ∈ (d.insert p.1 p.2).keys := by
        rw [mem_keys_iff, get?_insert_self]
        rfl
      rw [insert, if_pos rfl, overlay_cons, overlay_cons, insert_overlay hd hp, insert_insert]
    · rw [insert, if_neg hk, overlay_cons, overlay_cons, ih he]

/-- Of three dictionaries, the last two can be laid over each other first. -/
theorem overlay_overlay {e : Dict β} (he : e.keys.Nodup) (d f : Dict β) :
    d.overlay (e.overlay f) = (d.overlay e).overlay f := by
  induction f generalizing e with
  | nil => rfl
  | cons p f ih =>
    rw [overlay_cons, overlay_cons, ih (keys_nodup_insert he p.1 p.2), overlay_insert he]

/-- The keys that an overlay adds stand behind those that were there, in the order in which they
appear first. -/
theorem keys_overlay (d e : Dict β) :
    (d.overlay e).keys = d.keys ++ (e.keys.filter (· ∉ d.keys)).eraseDups := by
  induction e generalizing d with
  | nil => simp [overlay, keys]
  | cons p e ih =>
    have hcons : keys (p :: e) = p.1 :: keys e := rfl
    rw [overlay_cons, ih, keys_insert, hcons]
    by_cases hp : p.1 ∈ d.keys
    · simp [hp]
    · rw [if_neg hp, List.filter_cons_of_pos (by simpa using hp), List.eraseDups_cons,
        List.filter_filter, List.append_assoc, List.singleton_append]
      congr 3
      refine List.filter_congr fun k _ => ?_
      by_cases hk : k = p.1 <;> simp [hk]

theorem keys_ofEntries (entries : List (String × β)) :
    (ofEntries entries).keys = (keys entries).eraseDups := by
  have hall : (keys entries).filter (· ∉ keys ([] : Dict β)) = keys entries :=
    List.filter_eq_self.2 fun k _ => by simp [keys]
  rw [ofEntries, keys_overlay, hall]
  rfl

theorem get?_append (k : String) (d e : Dict β) :
    get? k (d ++ e) = (d.get? k).or (e.get? k) := by
  induction d with
  | nil => rfl
  | cons p d ih => by_cases h : p.1 = k <;> simp [get?, h, ih]

/-- Of the entries of a key, the last one counts. -/
theorem get?_overlay (k : String) (d e : Dict β) :
    (d.overlay e).get? k = (get? k e.reverse).or (d.get? k) := by
  induction e generalizing d with
  | nil => rfl
  | cons p e ih =>
    rw [overlay_cons, ih, List.reverse_cons, get?_append, Option.or_assoc]
    congr 1
    by_cases h : p.1 = k
    · rw [← h, get?_insert_self, get?, if_pos rfl]
      rfl
    · rw [get?_insert_ne h, get?, if_neg h]
      rfl

theorem get?_ofEntries (k : String) (entries : List (String × β)) :
    (ofEntries entries).get? k = get? k entries.reverse := by
  rw [ofEntries, get?_overlay, get?_nil, Option.or_none]

end Dict

end Conform

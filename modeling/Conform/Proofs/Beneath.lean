import Conform.Proofs.Canonical

/-!
# What lies beneath a path

Records are listed and forgotten by their paths, and whether one lies under another is seen from the
texts: the longer one begins with the shorter one and goes on with a slash. The walk decides the
same by routes, step by step. Main statement: for routes that have been read, the two agree on every
pair.

The texts are compared octet by octet. No octet inside a character can be taken for the beginning of
another one, so the comparison by octets is the one by characters.
-/

namespace Conform

def octets (s : String) : List UInt8 := s.toUTF8.data.toList

theorem octets_append (s t : String) : octets (s ++ t) = octets s ++ octets t := by
  simp [octets]

/-- A text begins with another one if its octets do: none of them is cut off inside a character. -/
theorem octets_prefix_iff {s t : String} : octets s <+: octets t ↔ s.toList <+: t.toList := by
  constructor
  · rintro ⟨rest, h⟩
    refine List.isPrefix_of_utf8Encode_append_eq_utf8Encode rest.toByteArray ?_
    rw [String.utf8Encode_toList, String.utf8Encode_toList]
    apply ByteArray.ext
    apply Array.toList_inj.1
    rw [ByteArray.data_append, Array.toList_append, List.data_toByteArray]
    exact h
  · rintro ⟨rest, h⟩
    have ht : t = s ++ String.ofList rest := by
      apply String.toList_inj.1
      rw [String.toList_append, String.toList_ofList, h]
    rw [ht, octets_append]
    exact List.prefix_append ..

theorem append_singleton_prefix_iff {α : Type} {xs ys : List α} {x : α} :
    xs ++ [x] <+: ys ↔ xs.length < ys.length ∧ xs <+: ys ∧ ys[xs.length]? = some x := by
  constructor
  · rintro ⟨rest, rfl⟩
    simp
  · rintro ⟨-, ⟨rest, rfl⟩, hx⟩
    rw [List.getElem?_append_right (Nat.le_refl _), Nat.sub_self] at hx
    cases rest with
    | nil => cases hx
    | cons y rest =>
      cases hx
      exact ⟨rest, by simp⟩

namespace Path

/-- Whether a path lies strictly beneath another one, by octets: it is longer, begins with the other
one and has a slash behind it. Everything but the root itself lies beneath the root. -/
def isUnderOctets (path ancestor : String) : Bool :=
  if ancestor = "/" then path ≠ "/"
  else
    (octets ancestor).length < (octets path).length &&
      (octets ancestor).isPrefixOf (octets path) &&
      (octets path)[(octets ancestor).length]? = some 0x2F

theorem isUnderOctets_eq (path ancestor : String) :
    isUnderOctets path ancestor = isUnder path ancestor := by
  rw [isUnderOctets, isUnder]
  split
  · rfl
  · have hslash : octets ancestor ++ [0x2F] = octets (ancestor ++ "/") := by
      rw [octets_append]
      rfl
    have hchars : ancestor.toList ++ ['/'] = (ancestor ++ "/").toList := by simp
    rw [Bool.eq_iff_iff, Bool.and_eq_true, Bool.and_eq_true, decide_eq_true_eq, decide_eq_true_eq,
      List.isPrefixOf_iff_prefix, List.isPrefixOf_iff_prefix, and_assoc,
      ← append_singleton_prefix_iff, hslash, octets_prefix_iff, hchars]

end Path

namespace Route

theorem below?_eq_some_iff {a r q : Route} : below? a r = some q ↔ a ++ q = r := by
  constructor
  · intro h
    exact (eq_append_of_below? h).symm
  · rintro rfl
    exact below?_append a q

theorem startsWith_iff_below? {r a : Route} :
    r.startsWith a = true ↔ ∃ q, below? a r = some q := by
  rw [startsWith_iff]
  constructor
  · rintro ⟨q, rfl⟩
    exact ⟨q, below?_append a q⟩
  · rintro ⟨q, h⟩
    exact ⟨q, eq_append_of_below? h⟩

/-- By texts or by steps, for routes that paths can lead over. -/
theorem Addressable.isAtOrUnder_iff_startsWith {r a : Route} (hr : r.Addressable)
    (ha : a.Addressable) : Path.isAtOrUnder r.text a.text = true ↔ r.startsWith a = true := by
  rw [Path.isAtOrUnder_iff ha hr, startsWith, List.isPrefixOf_iff_prefix]

theorem Addressable.isUnder_iff {r a : Route} (hr : r.Addressable) (ha : a.Addressable) :
    Path.isUnder r.text a.text = true ↔ r.startsWith a = true ∧ r ≠ a := by
  have hne : r.text ≠ a.text ↔ r ≠ a := by
    constructor
    · rintro h rfl
      exact h rfl
    · intro h htext
      exact h (hr.eq_of_text ha htext)
  rw [Path.isUnder_iff, hr.isAtOrUnder_iff_startsWith ha, hne]

/-- **Scopes by texts and by routes agree.** Of two routes that have been read, the path of the one
lies at or under that of the other exactly if it begins with the other's steps, and exactly if those
can be taken off it, which leaves what has to be put behind them to have it again. It lies strictly
under the other's exactly if besides the routes differ. The texts may be compared octet by octet. -/
theorem scoping_agrees (path ancestor : String) :
    (Path.isAtOrUnder (parse path).text (parse ancestor).text = true ↔
      (parse path).startsWith (parse ancestor) = true) ∧
    (Path.isAtOrUnder (parse path).text (parse ancestor).text = true ↔
      ∃ q, below? (parse ancestor) (parse path) = some q) ∧
    (∀ q, below? (parse ancestor) (parse path) = some q ↔ parse ancestor ++ q = parse path) ∧
    (Path.isUnder (parse path).text (parse ancestor).text = true ↔
      (parse path).startsWith (parse ancestor) = true ∧ parse path ≠ parse ancestor) ∧
    Path.isUnderOctets (parse path).text (parse ancestor).text =
      Path.isUnder (parse path).text (parse ancestor).text := by
  have hr : (parse path).Addressable := parse_addressable path
  have ha : (parse ancestor).Addressable := parse_addressable ancestor
  have hscope := hr.isAtOrUnder_iff_startsWith ha
  refine ⟨hscope, hscope.trans startsWith_iff_below?, ?_, hr.isUnder_iff ha, ?_⟩
  · intro q
    exact below?_eq_some_iff
  · exact Path.isUnderOctets_eq (parse path).text (parse ancestor).text

/-- The two keys differ in the last octet of a character, and the third one begins with the first.
-/
example : Path.isAtOrUnder "/é/1" "/é" = true ∧ Path.isAtOrUnder "/é/1" "/è" = false ∧
    Path.isAtOrUnder "/éa/1" "/é" = false := by decide +kernel

end Route

end Conform

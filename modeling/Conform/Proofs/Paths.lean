import Conform.Route

/-!
# Routes and their paths

Records are kept by path, while the tree is walked by routes. The two agree as long as every step of
a route has a text that a path can lead over: a text that is not empty, holds no slash, is neither
`.` nor `..`, and is read back as the step it is the text of. A path lies under another then exactly
if the one route begins with the other, and a route that was read from a path is always of this
kind.
-/

namespace Conform

theorem decimal?_eq_some_iff {cs : List Char} {n : Nat} :
    decimal? cs = some n ↔
      cs ≠ [] ∧ (∀ c ∈ cs, c.isDigit = true) ∧ Nat.ofDigitChars 10 cs 0 = n := by
  have hany : (cs.any fun c => !c.isDigit) = true ↔ ¬ ∀ c ∈ cs, c.isDigit = true := by simp
  rw [decimal?, Nat.ofDigitChars_eq_foldl]
  by_cases hne : cs = []
  · simp [hne]
  · by_cases hall : ∀ c ∈ cs, c.isDigit = true
    · rw [if_neg (not_or.2 ⟨hne, fun h => hany.1 h hall⟩), Option.some.injEq]
      exact ⟨fun h => ⟨hne, hall, h⟩, fun h => h.2.2⟩
    · rw [if_pos (.inr (hany.2 hall))]
      exact ⟨fun h => (by cases h), fun h => absurd h.2.1 hall⟩

/-- A digit is the one that its own value is written with. -/
theorem exists_eq_digitChar {c : Char} (h : c.isDigit = true) :
    ∃ d < 10, c = Nat.digitChar d ∧ c.toNat - '0'.toNat = d := by
  have hc : 48 ≤ c.toNat ∧ c.toNat ≤ 57 := by
    simp only [Char.isDigit, Bool.and_eq_true, decide_eq_true_eq, ge_iff_le] at h
    exact h
  have hd : c.toNat - 48 < 10 := by omega
  refine ⟨c.toNat - 48, hd, ?_, rfl⟩
  rw [← Char.toNat_inj, Nat.toNat_digitChar_of_lt_ten hd]
  omega

theorem toDigits_ofDigitChars_pos {cs : List Char} (digits : ∀ c ∈ cs, c.isDigit = true) {n : Nat}
    (pos : 0 < n) : Nat.toDigits 10 (Nat.ofDigitChars 10 cs n) = Nat.toDigits 10 n ++ cs := by
  induction cs generalizing n with
  | nil => simp
  | cons c cs ih =>
    obtain ⟨d, hd, rfl, hv⟩ := exists_eq_digitChar (digits c List.mem_cons_self)
    rw [Nat.ofDigitChars_cons, hv, ih (fun c hc => digits c (List.mem_cons_of_mem _ hc)) (by omega),
      ← Nat.toDigits_append_toDigits (by decide) pos hd, Nat.toDigits_of_lt_base hd,
      List.append_assoc]
    rfl

/-- Digits without a needless zero in front are those that their number is written with. -/
theorem toDigits_ofDigitChars {cs : List Char} (ne : cs ≠ [])
    (digits : ∀ c ∈ cs, c.isDigit = true) (front : cs = ['0'] ∨ cs.head? ≠ some '0') :
    Nat.toDigits 10 (Nat.ofDigitChars 10 cs 0) = cs := by
  cases cs with
  | nil => exact absurd rfl ne
  | cons c cs =>
    obtain ⟨d, hd, rfl, hv⟩ := exists_eq_digitChar (digits c List.mem_cons_self)
    rcases front with front | front
    · rw [front]
      rfl
    · have hpos : 0 < d := by
        refine Nat.pos_of_ne_zero fun h => front ?_
        rw [h]
        rfl
      rw [Nat.ofDigitChars_cons, hv, Nat.mul_zero, Nat.zero_add,
        toDigits_ofDigitChars_pos (fun c hc => digits c (List.mem_cons_of_mem _ hc)) hpos,
        Nat.toDigits_of_lt_base hd]
      rfl

namespace Segment

/-- Every text is the text of the segment that it names. -/
@[simp] theorem text_ofText (raw : String) : (ofText raw).text = raw := by
  unfold ofText
  split
  · rfl
  · next i h =>
    obtain ⟨ne, digits, rfl⟩ := decimal?_eq_some_iff.1 h
    split
    · next hc =>
      have front : raw.toList = ['0'] ∨ raw.toList.head? ≠ some '0' := by
        rcases hc.1 with rfl | hh
        · exact .inl rfl
        · exact .inr hh
      rw [text, Nat.toString_eq_ofList_toDigits, toDigits_ofDigitChars ne digits front,
        String.ofList_toList]
    · rfl

theorem toDigits_front (i : Nat) :
    Nat.toDigits 10 i = ['0'] ∨ (Nat.toDigits 10 i).head? ≠ some '0' := by
  induction i using Nat.strongRecOn with
  | ind i ih =>
    by_cases hi : i < 10
    · rw [Nat.toDigits_of_lt_base hi]
      by_cases h0 : i = 0
      · exact .inl (by rw [h0]; rfl)
      · exact .inr (by simpa using h0)
    · rw [Nat.toDigits_of_base_le (by decide) (by omega)]
      have hpos : Nat.toDigits 10 (i / 10) ≠ ['0'] := by
        intro h
        have hz := congrArg (Nat.ofDigitChars 10 · 0) h
        simp only [Nat.ofDigitChars_ten_toDigits] at hz
        have : Nat.ofDigitChars 10 ['0'] 0 = 0 := rfl
        omega
      refine .inr fun h => (ih (i / 10) (by omega)).resolve_left hpos ?_
      cases hd : Nat.toDigits 10 (i / 10) with
      | nil => exact absurd hd Nat.toDigits_ne_nil
      | cons c cs => simpa [hd] using h

theorem toList_toString (i : Nat) : (toString i).toList = Nat.toDigits 10 i := by
  rw [Nat.toString_eq_ofList_toDigits, String.toList_ofList]

theorem decimal?_toString (i : Nat) : decimal? (toString i).toList = some i := by
  rw [toList_toString, decimal?_eq_some_iff]
  exact ⟨Nat.toDigits_ne_nil, fun c hc => Nat.isDigit_of_mem_toDigits (by decide) (by decide) hc,
    Nat.ofDigitChars_ten_toDigits⟩

theorem toString_front (i : Nat) : toString i = "0" ∨ (toString i).toList.head? ≠ some '0' := by
  rcases toDigits_front i with hf | hf
  · exact .inl (by rw [Nat.toString_eq_ofList_toDigits, hf])
  · exact .inr (toList_toString i ▸ hf)

/-- An index below the limit is what its digits name. -/
theorem ofText_toString {i : Nat} (h : i < indexLimit) : ofText (toString i) = index i := by
  simp only [ofText, decimal?_toString, if_pos (And.intro (toString_front i) h)]

/-- Digits too large for an index name a key. -/
theorem ofText_eq_index_iff {k : String} {i : Nat} :
    ofText k = index i ↔ k = toString i ∧ i < indexLimit := by
  constructor
  · intro h
    have hk : k = toString i := by
      rw [← text_ofText k, h]
      rfl
    refine ⟨hk, Nat.lt_of_not_le fun hle => ?_⟩
    rw [hk] at h
    simp only [ofText, decimal?_toString] at h
    rw [if_neg fun hc => Nat.not_lt.2 hle hc.2] at h
    cases h
  · rintro ⟨rfl, h⟩
    exact ofText_toString h

theorem ofText_eq_key_iff {k : String} :
    ofText k = key k ↔ ∀ i < indexLimit, k ≠ toString i := by
  constructor
  · rintro h i hi rfl
    rw [ofText_toString hi] at h
    cases h
  · intro h
    cases hk : ofText k with
    | index i =>
      obtain ⟨htext, hi⟩ := ofText_eq_index_iff.1 hk
      exact absurd htext (h i hi)
    | key l =>
      have hl : (key l).text = k := by rw [← hk, text_ofText]
      rw [← hl]
      rfl

/-- A text that can stand between the slashes of a path and is no mark there. -/
structure Name (k : String) : Prop where
  ne_empty : k ≠ ""
  no_slash : '/' ∉ k.toList
  ne_here : k ≠ "."
  ne_above : k ≠ ".."

instance (k : String) : Decidable (Name k) :=
  decidable_of_iff (k ≠ "" ∧ '/' ∉ k.toList ∧ k ≠ "." ∧ k ≠ "..")
    ⟨fun h => ⟨h.1, h.2.1, h.2.2.1, h.2.2.2⟩,
      fun h => ⟨h.ne_empty, h.no_slash, h.ne_here, h.ne_above⟩⟩

/-- Whether a path can lead over the segment: its text is a name, and the name of this segment. -/
structure Addressable (s : Segment) : Prop extends Name s.text where
  named : ofText s.text = s

theorem Name.addressable {k : String} (h : Name k) : (ofText k).Addressable :=
  ⟨by rwa [text_ofText], by rw [text_ofText]⟩

theorem addressable_index {i : Nat} (h : i < indexLimit) : (index i).Addressable := by
  have hdigit : ∀ c ∈ (toString i).toList, c.isDigit = true := by
    intro c hc
    rw [Nat.toString_eq_ofList_toDigits, String.toList_ofList] at hc
    exact Nat.isDigit_of_mem_toDigits (by decide) (by decide) hc
  have hne : ∀ k : String, (∃ c ∈ k.toList, c.isDigit = false) → toString i ≠ k := by
    rintro k ⟨c, hc, hd⟩ rfl
    rw [hdigit c hc] at hd
    cases hd
  exact
    { ne_empty := by
        intro h
        have := congrArg String.toList h
        rw [show (index i).text = toString i from rfl, Nat.toString_eq_ofList_toDigits,
          String.toList_ofList] at this
        exact Nat.toDigits_ne_nil this
      no_slash := fun hm => by simpa using hdigit _ hm
      ne_here := hne "." ⟨'.', by decide, by decide⟩
      ne_above := hne ".." ⟨'.', by decide, by decide⟩
      named := ofText_toString h }

theorem Addressable.eq_of_text {s t : Segment} (hs : s.Addressable) (ht : t.Addressable)
    (h : s.text.toList = t.text.toList) : s = t := by
  rw [← hs.named, ← ht.named, String.toList_inj.1 h]

end Segment

/-- Whether a text ends here or goes on with a slash. -/
def AtSlash (cs : List Char) : Prop := ∀ c ∈ cs.head?, c = '/'

/-- Two texts that are cut at their first slash are cut alike. -/
theorem append_inj_of_atSlash {x y u v : List Char} (hx : '/' ∉ x) (hy : '/' ∉ y)
    (hu : AtSlash u) (hv : AtSlash v) (h : x ++ u = y ++ v) : x = y ∧ u = v := by
  induction x generalizing y with
  | nil =>
    cases y with
    | nil => exact ⟨rfl, h⟩
    | cons d y =>
      rw [List.nil_append] at h
      have hd : d = '/' := hu d (by rw [h]; rfl)
      exact absurd (hd ▸ List.mem_cons_self) hy
  | cons c x ih =>
    cases y with
    | nil =>
      rw [List.nil_append] at h
      have hc : c = '/' := hv c (by rw [← h]; rfl)
      exact absurd (hc ▸ List.mem_cons_self) hx
    | cons d y =>
      obtain ⟨rfl, ht⟩ := List.cons.inj h
      obtain ⟨rfl, huv⟩ := ih (fun hm => hx (List.mem_cons_of_mem _ hm))
        (fun hm => hy (List.mem_cons_of_mem _ hm)) ht
      exact ⟨rfl, huv⟩

namespace Route

/-- Whether every step of the route can be part of a path. -/
def Addressable (r : Route) : Prop := ∀ s ∈ r, s.Addressable

theorem Addressable.cons_iff {s : Segment} {r : Route} :
    Addressable (s :: r) ↔ s.Addressable ∧ Addressable r := List.forall_mem_cons

/-- The text of a route that is not the root. -/
def chars (r : Route) : List Char := r.flatMap fun s => '/' :: s.text.toList

theorem chars_cons (s : Segment) (r : Route) : chars (s :: r) = '/' :: (s.text.toList ++ chars r) :=
  rfl

theorem toList_text {r : Route} (h : r ≠ []) : r.text.toList = chars r := by
  cases r with
  | nil => exact absurd rfl h
  | cons s r =>
    rw [text, String.toList_join, List.flatMap_map]
    · simp [chars]
    · exact List.cons_ne_nil s r

theorem chars_atSlash (r : Route) : AtSlash (chars r) := by
  intro c hc
  cases r with
  | nil => cases hc
  | cons s r => exact (Option.some.inj hc).symm

theorem chars_append (a q : Route) : chars (a ++ q) = chars a ++ chars q := List.flatMap_append

theorem prefix_of_chars {a r : Route} {u : List Char} (ha : a.Addressable) (hr : r.Addressable)
    (hu : AtSlash u) (h : chars a ++ u = chars r) : a <+: r := by
  induction a generalizing r with
  | nil => exact List.nil_prefix
  | cons s a ih =>
    cases r with
    | nil => cases h
    | cons t r =>
      rw [Addressable.cons_iff] at ha hr
      have hrest : AtSlash (chars a ++ u) := by
        cases a with
        | nil => exact hu
        | cons s' a => exact chars_atSlash (s' :: a)
      obtain ⟨htext, hchars⟩ := append_inj_of_atSlash ha.1.no_slash hr.1.no_slash hrest
        (chars_atSlash r) (by simpa [chars_cons] using h)
      rw [ha.1.eq_of_text hr.1 htext]
      exact (List.prefix_cons_inj _).2 (ih ha.2 hr.2 hchars)

theorem Addressable.chars_ne_root {a : Route} (ha : a.Addressable) (h : a ≠ []) (u : List Char) :
    chars a ++ u ≠ ['/'] := by
  intro hu
  cases a with
  | nil => exact h rfl
  | cons s a =>
    have hs : s.text.toList ++ chars a ++ u = [] := (List.cons.inj hu).2
    simp only [List.append_eq_nil_iff, String.toList_eq_nil_iff] at hs
    exact (Addressable.cons_iff.1 ha).1.ne_empty hs.1.1

/-- No route but the root has the text of the root. -/
theorem Addressable.text_ne_root {a : Route} (ha : a.Addressable) (h : a ≠ []) : a.text ≠ "/" := by
  intro ht
  refine ha.chars_ne_root h [] ?_
  rw [List.append_nil, ← toList_text h, ht]
  rfl

end Route

namespace Path

theorem isAtOrUnder_root (path : String) : isAtOrUnder path "/" = true := by
  by_cases hp : path = "/"
  · simp [isAtOrUnder, hp]
  · simp [isAtOrUnder, isUnder, hp]

theorem isAtOrUnder_of_isUnder {path ancestor : String} (h : isUnder path ancestor = true) :
    isAtOrUnder path ancestor = true := by
  rw [isAtOrUnder, h, Bool.or_true]

theorem isUnder_self (path : String) : isUnder path path = false := by
  rw [isUnder]
  split
  · next h => simp [h]
  · refine Bool.eq_false_iff.2 fun h => ?_
    have hlength := (List.isPrefixOf_iff_prefix.1 h).length_le
    rw [List.length_append, List.length_singleton] at hlength
    omega

theorem isUnder_iff {path ancestor : String} :
    isUnder path ancestor = true ↔ isAtOrUnder path ancestor = true ∧ path ≠ ancestor := by
  constructor
  · intro h
    refine ⟨isAtOrUnder_of_isUnder h, ?_⟩
    rintro rfl
    rw [isUnder_self] at h
    cases h
  · rintro ⟨h, hne⟩
    rw [isAtOrUnder, Bool.or_eq_true, decide_eq_true_eq] at h
    exact h.resolve_left hne

theorem isAtOrUnder_of_prefix {a r : Route} (h : a <+: r) : isAtOrUnder r.text a.text = true := by
  obtain ⟨q, rfl⟩ := h
  by_cases hroot : a.text = "/"
  · rw [hroot, isAtOrUnder_root]
  · have ha : a ≠ [] := fun he => hroot (by rw [he]; rfl)
    cases q with
    | nil => simp [isAtOrUnder]
    | cons t q =>
      have hpre : (a.text.toList ++ ['/']) <+: (a ++ t :: q).text.toList := by
        rw [Route.toList_text ha, Route.toList_text (by simp), Route.chars_append, Route.chars_cons]
        exact ⟨t.text.toList ++ Route.chars q, by simp⟩
      simp [isAtOrUnder, isUnder, hroot, hpre]

/-- **Paths lie as their routes do.** A path lies at or under another exactly if its route begins
with the other's. -/
theorem isAtOrUnder_iff {a r : Route} (ha : a.Addressable) (hr : r.Addressable) :
    isAtOrUnder r.text a.text = true ↔ a <+: r := by
  refine ⟨fun h => ?_, isAtOrUnder_of_prefix⟩
  by_cases ha0 : a = []
  · rw [ha0]
    exact List.nil_prefix
  have hroot := ha.text_ne_root ha0
  obtain ⟨u, hu, htext⟩ : ∃ u, AtSlash u ∧ Route.chars a ++ u = r.text.toList := by
    rw [isAtOrUnder, Bool.or_eq_true, decide_eq_true_eq] at h
    rcases h with h | h
    · exact ⟨[], fun c hc => (by cases hc), by rw [h, Route.toList_text ha0, List.append_nil]⟩
    · rw [isUnder, if_neg hroot, List.isPrefixOf_iff_prefix, Route.toList_text ha0] at h
      obtain ⟨w, hw⟩ := h
      exact ⟨'/' :: w, fun c hc => (Option.some.inj hc).symm, by rw [← hw, List.append_assoc]; rfl⟩
  by_cases hr0 : r = []
  · subst hr0
    exact absurd htext (ha.chars_ne_root ha0 u)
  · rw [Route.toList_text hr0] at htext
    exact Route.prefix_of_chars ha hr hu htext

end Path

theorem slashPieces_ne_nil (cs : List Char) : slashPieces cs ≠ [] := by
  cases cs with
  | nil => simp [slashPieces]
  | cons c cs =>
    rw [slashPieces]
    split
    · simp
    · split <;> simp

/-- A slash between two texts cuts them apart. -/
theorem slashPieces_append (cs ds : List Char) :
    slashPieces (cs ++ '/' :: ds) = slashPieces cs ++ slashPieces ds := by
  induction cs with
  | nil => simp [slashPieces]
  | cons c cs ih =>
    by_cases hc : c = '/'
    · simp [slashPieces, hc, ih]
    · simp only [List.cons_append, slashPieces, if_neg hc, ih]
      cases h : slashPieces cs with
      | nil => exact absurd h (slashPieces_ne_nil cs)
      | cons p ps => rfl

theorem slashPieces_of_no_slash {piece : List Char} (h : '/' ∉ piece) :
    slashPieces piece = [piece] := by
  induction piece with
  | nil => rfl
  | cons c piece ih =>
    rw [List.mem_cons, not_or] at h
    simp [slashPieces, Ne.symm h.1, ih h.2]

theorem no_slash_of_mem_slashPieces {cs p : List Char} (h : p ∈ slashPieces cs) : '/' ∉ p := by
  induction cs generalizing p with
  | nil => simp_all [slashPieces]
  | cons c cs ih =>
    rw [slashPieces] at h
    split at h
    · rcases List.mem_cons.1 h with rfl | h
      · exact List.not_mem_nil
      · exact ih h
    · next hc =>
      split at h
      · rw [List.mem_singleton.1 h]
        simpa using Ne.symm hc
      · next q qs he =>
        rw [he] at ih
        rcases List.mem_cons.1 h with rfl | h
        · simpa [Ne.symm hc] using ih List.mem_cons_self
        · exact ih (List.mem_cons_of_mem _ h)

namespace Route

theorem take_addressable {r : Route} {piece : List Char} (hr : r.Addressable)
    (hp : '/' ∉ piece) : (r.take piece).Addressable := by
  unfold take
  split
  · exact hr
  · next h =>
    split
    · exact fun s hs => hr s ((List.dropLast_sublist r).subset hs)
    · next h' =>
      rw [not_or] at h
      have hname : Segment.Name (String.ofList piece) :=
        { ne_empty := fun he => h.1 (by simpa using congrArg String.toList he)
          no_slash := by rwa [String.toList_ofList]
          ne_here := fun he => h.2 (by simpa using congrArg String.toList he)
          ne_above := fun he => h' (by simpa using congrArg String.toList he) }
      intro s hs
      rcases List.mem_append.1 hs with hs | hs
      · exact hr s hs
      · rw [List.mem_singleton.1 hs]
        exact hname.addressable

theorem Addressable.walkPath {r : Route} (hr : r.Addressable) (path : String) :
    (r.walkPath path).Addressable := by
  have hfold : ∀ pieces : List (List Char), (∀ p ∈ pieces, '/' ∉ p) → ∀ r : Route, r.Addressable →
      (pieces.foldl take r).Addressable := by
    intro pieces
    induction pieces with
    | nil => exact fun _ r hr => hr
    | cons p pieces ih =>
      intro hp r hr
      exact ih (fun q hq => hp q (List.mem_cons_of_mem _ hq)) _
        (take_addressable hr (hp p List.mem_cons_self))
  exact hfold _ (fun p hp => no_slash_of_mem_slashPieces hp) r hr

/-- Every step of a route that a path names is one that a path can lead over. -/
theorem parse_addressable (path : String) : (parse path).Addressable :=
  Addressable.walkPath (r := root) (fun s hs => (by cases hs)) path

theorem Addressable.resolve {r : Route} (hr : r.Addressable) (path : String) :
    (r.resolve path).Addressable := by
  unfold Route.resolve
  split
  · exact parse_addressable path
  · exact hr.walkPath path

theorem slashPieces_chars {piece : List Char} (h : '/' ∉ piece) {r : Route} (hr : r.Addressable) :
    slashPieces (piece ++ chars r) = piece :: r.map fun s => s.text.toList := by
  induction r generalizing piece with
  | nil =>
    rw [chars, List.flatMap_nil, List.append_nil, slashPieces_of_no_slash h]
    rfl
  | cons s r ih =>
    rw [Addressable.cons_iff] at hr
    rw [chars_cons, slashPieces_append, slashPieces_of_no_slash h, ih hr.1.no_slash hr.2]
    rfl

theorem take_text {s : Segment} (hs : s.Addressable) (r : Route) :
    r.take s.text.toList = r ++ [s] := by
  have hne : ∀ cs : List Char, s.text ≠ String.ofList cs → s.text.toList ≠ cs :=
    fun cs h he => h (by rw [← he, String.ofList_toList])
  rw [take, if_neg (not_or.2 ⟨hne [] hs.ne_empty, hne ['.'] hs.ne_here⟩),
    if_neg (hne ['.', '.'] hs.ne_above), String.ofList_toList, hs.named]

theorem foldl_take_text {q : Route} (hq : q.Addressable) (base : Route) :
    (q.map fun s => s.text.toList).foldl take base = base ++ q := by
  induction q generalizing base with
  | nil => exact (List.append_nil base).symm
  | cons s q ih =>
    rw [Addressable.cons_iff] at hq
    rw [List.map_cons, List.foldl_cons, take_text hq.1, ih hq.2, List.append_assoc]
    rfl

/-- The text of a route that paths can lead over names this route. -/
theorem parse_text {r : Route} (hr : r.Addressable) : parse r.text = r := by
  by_cases h : r = []
  · rw [h]
    rfl
  · have hpieces : slashPieces ([] ++ chars r) = _ := slashPieces_chars List.not_mem_nil hr
    rw [List.nil_append] at hpieces
    rw [parse, walkPath, toList_text h, hpieces, List.foldl_cons]
    exact foldl_take_text hr _

/-- A route that paths can lead over is told by its text. -/
theorem Addressable.eq_of_text {r q : Route} (hr : r.Addressable) (hq : q.Addressable)
    (h : r.text = q.text) : r = q := by rw [← parse_text hr, h, parse_text hq]

end Route

theorem Path.normalize_text {r : Route} (hr : r.Addressable) : normalize r.text = r.text := by
  rw [normalize, Route.parse_text hr]

end Conform

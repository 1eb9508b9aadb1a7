/-!
# Sets of characters

A set is a list of closed ranges of code points, sorted and with gaps between them. Tables give
it as text: numbers and pairs of numbers in hexadecimal, `41-5A 5F 61-7A`. A range may run past the
surrogates, which are no characters, but neither begins nor ends among them.

Main statement: a union has the members of its parts (`contains_ofUnion`).
-/

namespace Conform.Text

abbrev Range := Nat × Nat

structure CharSet where
  ranges : List Range
  deriving DecidableEq

/-- The code point of the character after a given one. -/
def nextCode (n : Nat) : Nat := if n = 0xD7FF then 0xE000 else n + 1

/-- The code point of the character before a given one. -/
def previousCode (n : Nat) : Nat := if n = 0xE000 then 0xD7FF else n - 1

def lastCode : Nat := 0x10FFFF

namespace CharSet

def empty : CharSet := ⟨[]⟩

def all : CharSet := ⟨[(0, lastCode)]⟩

def contains (s : CharSet) (c : Char) : Bool :=
  s.ranges.any fun r => r.1 ≤ c.toNat && c.toNat ≤ r.2

/-- Joins what overlaps or touches in a list of ranges that is sorted by their first numbers. -/
def joined : List Range → List Range
  | [] => []
  | r :: rs => go r rs
where
  go (r : Range) : List Range → List Range
    | [] => [r]
    | s :: rs => if s.1 ≤ r.2 + 1 then go (r.1, max r.2 s.2) rs else r :: go s rs

/-- The set of the numbers in some of the ranges. -/
def ofRanges (rs : List Range) : CharSet := ⟨joined (rs.mergeSort fun r s => r.1 ≤ s.1)⟩

def ofUnion (sets : List CharSet) : CharSet := ofRanges (sets.flatMap ranges)

def union (s t : CharSet) : CharSet := ofUnion [s, t]

def commonRanges : List Range → List Range → List Range
  | [], _ => []
  | _, [] => []
  | r :: rs, s :: ss =>
    let rest := if r.2 < s.2 then commonRanges rs (s :: ss) else commonRanges (r :: rs) ss
    if max r.1 s.1 ≤ min r.2 s.2 then (max r.1 s.1, min r.2 s.2) :: rest else rest
termination_by rs ss => rs.length + ss.length

def remainingRanges : List Range → List Range → List Range
  | [], _ => []
  | rs, [] => rs
  | r :: rs, s :: ss =>
    if s.2 < r.1 then remainingRanges (r :: rs) ss
    else if r.2 < s.1 then r :: remainingRanges rs (s :: ss)
    else
      let rest :=
        if s.2 < r.2 then remainingRanges ((nextCode s.2, r.2) :: rs) ss
        else remainingRanges rs (s :: ss)
      if r.1 < s.1 then (r.1, previousCode s.1) :: rest else rest
termination_by rs ss => rs.length + ss.length

def inter (s t : CharSet) : CharSet := ⟨commonRanges s.ranges t.ranges⟩

def diff (s t : CharSet) : CharSet := ⟨remainingRanges s.ranges t.ranges⟩

def symmDiff (s t : CharSet) : CharSet := (s.union t).diff (s.inter t)

/-- What lies between neighbouring ranges. Two that meet at the surrogates have nothing between
them; the gap is then given by its two ends in the wrong order and read as a range all the same. -/
def gaps : Range → List Range → List Range
  | r, [] => if r.2 < lastCode then [(nextCode r.2, lastCode)] else []
  | r, s :: rs =>
    (min (nextCode r.2) (previousCode s.1), max (nextCode r.2) (previousCode s.1)) :: gaps s rs

def compl (s : CharSet) : CharSet :=
  match s.ranges with
  | [] => all
  | r :: rs => ⟨(if 0 < r.1 then [(0, previousCode r.1)] else []) ++ gaps r rs⟩

def hexDigitValue (c : Char) : Nat :=
  if c.isDigit then c.toNat - '0'.toNat else c.toNat - 'A'.toNat + 10

/-- Reads ranges with the numbers met so far: the start of a range, if its end is being read, and
the number being read, if it has a digit. -/
def readHex : Option Nat → Option Nat → List Char → List Range
  | start, now, [] => closing start now
  | start, now, c :: cs =>
    if c = ' ' ∨ c = '\n' then closing start now ++ readHex none none cs
    else if c = '-' then readHex now none cs
    else readHex start (some (16 * now.getD 0 + hexDigitValue c)) cs
where
  closing : Option Nat → Option Nat → List Range
    | some a, some b => [(a, b)]
    | none, some a => [(a, a)]
    | _, none => []

/-- The set that a table gives, in which the ranges stand in order. -/
def ofHex (text : String) : CharSet := ⟨readHex none none text.toList⟩

def covers (r : Range) (n : Nat) : Bool := r.1 ≤ n && n ≤ r.2

theorem any_go (n : Nat) (r : Range) (rs : List Range)
    (h : ((r :: rs).Pairwise fun s t => s.1 ≤ t.1)) :
    (joined.go r rs).any (covers · n) = (r :: rs).any (covers · n) := by
  induction rs generalizing r with
  | nil => rfl
  | cons s rs ih =>
    have hs := List.pairwise_cons.1 h
    have hrs : r.1 ≤ s.1 := hs.1 s (by simp)
    rw [joined.go]
    split
    · rename_i hle
      have hjoined : ((r.1, max r.2 s.2) :: rs).Pairwise fun s t : Range => s.1 ≤ t.1 :=
        List.pairwise_cons.2 ⟨fun t ht => hs.1 t (by simp [ht]), (List.pairwise_cons.1 hs.2).2⟩
      rw [ih _ hjoined]
      simp only [List.any_cons, covers]
      rw [← Bool.or_assoc]
      congr 1
      grind
    · simp only [List.any_cons, ih s hs.2]

theorem any_joined (n : Nat) (rs : List Range) (h : rs.Pairwise fun s t => s.1 ≤ t.1) :
    (joined rs).any (covers · n) = rs.any (covers · n) := by
  cases rs with
  | nil => rfl
  | cons r rs => exact any_go n r rs h

@[simp] theorem contains_ofRanges (rs : List Range) (c : Char) :
    (ofRanges rs).contains c = rs.any (covers · c.toNat) := by
  have hsorted : (rs.mergeSort fun r s => r.1 ≤ s.1).Pairwise fun s t => s.1 ≤ t.1 :=
    (List.pairwise_mergeSort (by simp; omega) (by simp; omega) rs).imp of_decide_eq_true
  have hperm := List.mergeSort_perm rs fun r s : Range => decide (r.1 ≤ s.1)
  show (joined _).any (covers · c.toNat) = _
  rw [any_joined _ _ hsorted]
  exact hperm.any_eq

@[simp] theorem contains_ofUnion (sets : List CharSet) (c : Char) :
    (ofUnion sets).contains c = sets.any (·.contains c) := by
  simp only [ofUnion, contains_ofRanges, List.any_flatMap]
  rfl

end CharSet

end Conform.Text

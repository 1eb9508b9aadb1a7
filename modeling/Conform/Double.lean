/-!
# Finite doubles

A double is a sign and a rank: the place of its absolute value among all non-negative doubles in
increasing order, zero having rank 0. The rank is also what the low 63 bits of the usual encoding
spell, so neighbouring doubles have neighbouring ranks, and infinity would come after the last.

All arithmetic is exact: a result is a ratio of natural numbers, rounded once to the nearest
double, a tie to the one of even rank.
-/

namespace Conform

structure Double where
  negative : Bool
  rank : Nat
  finite : rank < 0x7ff0000000000000
  deriving DecidableEq

namespace Double

def infinityRank : Nat := 0x7ff0000000000000

def largestRank : Nat := 0x7fefffffffffffff

/-- How many doubles there are from one power of two up to the next. -/
def binade : Nat := Nat.pow 2 52

/-- The absolute value of rank `n` is `significand n * 2 ^ exponent n`. -/
def significand (n : Nat) : Nat := if n < binade then n else binade + n % binade

def exponent (n : Nat) : Int := if n < binade then -1074 else (n / binade : Nat) - 1075

/-- A non-negative rational number as a numerator and a denominator. -/
structure Ratio where
  num : Nat
  den : Nat

/-- `m * 2 ^ q`. -/
def Ratio.scaled (m : Nat) (q : Int) : Ratio := ⟨m * Nat.pow 2 q.toNat, Nat.pow 2 (-q).toNat⟩

def Ratio.mul (a b : Ratio) : Ratio := ⟨a.num * b.num, a.den * b.den⟩

def Ratio.div (a b : Ratio) : Ratio := ⟨a.num * b.den, a.den * b.num⟩

def Ratio.lt (a b : Ratio) : Bool := a.num * b.den < b.num * a.den

def Ratio.le (a b : Ratio) : Bool := a.num * b.den ≤ b.num * a.den

/-- The quotient rounded to the nearest integer, a half to the even one. -/
def roundHalfEven (num den : Nat) : Nat :=
  let q := num / den
  let r := num % den
  if 2 * r < den then q
  else if den < 2 * r then q + 1
  else if q % 2 = 0 then q else q + 1

/-- The largest `e` with `2 ^ e ≤ num / den`, for positive `num` and `den`. -/
def floorLog (r : Ratio) : Int :=
  let e : Int := r.num.log2 - r.den.log2
  if (Ratio.scaled 1 e).le r then e else e - 1

/-- The rank of the double nearest to a ratio; at or past `infinityRank` if it is too large. -/
def nearestRank (r : Ratio) : Nat :=
  if r.num = 0 then 0
  else
    let q := max (floorLog r - 52) (-1074)
    (q + 1074).toNat * binade
      + roundHalfEven (r.num * Nat.pow 2 (-q).toNat) (r.den * Nat.pow 2 q.toNat)

def ofRank? (negative : Bool) (n : Nat) : Option Double :=
  if h : n < 0x7ff0000000000000 then some ⟨negative, n, h⟩ else none

/-- The nearest double, if it is finite. -/
def ofRatio? (negative : Bool) (r : Ratio) : Option Double := ofRank? negative (nearestRank r)

def zero (negative : Bool) : Double := ⟨negative, 0, by decide⟩

def largest (negative : Bool) : Double := ⟨negative, largestRank, by decide⟩

/-- The double nearest to an integer. Integers past the range go to the largest double. -/
def ofInt (i : Int) : Double :=
  (ofRatio? (i < 0) ⟨i.natAbs, 1⟩).getD (largest (i < 0))

def neg (x : Double) : Double := ⟨!x.negative, x.rank, x.finite⟩

def abs (x : Double) : Ratio := .scaled (significand x.rank) (exponent x.rank)

def mul? (x y : Double) : Option Double := ofRatio? (x.negative != y.negative) (x.abs.mul y.abs)

/-- Only a divisor other than zero is meant. -/
def div? (x y : Double) : Option Double := ofRatio? (x.negative != y.negative) (x.abs.div y.abs)

/-- The place of a double among all doubles. Both zeros have place 0. -/
def place (x : Double) : Int := if x.negative then -x.rank else x.rank

/-- Equality of numbers, under which both zeros are equal. -/
def same (x y : Double) : Bool := x.place = y.place

def lt (x y : Double) : Bool := x.place < y.place

def le (x y : Double) : Bool := x.place ≤ y.place

def isWhole (x : Double) : Bool := x.abs.num % x.abs.den = 0

/-- The distance to the nearest integer, which is itself a double. -/
def offWhole (x : Double) : Ratio :=
  let r := x.abs.num % x.abs.den
  ⟨min r (x.abs.den - r), x.abs.den⟩

@[simp] theorem same_self (x : Double) : same x x = true := by simp [same]

end Double

end Conform

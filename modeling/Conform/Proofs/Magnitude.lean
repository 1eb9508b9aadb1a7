import Conform.Rule.Leaf
import Mathlib.Algebra.Order.Field.Rat
import Mathlib.Algebra.Order.Field.Basic
import Mathlib.Data.Rat.Cast.Order
import Mathlib.Tactic.Ring
import Mathlib.Tactic.Linarith
import Mathlib.Tactic.Positivity
import Mathlib.Tactic.GCongr

/-!
# Doubles as rational numbers

A double is kept as a sign and a rank, and its value is computed as a ratio where it is needed.
Counted in the least positive double, values grow with ranks, so the order of places is the order of
the values. With that the bounds on numbers say what they are meant to.
-/

namespace Conform

namespace Double

def Ratio.toRat (r : Ratio) : ℚ := r.num / r.den

/-- The number that a double is. -/
def toRat (x : Double) : ℚ := if x.negative then -x.abs.toRat else x.abs.toRat

/-- How many times the least positive double goes into the one of a rank. -/
def units (n : Nat) : Nat :=
  if n < binade then n else (binade + n % binade) * 2 ^ (n / binade - 1)

theorem units_lt {m n : Nat} (h : m < n) : units m < units n := by
  have hbinade : 0 < binade := by decide
  have hm := Nat.mod_lt m hbinade
  have hdivm := Nat.div_add_mod m binade
  have hdivn := Nat.div_add_mod n binade
  have hle : m / binade ≤ n / binade := Nat.div_le_div_right (Nat.le_of_lt h)
  unfold units
  split
  · split
    · exact h
    · have hone : 1 ≤ 2 ^ (n / binade - 1) := Nat.one_le_two_pow
      calc
        m < binade + n % binade := by omega
        _ ≤ (binade + n % binade) * 2 ^ (n / binade - 1) := Nat.le_mul_of_pos_right _ hone
  · next hnormal =>
    have hone : 1 ≤ m / binade := (Nat.one_le_div_iff hbinade).2 (Nat.le_of_not_lt hnormal)
    rw [if_neg (by omega)]
    rcases Nat.eq_or_lt_of_le hle with heq | hlt
    · -- in one binade the steps are equal
      rw [heq]
      exact Nat.mul_lt_mul_of_pos_right (by rw [heq] at hdivm; omega) (Nat.two_pow_pos _)
    · calc
        (binade + m % binade) * 2 ^ (m / binade - 1)
          < (2 * binade) * 2 ^ (m / binade - 1) :=
            Nat.mul_lt_mul_of_pos_right (by omega) (Nat.two_pow_pos _)
        _ = binade * 2 ^ (m / binade - 1 + 1) := by ring
        _ ≤ binade * 2 ^ (n / binade - 1) :=
            Nat.mul_le_mul_left _ (Nat.pow_le_pow_right (by decide) (by omega))
        _ ≤ (binade + n % binade) * 2 ^ (n / binade - 1) :=
            Nat.mul_le_mul_right _ (Nat.le_add_right _ _)

theorem Ratio.toRat_scaled (m : Nat) {q : Int} {k : Nat} (h : 0 ≤ q + k) :
    (Ratio.scaled m q).toRat = (m * 2 ^ (q + k).toNat : Nat) / (2 ^ k : Nat) := by
  have hpow : 2 ^ q.toNat * 2 ^ k = 2 ^ (q + k).toNat * 2 ^ (-q).toNat := by
    rw [← Nat.pow_add, ← Nat.pow_add]
    congr 1
    omega
  have hden : ∀ n : Nat, ((2 ^ n : Nat) : ℚ) ≠ 0 := fun n => by positivity
  simp only [toRat, scaled, Nat.pow_eq]
  rw [div_eq_div_iff (hden _) (hden _)]
  norm_cast
  rw [Nat.mul_assoc, hpow, Nat.mul_assoc]

theorem abs_toRat (x : Double) : x.abs.toRat = units x.rank / (2 ^ 1074 : Nat) := by
  have hle : 0 ≤ exponent x.rank + (1074 : Nat) := by
    unfold exponent
    split
    · decide
    · next hnormal =>
      have hone := (Nat.one_le_div_iff (by decide : 0 < binade)).2 (Nat.le_of_not_lt hnormal)
      omega
  rw [abs, Ratio.toRat_scaled _ hle]
  congr 2
  unfold units significand exponent
  split
  · exact Nat.mul_one _
  · congr 2
    omega

/-- How many steps of the least positive double lead from zero to the one at a place. -/
def steps (p : Int) : Int := if p < 0 then -units p.natAbs else units p.natAbs

theorem steps_lt {p q : Int} (h : p < q) : steps p < steps q := by
  unfold steps
  split <;> split
  · have hlt := units_lt (show q.natAbs < p.natAbs by omega)
    omega
  · have hpos : 0 < units p.natAbs := units_lt (show 0 < p.natAbs by omega)
    omega
  · omega
  · have hlt := units_lt (show p.natAbs < q.natAbs by omega)
    omega

theorem steps_le_iff {p q : Int} : steps p ≤ steps q ↔ p ≤ q := by
  constructor
  · intro h
    by_contra hlt
    have hsteps := steps_lt (Int.not_le.1 hlt)
    omega
  · intro h
    rcases Int.le_iff_eq_or_lt.1 h with rfl | hlt
    · exact Int.le_refl _
    · exact Int.le_of_lt (steps_lt hlt)

theorem toRat_eq (x : Double) : x.toRat = steps x.place / (2 ^ 1074 : Nat) := by
  have hsteps : steps x.place = if x.negative then -(units x.rank : Int) else units x.rank := by
    unfold steps place
    split
    · rw [Int.natAbs_neg, Int.natAbs_natCast]
      split
      · rfl
      · next h =>
        obtain hzero : x.rank = 0 := by omega
        rw [hzero]
        rfl
    · rw [if_neg (by omega), Int.natAbs_natCast]
  rw [toRat, abs_toRat, hsteps]
  split
  · rw [Int.cast_neg, Int.cast_natCast, neg_div]
  · rw [Int.cast_natCast]

/-- Places are ordered as the numbers are. -/
theorem place_le_iff (x y : Double) : x.place ≤ y.place ↔ x.toRat ≤ y.toRat := by
  have hpos : (0 : ℚ) < (2 ^ 1074 : Nat) := by positivity
  rw [toRat_eq, toRat_eq, div_le_div_iff_of_pos_right hpos, Int.cast_le, steps_le_iff]

theorem le_iff (x y : Double) : x.le y = true ↔ x.toRat ≤ y.toRat := by
  rw [le, decide_eq_true_eq, place_le_iff]

theorem lt_iff (x y : Double) : x.lt y = true ↔ x.toRat < y.toRat := by
  rw [lt, decide_eq_true_eq, ← not_le, ← not_le, place_le_iff]

theorem Ratio.lt_iff {a b : Ratio} (ha : 0 < a.den) (hb : 0 < b.den) :
    a.lt b = true ↔ a.toRat < b.toRat := by
  have ha' : (0 : ℚ) < a.den := Nat.cast_pos.2 ha
  have hb' : (0 : ℚ) < b.den := Nat.cast_pos.2 hb
  rw [lt, decide_eq_true_eq, toRat, toRat, div_lt_div_iff₀ ha' hb']
  norm_cast

/-- A remainder, or what it lacks, is the least distance to a multiple. -/
theorem offWhole_le (num : Nat) {den : Nat} (hden : 0 < den) (k : Int) :
    ((min (num % den) (den - num % den) : Nat) : Int) ≤ |(num : Int) - k * den| := by
  have hlt := Nat.mod_lt num hden
  have hsplit : (num : Int) - k * den = (num / den - k) * den + num % den := by
    rw [sub_mul, mul_comm ((num : Int) / den), sub_add_eq_add_sub, Int.mul_ediv_add_emod]
  rw [hsplit, ← Int.natCast_emod]
  rcases le_or_gt 0 ((num / den : Int) - k) with hk | hk
  · have hmul : 0 ≤ ((num / den : Int) - k) * den := Int.mul_nonneg hk (Int.natCast_nonneg den)
    exact le_trans (by omega) (le_abs_self _)
  · have hmul : ((num / den : Int) - k) * den ≤ (-1) * den :=
      Int.mul_le_mul_of_nonneg_right (by omega) (Int.natCast_nonneg den)
    exact le_trans (by omega) (neg_le_abs _)

theorem exists_offWhole (num : Nat) {den : Nat} (hden : 0 < den) :
    ∃ k : Int, |(num : Int) - k * den| = ((min (num % den) (den - num % den) : Nat) : Int) := by
  have hlt := Nat.mod_lt num hden
  have hsplit : (num : Int) = den * (num / den) + (num % den : Nat) := by
    rw [Int.natCast_emod, Int.mul_ediv_add_emod]
  rcases Nat.le_total (num % den) (den - num % den) with h | h
  · refine ⟨num / den, ?_⟩
    rw [Nat.min_eq_left h, abs_eq (Int.natCast_nonneg _)]
    left
    linarith
  · refine ⟨num / den + 1, ?_⟩
    rw [Nat.min_eq_right h, abs_eq (Int.natCast_nonneg _)]
    right
    rw [Int.ofNat_sub (Nat.le_of_lt hlt)]
    linarith

theorem abs_den_pos (x : Double) : 0 < x.abs.den := Nat.two_pow_pos _

theorem abs_toRat_sub (x : Double) (k : Int) : |x.abs.toRat - k| =
    ((|(x.abs.num : Int) - k * x.abs.den| : Int) : ℚ) / x.abs.den := by
  have hden : (0 : ℚ) < x.abs.den := Nat.cast_pos.2 x.abs_den_pos
  rw [Ratio.toRat, div_sub' hden.ne', abs_div, abs_of_pos hden]
  push_cast
  rw [mul_comm]

theorem offWhole_lt_abs_iff (x : Double) {t : Ratio} (ht : 0 < t.den) :
    x.offWhole.lt t = true ↔ ∃ k : Int, |x.abs.toRat - k| < t.toRat := by
  have hden := x.abs_den_pos
  rw [Ratio.lt_iff (a := x.offWhole) hden ht]
  simp only [abs_toRat_sub]
  constructor
  · intro h
    obtain ⟨k, hk⟩ := exists_offWhole x.abs.num hden
    refine ⟨k, ?_⟩
    rw [hk, Int.cast_natCast]
    exact h
  · rintro ⟨k, hk⟩
    have hle := Int.cast_le (R := ℚ).2 (offWhole_le x.abs.num hden k)
    rw [Int.cast_natCast] at hle
    exact lt_of_le_of_lt (div_le_div_of_nonneg_right hle (Nat.cast_nonneg _)) hk

/-- A double is off the integers by its distance to the nearest of them, whatever its sign is. -/
theorem offWhole_lt_iff (x : Double) {t : Ratio} (ht : 0 < t.den) :
    x.offWhole.lt t = true ↔ ∃ k : Int, |x.toRat - k| < t.toRat := by
  rw [offWhole_lt_abs_iff x ht, toRat]
  split
  · constructor
    · rintro ⟨k, hk⟩
      refine ⟨-k, ?_⟩
      rwa [Int.cast_neg, ← abs_neg, neg_sub, sub_neg_eq_add, ← sub_eq_neg_add]
    · rintro ⟨k, hk⟩
      refine ⟨-k, ?_⟩
      rwa [Int.cast_neg, sub_neg_eq_add, ← abs_neg, neg_add, ← sub_eq_add_neg]
  · exact Iff.rfl

end Double

/-- What a bound says of two numbers. A number counts as a multiple of another if their ratio, as a
double, is so near to an integer that the difference is taken for noise. -/
def Bound.Meant (x limit : Double) : Bound → Prop
  | minimum => limit.toRat ≤ x.toRat
  | maximum => x.toRat ≤ limit.toRat
  | exclusiveMinimum => limit.toRat < x.toRat
  | exclusiveMaximum => x.toRat < limit.toRat
  | multipleOf => ∃ ratio, x.div? limit = some ratio ∧
      ∃ k : Int, |ratio.toRat - k| < Leaf.multipleTolerance.toRat

theorem Leaf.boundHolds_iff {b : Bound} {x limit : Double} :
    boundHolds b x limit = true ↔ b.Meant x limit := by
  cases b with
  | minimum => exact limit.le_iff x
  | maximum => exact x.le_iff limit
  | exclusiveMinimum => exact limit.lt_iff x
  | exclusiveMaximum => exact x.lt_iff limit
  | multipleOf =>
    have ht : 0 < multipleTolerance.den := by decide
    rw [boundHolds, isMultiple, Bound.Meant]
    cases x.div? limit with
    | none => simp
    | some ratio => simp [ratio.offWhole_lt_iff ht]

instance (b : Bound) (x limit : Double) : Decidable (b.Meant x limit) :=
  decidable_of_iff _ Leaf.boundHolds_iff

end Conform

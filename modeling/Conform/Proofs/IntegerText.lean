import Conform.Proofs.Paths
import Conform.Rule.Coercion
import Mathlib.Data.List.TakeWhile

/-!
# Integers as texts and back

An integer is written with its digits, and what a text is read as depends on its range: within the
signed 64-bit integers it is read back as what it was, and beyond them no integer is read from it
at all, but the double nearest to it.
-/

namespace Conform

theorem Text.trimChars_eq_self {cs : List Char} (h : ∀ c ∈ cs, isBlank c = false) :
    trimChars cs = cs := by
  have hdrop : ∀ {l : List Char}, (∀ c ∈ l, isBlank c = false) → l.dropWhile isBlank = l := by
    intro l hl
    cases l with
    | nil => rfl
    | cons c l => rw [List.dropWhile_cons_of_neg (by simp [hl c List.mem_cons_self])]
  rw [trimChars, hdrop h, hdrop fun c hc => h c (List.mem_reverse.1 hc), List.reverse_reverse]

theorem Text.isBlank_of_isDigit {c : Char} (h : c.isDigit = true) : isBlank c = false := by
  obtain ⟨d, hd, rfl, -⟩ := exists_eq_digitChar h
  exact (by decide : ∀ d < 10, isBlank (Nat.digitChar d) = false) d hd

theorem isDigit_toDigits {n : Nat} {c : Char} (h : c ∈ Nat.toDigits 10 n) : c.isDigit = true :=
  Nat.isDigit_of_mem_toDigits (by decide) (by decide) h

theorem decimal?_toDigits (n : Nat) : decimal? (Nat.toDigits 10 n) = some n := by
  rw [← Segment.toList_toString, Segment.decimal?_toString]

theorem toList_text_int (n : Int) : (Number.int n).text.toList =
    if n < 0 then '-' :: Nat.toDigits 10 n.natAbs else Nat.toDigits 10 n.natAbs := by
  rw [Number.text, Int.toString_eq_repr, Int.repr_eq_if]
  by_cases hn : n < 0
  · rw [if_pos hn, if_neg (by omega), String.toList_append, Nat.repr_eq_ofList_toDigits,
      String.toList_ofList, String.toList_ofList, show (-n).toNat = n.natAbs by omega]
    rfl
  · rw [if_neg hn, if_pos (by omega), Nat.repr_eq_ofList_toDigits, String.toList_ofList,
      show n.toNat = n.natAbs by omega]

/-- There is nothing to trim about the text of an integer. -/
theorem trimChars_text_int (n : Int) :
    Text.trimChars (Number.int n).text.toList = (Number.int n).text.toList := by
  have hdigits : ∀ c ∈ Nat.toDigits 10 n.natAbs, Text.isBlank c = false :=
    fun c hc => Text.isBlank_of_isDigit (isDigit_toDigits hc)
  refine Text.trimChars_eq_self ?_
  rw [toList_text_int]
  split
  · exact List.forall_mem_cons.2 ⟨rfl, hdigits⟩
  · exact hdigits

namespace Coercion

theorem unsigned_of_digits {cs : List Char} (h : ∀ c ∈ cs, c.isDigit = true) :
    unsigned cs = (false, cs) := by
  unfold unsigned
  split
  · cases h '+' List.mem_cons_self
  · cases h '-' List.mem_cons_self
  · rfl

/-- The text of an integer is read as the integer if it is in the range of the signed ones. -/
theorem integer?_text_int (n : Int) : integer? (Number.int n).text.toList =
    if -integerLimit ≤ n ∧ n < integerLimit then some n else none := by
  rw [toList_text_int, integer?]
  by_cases hn : n < 0
  · have habs : -(n.natAbs : Int) = n := by omega
    simp only [if_pos hn, unsigned, decimal?_toDigits, if_true, habs]
  · have habs : (n.natAbs : Int) = n := by omega
    simp only [if_neg hn, unsigned_of_digits fun c hc => isDigit_toDigits hc, decimal?_toDigits,
      Bool.false_eq_true, if_false, habs]

/-- Digits alone are read as the double nearest to their number. -/
theorem double?_toDigits (n : Nat) :
    double? (Nat.toDigits 10 n) = Double.ofDecimal? false ⟨n, 0⟩ := by
  have digits : ∀ c ∈ Nat.toDigits 10 n, c.isDigit = true := fun c hc => isDigit_toDigits hc
  have noMark : ∀ c ∈ Nat.toDigits 10 n, (!(c = 'e' || c = 'E')) = true := by
    intro c hc
    obtain ⟨d, hd, rfl, -⟩ := exists_eq_digitChar (digits c hc)
    exact (by decide : ∀ d < 10, (!(Nat.digitChar d = 'e' || Nat.digitChar d = 'E')) = true) d hd
  have hpointed : pointed? (Nat.toDigits 10 n) = some (Nat.toDigits 10 n, 0) := by
    simp only [pointed?, List.takeWhile_eq_self_iff.2 digits, List.dropWhile_eq_nil_iff.2 digits,
      List.isEmpty_eq_false_iff.2 Nat.toDigits_ne_nil, Bool.false_eq_true, if_false]
  simp only [double?, unsigned_of_digits digits, List.takeWhile_eq_self_iff.2 noMark,
    List.dropWhile_eq_nil_iff.2 noMark, hpointed, decimal?_toDigits, Option.bind_some]
  rfl

end Coercion

namespace Double

theorem ofDecimal?_nat {n : Nat} (pos : 0 < n) (short : digitCount n ≤ 400) :
    ofDecimal? false ⟨n, 0⟩ = ofRatio? false ⟨n, 1⟩ := by
  have hlow : ¬ (n = 0 ∨ (0 : Int) + digitCount n < -400) := by omega
  have hhigh : ¬ (400 : Int) < 0 + digitCount n := by omega
  simp only [ofDecimal?, if_neg hlow, if_neg hhigh, Decimal.ratio]
  rw [show n * Nat.pow 10 (0 : Int).toNat = n from Nat.mul_one n]
  rfl

theorem floorLog_nat {n : Nat} (ne : n ≠ 0) : floorLog ⟨n, 1⟩ = n.log2 := by
  have hlog : ((n.log2 : Int) - (Nat.log2 1 : Nat)) = n.log2 := by
    rw [show Nat.log2 1 = 0 by decide]
    omega
  have hle : (Ratio.scaled 1 n.log2).le ⟨n, 1⟩ = true := by
    have hself : Nat.pow 2 n.log2 ≤ n := Nat.log2_self_le ne
    have hden : (-(n.log2 : Int)).toNat = 0 := by omega
    have hone : n * Nat.pow 2 0 = n := Nat.mul_one n
    simpa only [Ratio.le, Ratio.scaled, Int.toNat_natCast, decide_eq_true_eq, hden, hone,
      Nat.one_mul, Nat.mul_one] using hself
  simp only [floorLog, hlog, hle, if_true]

theorem ne_zero_of_log2 {n k : Nat} (h : n.log2 = 52 + k) : n ≠ 0 := by
  rintro rfl
  rw [Nat.log2_zero] at h
  omega

/-- An integer of `53 + k` bits is rounded to a multiple of `2 ^ k`. -/
theorem nearestRank_nat {n k : Nat} (h : n.log2 = 52 + k) :
    nearestRank ⟨n, 1⟩ = (k + 1074) * binade + roundHalfEven n (Nat.pow 2 k) := by
  have ne := ne_zero_of_log2 h
  have hmax : max ((n.log2 : Int) - 52) (-1074) = k := by omega
  have hdown : (-(k : Int)).toNat = 0 := by omega
  have hup : ((k : Int) + 1074).toNat = k + 1074 := by omega
  simp only [nearestRank, if_neg ne, floorLog_nat ne, hmax, hdown, hup,
    Int.toNat_natCast]
  rw [Nat.one_mul, show n * Nat.pow 2 0 = n from Nat.mul_one n]

theorem roundHalfEven_cases (n d : Nat) :
    roundHalfEven n d = n / d ∨ roundHalfEven n d = n / d + 1 := by
  simp only [roundHalfEven]
  split
  · exact .inl rfl
  · split
    · exact .inr rfl
    · split
      · exact .inl rfl
      · exact .inr rfl

theorem roundHalfEven_mul_eq_iff {n d : Nat} (pos : 0 < d) : roundHalfEven n d * d = n ↔ d ∣ n := by
  constructor
  · intro h
    exact ⟨roundHalfEven n d, by rw [Nat.mul_comm, h]⟩
  · rintro ⟨q, rfl⟩
    have hrem : 2 * (d * q % d) < d := by rwa [Nat.mul_mod_right, Nat.mul_zero]
    simp only [roundHalfEven, if_pos hrem]
    rw [Nat.mul_div_cancel_left q pos, Nat.mul_comm]

/-- The absolute value of the double `f` places behind the start of a binade. -/
theorem scaled_binade {k f : Nat} (h : f < binade) :
    Ratio.scaled (significand ((k + 1075) * binade + f)) (exponent ((k + 1075) * binade + f)) =
      ⟨(binade + f) * Nat.pow 2 k, 1⟩ := by
  have hpos : 0 < binade := by decide
  have hnormal : ¬ (k + 1075) * binade + f < binade := by
    have hle : binade ≤ (k + 1075) * binade := Nat.le_mul_of_pos_left binade (Nat.succ_pos _)
    omega
  have hmod : ((k + 1075) * binade + f) % binade = f := by
    rw [Nat.mul_comm, Nat.mul_add_mod, Nat.mod_eq_of_lt h]
  have hdiv : ((k + 1075) * binade + f) / binade = k + 1075 := by
    rw [Nat.mul_comm, Nat.mul_add_div hpos, Nat.div_eq_of_lt h, Nat.add_zero]
  have hexp : ((k + 1075 : Nat) : Int) - 1075 = k := by omega
  have hden : (-(k : Int)).toNat = 0 := by omega
  simp only [significand, exponent, if_neg hnormal, hmod, hdiv, hexp, Ratio.scaled,
    Int.toNat_natCast, hden, Nat.pow_eq, Nat.pow_zero]

/-- What is left of an integer of `53 + k` bits without the last `k` is a significand. -/
theorem quotient_bounds {n k : Nat} (h : n.log2 = 52 + k) :
    binade ≤ n / Nat.pow 2 k ∧ n / Nat.pow 2 k < 2 * binade := by
  have pos : 0 < Nat.pow 2 k := Nat.two_pow_pos k
  have hpow : binade * Nat.pow 2 k = Nat.pow 2 (52 + k) := (Nat.pow_add 2 52 k).symm
  have hlow : Nat.pow 2 (52 + k) ≤ n := h ▸ Nat.log2_self_le (ne_zero_of_log2 h)
  have hhigh : n < Nat.pow 2 (52 + k) * 2 := h ▸ Nat.lt_log2_self
  refine ⟨(Nat.le_div_iff_mul_le pos).2 (hpow ▸ hlow), (Nat.div_lt_iff_lt_mul pos).2 ?_⟩
  rw [Nat.mul_assoc, hpow, Nat.mul_comm]
  exact hhigh

/-- An integer of `53 + k` bits becomes the multiple of `2 ^ k` that it is rounded to, also where
the rounding leads on to the next binade. -/
theorem scaled_nearestRank_nat {n k : Nat} (h : n.log2 = 52 + k) :
    Ratio.scaled (significand (nearestRank ⟨n, 1⟩)) (exponent (nearestRank ⟨n, 1⟩)) =
      ⟨roundHalfEven n (Nat.pow 2 k) * Nat.pow 2 k, 1⟩ := by
  rw [nearestRank_nat h]
  obtain ⟨hlow, hhigh⟩ := quotient_bounds h
  have hround := roundHalfEven_cases n (Nat.pow 2 k)
  generalize roundHalfEven n (Nat.pow 2 k) = m at hround ⊢
  have hm : (∃ f < binade, m = binade + f) ∨ m = 2 * binade := by
    by_cases hm : m < 2 * binade
    · exact .inl ⟨m - binade, by omega, by omega⟩
    · exact .inr (by omega)
  rcases hm with ⟨f, hf, rfl⟩ | rfl
  · rw [← scaled_binade hf, ← Nat.add_assoc, ← Nat.succ_mul]
  · have hrank : (k + 1074) * binade + 2 * binade = (k + 1 + 1075) * binade + 0 := by
      rw [← Nat.add_mul, show k + 1074 + 2 = k + 1 + 1075 by omega]
      exact (Nat.add_zero _).symm
    rw [hrank, scaled_binade (show 0 < binade by decide), Nat.add_zero,
      show Nat.pow 2 (k + 1) = 2 * Nat.pow 2 k from Nat.pow_succ', ← Nat.mul_assoc,
      Nat.mul_comm binade]

theorem nearestRank_nat_lt {n k : Nat} (h : n.log2 = 52 + k) (small : k < 971) :
    nearestRank ⟨n, 1⟩ < infinityRank := by
  obtain ⟨-, hhigh⟩ := quotient_bounds h
  have hround : roundHalfEven n (Nat.pow 2 k) ≤ 2 * binade := by
    rcases roundHalfEven_cases n (Nat.pow 2 k) with hround | hround <;> omega
  have hbinades : (k + 1076) * binade ≤ 2046 * binade := Nat.mul_le_mul_right binade (by omega)
  have hinfinity : 2046 * binade < infinityRank := by decide
  rw [nearestRank_nat h]
  calc (k + 1074) * binade + roundHalfEven n (Nat.pow 2 k)
      ≤ (k + 1074) * binade + 2 * binade := Nat.add_le_add_left hround _
    _ = (k + 1076) * binade := (Nat.add_mul _ 2 binade).symm
    _ < infinityRank := Nat.lt_of_le_of_lt hbinades hinfinity

/-- Whether a double is a number, not just near it. -/
def IsNat (x : Double) (n : Nat) : Prop := x.negative = false ∧ x.abs.num = n * x.abs.den

/-- The double nearest to an integer of `53 + k` bits is this integer exactly if it is a multiple of
`2 ^ k`. -/
theorem ofRatio?_nat {n k : Nat} (h : n.log2 = 52 + k) (small : k < 971) :
    ofRatio? false ⟨n, 1⟩ = some (ofInt n) ∧ ((ofInt n).IsNat n ↔ Nat.pow 2 k ∣ n) := by
  have pos : 0 < Nat.pow 2 k := Nat.two_pow_pos k
  obtain ⟨x, hx, hneg, hrank⟩ : ∃ x, ofRatio? false ⟨n, 1⟩ = some x ∧ x.negative = false ∧
      x.rank = nearestRank ⟨n, 1⟩ :=
    ⟨⟨false, _, nearestRank_nat_lt h small⟩, dif_pos (nearestRank_nat_lt h small), rfl, rfl⟩
  have hof : ofInt n = x := by
    have hsign : decide ((n : Int) < 0) = false := decide_eq_false (by omega)
    rw [ofInt, hsign, Int.natAbs_natCast, hx, Option.getD_some]
  refine ⟨by rw [hx, hof], ?_⟩
  rw [hof, IsNat, abs, hrank, scaled_nearestRank_nat h, Nat.mul_one, roundHalfEven_mul_eq_iff pos]
  exact and_iff_right hneg

end Double

section

variable {n : Int}

theorem coerce?_integer_text :
    Kind.integer.coerce? (.string (Number.int n).text) =
      if -Coercion.integerLimit ≤ n ∧ n < Coercion.integerLimit then some (.int n) else none := by
  rw [Kind.coerce?, trimChars_text_int, Coercion.integer?_text_int]
  split <;> rfl

theorem coerce?_number_text (low : -Coercion.integerLimit ≤ n) :
    Kind.number.coerce? (.string (Number.int n).text) =
      if n < Coercion.integerLimit then some (.int n)
      else (Coercion.double? (Number.int n).text.toList).map .double := by
  simp only [Kind.coerce?, trimChars_text_int, Coercion.integer?_text_int, low, true_and]
  split <;> rfl

/-- Beyond the signed integers a text is read as the double nearest to its number, which is the
number itself only once in a while. -/
theorem double?_text_int (low : Coercion.integerLimit ≤ n) (high : n < 2 * Coercion.integerLimit) :
    Coercion.double? (Number.int n).text.toList = some (.ofInt n) ∧
      ((Double.ofInt n).IsNat n.toNat ↔ 2048 ∣ n) := by
  have hlimit : Coercion.integerLimit = (Nat.pow 2 63 : Nat) := rfl
  obtain ⟨m, rfl⟩ : ∃ m : Nat, n = m := ⟨n.toNat, by omega⟩
  have hlow : Nat.pow 2 63 ≤ m := by omega
  have hhigh : m < Nat.pow 2 64 := by
    have hdouble : Nat.pow 2 64 = 2 * Nat.pow 2 63 := rfl
    omega
  have hlog : m.log2 = 52 + 11 := (Nat.log2_eq_iff (by omega)).2 ⟨hlow, hhigh⟩
  have hshort : Double.digitCount m ≤ 400 := by
    have hdigits : m < Nat.pow 10 20 := Nat.lt_trans hhigh (by decide)
    have hcount := (Nat.length_toDigits_le_iff (by decide) (by decide)).2 hdigits
    exact Nat.le_trans hcount (by decide)
  obtain ⟨hread, hvalue⟩ := Double.ofRatio?_nat hlog (by decide)
  refine ⟨?_, ?_⟩
  · rw [toList_text_int, if_neg (by omega), Int.natAbs_natCast, Coercion.double?_toDigits,
      Double.ofDecimal?_nat (by omega) hshort, hread]
  · rw [Int.toNat_natCast, hvalue]
    exact Int.natCast_dvd_natCast.symm

end

/-- **Integers as texts.** An integer that a value can hold, signed or unsigned, is made into the
text of its digits. Below `2 ^ 63` the text is made into the same integer again, for either kind.
From there on it is no integer, and the number that it is made into is the double nearest to the
integer, which is as large only if the integer is a multiple of 2048. -/
theorem integer_text_round_trip {n : Int} (low : -Coercion.integerLimit ≤ n)
    (high : n < 2 * Coercion.integerLimit) :
    ∃ s, Kind.string.coerce? (.int n) = some (.string s) ∧
      (n < Coercion.integerLimit → Kind.integer.coerce? (.string s) = some (.int n) ∧
        Kind.number.coerce? (.string s) = some (.int n)) ∧
      (Coercion.integerLimit ≤ n → Kind.integer.coerce? (.string s) = none ∧
        Kind.number.coerce? (.string s) = some (.double (.ofInt n)) ∧
        ((Double.ofInt n).IsNat n.toNat ↔ 2048 ∣ n)) := by
  refine ⟨_, rfl, fun signed => ?_, fun unsigned => ?_⟩
  · rw [coerce?_integer_text, coerce?_number_text low, if_pos ⟨low, signed⟩, if_pos signed]
    exact ⟨rfl, rfl⟩
  · obtain ⟨hdouble, hvalue⟩ := double?_text_int unsigned high
    rw [coerce?_integer_text, coerce?_number_text low, if_neg fun h => Int.not_le.2 h.2 unsigned,
      if_neg (Int.not_lt.2 unsigned), hdouble]
    exact ⟨rfl, rfl, hvalue⟩

/-- The largest signed integer comes back; the largest unsigned one is no integer then, and its text
is made into the number that is one more. -/
theorem integer_text_round_trip_ends :
    Kind.integer.coerce? (.string "9223372036854775807") = some (.int 9223372036854775807) ∧
      Kind.integer.coerce? (.string "18446744073709551615") = none ∧
      ¬ (Double.ofInt 18446744073709551615).IsNat 18446744073709551615 := by
  obtain ⟨s, hs, hsigned, -⟩ := integer_text_round_trip (n := 9223372036854775807) (by decide)
    (by decide)
  obtain ⟨t, ht, -, hunsigned⟩ := integer_text_round_trip (n := 18446744073709551615) (by decide)
    (by decide)
  have hs' : s = "9223372036854775807" := by
    cases hs
    decide
  have ht' : t = "18446744073709551615" := by
    cases ht
    decide
  obtain ⟨hnone, -, hvalue⟩ := hunsigned (by decide)
  exact ⟨hs' ▸ (hsigned (by decide)).1, ht' ▸ hnone, fun h => absurd (hvalue.1 h) (by decide)⟩

/-- The largest unsigned integer is made into a text that no integer is read from, and for which
another number is read. -/
theorem unsigned_text_lost :
    ∃ s x, Kind.string.coerce? (.int 18446744073709551615) = some (.string s) ∧
      Kind.integer.coerce? (.string s) = none ∧
      Kind.number.coerce? (.string s) = some (.double x) ∧ ¬ x.IsNat 18446744073709551615 := by
  obtain ⟨hdouble, hvalue⟩ := double?_text_int (n := 18446744073709551615) (by decide) (by decide)
  refine ⟨_, _, rfl, coerce?_integer_text, ?_, fun h => absurd (hvalue.1 h) (by decide)⟩
  rw [coerce?_number_text (by decide), if_neg (by decide), hdouble]
  rfl

end Conform

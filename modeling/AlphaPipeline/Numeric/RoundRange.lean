import AlphaPipeline.Numeric.Round

/-!
# The range of the decimal rounding

The text of `alpha_round_dp` has as many digits as the value has, and the buffer keeps 63
characters. A double with so many digits is a whole number, so losing decimals does no harm;
losing digits before the point does.
-/
namespace AlphaPipeline

/-- The value of a finite double: a whole number of 53 bits times a power of two. -/
def FiniteDouble (value : ℚ) : Prop :=
  ∃ significand exponent : Int, |significand| < 2 ^ 53 ∧ -1074 ≤ exponent ∧ exponent ≤ 971 ∧
    value = significand * 2 ^ exponent

/-- The result is the value rounded half to even to so many decimals. -/
def RoundedDp (value : ℚ) (decimals : Nat) (result : ℚ) : Prop :=
  ∃ units : Int, NearestEven (value * 10 ^ decimals) units ∧ result = units / 10 ^ decimals

/-- The result is within half a unit of the last decimal. -/
def WithinHalfUnit (value : ℚ) (decimals : Nat) (result : ℚ) : Prop :=
  |result - value| ≤ 1 / 2 / 10 ^ decimals

theorem RoundedDp.withinHalfUnit {value result : ℚ} {decimals : Nat}
    (rounded : RoundedDp value decimals result) : WithinHalfUnit value decimals result := by
  obtain ⟨units, nearest, rfl⟩ := rounded
  have power : (0 : ℚ) < 10 ^ decimals := by positivity
  have scaled : (units : ℚ) / 10 ^ decimals - value =
      -(value * 10 ^ decimals - units) / 10 ^ decimals := by
    field_simp
    ring
  rw [WithinHalfUnit, scaled, abs_div, abs_neg, abs_of_pos power]
  exact div_le_div_of_nonneg_right nearest.1 power.le

/-! ### Values -/

/-- A double that is not smaller than `2 ^ 53` is a whole number. -/
theorem FiniteDouble.whole_or_small {value : ℚ} (finite : FiniteDouble value) :
    (∃ n : Int, value = n) ∨ |value| < 2 ^ 53 := by
  obtain ⟨significand, exponent, bits, -, -, rfl⟩ := finite
  rcases le_or_gt 0 exponent with whole | fraction
  · obtain ⟨k, rfl⟩ := Int.eq_ofNat_of_zero_le whole
    exact Or.inl ⟨significand * 2 ^ k, by push_cast; rw [zpow_natCast]⟩
  · have scale : (2 : ℚ) ^ exponent ≤ 1 := zpow_le_one_of_nonpos₀ (by norm_num) fraction.le
    have bits' : |(significand : ℚ)| < 2 ^ 53 := by exact_mod_cast bits
    rw [abs_mul, abs_of_pos (zpow_pos (by norm_num : (0 : ℚ) < 2) exponent)]
    exact Or.inr (lt_of_le_of_lt (mul_le_of_le_one_right (abs_nonneg _) scale) bits')

/-- A text that is kept whole rounds. -/
theorem roundedDp_of_fits {value : ℚ} {decimals : Nat}
    (fits : (printFixed decimals value).length ≤ 63) :
    RoundedDp value decimals (alphaRoundDp value decimals) :=
  ⟨_, roundHalfEven_nearestEven _, alphaRoundDp_eq fits⟩

theorem roundedDp_of_small {value : ℚ} {decimals : Nat} (short : decimals ≤ 6)
    (small : |value| < 2 ^ 53) : RoundedDp value decimals (alphaRoundDp value decimals) := by
  have most : roundHalfEven (|value| * 10 ^ decimals) ≤ 2 ^ 53 * 10 ^ decimals := by
    have le : |value| * 10 ^ decimals ≤ ((2 ^ 53 * 10 ^ decimals : Int) : ℚ) := by
      push_cast
      exact mul_le_mul_of_nonneg_right small.le (by positivity)
    exact (roundHalfEven_mono le).trans (roundHalfEven_intCast _).le
  have units : (roundHalfEven (|value| * 10 ^ decimals)).toNat < 10 ^ 16 * 10 ^ decimals := by
    have bound : (roundHalfEven (|value| * 10 ^ decimals)).toNat ≤ 2 ^ 53 * 10 ^ decimals := by
      rw [Int.toNat_le]
      exact_mod_cast most
    have power : 0 < 10 ^ decimals := by positivity
    omega
  have sign : (if value < 0 then ['-'] else []).length ≤ 1 := by split <;> simp
  have length := length_printUnits_le (by decide) units
  apply roundedDp_of_fits
  rw [printFixed_eq, List.length_append]
  omega

/-! ### Whole numbers -/

/-- The number that a text without sign is read as. -/
def magnitude (text : Text) : ℚ :=
  (Nat.ofDigitChars 10 ((fixedParts text).1 ++ (fixedParts text).2) 0 : ℚ) /
    10 ^ (fixedParts text).2.length

theorem fixedDecimal_zeros (width n : Nat) :
    Decimal.fixedDecimal width (n * 10 ^ width) = List.replicate width '0' := by
  have zeros (width : Nat) : Decimal.fixedDecimal width 0 = List.replicate width '0' := by
    induction width with
    | zero => rfl
    | succ width ih => rw [Decimal.fixedDecimal, ih, Nat.zero_div, List.replicate_succ]; rfl
  rw [← zeros width]
  apply Decimal.fixedDecimal_congr
  rw [Nat.mul_mod_left, Nat.zero_mod]

/-- Zeros after the point, as many as were kept, do not change the number. -/
theorem magnitude_kept (n kept decimals : Nat) :
    magnitude (Nat.toDigits 10 n ++ ('.' :: List.replicate decimals '0').take kept) = n := by
  have digits : ∀ c ∈ Nat.toDigits 10 n, c.isDigit = true :=
    fun c member => Nat.isDigit_of_mem_toDigits (by decide) (by decide) member
  have parts (kept : Nat) : ∃ zeros,
      fixedParts (Nat.toDigits 10 n ++ ('.' :: List.replicate decimals '0').take kept) =
        (Nat.toDigits 10 n, List.replicate zeros '0') := by
    cases kept with
    | zero =>
      refine ⟨0, ?_⟩
      rw [List.take_zero, List.append_nil, fixedParts, List.takeWhile_eq_self_iff.mpr digits,
        List.dropWhile_eq_nil_iff.mpr digits]
      rfl
    | succ kept =>
      have point : ('.').isDigit = false := by decide
      have zero : ('0').isDigit = true := by decide
      refine ⟨min kept decimals, ?_⟩
      rw [List.take_succ_cons, List.take_replicate, fixedParts,
        List.takeWhile_append_of_pos digits, List.dropWhile_append_of_pos digits,
        List.takeWhile_cons, point, List.dropWhile_cons, point]
      simp [zero]
  obtain ⟨zeros, found⟩ := parts kept
  rw [magnitude, found, Nat.ofDigitChars_append, Nat.ofDigitChars_ten_toDigits,
    Nat.ofDigitChars_replicate_zero, List.length_replicate]
  push_cast
  field_simp

/-- Digits that are cut are read as a number that has no more. -/
theorem magnitude_cut (n kept : Nat) :
    ∃ m : Nat, m < 10 ^ kept ∧ magnitude ((Nat.toDigits 10 n).take kept) = m := by
  have digits : ∀ c ∈ (Nat.toDigits 10 n).take kept, c.isDigit = true := fun c member =>
    Nat.isDigit_of_mem_toDigits (by decide) (by decide) (List.mem_of_mem_take member)
  have parts : fixedParts ((Nat.toDigits 10 n).take kept) =
      ((Nat.toDigits 10 n).take kept, []) := by
    rw [fixedParts, List.takeWhile_eq_self_iff.mpr digits, List.dropWhile_eq_nil_iff.mpr digits]
  obtain ⟨m, _, below, _, value⟩ := Decimal.readDigits_inv (Decimal.readDigits_digits digits 0)
  rw [Nat.zero_mul, Nat.zero_add] at value
  refine ⟨m, lt_of_lt_of_le below (Nat.pow_le_pow_right (by decide) (List.length_take_le _ _)), ?_⟩
  rw [magnitude, parts, List.append_nil, value, List.length_nil, pow_zero, div_one]

section Whole

variable {n kept decimals : Nat}

theorem printUnits_whole (some : 0 < decimals) :
    printUnits decimals (n * 10 ^ decimals) =
      Nat.toDigits 10 n ++ '.' :: List.replicate decimals '0' := by
  rw [printUnits, if_neg some.ne', fixedDecimal_zeros, Nat.mul_div_cancel _ (by positivity)]

theorem magnitude_of_lt (some : 0 < decimals) (room : 0 < kept) (below : n < 10 ^ kept) :
    magnitude ((printUnits decimals (n * 10 ^ decimals)).take kept) = n := by
  have length := (Nat.length_toDigits_le_iff (by decide) room).mpr below
  rw [printUnits_whole some, List.take_append, List.take_of_length_le length, magnitude_kept]

theorem magnitude_of_ge (some : 0 < decimals) (room : 0 < kept) (above : 10 ^ kept ≤ n) :
    ∃ m : Nat, m < n ∧ magnitude ((printUnits decimals (n * 10 ^ decimals)).take kept) = m := by
  have length : kept < (Nat.toDigits 10 n).length := by
    rw [← not_le, Nat.length_toDigits_le_iff (by decide) room]
    omega
  obtain ⟨m, below, value⟩ := magnitude_cut n kept
  refine ⟨m, by omega, ?_⟩
  rw [printUnits_whole some, List.take_append_of_le_length length.le, value]

theorem roundHalfEven_whole (n decimals : Nat) :
    roundHalfEven (n * 10 ^ decimals) = (n * 10 ^ decimals : Nat) := by
  have cast : (n : ℚ) * 10 ^ decimals = ((n * 10 ^ decimals : Nat) : Int) := by push_cast; rfl
  rw [cast, roundHalfEven_intCast]

theorem alphaRoundDp_natCast (n decimals : Nat) :
    alphaRoundDp n decimals = magnitude ((printUnits decimals (n * 10 ^ decimals)).take 63) := by
  have text : printFixed decimals n = printUnits decimals (n * 10 ^ decimals) := by
    rw [printFixed_eq, if_neg (not_lt.mpr (Nat.cast_nonneg n)), List.nil_append,
      abs_of_nonneg (Nat.cast_nonneg n), roundHalfEven_whole, Int.toNat_natCast]
  have unsigned : ((printUnits decimals (n * 10 ^ decimals)).take 63).head? ≠ some '-' := by
    rw [List.head?_take]
    exact printUnits_unsigned _ _
  rw [alphaRoundDp, Int.toNat_natCast, text, strtodFixed_unsigned unsigned]
  rfl

/-- The sign takes one of the characters. -/
theorem alphaRoundDp_neg_natCast (positive : 0 < n) :
    alphaRoundDp (-n) decimals =
      -magnitude ((printUnits decimals (n * 10 ^ decimals)).take 62) := by
  have below : -(n : ℚ) < 0 := neg_lt_zero.mpr (Nat.cast_pos.mpr positive)
  have text : printFixed decimals (-n) = '-' :: printUnits decimals (n * 10 ^ decimals) := by
    rw [printFixed_eq, if_pos below, List.singleton_append, abs_neg,
      abs_of_nonneg (Nat.cast_nonneg n), roundHalfEven_whole, Int.toNat_natCast]
  rw [alphaRoundDp, Int.toNat_natCast, text, List.take_succ_cons, strtodFixed_signed]
  rfl

end Whole

/-- A whole number that comes back is rounded. -/
theorem roundedDp_whole (n : Int) (decimals : Nat) : RoundedDp n decimals n := by
  refine ⟨n * 10 ^ decimals, ⟨?_, ?_⟩, ?_⟩
  · push_cast
    simp
  · push_cast
    simp
  · push_cast
    field_simp

/-- Another whole number is too far away. -/
theorem not_withinHalfUnit {n m : Int} (other : m ≠ n) {decimals : Nat} :
    ¬WithinHalfUnit n decimals m := by
  intro within
  have apart : (1 : ℚ) ≤ |(m : ℚ) - n| := by
    have gap : 1 ≤ |m - n| := Int.one_le_abs (sub_ne_zero.mpr other)
    exact_mod_cast gap
  have unit : (1 : ℚ) / 2 / 10 ^ decimals ≤ 1 / 2 :=
    div_le_self (by norm_num) (one_le_pow₀ (by norm_num))
  have half := apart.trans (within.trans unit)
  norm_num at half

/-- The values whose digits before the point fit the buffer, with their sign. -/
def InRange (value : ℚ) : Prop := -10 ^ 62 < value ∧ value < 10 ^ 63

theorem alphaRoundDp_inRange {n : Int} {decimals : Nat} (some : 0 < decimals) (range : InRange n) :
    alphaRoundDp n decimals = n := by
  rcases lt_or_ge n 0 with negative | nonneg
  · obtain ⟨k, rfl⟩ : ∃ k : Nat, n = -k := ⟨n.natAbs, by omega⟩
    have below : k < 10 ^ 62 := by
      have := neg_lt_neg range.1
      push_cast at this
      rw [neg_neg, neg_neg] at this
      exact_mod_cast this
    push_cast
    rw [alphaRoundDp_neg_natCast (by omega), magnitude_of_lt some (by decide) below]
  · obtain ⟨k, rfl⟩ := Int.eq_ofNat_of_zero_le nonneg
    have below : k < 10 ^ 63 := by exact_mod_cast range.2
    push_cast
    rw [alphaRoundDp_natCast, magnitude_of_lt some (by decide) below]

theorem alphaRoundDp_outOfRange {n : Int} {decimals : Nat} (some : 0 < decimals)
    (outside : ¬InRange n) : ∃ m : Int, m ≠ n ∧ alphaRoundDp n decimals = m := by
  rcases lt_or_ge n 0 with negative | nonneg
  · obtain ⟨k, rfl⟩ : ∃ k : Nat, n = -k := ⟨n.natAbs, by omega⟩
    have above : 10 ^ 62 ≤ k := by
      by_contra below
      have below' : (k : ℚ) < 10 ^ 62 := by exact_mod_cast not_le.mp below
      refine outside ⟨?_, ?_⟩
      · push_cast
        exact neg_lt_neg below'
      · push_cast
        exact lt_of_le_of_lt (neg_nonpos.mpr (Nat.cast_nonneg k)) (by norm_num)
    obtain ⟨m, less, value⟩ := magnitude_of_ge some (by decide) above
    refine ⟨-m, by omega, ?_⟩
    push_cast
    rw [alphaRoundDp_neg_natCast (by omega), value]
  · obtain ⟨k, rfl⟩ := Int.eq_ofNat_of_zero_le nonneg
    have above : 10 ^ 63 ≤ k := by
      by_contra below
      have below' : (k : ℚ) < 10 ^ 63 := by exact_mod_cast not_le.mp below
      refine outside ⟨?_, by push_cast; exact below'⟩
      push_cast
      exact lt_of_lt_of_le (by norm_num) (Nat.cast_nonneg k)
    obtain ⟨m, less, value⟩ := magnitude_of_ge some (by decide) above
    refine ⟨m, by omega, ?_⟩
    push_cast
    rw [alphaRoundDp_natCast, value]

theorem inRange_of_small {value : ℚ} (small : |value| < 2 ^ 53) : InRange value := by
  obtain ⟨low, high⟩ := abs_lt.mp small
  exact ⟨lt_trans (by norm_num) low, lt_trans high (by norm_num)⟩

/-- `alpha_round_dp` rounds a finite double half to even, and stays within half a unit of the last
decimal, exactly if its digits before the point fit the buffer. -/
theorem alphaRoundDp_rounds_iff {value : ℚ} (finite : FiniteDouble value) {ndigits : Int}
    (digits : 1 ≤ ndigits ∧ ndigits ≤ 6) :
    (RoundedDp value ndigits.toNat (alphaRoundDp value ndigits) ↔ InRange value) ∧
      (WithinHalfUnit value ndigits.toNat (alphaRoundDp value ndigits) ↔ InRange value) := by
  obtain ⟨decimals, rfl⟩ := Int.eq_ofNat_of_zero_le (by omega : 0 ≤ ndigits)
  rw [Int.toNat_natCast]
  rcases finite.whole_or_small with ⟨n, rfl⟩ | small
  · by_cases range : InRange n
    · have rounded := roundedDp_whole n decimals
      rw [alphaRoundDp_inRange (by omega) range]
      exact ⟨iff_of_true rounded range, iff_of_true rounded.withinHalfUnit range⟩
    · obtain ⟨m, other, value⟩ := alphaRoundDp_outOfRange (by omega : 0 < decimals) range
      have far : ¬WithinHalfUnit n decimals m := not_withinHalfUnit other
      rw [value]
      exact ⟨iff_of_false (fun rounded => far rounded.withinHalfUnit) range,
        iff_of_false far range⟩
  · have rounded := roundedDp_of_small (by omega : decimals ≤ 6) small
    have range := inRange_of_small small
    exact ⟨iff_of_true rounded range, iff_of_true rounded.withinHalfUnit range⟩

theorem finiteDouble_eighth : FiniteDouble (1 / 8) :=
  ⟨1, -3, by norm_num, by norm_num, by norm_num, by norm_num⟩

theorem alphaRoundDp_rounds_eighth :
    InRange (1 / 8) ∧ RoundedDp (1 / 8) 2 (alphaRoundDp (1 / 8) 2) := by
  have range : InRange (1 / 8) := inRange_of_small (by rw [abs_of_pos] <;> norm_num)
  have digits : (1 : Int) ≤ 2 ∧ (2 : Int) ≤ 6 := by decide
  exact ⟨range, (alphaRoundDp_rounds_iff finiteDouble_eighth digits).1.mpr range⟩

/-- The text of `2 ^ 210` has 64 digits before the point, and the last one is lost. -/
theorem alphaRoundDp_loses_digit :
    FiniteDouble (2 ^ 210) ∧ ¬RoundedDp (2 ^ 210) 2 (alphaRoundDp (2 ^ 210) 2) ∧
      ¬WithinHalfUnit (2 ^ 210) 2 (alphaRoundDp (2 ^ 210) 2) := by
  have lost : ¬WithinHalfUnit (2 ^ 210) 2 (alphaRoundDp (2 ^ 210) 2) := by
    unfold WithinHalfUnit
    decide +kernel
  refine ⟨⟨1, 210, by norm_num, by norm_num, by norm_num, by norm_num⟩, ?_, lost⟩
  exact fun rounded => lost rounded.withinHalfUnit

end AlphaPipeline

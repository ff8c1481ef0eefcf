import AlphaPipeline.CRuntime
import AlphaPipeline.Library.Decimal

/-!
# Decimal rounding

`alpha_round_dp` prints a value with a fixed number of decimals and reads the text back. A
double is read as the exact rational it stands for; `snprintf` rounds the decimal text half
to even and the buffer cuts it to 63 characters.
-/
namespace AlphaPipeline

/-- The nearest integer, the even one of two equally near. -/
def roundHalfEven (x : ℚ) : Int :=
  let rest := x - x.floor
  if rest < 1 / 2 then x.floor
  else if 1 / 2 < rest then x.floor + 1
  else if x.floor % 2 = 0 then x.floor
  else x.floor + 1

/-- The text of `%.*f`. -/
def printFixed (decimals : Nat) (value : ℚ) : Text :=
  let scaled := (roundHalfEven (|value| * 10 ^ decimals)).toNat
  let fraction := Nat.toDigits 10 (scaled % 10 ^ decimals)
  (if value < 0 then ['-'] else []) ++ Nat.toDigits 10 (scaled / 10 ^ decimals) ++
    (if decimals = 0 then []
      else '.' :: (List.replicate (decimals - fraction.length) '0' ++ fraction))

/-- `strtod` on a decimal text without exponent: the digits before and after the point. -/
def strtodFixed (text : Text) : ℚ :=
  let (negative, digits) :=
    match text with
    | '-' :: rest => (true, rest)
    | _ => (false, text)
  let whole := digits.takeWhile Char.isDigit
  let fraction :=
    match digits.dropWhile Char.isDigit with
    | '.' :: rest => rest.takeWhile Char.isDigit
    | _ => []
  let magnitude : ℚ := Nat.ofDigitChars 10 (whole ++ fraction) 0 / 10 ^ fraction.length
  if negative then -magnitude else magnitude

/-- `alpha_round_dp`. -/
def alphaRoundDp (value : ℚ) (ndigits : Int) : ℚ :=
  strtodFixed ((printFixed ndigits.toNat value).take 63)

example : alphaRoundDp (-1 / 8) 2 = -12 / 100 := by decide +kernel

/-! ### Half to even -/

/-- The integer is nearest to the number, and even if another one is equally near. -/
def NearestEven (x : ℚ) (n : Int) : Prop :=
  |x - n| ≤ 1 / 2 ∧ (|x - n| = 1 / 2 → n % 2 = 0)

theorem NearestEven.unique {x : ℚ} {n m : Int} (first : NearestEven x n)
    (second : NearestEven x m) : n = m := by
  wlog less : n < m generalizing n m
  · rcases lt_trichotomy n m with below | same | above
    · exact this first second below
    · exact same
    · exact (this second first above).symm
  -- they are neighbours, and the number is halfway between them
  have gap : (n : ℚ) + 1 ≤ m := by exact_mod_cast less
  have lower := abs_le.mp first.1
  have upper := abs_le.mp second.1
  have next : m = n + 1 := by
    have : (m : ℚ) ≤ n + 1 := by linarith
    have : m ≤ n + 1 := by exact_mod_cast this
    omega
  have middle : x - n = 1 / 2 := by linarith
  have middle' : x - m = -(1 / 2) := by rw [next]; push_cast; linarith
  have even := first.2 (by rw [middle, abs_of_pos (by norm_num)])
  have even' := second.2 (by rw [middle', abs_neg, abs_of_pos (by norm_num)])
  omega

theorem roundHalfEven_nearestEven (x : ℚ) : NearestEven x (roundHalfEven x) := by
  have low := Rat.floor_le x
  have high : x < x.floor + 1 := by exact_mod_cast Rat.lt_floor_add_one x
  unfold roundHalfEven
  dsimp only
  split
  next below =>
    have distance : |x - x.floor| = x - x.floor := abs_of_nonneg (by linarith)
    exact ⟨by linarith, by intro half; linarith⟩
  next notBelow =>
    split
    next above =>
      have distance : |x - (x.floor + 1 : Int)| = x.floor + 1 - x := by
        push_cast
        rw [abs_of_nonpos (by linarith)]
        ring
      exact ⟨by linarith, by intro half; linarith⟩
    next notAbove =>
      have half : x - x.floor = 1 / 2 := le_antisymm (not_lt.mp notAbove) (not_lt.mp notBelow)
      split
      next even =>
        refine ⟨?_, fun _ => even⟩
        rw [half, abs_of_pos (by norm_num)]
      next odd =>
        have distance : x - (x.floor + 1 : Int) = -(1 / 2) := by
          push_cast
          linarith
        refine ⟨?_, fun _ => by omega⟩
        rw [distance, abs_neg, abs_of_pos (by norm_num)]

theorem roundHalfEven_neg (x : ℚ) : roundHalfEven (-x) = -roundHalfEven x := by
  have nearest := roundHalfEven_nearestEven x
  refine (roundHalfEven_nearestEven (-x)).unique ?_
  have distance : |-x - ((-roundHalfEven x : Int) : ℚ)| = |x - roundHalfEven x| := by
    push_cast
    rw [← abs_neg]
    congr 1
    ring
  rw [NearestEven, distance]
  exact ⟨nearest.1, fun half => by have := nearest.2 half; omega⟩

theorem roundHalfEven_mono {x y : ℚ} (le : x ≤ y) : roundHalfEven x ≤ roundHalfEven y := by
  by_contra greater
  have gap : ((roundHalfEven y : Int) : ℚ) + 1 ≤ roundHalfEven x := by
    exact_mod_cast not_le.mp greater
  have below := abs_le.mp (roundHalfEven_nearestEven x).1
  have above := abs_le.mp (roundHalfEven_nearestEven y).1
  -- only equal numbers are that near to both
  have same : x = y := le_antisymm le (by linarith)
  exact greater (by rw [same])

theorem roundHalfEven_intCast (n : Int) : roundHalfEven n = n :=
  (roundHalfEven_nearestEven n).unique ⟨by simp, by simp⟩

theorem roundHalfEven_pos {x : ℚ} (one : 1 ≤ x) : 1 ≤ roundHalfEven x := by
  have mono := roundHalfEven_mono one
  rwa [← Int.cast_one, roundHalfEven_intCast] at mono

/-! ### Reading the text back -/

/-- The digits before and after the point. -/
def fixedParts (text : Text) : Text × Text :=
  (text.takeWhile Char.isDigit,
    match text.dropWhile Char.isDigit with
    | '.' :: rest => rest.takeWhile Char.isDigit
    | _ => [])

theorem strtodFixed_unsigned {text : Text} (unsigned : text.head? ≠ some '-') :
    strtodFixed text = (Nat.ofDigitChars 10 ((fixedParts text).1 ++ (fixedParts text).2) 0 : ℚ) /
      10 ^ (fixedParts text).2.length := by
  unfold strtodFixed
  split
  next negative digits found =>
    have kept : (negative, digits) = (false, text) := by
      rw [← found]
      split
      · simp at unsigned
      · rfl
    obtain ⟨rfl, rfl⟩ := Prod.mk.inj kept
    rfl

/-! ### The text of a rounded number -/

theorem strtodFixed_signed (text : Text) :
    strtodFixed ('-' :: text) =
      -((Nat.ofDigitChars 10 ((fixedParts text).1 ++ (fixedParts text).2) 0 : ℚ) /
        10 ^ (fixedParts text).2.length) := rfl

/-- A number of units of the last decimal, printed with the point in its place. -/
def printUnits (decimals units : Nat) : Text :=
  Nat.toDigits 10 (units / 10 ^ decimals) ++
    (if decimals = 0 then [] else '.' :: Decimal.fixedDecimal decimals units)

theorem printFixed_eq (decimals : Nat) (value : ℚ) :
    printFixed decimals value = (if value < 0 then ['-'] else []) ++
      printUnits decimals (roundHalfEven (|value| * 10 ^ decimals)).toNat := by
  generalize units : (roundHalfEven (|value| * 10 ^ decimals)).toNat = n
  have padded : (if decimals = 0 then [] else '.' :: (List.replicate
      (decimals - (Nat.toDigits 10 (n % 10 ^ decimals)).length) '0' ++
        Nat.toDigits 10 (n % 10 ^ decimals))) =
      if decimals = 0 then [] else '.' :: Decimal.fixedDecimal decimals n := by
    split
    · rfl
    next some_ =>
      rw [Decimal.fixedDecimal_padded (by omega) (Nat.mod_lt _ (by positivity)),
        Decimal.fixedDecimal_congr (Nat.mod_mod _ _)]
  rw [printFixed, units, printUnits, padded, List.append_assoc]

theorem fixedParts_printUnits (decimals units : Nat) :
    fixedParts (printUnits decimals units) =
      (Nat.toDigits 10 (units / 10 ^ decimals), Decimal.fixedDecimal decimals units) := by
  have whole : ∀ c ∈ Nat.toDigits 10 (units / 10 ^ decimals), c.isDigit = true :=
    fun c member => Nat.isDigit_of_mem_toDigits (by decide) (by decide) member
  have fraction :=
    List.takeWhile_eq_self_iff.mpr (Decimal.isDigit_of_mem_fixedDecimal decimals units)
  rw [printUnits]
  split
  next none =>
    subst none
    rw [fixedParts, List.append_nil, List.takeWhile_eq_self_iff.mpr whole,
      List.dropWhile_eq_nil_iff.mpr whole]
    rfl
  · have point : ('.').isDigit = false := by decide
    rw [fixedParts, List.takeWhile_append_of_pos whole, List.dropWhile_append_of_pos whole,
      List.takeWhile_cons, point, List.dropWhile_cons, point]
    simp [fraction]

/-- The digits before and after the point write the number of units. -/
theorem ofDigitChars_fixedParts (decimals units : Nat) :
    (Nat.ofDigitChars 10 ((fixedParts (printUnits decimals units)).1 ++
        (fixedParts (printUnits decimals units)).2) 0 : ℚ) /
      10 ^ (fixedParts (printUnits decimals units)).2.length = units / 10 ^ decimals := by
  rw [fixedParts_printUnits, Nat.ofDigitChars_append, Nat.ofDigitChars_ten_toDigits,
    Decimal.ofDigitChars_fixedDecimal, Decimal.length_fixedDecimal, Nat.div_add_mod']

theorem printUnits_unsigned (decimals units : Nat) :
    (printUnits decimals units).head? ≠ some '-' := by
  rw [printUnits, List.head?_append_of_ne_nil _ Nat.toDigits_ne_nil]
  intro minus
  have digit := Nat.isDigit_of_mem_toDigits (by decide) (by decide) (List.mem_of_head? minus)
  exact absurd digit (by decide)

theorem length_printUnits_le {decimals units width : Nat} (positive : 0 < width)
    (small : units < 10 ^ width * 10 ^ decimals) :
    (printUnits decimals units).length ≤ width + 1 + decimals := by
  have whole : units / 10 ^ decimals < 10 ^ width := by
    rwa [Nat.div_lt_iff_lt_mul (by positivity)]
  have digits := (Nat.length_toDigits_le_iff (by decide) positive).mpr whole
  rw [printUnits, List.length_append]
  split
  · rw [List.length_nil]
    omega
  · rw [List.length_cons, Decimal.length_fixedDecimal]
    omega

/-- A text that fits the buffer is read back as the rounded number. -/
theorem alphaRoundDp_eq {value : ℚ} {decimals : Nat}
    (fits : (printFixed decimals value).length ≤ 63) :
    alphaRoundDp value decimals = roundHalfEven (value * 10 ^ decimals) / 10 ^ decimals := by
  have units : 0 ≤ roundHalfEven (|value| * 10 ^ decimals) := by
    have zero := roundHalfEven_mono (x := 0) (y := |value| * 10 ^ decimals) (by positivity)
    exact (roundHalfEven_intCast 0).symm.le.trans zero
  have cast : ((roundHalfEven (|value| * 10 ^ decimals)).toNat : ℚ) =
      roundHalfEven (|value| * 10 ^ decimals) := by exact_mod_cast Int.toNat_of_nonneg units
  rw [alphaRoundDp, Int.toNat_natCast, List.take_of_length_le fits, printFixed_eq]
  split
  next negative =>
    rw [List.singleton_append, strtodFixed_signed, ofDigitChars_fixedParts, cast,
      abs_of_neg negative, neg_mul, roundHalfEven_neg, Int.cast_neg, neg_div, neg_neg]
  next positive =>
    rw [List.nil_append, strtodFixed_unsigned (printUnits_unsigned _ _), ofDigitChars_fixedParts,
      cast, abs_of_nonneg (not_lt.mp positive)]

/-- The text of a number up to one fits the buffer. -/
theorem length_printFixed_le {value : ℚ} {decimals : Nat} (short : decimals ≤ 60)
    (unit : |value| ≤ 1) : (printFixed decimals value).length ≤ 63 := by
  have most : roundHalfEven (|value| * 10 ^ decimals) ≤ 10 ^ decimals := by
    have le : |value| * 10 ^ decimals ≤ ((10 ^ decimals : Int) : ℚ) := by
      push_cast
      exact mul_le_of_le_one_left (by positivity) unit
    exact (roundHalfEven_mono le).trans (roundHalfEven_intCast _).le
  have small : (roundHalfEven (|value| * 10 ^ decimals)).toNat < 10 ^ 1 * 10 ^ decimals := by
    have : (roundHalfEven (|value| * 10 ^ decimals)).toNat ≤ 10 ^ decimals := by
      rw [Int.toNat_le]
      exact_mod_cast most
    have positive : 0 < 10 ^ decimals := by positivity
    omega
  have sign : (if value < 0 then ['-'] else []).length ≤ 1 := by split <;> simp
  have units := length_printUnits_le Nat.one_pos small
  rw [printFixed_eq, List.length_append]
  omega

/-! ### Numbers up to one -/

section Unit

variable {value other : ℚ} {decimals : Nat}

theorem alphaRoundDp_unit (short : decimals ≤ 60) (unit : |value| ≤ 1) :
    alphaRoundDp value decimals = roundHalfEven (value * 10 ^ decimals) / 10 ^ decimals :=
  alphaRoundDp_eq (length_printFixed_le short unit)

theorem alphaRoundDp_neg (short : decimals ≤ 60) (unit : |value| ≤ 1) :
    alphaRoundDp (-value) decimals = -alphaRoundDp value decimals := by
  rw [alphaRoundDp_unit short unit, alphaRoundDp_unit short (by rwa [abs_neg]), neg_mul,
    roundHalfEven_neg, Int.cast_neg, neg_div]

theorem alphaRoundDp_mono (short : decimals ≤ 60) (unit : |value| ≤ 1) (unit' : |other| ≤ 1)
    (le : value ≤ other) : alphaRoundDp value decimals ≤ alphaRoundDp other decimals := by
  rw [alphaRoundDp_unit short unit, alphaRoundDp_unit short unit']
  have rounded : (roundHalfEven (value * 10 ^ decimals) : ℚ) ≤
      roundHalfEven (other * 10 ^ decimals) := by
    exact_mod_cast roundHalfEven_mono (mul_le_mul_of_nonneg_right le (by positivity))
  exact div_le_div_of_nonneg_right rounded (by positivity)

theorem alphaRoundDp_zero (short : decimals ≤ 60) : alphaRoundDp 0 decimals = 0 := by
  have zero : roundHalfEven 0 = 0 := roundHalfEven_intCast 0
  rw [alphaRoundDp_unit short (by norm_num), zero_mul, zero, Int.cast_zero, zero_div]

end Unit

/-! ### Positive numbers -/

theorem le_ofDigitChars (digits : List Char) (read : Nat) :
    read ≤ Nat.ofDigitChars 10 digits read := by
  induction digits generalizing read with
  | nil => simp
  | cons c digits ih =>
    rw [Nat.ofDigitChars_cons]
    exact le_trans (by omega) (ih _)

/-- A text of digits that starts with none that is zero is read as a positive number. -/
theorem strtodFixed_pos_of_head {c : Char} {rest : Text} (digit : c.isDigit = true)
    (nonzero : c ≠ '0') : 0 < strtodFixed (c :: rest) := by
  obtain ⟨_, written⟩ := Decimal.digitChar_of_isDigit digit
  have value : 0 < c.toNat - 48 := by
    by_contra zero
    rw [show c.toNat - 48 = 0 by omega] at written
    exact nonzero written.symm
  rw [strtodFixed_unsigned]
  · have whole : (fixedParts (c :: rest)).1 = c :: rest.takeWhile Char.isDigit := by
      rw [fixedParts, List.takeWhile_cons_of_pos digit]
    rw [whole, List.cons_append, Nat.ofDigitChars_cons]
    have most := le_ofDigitChars (rest.takeWhile Char.isDigit ++ (fixedParts (c :: rest)).2)
      (10 * 0 + (c.toNat - '0'.toNat))
    have positive : 0 < Nat.ofDigitChars 10 (rest.takeWhile Char.isDigit ++
        (fixedParts (c :: rest)).2) (10 * 0 + (c.toNat - '0'.toNat)) :=
      lt_of_lt_of_le (by rw [show '0'.toNat = 48 from rfl]; omega) most
    positivity
  · rw [List.head?_cons]
    rintro ⟨⟩
    exact absurd digit (by decide)

/-- The first digit of a positive number is not zero and not cut. -/
private theorem strtodFixed_whole_pos {n : Nat} (positive : 0 < n) (rest : Text) (kept : Nat) :
    0 < strtodFixed ((Nat.toDigits 10 n ++ rest).take (kept + 1)) := by
  have leads := Decimal.toDigits_head n positive
  cases digits : Nat.toDigits 10 n with
  | nil => exact absurd digits Nat.toDigits_ne_nil
  | cons c more =>
    have digit := toDigits_all_digits n c (by rw [digits]; simp)
    rw [digits] at leads
    rw [List.cons_append, List.take_succ_cons]
    exact strtodFixed_pos_of_head digit (by simpa using leads)

/-- A number of at least one unit of the last decimal is not rounded to zero, however its text is
cut. -/
theorem alphaRoundDp_pos {x : ℚ} (decimals : Nat) (short : decimals ≤ 61)
    (unit : 1 ≤ x * 10 ^ decimals) : 0 < alphaRoundDp x decimals := by
  have positive : 0 < x := pos_of_mul_pos_left (zero_lt_one.trans_le unit) (by positivity)
  have counted := roundHalfEven_pos unit
  rw [alphaRoundDp, Int.toNat_natCast, printFixed_eq, if_neg (not_lt.mpr positive.le),
    List.nil_append, abs_of_pos positive]
  generalize units : (roundHalfEven (x * 10 ^ decimals)).toNat = n
  by_cases whole : n / 10 ^ decimals = 0
  · -- less than one: the text is short enough to be kept whole
    have power : n < 10 ^ decimals := (Nat.div_eq_zero_iff_lt (by positivity)).mp whole
    have length := length_printUnits_le Nat.one_pos (show n < 10 ^ 1 * 10 ^ decimals by omega)
    have counted' : (0 : ℚ) < n := by
      have : 0 < n := by omega
      exact_mod_cast this
    rw [List.take_of_length_le (by omega), strtodFixed_unsigned (printUnits_unsigned _ _),
      ofDigitChars_fixedParts]
    positivity
  · exact strtodFixed_whole_pos (Nat.pos_of_ne_zero whole) _ 62

end AlphaPipeline

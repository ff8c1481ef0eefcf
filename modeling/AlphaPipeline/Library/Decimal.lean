import Mathlib.Data.Char
import Mathlib.Data.List.Lex
import Mathlib.Tactic

/-!
# Decimal numerals

Texts of decimal digits: the numeral of a number as it is printed, which has no zero in front,
and numerals of a fixed width, which are read back digit by digit.
-/
namespace Decimal

theorem digitChar_of_isDigit {c : Char} (digit : c.isDigit = true) :
    c.toNat - 48 < 10 ∧ Nat.digitChar (c.toNat - 48) = c := by
  simp only [Char.isDigit, Bool.and_eq_true, decide_eq_true_eq] at digit
  have low : 48 ≤ c.toNat := digit.1
  have high : c.toNat ≤ 57 := digit.2
  refine ⟨by omega, ?_⟩
  rw [← Char.ofNat_toNat c]
  generalize c.toNat = n at low high
  interval_cases n <;> decide

/-! ### Printed numbers -/

/-- A positive number is printed without a zero in front. -/
theorem toDigits_head (n : Nat) (positive : 0 < n) : (Nat.toDigits 10 n).head? ≠ some '0' := by
  induction n using Nat.strongRecOn with
  | ind n ih =>
    rw [Nat.toDigits_eq_if (by decide)]
    split
    · simp only [List.head?_cons, ne_eq, Option.some.injEq, Nat.digitChar_eq_zero]
      omega
    next large =>
      rw [List.head?_append_of_ne_nil _ Nat.toDigits_ne_nil]
      exact ih (n / 10) (by omega) (by omega)

/-- Digits without a zero in front are what their number is printed as. -/
theorem toDigits_ofDigitChars (digits : List Char) (nonempty : digits ≠ [])
    (all : ∀ c ∈ digits, c.isDigit = true) (leads : digits.head? ≠ some '0') :
    Nat.toDigits 10 (Nat.ofDigitChars 10 digits 0) = digits := by
  induction digits using List.reverseRecOn with
  | nil => exact absurd rfl nonempty
  | append_singleton front c ih =>
    obtain ⟨small, digit⟩ := digitChar_of_isDigit (all c (by simp))
    rw [Nat.ofDigitChars_append, Nat.ofDigitChars_cons, Nat.ofDigitChars_nil]
    change Nat.toDigits 10 (10 * Nat.ofDigitChars 10 front 0 + (c.toNat - 48)) = front ++ [c]
    by_cases alone : front = []
    · subst alone
      rw [Nat.ofDigitChars_nil, Nat.mul_zero, Nat.zero_add, Nat.toDigits_of_lt_base small, digit]
      rfl
    · rw [List.head?_append_of_ne_nil _ alone] at leads
      have printed := ih alone (fun d h => all d (List.mem_append_left _ h)) leads
      have positive : 0 < Nat.ofDigitChars 10 front 0 := by
        refine Nat.pos_of_ne_zero fun zero => leads ?_
        rw [← printed, zero, Nat.toDigits_zero]
        rfl
      rw [← Nat.toDigits_append_toDigits (by decide) positive small, printed,
        Nat.toDigits_of_lt_base small, digit]

/-! ### Fixed width -/

/-- The last digits of a number, as many as the width says. -/
def fixedDecimal : Nat → Nat → List Char
  | 0, _ => []
  | width + 1, n => Nat.digitChar (n / 10 ^ width % 10) :: fixedDecimal width n

theorem length_fixedDecimal (width n : Nat) : (fixedDecimal width n).length = width := by
  induction width with
  | zero => rfl
  | succ width ih => rw [fixedDecimal, List.length_cons, ih]

theorem isDigit_of_mem_fixedDecimal (width n : Nat) :
    ∀ c ∈ fixedDecimal width n, c.isDigit = true := by
  induction width with
  | zero => nofun
  | succ width ih =>
    intro c member
    rcases List.mem_cons.mp member with rfl | later
    · rw [Nat.isDigit_digitChar]
      exact decide_eq_true (Nat.mod_lt _ (by decide))
    · exact ih c later

/-- Only the last digits count. -/
theorem fixedDecimal_congr {width n m : Nat} (same : n % 10 ^ width = m % 10 ^ width) :
    fixedDecimal width n = fixedDecimal width m := by
  induction width with
  | zero => rfl
  | succ width ih =>
    have low : n % 10 ^ width = m % 10 ^ width := by
      have divides : 10 ^ width ∣ 10 ^ (width + 1) := pow_dvd_pow 10 (Nat.le_succ width)
      rw [← Nat.mod_mod_of_dvd n divides, ← Nat.mod_mod_of_dvd m divides, same]
    rw [Nat.mod_pow_succ, Nat.mod_pow_succ, low] at same
    have digit := Nat.eq_of_mul_eq_mul_left (Nat.pow_pos (by decide)) (Nat.add_left_cancel same)
    rw [fixedDecimal, fixedDecimal, digit, ih low]

/-- The number that the next `width` characters write, in front of them the digits of `read`. -/
def readDigits (read : Nat) : Nat → List Char → Option Nat
  | 0, _ => some read
  | _ + 1, [] => none
  | width + 1, c :: rest =>
    if c.isDigit then readDigits (read * 10 + (c.toNat - 48)) width rest else none

/-- Written digits are read back. -/
theorem readDigits_fixed (width n read : Nat) (rest : List Char) :
    readDigits read width (fixedDecimal width n ++ rest) =
      some (read * 10 ^ width + n % 10 ^ width) := by
  -- from the first digit, with the number read so far in `read`
  induction width generalizing read with
  | zero => simp [readDigits, Nat.mod_one]
  | succ width ih =>
    have bound : n / 10 ^ width % 10 < 10 := Nat.mod_lt _ (by decide)
    have digit : (Nat.digitChar (n / 10 ^ width % 10)).isDigit = true := by
      rw [Nat.isDigit_digitChar, decide_eq_true bound]
    rw [fixedDecimal, List.cons_append, readDigits, if_pos digit,
      Nat.toNat_digitChar_sub_48_of_lt_ten bound, ih, Nat.mod_pow_succ]
    congr 1
    ring

/-- What is read was written. -/
theorem readDigits_inv {width read value : Nat} {text : List Char}
    (reads : readDigits read width text = some value) :
    ∃ n rest, n < 10 ^ width ∧ text = fixedDecimal width n ++ rest ∧
      value = read * 10 ^ width + n := by
  induction width generalizing read text with
  | zero => exact ⟨0, text, by simp, rfl, by simpa [readDigits] using reads.symm⟩
  | succ width ih =>
    cases text with
    | nil => cases reads
    | cons c text =>
      rw [readDigits] at reads
      split at reads
      next digit =>
        obtain ⟨bound, written⟩ := digitChar_of_isDigit digit
        obtain ⟨n, rest, below, rfl, rfl⟩ := ih reads
        -- put the digit just read in front of the ones read after it
        refine ⟨(c.toNat - 48) * 10 ^ width + n, rest, ?_, ?_, by ring⟩
        · rw [pow_succ]
          nlinarith
        · have top : ((c.toNat - 48) * 10 ^ width + n) / 10 ^ width % 10 = c.toNat - 48 := by
            rw [Nat.mul_comm, Nat.mul_add_div (Nat.pow_pos (by decide)), Nat.div_eq_of_lt below,
              Nat.add_zero, Nat.mod_eq_of_lt bound]
          rw [fixedDecimal, top, written, List.cons_append]
          congr 2
          refine fixedDecimal_congr ?_
          rw [Nat.mul_comm, Nat.mul_add_mod]
      · cases reads

/-- A text of digits is read as the number it writes. -/
theorem readDigits_digits {text : List Char} (all : ∀ c ∈ text, c.isDigit = true) (read : Nat) :
    readDigits read text.length text = some (Nat.ofDigitChars 10 text read) := by
  induction text generalizing read with
  | nil => rfl
  | cons c text ih =>
    rw [List.length_cons, readDigits, if_pos (all c List.mem_cons_self),
      ih (fun d member => all d (List.mem_cons_of_mem _ member)), Nat.ofDigitChars_cons,
      Nat.mul_comm]
    rfl

/-- Digits of a fixed width are read after any others. -/
theorem ofDigitChars_fixedDecimal (width n read : Nat) :
    Nat.ofDigitChars 10 (fixedDecimal width n) read = read * 10 ^ width + n % 10 ^ width := by
  have digits := readDigits_digits (isDigit_of_mem_fixedDecimal width n) read
  have fixed := readDigits_fixed width n read []
  rw [List.append_nil] at fixed
  rw [length_fixedDecimal, fixed] at digits
  exact (Option.some.inj digits).symm

/-- A number that fits the width is printed in it with zeros in front. -/
theorem fixedDecimal_padded {width n : Nat} (positive : 0 < width) (fits : n < 10 ^ width) :
    List.replicate (width - (Nat.toDigits 10 n).length) '0' ++ Nat.toDigits 10 n =
      fixedDecimal width n := by
  have short := (Nat.length_toDigits_le_iff (by decide) positive).mpr fits
  generalize padded : List.replicate (width - (Nat.toDigits 10 n).length) '0' ++
    Nat.toDigits 10 n = text
  have length : text.length = width := by
    rw [← padded, List.length_append, List.length_replicate]
    omega
  have all : ∀ c ∈ text, c.isDigit = true := by
    intro c member
    rw [← padded] at member
    rcases List.mem_append.mp member with zero | digit
    · rw [List.eq_of_mem_replicate zero]
      decide
    · exact Nat.isDigit_of_mem_toDigits (by decide) (by decide) digit
  have value : Nat.ofDigitChars 10 text 0 = n := by
    rw [← padded, Nat.ofDigitChars_append, Nat.ofDigitChars_replicate_zero, Nat.mul_zero,
      Nat.ofDigitChars_ten_toDigits]
  -- what is read of the text is the number, and only its digits are read as it
  have reads := readDigits_digits all 0
  rw [length, value] at reads
  obtain ⟨m, rest, _, written, same⟩ := readDigits_inv reads
  have nothing : rest = [] := by
    have total := congrArg List.length written
    rw [List.length_append, length_fixedDecimal, length] at total
    exact List.eq_nil_of_length_eq_zero (by omega)
  rw [written, nothing, List.append_nil, same, zero_mul, zero_add]

/-! ### The order of numerals -/

/-- Texts of one length are compared before what follows them. -/
theorem append_lt_append_iff {α : Type} [LinearOrder α] {front front' : List α}
    (length : front.length = front'.length) (back back' : List α) :
    front ++ back < front' ++ back' ↔ front < front' ∨ front = front' ∧ back < back' := by
  induction front generalizing front' with
  | nil =>
    obtain rfl := List.eq_nil_of_length_eq_zero length.symm
    simp
  | cons a front ih =>
    cases front' with
    | nil => cases length
    | cons b front' =>
      rw [List.cons_append, List.cons_append, List.cons_lt_cons_iff, List.cons_lt_cons_iff,
        ih (Nat.succ.inj length), List.cons.injEq]
      tauto

theorem digitChar_lt {a b : Nat} (less : a < b) (digit : b < 10) :
    Nat.digitChar a < Nat.digitChar b := by
  interval_cases b <;> interval_cases a <;> decide

/-- Numerals of one width are ordered as their numbers. -/
theorem fixedDecimal_lt {width n m : Nat} (less : n < m) (fits : m < 10 ^ width) :
    fixedDecimal width n < fixedDecimal width m := by
  induction width generalizing n m with
  | zero => omega
  | succ width ih =>
    have top : m / 10 ^ width < 10 := Nat.div_lt_of_lt_mul (by rwa [← pow_succ])
    have le : n / 10 ^ width ≤ m / 10 ^ width := Nat.div_le_div_right less.le
    rw [fixedDecimal, fixedDecimal, List.cons_lt_cons_iff, Nat.mod_eq_of_lt top,
      Nat.mod_eq_of_lt (lt_of_le_of_lt le top)]
    rcases le.lt_or_eq with lower | same
    · exact Or.inl (digitChar_lt lower top)
    · -- the same first digit: the rests are ordered
      have power : 0 < 10 ^ width := Nat.pow_pos (by decide)
      have rests : n % 10 ^ width < m % 10 ^ width := by
        have whole := Nat.div_add_mod n (10 ^ width)
        have whole' := Nat.div_add_mod m (10 ^ width)
        rw [same] at whole
        omega
      refine Or.inr ⟨by rw [same], ?_⟩
      have later := ih rests (Nat.mod_lt m power)
      rwa [fixedDecimal_congr (Nat.mod_mod n _), fixedDecimal_congr (Nat.mod_mod m _)] at later

theorem fixedDecimal_lt_iff {width n m : Nat} (fits : n < 10 ^ width) (fits' : m < 10 ^ width) :
    fixedDecimal width n < fixedDecimal width m ↔ n < m := by
  constructor
  · intro less
    by_contra not
    rcases Nat.lt_or_eq_of_le (not_lt.mp not) with greater | rfl
    · exact lt_asymm less (fixedDecimal_lt greater fits)
    · exact lt_irrefl _ less
  · exact fun less => fixedDecimal_lt less fits'

theorem fixedDecimal_inj {width n m : Nat} (fits : n < 10 ^ width) (fits' : m < 10 ^ width) :
    fixedDecimal width n = fixedDecimal width m ↔ n = m := by
  refine ⟨fun same => ?_, fun same => by rw [same]⟩
  rcases Nat.lt_trichotomy n m with less | same' | greater
  · exact absurd same (fixedDecimal_lt less fits').ne
  · exact same'
  · exact absurd same (fixedDecimal_lt greater fits).ne'

end Decimal

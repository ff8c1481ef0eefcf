import Mathlib.Tactic
import Mathlib.Data.List.TakeWhile

/-!
# The C types and library calls the sources share

Explicit conversions and unsigned arithmetic wrap as in C. Signed arithmetic, whose
overflow C leaves undefined, is that of the integers; where an overflow matters, a step is
checked for its width.
-/
namespace AlphaPipeline

/-- `alpha_err_t`. -/
inductive AlphaErr where
  | ok
  | invalidArg
  | range
  | io
  | db
  | http
  deriving DecidableEq, Repr

/-- Text as a list of bytes, one character a byte. -/
abbrev Text := List Char

/-- What C reads of a buffer: the bytes before the first terminator. -/
def cString (bytes : Text) : Text := bytes.takeWhile fun c => c != Char.ofNat 0

/-- Conversion to a 32-bit unsigned integer. -/
def u32 (x : Int) : Int := x % 4294967296

/-- Conversion to a 32-bit signed integer. -/
def i32 (x : Int) : Int := x.bmod 4294967296

theorem u32_of_range {x : Int} (low : 0 ≤ x) (high : x < 4294967296) : u32 x = x := by
  unfold u32
  omega

theorem i32_of_range {x : Int} (low : -2147483648 ≤ x) (high : x < 2147483648) : i32 x = x := by
  unfold i32
  rw [Int.bmod_def]
  split <;> omega

/-- The value fits a signed integer of so many bits. -/
def Fits (bits : Nat) (x : Int) : Prop := -2 ^ (bits - 1) ≤ x ∧ x < 2 ^ (bits - 1)

instance (bits : Nat) (x : Int) : Decidable (Fits bits x) := inferInstanceAs (Decidable (_ ∧ _))

/-- The result of a signed step, undefined where it overflows. -/
def signed (bits : Nat) (x : Int) : Option Int := if Fits bits x then some x else none

theorem signed_eq_some {bits : Nat} {x v : Int} : signed bits x = some v ↔ Fits bits x ∧ x = v := by
  unfold signed
  split <;> simp_all

/-- `INT64_MAX`. -/
def int64Max : Int := 9223372036854775807

/-- `isspace` in the C locale: blank, tab, newline, vertical tab, form feed, return. -/
def isSpace (c : Char) : Bool := c == ' ' || (9 ≤ c.toNat && c.toNat ≤ 13)

theorem isSpace_of_isDigit {c : Char} (digit : c.isDigit = true) : isSpace c = false := by
  simp only [Char.isDigit, Bool.and_eq_true, decide_eq_true_eq] at digit
  have low : 48 ≤ c.toNat := digit.1
  have blank : c ≠ ' ' := by
    rintro rfl
    exact absurd low (by decide)
  simp only [isSpace, Bool.or_eq_false_iff, beq_eq_false_iff_ne, Bool.and_eq_false_iff,
    decide_eq_false_iff_not]
  exact ⟨blank, Or.inr (by omega)⟩

/-- What `strtoll` leaves: the value, whether any digit was converted, the text its
end pointer is at, and whether it set `errno`. -/
structure Strtoll where
  value : Int
  converted : Bool
  rest : Text
  erange : Bool
  deriving DecidableEq, Repr

/-- The optional sign before the digits. -/
def splitSign : Text → Bool × Text
  | '-' :: rest => (true, rest)
  | '+' :: rest => (false, rest)
  | rest => (false, rest)

/-- A converted number, saturated to 64 bits with `errno` set when it does not fit. -/
def saturate (value : Int) (rest : Text) : Strtoll :=
  if value > int64Max then ⟨int64Max, true, rest, true⟩
  else if value < -int64Max - 1 then ⟨-int64Max - 1, true, rest, true⟩
  else ⟨value, true, rest, false⟩

theorem saturate_rest (value : Int) (rest : Text) : (saturate value rest).rest = rest := by
  unfold saturate
  split
  · rfl
  · split <;> rfl

/-- `strtoll(text, &end, 10)`. -/
def strtoll (text : Text) : Strtoll :=
  let (negative, body) := splitSign (text.dropWhile isSpace)
  let digits := body.takeWhile Char.isDigit
  let rest := body.dropWhile Char.isDigit
  if digits.isEmpty then ⟨0, false, text, false⟩
  else
    let magnitude : Int := Nat.ofDigitChars 10 digits 0
    saturate (if negative then -magnitude else magnitude) rest

/-- The conversion `%lld` (and `%d`) of `printf`. -/
def printDecimal (n : Int) : Text :=
  if n < 0 then '-' :: Nat.toDigits 10 n.natAbs else Nat.toDigits 10 n.natAbs

theorem toDigits_all_digits (n : Nat) : ∀ c ∈ Nat.toDigits 10 n, c.isDigit = true :=
  fun _ member => Nat.isDigit_of_mem_toDigits (by decide) (by decide) member

private theorem splitSign_digit (c : Char) (rest : Text) (digit : c.isDigit = true) :
    splitSign (c :: rest) = (false, c :: rest) := by
  have minus : c ≠ '-' := by rintro rfl; exact absurd digit (by decide)
  have plus : c ≠ '+' := by rintro rfl; exact absurd digit (by decide)
  unfold splitSign
  split
  · simp_all
  · simp_all
  · rfl

/-- A number as `strtoll` reads it: blanks, at most one sign, and digits. -/
structure IsDecimal (blanks sign digits : Text) : Prop where
  spaces : ∀ c ∈ blanks, isSpace c = true
  sign : sign = [] ∨ sign = ['+'] ∨ sign = ['-']
  nonempty : digits ≠ []
  digits : ∀ c ∈ digits, c.isDigit = true

/-- A text that is nothing but a number is converted as a whole. -/
theorem strtoll_decimal {blanks sign digits : Text} (decimal : IsDecimal blanks sign digits) :
    strtoll (blanks ++ (sign ++ digits)) = saturate (if sign = ['-'] then
      -(Nat.ofDigitChars 10 digits 0 : Int) else Nat.ofDigitChars 10 digits 0) [] := by
  obtain ⟨spaces, signed, nonempty, all⟩ := decimal
  obtain ⟨c, rest, rfl⟩ := List.exists_cons_of_ne_nil nonempty
  have digit := all c List.mem_cons_self
  have taken : (c :: rest).takeWhile Char.isDigit = c :: rest := List.takeWhile_eq_self_iff.mpr all
  have left : (c :: rest).dropWhile Char.isDigit = [] := List.dropWhile_eq_nil_iff.mpr all
  rcases signed with rfl | rfl | rfl
  · have visible : ¬ isSpace c = true := by rw [isSpace_of_isDigit digit]; decide
    simp only [strtoll, List.nil_append, List.dropWhile_append_of_pos spaces,
      List.dropWhile_cons_of_neg visible, splitSign_digit c rest digit, taken, left,
      List.isEmpty_cons, Bool.false_eq_true, if_false, List.nil_eq, List.cons_ne_nil]
  · simp only [strtoll, List.singleton_append, List.dropWhile_append_of_pos spaces,
      List.dropWhile_cons_of_neg (show ¬ isSpace '+' = true by decide), splitSign, taken, left,
      List.isEmpty_cons, Bool.false_eq_true, if_false]
    rw [if_neg (by decide)]
  · simp only [strtoll, List.singleton_append, List.dropWhile_append_of_pos spaces,
      List.dropWhile_cons_of_neg (show ¬ isSpace '-' = true by decide), splitSign, taken, left,
      List.isEmpty_cons, Bool.false_eq_true, if_false, if_true]

/-- What is converted as a whole is nothing but a number. -/
theorem strtoll_whole {text : Text} (converted : (strtoll text).converted = true)
    (whole : (strtoll text).rest = []) :
    ∃ blanks sign digits, IsDecimal blanks sign digits ∧ text = blanks ++ (sign ++ digits) := by
  obtain ⟨sign, signed, body⟩ : ∃ sign, (sign = [] ∨ sign = ['+'] ∨ sign = ['-']) ∧
      text.dropWhile isSpace = sign ++ (splitSign (text.dropWhile isSpace)).2 := by
    unfold splitSign
    split
    next rest found => exact ⟨['-'], by simp, found⟩
    next rest found => exact ⟨['+'], by simp, found⟩
    · exact ⟨[], by simp, rfl⟩
  simp only [strtoll] at converted whole
  split at converted
  · cases converted
  next found =>
    rw [if_neg found, saturate_rest] at whole
    refine ⟨text.takeWhile isSpace, sign, _, ⟨fun c h => List.mem_takeWhile_imp h, signed, ?_,
      List.dropWhile_eq_nil_iff.mp whole⟩, ?_⟩
    · intro empty
      rw [empty] at found
      exact found rfl
    · rw [← body, List.takeWhile_append_dropWhile]

/-- Printing a number and reading it back gives the number, saturated. -/
theorem strtoll_printDecimal (n : Int) : strtoll (printDecimal n) = saturate n [] := by
  have all := toDigits_all_digits n.natAbs
  unfold printDecimal
  split
  next negative =>
    have decimal : IsDecimal [] ['-'] (Nat.toDigits 10 n.natAbs) :=
      ⟨nofun, .inr (.inr rfl), Nat.toDigits_ne_nil, all⟩
    have read := strtoll_decimal decimal
    rw [List.nil_append, List.singleton_append, if_pos rfl, Nat.ofDigitChars_ten_toDigits] at read
    rw [read]
    congr 1
    omega
  next nonneg =>
    have decimal : IsDecimal [] [] (Nat.toDigits 10 n.natAbs) :=
      ⟨nofun, .inl rfl, Nat.toDigits_ne_nil, all⟩
    have read := strtoll_decimal decimal
    rw [List.nil_append, List.nil_append, if_neg (by decide), Nat.ofDigitChars_ten_toDigits] at read
    rw [read]
    congr 1
    omega

/-- Decimal text has no terminator inside, so C reads all of it. -/
theorem cString_printDecimal (n : Int) : cString (printDecimal n) = printDecimal n := by
  apply List.takeWhile_eq_self_iff.mpr
  intro c member
  have nonzero (d : Char) (digit : d.isDigit = true) : (d != Char.ofNat 0) = true := by
    rw [bne_iff_ne]
    rintro rfl
    exact absurd digit (by decide)
  unfold printDecimal at member
  split at member
  · rcases List.mem_cons.mp member with rfl | digits
    · decide
    · exact nonzero c (toDigits_all_digits _ c digits)
  · exact nonzero c (toDigits_all_digits _ c member)

/-! ### `snprintf` -/

/-- `INT_MAX`. -/
def intMax : Nat := 2147483647

/-- The `snprintf` of a platform. Its result is an `int`, so an output that is longer than
`INT_MAX` is an error; up to `INT_MAX`, of the buffer and of the output, it prints a text. -/
structure Snprintf where
  /-- Whether the call fails, by the size of the buffer and the length of the output. -/
  fails : Nat → Nat → Bool
  overlong : ∀ n length, intMax < length → fails n length = true
  ordinary : ∀ n length, n ≤ intMax → length ≤ intMax → fails n length = false

/-- The result, absent if it is negative. -/
def Snprintf.written (snprintf : Snprintf) (n : Nat) (text : Text) : Option Nat :=
  if snprintf.fails n text.length then none else some text.length

/-- An `snprintf` that fails on nothing but overlong outputs. -/
def plainSnprintf : Snprintf where
  fails _ length := decide (intMax < length)
  overlong _ _ long := decide_eq_true long
  ordinary _ _ _ short := decide_eq_false (not_lt.mpr short)

/-- The `snprintf` of a platform, with what C reads of the buffer after a call that fails, by the
text that was to be printed. -/
structure Printer extends Snprintf where
  left : Text → Text

end AlphaPipeline

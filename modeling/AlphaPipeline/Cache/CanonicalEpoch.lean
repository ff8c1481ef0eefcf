import AlphaPipeline.Library.Decimal
import AlphaPipeline.Cache.Breaker

/-!
# Stored expiries and their spelling

The contract wants a stored lockout in canonical decimal. `parse_epoch` leaves that to `strtoll`,
which also takes blanks, a plus sign and zeros before the number, and C sees nothing behind a
terminator.
-/
namespace AlphaPipeline.RedisCache

open Interaction Interaction.Prog Redis Decimal

/-- The canonical decimal text of an expiry. -/
def CanonicalEpoch (text : Text) (value : Int) : Prop :=
  1 ≤ value ∧ value ≤ int64Max ∧ text = printDecimal value

/-- Stored bytes that C reads as a positive number of 64 bits: blanks, at most a plus sign, the
digits, and a terminator if anything is left. -/
structure ReadAsEpoch (stored blanks sign digits tail : Text) : Prop where
  spelled : stored = blanks ++ (sign ++ digits) ++ tail
  spaces : ∀ c ∈ blanks, isSpace c = true
  unsigned : sign = [] ∨ sign = ['+']
  decimal : ∀ c ∈ digits, c.isDigit = true
  positive : 1 ≤ Nat.ofDigitChars 10 digits 0
  fits : (Nat.ofDigitChars 10 digits 0 : Int) ≤ int64Max
  hidden : tail = [] ∨ tail.head? = some (Char.ofNat 0)

/-! ### What C sees of the stored bytes -/

private theorem cString_append {text tail : Text} (visible : ∀ c ∈ text, c ≠ Char.ofNat 0)
    (hidden : tail = [] ∨ tail.head? = some (Char.ofNat 0)) : cString (text ++ tail) = text := by
  have passed : ∀ c ∈ text, (c != Char.ofNat 0) = true := fun c member =>
    bne_iff_ne.mpr (visible c member)
  have stops : tail.takeWhile (fun c => c != Char.ofNat 0) = [] := by
    rcases hidden with rfl | terminator
    · rfl
    · obtain ⟨rest, rfl⟩ := List.head?_eq_some_iff.mp terminator
      rfl
  rw [cString, List.takeWhile_append_of_pos passed, stops, List.append_nil]

private theorem cString_split (stored : Text) : ∃ tail, stored = cString stored ++ tail ∧
    (tail = [] ∨ tail.head? = some (Char.ofNat 0)) := by
  refine ⟨stored.dropWhile fun c => c != Char.ofNat 0, List.takeWhile_append_dropWhile.symm, ?_⟩
  cases left : stored.dropWhile fun c => c != Char.ofNat 0 with
  | nil => exact .inl rfl
  | cons c rest =>
    have stopped := List.head?_dropWhile_not (fun c => c != Char.ofNat 0) stored
    rw [left] at stopped
    simp only [List.head?_cons] at stopped
    exact .inr (congrArg some (by simpa using stopped))

/-- No terminator stands in a number. -/
private theorem ReadAsEpoch.visible {stored blanks sign digits tail : Text}
    (read : ReadAsEpoch stored blanks sign digits tail) :
    cString stored = blanks ++ (sign ++ digits) := by
  rw [read.spelled]
  refine cString_append (fun c member => ?_) read.hidden
  rintro rfl
  rcases List.mem_append.mp member with blank | body
  · exact absurd (read.spaces _ blank) (by decide)
  · rcases List.mem_append.mp body with signed | digit
    · rcases read.unsigned with rfl | rfl
      · cases signed
      · exact absurd (List.mem_singleton.mp signed) (by decide)
    · exact absurd (read.decimal _ digit) (by decide)

/-! ### What `parse_epoch` accepts -/

private theorem strtoll_of_parseEpoch {text : Text} {value : Int}
    (accepted : parseEpoch text = some value) :
    (strtoll text).converted = true ∧ (strtoll text).rest = [] := by
  simp only [parseEpoch] at accepted
  split at accepted
  · cases accepted
  next checks =>
    simp only [Bool.or_eq_true, Bool.not_eq_true', bne_iff_ne, not_or] at checks
    exact ⟨Bool.eq_true_of_not_eq_false checks.1.1.2, not_not.mp checks.1.2⟩

/-- `parse_epoch` accepts exactly the stored bytes that C reads as an expiry. -/
theorem parseEpoch_cString_iff (stored : Text) (value : Int) :
    parseEpoch (cString stored) = some value ↔ ∃ blanks sign digits tail,
      ReadAsEpoch stored blanks sign digits tail ∧ value = Nat.ofDigitChars 10 digits 0 := by
  constructor
  · intro accepted
    obtain ⟨converted, whole⟩ := strtoll_of_parseEpoch accepted
    obtain ⟨blanks, sign, digits, number, seen⟩ := strtoll_whole converted whole
    obtain ⟨tail, spelled, hidden⟩ := cString_split stored
    rw [seen, parseEpoch_of_strtoll (strtoll_decimal number)] at accepted
    rw [seen] at spelled
    -- a minus sign leaves no positive number
    have plain : sign ≠ ['-'] := by
      intro minus
      rw [if_pos minus, if_neg (by omega)] at accepted
      cases accepted
    rw [if_neg plain] at accepted
    split at accepted
    next bounds =>
      exact ⟨blanks, sign, digits, tail, ⟨spelled, number.spaces,
        number.sign.imp_right fun signed => signed.resolve_right plain, number.digits,
        by omega, bounds.2, hidden⟩, (Option.some.inj accepted).symm⟩
    · cases accepted
  · rintro ⟨blanks, sign, digits, tail, read, rfl⟩
    have nonempty : digits ≠ [] := by
      rintro rfl
      exact absurd read.positive (by decide)
    have plain : sign ≠ ['-'] := by
      rcases read.unsigned with rfl | rfl <;> decide
    have number : IsDecimal blanks sign digits :=
      ⟨read.spaces, read.unsigned.imp_right .inl, nonempty, read.decimal⟩
    have bounds := read.positive
    rw [read.visible, parseEpoch_of_strtoll (strtoll_decimal number), if_neg plain,
      if_pos ⟨by omega, read.fits⟩]

example : [" 5", "+5", "005", "5\x00;"].map (fun text => parseEpoch (cString text.toList)) =
    List.replicate 4 (some 5) := by decide

/-! ### Canonical form -/

/-- The spelling that is left when nothing but the digits was accepted. -/
private theorem canonical_of_plain {digits : Text} (all : ∀ c ∈ digits, c.isDigit = true)
    (positive : 1 ≤ Nat.ofDigitChars 10 digits 0)
    (fits : (Nat.ofDigitChars 10 digits 0 : Int) ≤ int64Max) (leads : digits.head? ≠ some '0') :
    CanonicalEpoch digits (Nat.ofDigitChars 10 digits 0) := by
  have nonempty : digits ≠ [] := by
    rintro rfl
    exact absurd positive (by decide)
  refine ⟨by omega, fits, ?_⟩
  rw [printDecimal, if_neg (by omega), Int.natAbs_natCast,
    toDigits_ofDigitChars digits nonempty all leads]

/-- A canonical text is read in one way only: as its digits. -/
private theorem plain_of_canonical {stored blanks sign digits tail : Text}
    (read : ReadAsEpoch stored blanks sign digits tail)
    (canonical : CanonicalEpoch stored (Nat.ofDigitChars 10 digits 0)) :
    blanks = [] ∧ sign = [] ∧ digits.head? ≠ some '0' ∧ tail = [] := by
  have bounds := read.positive
  have printed := canonical.2.2
  rw [printDecimal, if_neg (by omega), Int.natAbs_natCast] at printed
  have all := toDigits_all_digits (Nat.ofDigitChars 10 digits 0)
  rw [← printed, read.spelled] at all
  -- a printed number is all digits, so whatever is not a digit has to be empty
  have noBlanks : blanks = [] := by
    refine List.eq_nil_iff_forall_not_mem.mpr fun c member => ?_
    have digit := isSpace_of_isDigit (all c (by simp [member]))
    rw [read.spaces c member] at digit
    cases digit
  have noSign : sign = [] := read.unsigned.resolve_right fun plus =>
    absurd (all '+' (by simp [plus])) (by decide)
  have noTail : tail = [] := by
    refine read.hidden.resolve_right fun terminator => ?_
    have member := List.mem_of_mem_head? (Option.mem_def.mpr terminator)
    exact absurd (all _ (List.mem_append_right _ member)) (by decide)
  refine ⟨noBlanks, noSign, ?_, noTail⟩
  have spelled := read.spelled
  rw [noBlanks, noSign, noTail, List.nil_append, List.nil_append, List.append_nil, printed]
    at spelled
  rw [← spelled]
  exact toDigits_head _ bounds

/-- A lock is reported as valid only when `parse_epoch` took the stored value. -/
private theorem parsed_of_locked (printer : Printer) (replies : Nat → Command → Option Reply)
    (redis : AlphaRedis) (scope key stored : Text) (before : Bool) (expiresAtOut : Option Int)
    (valid : breakerKey printer scope = .ok key)
    (found : replies 0 (.get key) = some (.string stored))
    (succeeded : (run (scripted replies) (alphaRedisIsBreakerLocked printer (some redis)
      (some scope) (some before) expiresAtOut) 0).1.status = .ok) :
    ∃ value, parseEpoch (cString stored) = some value := by
  simp only [alphaRedisIsBreakerLocked, valid, run_bind, run_ask, scripted_eq, found] at succeeded
  -- a value that does not parse ends the call with an I/O error
  cases parsed : parseEpoch (cString stored) with
  | none =>
    rw [parsed] at succeeded
    cases succeeded
  | some value => exact ⟨value, rfl⟩

/-- What the contract promises of a stored value: it passes `parse_epoch` only in canonical form
and as itself, and no other one is reported as a valid lock. -/
structure ReadsCanonical (stored : Text) : Prop where
  parsed : ∀ value, parseEpoch (cString stored) = some value → CanonicalEpoch stored value
  locked : ∀ (printer : Printer) (replies : Nat → Command → Option Reply) (redis : AlphaRedis)
    (scope key : Text) (before : Bool) (expiresAtOut : Option Int),
    breakerKey printer scope = .ok key → replies 0 (.get key) = some (.string stored) →
    let probe := (run (scripted replies) (alphaRedisIsBreakerLocked printer (some redis)
      (some scope) (some before) expiresAtOut) 0).1
    probe.status = .ok → probe.locked = some true → ∃ value, CanonicalEpoch stored value

/-- A stored value keeps the promise exactly when it is not a number with anything around it or
zeros before it. -/
theorem reads_canonical_iff (stored : Text) :
    ReadsCanonical stored ↔ ∀ blanks sign digits tail, ReadAsEpoch stored blanks sign digits tail →
      blanks = [] ∧ sign = [] ∧ digits.head? ≠ some '0' ∧ tail = [] := by
  constructor
  -- each reading is a value that `parse_epoch` takes
  · intro promise blanks sign digits tail read
    exact plain_of_canonical read
      (promise.parsed _ ((parseEpoch_cString_iff stored _).mpr ⟨_, _, _, _, read, rfl⟩))
  · intro plain
    have parsed (value : Int) (accepted : parseEpoch (cString stored) = some value) :
        CanonicalEpoch stored value := by
      obtain ⟨blanks, sign, digits, tail, read, rfl⟩ :=
        (parseEpoch_cString_iff stored value).mp accepted
      obtain ⟨rfl, rfl, leads, rfl⟩ := plain blanks sign digits tail read
      have spelled := read.spelled
      rw [List.nil_append, List.nil_append, List.append_nil] at spelled
      rw [spelled]
      exact canonical_of_plain read.decimal read.positive read.fits leads
    refine ⟨parsed, fun printer replies redis scope key before expiresAtOut valid found ok _ => ?_⟩
    obtain ⟨value, accepted⟩ :=
      parsed_of_locked printer replies redis scope key stored before expiresAtOut valid found ok
    exact ⟨value, parsed value accepted⟩

/-- Replies of a server whose lockout was stored with a plus sign, two seconds before it ends. -/
def signedLockout (_ : Nat) : Command → Option Reply
  | .get _ => some (.string "+1798700002".toList)
  | .time => some (.array [.string "1798700000".toList, .string "0".toList])
  | .ttl _ => some (.integer 2)
  | _ => none

/-- A value stored with a plus sign is no canonical text, yet it is parsed and reported as a
valid lock. -/
theorem signed_epoch_locks :
    parseEpoch (cString "+1798700002".toList) = some 1798700002 ∧
    (run (scripted signedLockout) (alphaRedisIsBreakerLocked fillingPrinter (some ⟨0⟩)
      (some "paper".toList) (some false) (some 0)) 0).1 = ⟨.ok, some true, some 1798700002⟩ ∧
    (¬ ∃ value, CanonicalEpoch "+1798700002".toList value) ∧
    ¬ ReadsCanonical "+1798700002".toList := by
  have parsed : parseEpoch (cString "+1798700002".toList) = some 1798700002 := by decide +kernel
  have signed : ¬ ∃ value, CanonicalEpoch "+1798700002".toList value := by
    rintro ⟨value, low, _, printed⟩
    rw [printDecimal, if_neg (by omega)] at printed
    have digit := toDigits_all_digits value.natAbs '+' (printed ▸ by decide)
    exact absurd digit (by decide)
  exact ⟨parsed, by decide +kernel, signed, fun promise => signed ⟨_, promise.parsed _ parsed⟩⟩

end AlphaPipeline.RedisCache

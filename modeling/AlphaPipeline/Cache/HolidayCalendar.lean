import AlphaPipeline.Calendar.Civil

/-!
# The holiday calendar text

`parse_holiday_json` of `redis_cache.c`: a scanner for `["YYYY-MM-DD", ...]` over a
C string, whose terminator is the end of the list. An element is a quoted date whose month is
1..12 and whose day is 1..31; whether the month has that day is not asked.
-/
namespace AlphaPipeline.RedisCache

open Gregorian Decimal

/-- `MAX_HOLIDAYS`. -/
def maxHolidays : Nat := 512

/-- The double quote. -/
def quote : Char := Char.ofNat 34

/-- `skip_space`. -/
def skipSpace (cursor : Text) : Text := cursor.dropWhile isSpace

/-- `parse_fixed_decimal`; the terminator is no digit. -/
def parseFixedDecimal (parsed : Int) : Nat → Text → Option Int
  | 0, _ => some parsed
  | _ + 1, [] => none
  | digits + 1, c :: rest =>
    if c.isDigit then parseFixedDecimal (u32 (parsed * 10 + (c.toNat - 48 : Nat))) digits rest
    else none

/-- The checks on one element: its shape, its fields, and that day 1..31 of the month still
lies in the year. Gives the epoch day. -/
def holidayElement (expectedYear : Int) (cursor : Text) : Option Int :=
  if cursor.length < 12 ∨ cursor[0]? ≠ some quote ∨ cursor[5]? ≠ some '-' ∨
      cursor[8]? ≠ some '-' ∨ cursor[11]? ≠ some quote then none
  else
    match parseFixedDecimal 0 4 (cursor.drop 1), parseFixedDecimal 0 2 (cursor.drop 6),
      parseFixedDecimal 0 2 (cursor.drop 9) with
    | some year, some month, some day =>
      if year ≠ u32 expectedYear ∨ month < 1 ∨ month > 12 ∨ day < 1 ∨ day > 31 then none
      else
        let epochDay := daysFromCivil (i32 year) month day
        if civilYearFromDays epochDay ≠ i32 year then none else some epochDay
    | _, _, _ => none

/-- The loop over the elements, with `room` slots left in the array and the days stored so
far, last first. Gives the days and the text after the closing bracket. -/
def holidayElements (expectedYear : Int) (room : Nat) (cursor : Text) (days : List Int) :
    Option (List Int × Text) :=
  match cursor with
  | ']' :: rest => some (days.reverse, rest)
  | _ =>
    match room with
    | 0 => none
    | room + 1 =>
      match holidayElement expectedYear cursor with
      | none => none
      | some epochDay =>
        if days.head?.any (fun last => decide (epochDay ≤ last)) then none
        else
          match skipSpace (cursor.drop 12) with
          | ',' :: rest => holidayElements expectedYear room (skipSpace rest) (epochDay :: days)
          | ']' :: rest => holidayElements expectedYear room (']' :: rest) (epochDay :: days)
          | _ => none

/-- `parse_holiday_json`. -/
def parseHolidayJson (json : Text) (expectedYear : Int) : Option (List Int) :=
  match skipSpace json with
  | '[' :: rest =>
    match holidayElements expectedYear maxHolidays (skipSpace rest) [] with
    | some (days, rest) => if skipSpace rest = [] then some days else none
    | none => none
  | _ => none

/-! ### Dates -/

/-- The fields the scanner checks. -/
structure Listed (year : Int) (date : Date) : Prop where
  year : date.year = year
  month : 1 ≤ date.month ∧ date.month ≤ 12
  day : 1 ≤ date.day ∧ date.day ≤ 31

/-- As long as the digits to come leave room in 32 bits, no step of the loop wraps. -/
private theorem parseFixedDecimal_eq {width read : Nat} (text : Text)
    (small : (read + 1) * 10 ^ width ≤ 4294967296) :
    parseFixedDecimal read width text =
      (readDigits read width text).map fun n : Nat => (n : Int) := by
  induction width generalizing read text with
  | zero => cases text <;> rfl
  | succ width ih =>
    cases text with
    | nil => rfl
    | cons c text =>
      rw [parseFixedDecimal, readDigits]
      split
      next digit =>
        have bound := (digitChar_of_isDigit digit).1
        have power : 1 ≤ 10 ^ width := Nat.one_le_pow _ _ (by decide)
        -- the digit takes one of the places left
        have later : (read * 10 + (c.toNat - 48) + 1) * 10 ^ width ≤ 4294967296 := by
          refine le_trans ?_ small
          rw [pow_succ]
          nlinarith
        have fits : read * 10 + (c.toNat - 48) < 4294967296 := by nlinarith
        rw [← ih text later, u32_of_range (by omega) (by omega)]
        push_cast
        rfl
      · rfl

/-- The fields of a date are short enough. -/
theorem parseFixedDecimal_field {width : Nat} (short : width ≤ 4) (text : Text) :
    parseFixedDecimal 0 width text = (readDigits 0 width text).map fun n : Nat => (n : Int) := by
  have small : (0 + 1) * 10 ^ width ≤ 4294967296 := by interval_cases width <;> norm_num
  exact parseFixedDecimal_eq text small

/-- Days past the end of a month still lie in the year, so asking for the year of the day again
finds nothing wrong with them. -/
theorem Listed.inYear {year : Int} {date : Date} (listed : Listed year date) :
    InYear year date.number := by
  rw [← listed.year]
  exact Date.inYear listed.month listed.day

theorem Listed.civilYear {year : Int} {date : Date} (listed : Listed year date)
    (low : 0 ≤ year) (high : year ≤ 9999) : civilYearFromDays date.number = year := by
  obtain ⟨started, ending⟩ := listed.inYear
  unfold yearStart at started ending
  exact (civilYearFromDays_inYear date.number (by omega) (by omega)).unique listed.inYear

/-- Listed dates are told apart by their text. -/
theorem iso_inj {year : Int} {date other : Date} (listed : Listed year date)
    (also : Listed year other) (same : date.iso = other.iso) : date = other := by
  obtain ⟨rfl, month, day⟩ := listed
  obtain ⟨year', month', day'⟩ := also
  have read := Date.iso_month_day month day []
  rw [same, (Date.iso_month_day month' day' []).1, (Date.iso_month_day month' day' []).2,
    Option.some.injEq, Option.some.injEq] at read
  obtain ⟨y, m, d⟩ := date
  obtain ⟨y', m', d'⟩ := other
  simp only [Date.mk.injEq] at *
  omega

/-- A quoted date is an element. -/
theorem holidayElement_date {year : Int} (low : 0 ≤ year) (high : year ≤ 9999) {date : Date}
    (listed : Listed year date) (rest : Text) :
    holidayElement year (quote :: (date.iso ++ quote :: rest)) = some date.number := by
  have month := listed.month
  have day := listed.day
  have same := listed.year
  have fields := Date.iso_month_day month day (quote :: rest)
  have readYear : parseFixedDecimal 0 4 ((quote :: (date.iso ++ quote :: rest)).drop 1) =
      some date.year := by
    rw [parseFixedDecimal_field (by decide), List.drop_one, List.tail_cons,
      Date.iso_year (by omega), Option.map_some, Int.toNat_of_nonneg (by omega)]
  have readMonth : parseFixedDecimal 0 2 ((quote :: (date.iso ++ quote :: rest)).drop 6) =
      some date.month := by
    rw [parseFixedDecimal_field (by decide), List.drop_succ_cons, fields.1, Option.map_some,
      Int.toNat_of_nonneg (by omega)]
  have readDay : parseFixedDecimal 0 2 ((quote :: (date.iso ++ quote :: rest)).drop 9) =
      some date.day := by
    rw [parseFixedDecimal_field (by decide), List.drop_succ_cons, fields.2, Option.map_some,
      Int.toNat_of_nonneg (by omega)]
  have whole : i32 date.year = date.year := i32_of_range (by omega) (by omega)
  have wide : u32 year = year := u32_of_range low (by omega)
  have back := listed.civilYear low high
  unfold holidayElement
  rw [if_neg (by simp [Date.iso, fixedDecimal]), readYear, readMonth, readDay]
  dsimp only
  rw [if_neg (by rw [wide]; omega), whole, daysFromCivil_eq date month day, if_neg]
  rw [back, same]
  exact not_not.mpr rfl

/-- An element is a quoted date. The expected year may be any `int`: one without four digits
accepts nothing. -/
theorem holidayElement_inv {year : Int} (low : -2147483648 ≤ year) (high : year < 2147483648)
    {cursor : Text} {epochDay : Int}
    (accepted : holidayElement year cursor = some epochDay) :
    ∃ date rest, Listed year date ∧ cursor = quote :: (date.iso ++ quote :: rest) ∧
      epochDay = date.number := by
  unfold holidayElement at accepted
  split at accepted
  · cases accepted
  next shape =>
    simp only [not_or, not_not, not_lt] at shape
    obtain ⟨long, first, dash, dash', final⟩ := shape
    obtain ⟨c, text, rfl⟩ := List.exists_cons_of_length_pos (by omega : 0 < cursor.length)
    obtain rfl : c = quote := by simpa using first
    simp only [List.getElem?_cons_succ] at dash dash' final
    split at accepted
    next y m d readYear readMonth readDay =>
      split at accepted
      · cases accepted
      next fields =>
        rw [parseFixedDecimal_field (by decide), Option.map_eq_some_iff] at readYear
        rw [parseFixedDecimal_field (by decide), Option.map_eq_some_iff] at readMonth
        rw [parseFixedDecimal_field (by decide), Option.map_eq_some_iff] at readDay
        obtain ⟨y, readYear, rfl⟩ := readYear
        obtain ⟨m, readMonth, rfl⟩ := readMonth
        obtain ⟨d, readDay, rfl⟩ := readDay
        obtain ⟨short, written⟩ := Date.iso_inv dash dash' readYear readMonth readDay
        -- four digits leave no room for the wrap of the cast
        have same : (y : Int) = year := by
          unfold u32 at fields
          omega
        have listed : Listed year ⟨y, m, d⟩ := by
          refine ⟨?_, ?_, ?_⟩ <;> dsimp only <;> omega
        have whole : i32 y = y := i32_of_range (by omega) (by omega)
        refine ⟨⟨y, m, d⟩, text.drop 11, listed, ?_, ?_⟩
        · have ends : text.drop 10 = quote :: text.drop 11 := by
            obtain ⟨bound, last⟩ := List.getElem?_eq_some_iff.mp final
            rw [List.drop_eq_getElem_cons bound, last]
          rw [← ends, ← written]
        · dsimp only at accepted
          rw [whole, daysFromCivil_eq ⟨y, m, d⟩ listed.month listed.day] at accepted
          split at accepted
          · cases accepted
          · exact (Option.some.inj accepted).symm
    · cases accepted

end AlphaPipeline.RedisCache

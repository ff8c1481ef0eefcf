import AlphaPipeline.Calendar.Dates

/-!
# Dates as text

`alpha_date_parse` and `alpha_date_format` of `date.c`. The parser takes four, two and two digits
with dashes between and asks for a month 1..12 and a day 1..31, not for a day the month has; the
formatter prints the year in as many characters as it takes and leaves it to `snprintf` to cut the
text to the buffer.
-/
namespace AlphaPipeline.Dates

open Gregorian Decimal

/-- `parse_digits`, with the value so far; the terminator is no digit. -/
def parseDigits (value : Int) : Nat → Text → Option Int
  | 0, _ => some value
  | _ + 1, [] => none
  | len + 1, c :: rest =>
    if c < '0' ∨ c > '9' then none
    else parseDigits (value * 10 + (c.toNat - '0'.toNat : Int)) len rest

/-- `alpha_date_parse`, with what the out parameter held before. -/
def alphaDateParse (iso : Option Text) (outEpochDay : Option Int) : AlphaErr × Option Int :=
  match iso, outEpochDay with
  | some bytes, some _ =>
    let iso := cString bytes
    if iso.length ≠ 10 ∨ iso[4]? ≠ some '-' ∨ iso[7]? ≠ some '-' then (.invalidArg, outEpochDay)
    else
      match parseDigits 0 4 iso, parseDigits 0 2 (iso.drop 5), parseDigits 0 2 (iso.drop 8) with
      | some year, some month, some day =>
        if month < 1 ∨ month > 12 ∨ day < 1 ∨ day > 31 then (.invalidArg, outEpochDay)
        else (.ok, some (daysFromCivil year (u32 month) (u32 day)))
      | _, _, _ => (.invalidArg, outEpochDay)
  | _, _ => (.invalidArg, outEpochDay)

/-- The conversions `%0<width>lld` and `%0<width>u`: zeros after the sign fill the width. -/
def printPadded (width : Nat) (n : Int) : Text :=
  let sign : Text := if n < 0 then ['-'] else []
  let digits := Nat.toDigits 10 n.natAbs
  sign ++ (List.replicate (width - sign.length - digits.length) '0' ++ digits)

/-- `"%04lld-%02u-%02u"`. -/
def dateText (date : Date) : Text :=
  printPadded 4 date.year ++
    '-' :: (printPadded 2 date.month ++ '-' :: printPadded 2 date.day)

/-- What C reads of a buffer of `n` bytes after `snprintf` printed the text to it. -/
def snprintf (n : Nat) (text : Text) : Text := text.take (n - 1)

/-- `alpha_date_format`, with what the buffer held before. -/
def alphaDateFormat (epochDay : Int) (out : Option Text) (n : Nat) : AlphaErr × Option Text :=
  match out with
  | none => (.invalidArg, none)
  | some held =>
    if n < 11 then (.invalidArg, some held)
    else (.ok, some (snprintf n (dateText (civilFromDays epochDay))))

/-! ### What is accepted -/

/-- The text is `YYYY-MM-DD` with a month 1..12 and a day 1..31. -/
structure Names (text : Text) (date : Date) : Prop where
  year : 0 ≤ date.year ∧ date.year ≤ 9999
  month : 1 ≤ date.month ∧ date.month ≤ 12
  day : 1 ≤ date.day ∧ date.day ≤ 31
  text : text = date.iso

/-- The text tells the date. -/
theorem Names.unique {text : Text} {date other : Date} (names : Names text date)
    (also : Names text other) : date = other := by
  have sameNumber {a b : Int} (low : 0 ≤ a) (low' : 0 ≤ b) (same : a.toNat = b.toNat) : a = b := by
    omega
  -- each field is read from the text, whichever date it is the text of
  have year := Date.iso_year names.year []
  obtain ⟨month, day⟩ := Date.iso_month_day names.month names.day []
  obtain ⟨month', day'⟩ := Date.iso_month_day also.month also.day []
  rw [← names.text, also.text, Date.iso_year also.year, Option.some.injEq] at year
  rw [← names.text, also.text, month', Option.some.injEq] at month
  rw [← names.text, also.text, day', Option.some.injEq] at day
  have years := sameNumber also.year.1 names.year.1 year
  have months := sameNumber (by linarith [also.month.1]) (by linarith [names.month.1]) month
  have days := sameNumber (by linarith [also.day.1]) (by linarith [names.day.1]) day
  obtain ⟨_, _, _⟩ := date
  obtain ⟨_, _, _⟩ := other
  exact (Date.mk.injEq ..).mpr ⟨years.symm, months.symm, days.symm⟩

private theorem isDigit_iff (c : Char) : c.isDigit = true ↔ ¬ (c < '0' ∨ c > '9') := by
  simp only [Char.isDigit, Bool.and_eq_true, decide_eq_true_eq, not_or, gt_iff_lt, Char.not_lt]
  rfl

private theorem parseDigits_eq (value len : Nat) (text : Text) :
    parseDigits value len text = (readDigits value len text).map fun n : Nat => (n : Int) := by
  induction len generalizing value text with
  | zero => cases text <;> rfl
  | succ len ih =>
    cases text with
    | nil => rfl
    | cons c text =>
      rw [parseDigits, readDigits]
      by_cases digit : c.isDigit = true
      · have low : 48 ≤ c.toNat := by
          simp only [Char.isDigit, Bool.and_eq_true, decide_eq_true_eq] at digit
          exact digit.1
        have value : (value : Int) * 10 + (c.toNat - '0'.toNat : Int) =
            (value * 10 + (c.toNat - 48) : Nat) := by
          rw [show '0'.toNat = 48 from rfl]
          omega
        rw [if_neg ((isDigit_iff c).mp digit), if_pos digit, value, ih]
      · rw [if_pos (not_not.mp fun inside => digit ((isDigit_iff c).mpr inside)), if_neg digit]
        rfl

/-- Accepted is what names a date, and the day is that of the date. -/
theorem alphaDateParse_ok_iff (bytes : Text) (held day : Int) :
    alphaDateParse (some bytes) (some held) = (.ok, some day) ↔
      ∃ date, Names (cString bytes) date ∧ date.number = day := by
  have read (len : Nat) (text : Text) : parseDigits 0 len text =
      (readDigits 0 len text).map fun n : Nat => (n : Int) := parseDigits_eq 0 len text
  simp only [alphaDateParse, read]
  generalize cString bytes = text
  constructor
  · intro parsed
    split at parsed
    · cases parsed
    next shape =>
      simp only [not_or, not_not] at shape
      obtain ⟨length, dash, dash'⟩ := shape
      split at parsed
      next year month day' hy hm hd =>
        split at parsed
        · cases parsed
        next fields =>
          simp only [Option.map_eq_some_iff] at hy hm hd
          obtain ⟨y, yearRead, rfl⟩ := hy
          obtain ⟨m, monthRead, rfl⟩ := hm
          obtain ⟨d, dayRead, rfl⟩ := hd
          obtain ⟨short, spelled⟩ := Date.iso_inv dash dash' yearRead monthRead dayRead
          rw [List.drop_of_length_le (by omega), List.append_nil] at spelled
          have names : Names text ⟨y, m, d⟩ :=
            ⟨⟨by simp, by simp only; omega⟩, ⟨by simp only; omega, by simp only; omega⟩,
              ⟨by simp only; omega, by simp only; omega⟩, spelled⟩
          refine ⟨_, names, ?_⟩
          rw [← daysFromCivil_eq _ names.month names.day]
          rw [u32_of_range (by omega) (by omega), u32_of_range (by omega) (by omega)] at parsed
          simpa using parsed
      · cases parsed
  · rintro ⟨date, names, rfl⟩
    obtain ⟨years, months, days, rfl⟩ := names
    have year := Date.iso_year years []
    have fields := Date.iso_month_day months days []
    rw [List.append_nil] at year fields
    rw [if_neg (by simp [Date.iso, fixedDecimal]), year, fields.1, fields.2]
    simp only [Option.map_some]
    have month : 0 ≤ date.month := by omega
    have day : 0 ≤ date.day := by omega
    rw [Int.toNat_of_nonneg years.1, Int.toNat_of_nonneg month, Int.toNat_of_nonneg day,
      if_neg (by omega), u32_of_range month (by omega), u32_of_range day (by omega),
      daysFromCivil_eq date months days]

/-! ### Reading back what was written -/

private theorem printPadded_eq {width : Nat} {n : Int} (positive : 0 < width) (nonneg : 0 ≤ n)
    (fits : n.toNat < 10 ^ width) : printPadded width n = fixedDecimal width n.toNat := by
  have unsigned : n.natAbs = n.toNat := by omega
  rw [printPadded, if_neg (by omega), unsigned, List.nil_append]
  exact fixedDecimal_padded positive fits

/-- Years 0 to 9999 are printed in four digits. -/
theorem dateText_eq_iso {date : Date} (year : 0 ≤ date.year ∧ date.year ≤ 9999)
    (real : date.Exists) : dateText date = date.iso := by
  have month : 1 ≤ date.month ∧ date.month ≤ 12 := ⟨real.1, real.2.1⟩
  have day := real.day
  rw [dateText, Date.iso, printPadded_eq (by decide) year.1 (by norm_num; omega),
    printPadded_eq (by decide) (by omega) (by norm_num; omega),
    printPadded_eq (by decide) (by omega) (by norm_num; omega)]

theorem length_iso (date : Date) : date.iso.length = 10 := by
  simp [Date.iso, length_fixedDecimal]

/-- A date that exists, of a year 0 to 9999, is printed whole. -/
theorem alphaDateFormat_number {date : Date} (year : 0 ≤ date.year ∧ date.year ≤ 9999)
    (real : date.Exists) (held : Text) {n : Nat} (room : 11 ≤ n) :
    alphaDateFormat date.number (some held) n = (.ok, some date.iso) := by
  obtain ⟨exists_, number⟩ := civilFromDays_spec date.number
  rw [alphaDateFormat, if_neg (by omega), Date.number_inj exists_ real number,
    dateText_eq_iso year real, snprintf, List.take_of_length_le (by rw [length_iso]; omega)]

/-- What reading a date back takes: printing the day gives the text again, the text is that of a
date that exists, and no other text is read as the day. -/
structure ReadsBack (bytes : Text) (day : Int) : Prop where
  written : ∀ held n, 11 ≤ n → alphaDateFormat day (some held) n = (.ok, some (cString bytes))
  real : ∃ date : Date, date.Exists ∧ cString bytes = dateText date
  alone : ∀ other held, alphaDateParse (some other) (some held) = (.ok, some day) →
    cString other = cString bytes

/-- The day is written back exactly for the dates that exist. -/
theorem written_back_iff {bytes : Text} {date : Date} (names : Names (cString bytes) date) :
    (∀ held n, 11 ≤ n → alphaDateFormat date.number (some held) n = (.ok, some (cString bytes))) ↔
      date.Exists := by
  obtain ⟨real, number⟩ := civilFromDays_spec date.number
  -- a day past the end of its month is still one of its year
  have year : (civilFromDays date.number).year = date.year := by
    have inYear := Date.inYear ⟨real.1, real.2.1⟩ real.day
    rw [number] at inYear
    exact inYear.unique (Date.inYear names.month names.day)
  have printed (held : Text) (n : Nat) (room : 11 ≤ n) :
      alphaDateFormat date.number (some held) n =
        (.ok, some (civilFromDays date.number).iso) := by
    have whole := alphaDateFormat_number (by rw [year]; exact names.year) real held room
    rwa [number] at whole
  constructor
  · intro written
    have same := written [] 11 le_rfl
    rw [printed [] 11 le_rfl, Prod.mk.injEq, Option.some.injEq] at same
    have also : Names (cString bytes) (civilFromDays date.number) :=
      ⟨by rw [year]; exact names.year, ⟨real.1, real.2.1⟩, real.day, same.2.symm⟩
    rw [names.unique also]
    exact real
  · intro exists_ held n room
    rw [names.text]
    exact alphaDateFormat_number names.year exists_ held room

/-- The first days of a month, which days past the end of the month before are read as. -/
def Carried (date : Date) : Prop := date.day + monthLength date.year (date.month - 1) ≤ 31

private theorem cString_iso (date : Date) : cString date.iso = date.iso := by
  apply List.takeWhile_eq_self_iff.mpr
  intro c member
  rw [bne_iff_ne]
  rintro rfl
  have digit (width n : Nat) (inside : Char.ofNat 0 ∈ fixedDecimal width n) : False :=
    absurd (isDigit_of_mem_fixedDecimal width n _ inside) (by decide)
  simp only [Date.iso, List.mem_append, List.mem_cons] at member
  rcases member with inside | dash | inside | dash | inside
  · exact digit _ _ inside
  · exact absurd dash (by decide)
  · exact digit _ _ inside
  · exact absurd dash (by decide)
  · exact digit _ _ inside

/-- Where no other text is read as the day, no other date of the accepted form has it. -/
private theorem only_date {bytes : Text} {date : Date} (names : Names (cString bytes) date)
    (alone : ∀ other held, alphaDateParse (some other) (some held) = (.ok, some date.number) →
      cString other = cString bytes)
    {other : Date} (also : Names other.iso other) (same : other.number = date.number) :
    other = date := by
  have accepted : alphaDateParse (some other.iso) (some 0) = (.ok, some date.number) := by
    rw [alphaDateParse_ok_iff, cString_iso]
    exact ⟨other, also, same⟩
  have text := alone _ _ accepted
  rw [cString_iso] at text
  rw [text] at also
  exact also.unique names

/-- A date that days past the end of a month are read as has such a day in the month before. -/
private theorem carried_from {text : Text} {date : Date} (names : Names text date)
    (carried : Carried date) :
    ∃ before : Date, Names before.iso before ∧ before.number = date.number ∧ before ≠ date := by
  have month := names.month
  have day := names.day
  have length := monthLength_pos date.year (date.month - 1)
  unfold Carried at carried
  -- December is as long as a month can be
  have later : date.month ≠ 1 := by
    intro january
    rw [january] at carried
    simp only [monthLength, sub_self] at carried
    norm_num at carried
    omega
  let before : Date :=
    ⟨date.year, date.month - 1, date.day + monthLength date.year (date.month - 1)⟩
  have months : 1 ≤ before.month ∧ before.month ≤ 12 := ⟨by simp only [before]; omega,
    by simp only [before]; omega⟩
  have days : 1 ≤ before.day ∧ before.day ≤ 31 := ⟨by simp only [before]; omega, carried⟩
  have reached : before.carried = date := by simp [Date.carried, before]
  refine ⟨before, ⟨names.year, months, days, rfl⟩, ?_, ?_⟩
  · rw [← Date.number_carried months, reached]
  · intro same
    have shorter := congrArg Date.month same
    simp [before] at shorter

/-- No other text is read as the day where the date exists and is none that days past the end of a
month are read as. -/
theorem alone_iff {bytes : Text} {date : Date} (names : Names (cString bytes) date) :
    (∀ other held, alphaDateParse (some other) (some held) = (.ok, some date.number) →
      cString other = cString bytes) ↔ date.Exists ∧ ¬ Carried date := by
  constructor
  · intro alone
    constructor
    · rcases Date.exists_or_carried names.month names.day with real | carried
      · exact real
      · -- the date it is carried to is read from another text
        have also : Names date.carried.iso date.carried :=
          ⟨names.year, ⟨carried.1, carried.2.1⟩, carried.day, rfl⟩
        have other := only_date names alone also (Date.number_carried names.month)
        have month := congrArg Date.month other
        simp [Date.carried] at month
    · intro carried
      obtain ⟨before, also, same, other⟩ := carried_from names carried
      exact other (only_date names alone also same)
  · rintro ⟨real, uncarried⟩ other held accepted
    obtain ⟨named, also, same⟩ := (alphaDateParse_ok_iff other held _).mp accepted
    have date_eq : named = date := by
      rcases Date.exists_or_carried also.month also.day with exists_ | carried
      · exact Date.number_inj exists_ real same
      · have reached := Date.number_inj carried real ((Date.number_carried also.month).trans same)
        refine absurd ?_ uncarried
        rw [Carried, ← reached]
        simp only [Date.carried, add_sub_cancel_right, sub_add_cancel]
        exact also.day.2
    rw [also.text, names.text, date_eq]

/-- An accepted text is read back exactly where it names a date that exists and that no day past
the end of a month is read as. -/
theorem accepted_reads_back_iff (bytes : Text) (held day : Int)
    (accepted : alphaDateParse (some bytes) (some held) = (.ok, some day)) :
    ReadsBack bytes day ↔
      ∃ date, Names (cString bytes) date ∧ date.Exists ∧ ¬ Carried date := by
  obtain ⟨date, names, rfl⟩ := (alphaDateParse_ok_iff bytes held day).mp accepted
  constructor
  · intro back
    exact ⟨date, names, (alone_iff names).mp back.alone⟩
  · rintro ⟨other, also, real, uncarried⟩
    obtain rfl := names.unique also
    exact ⟨(written_back_iff names).mpr real,
      ⟨date, real, by rw [names.text, dateText_eq_iso names.year real]⟩,
      (alone_iff names).mpr ⟨real, uncarried⟩⟩

theorem accepted_reads_back_march :
    ReadsBack "2026-03-04".toList 20516 ↔
      ∃ date, Names (cString "2026-03-04".toList) date ∧ date.Exists ∧ ¬ Carried date :=
  accepted_reads_back_iff "2026-03-04".toList 0 20516 (by decide +kernel)

/-- February 30 is accepted, is written back as March 2, and March 2 is read as the same day. -/
theorem february_thirty_accepted :
    alphaDateParse (some "2026-02-30".toList) (some 0) = (.ok, some 20514) ∧
      alphaDateFormat 20514 (some []) 11 = (.ok, some "2026-03-02".toList) ∧
      alphaDateParse (some "2026-03-02".toList) (some 0) = (.ok, some 20514) ∧
      ¬ ReadsBack "2026-02-30".toList 20514 := by
  have read : alphaDateParse (some "2026-02-30".toList) (some 0) = (.ok, some 20514) := by
    decide +kernel
  have printed : alphaDateFormat 20514 (some []) 11 = (.ok, some "2026-03-02".toList) := by
    decide +kernel
  refine ⟨read, printed, by decide +kernel, fun back => ?_⟩
  have written := back.written [] 11 le_rfl
  rw [printed] at written
  exact absurd written (by decide)

/-! ### Printing every day -/

/-- The days of the years of four digits. -/
private theorem year_of_four_digits_iff {year day : Int} (inYear : InYear year day) :
    0 ≤ year ∧ year ≤ 9999 ↔ -719528 ≤ day ∧ day ≤ 2932896 := by
  obtain ⟨started, ending⟩ := inYear
  have first : yearStart 0 = -719528 := by decide
  have last : yearStart 10000 = 2932897 := by decide
  have mono := yearStart_strictMono.monotone
  constructor
  · rintro ⟨low, high⟩
    have lower := mono low
    have upper := mono (by omega : year + 1 ≤ 10000)
    omega
  · rintro ⟨low, high⟩
    constructor
    · by_contra negative
      have before := mono (by omega : year + 1 ≤ 0)
      omega
    · by_contra long
      have after := mono (by omega : 10000 ≤ year)
      omega

/-- Every printed day is complete text that is read back exactly in the years 0 to 9999: from day
-719528, January 1 of year 0, to day 2932896, December 31 of year 9999. -/
theorem printed_reads_back_iff (day : Int) (held buffer : Text) (n : Nat)
    (printed : alphaDateFormat day (some held) n = (.ok, some buffer)) :
    (buffer = dateText (civilFromDays day) ∧
      ∀ before, alphaDateParse (some buffer) (some before) = (.ok, some day)) ↔
      -719528 ≤ day ∧ day ≤ 2932896 := by
  obtain ⟨real, number⟩ := civilFromDays_spec day
  constructor
  · rintro ⟨_, read⟩
    obtain ⟨date, names, rfl⟩ := (alphaDateParse_ok_iff buffer 0 day).mp (read 0)
    exact (year_of_four_digits_iff (Date.inYear names.month names.day)).mp names.year
  · intro range
    have inYear := Date.inYear ⟨real.1, real.2.1⟩ real.day
    rw [number] at inYear
    have year := (year_of_four_digits_iff inYear).mpr range
    have room : 11 ≤ n := by
      by_contra small
      rw [alphaDateFormat, if_pos (by omega)] at printed
      cases printed
    have whole := alphaDateFormat_number year real held room
    rw [number, printed, Prod.mk.injEq, Option.some.injEq] at whole
    refine ⟨by rw [whole.2, dateText_eq_iso year real], fun before => ?_⟩
    rw [alphaDateParse_ok_iff, whole.2, cString_iso]
    exact ⟨_, ⟨year, ⟨real.1, real.2.1⟩, real.day, rfl⟩, number⟩

theorem printed_reads_back_epoch :
    ("1970-01-01".toList = dateText (civilFromDays 0) ∧
      ∀ before, alphaDateParse (some "1970-01-01".toList) (some before) = (.ok, some 0)) ↔
      -719528 ≤ (0 : Int) ∧ (0 : Int) ≤ 2932896 :=
  printed_reads_back_iff 0 [] "1970-01-01".toList 11 (by decide +kernel)

/-- The first day of year 10000 is printed without its last digit, and is not read back. -/
theorem year_ten_thousand_truncated :
    alphaDateFormat 2932897 (some []) 11 = (.ok, some "10000-01-0".toList) ∧
      dateText (civilFromDays 2932897) = "10000-01-01".toList ∧
      alphaDateParse (some "10000-01-0".toList) (some 0) = (.invalidArg, some 0) := by
  refine ⟨?_, ?_, ?_⟩ <;> decide +kernel

end AlphaPipeline.Dates

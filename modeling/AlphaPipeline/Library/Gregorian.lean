import AlphaPipeline.Library.Decimal

/-!
# The proleptic Gregorian calendar

Days are numbered from 1970-01-01, which is day 0. `yearStart` is the closed form
of the first day of a year; that day and `yearStart_succ` determine it, as
`daysBeforeMonth_january` and `daysBeforeMonth_succ` do for the months of a year.
-/
namespace Gregorian

open Decimal

def IsLeap (year : Int) : Prop := year % 4 = 0 ∧ (year % 100 ≠ 0 ∨ year % 400 = 0)

instance (year : Int) : Decidable (IsLeap year) := inferInstanceAs (Decidable (_ ∧ _))

def yearLength (year : Int) : Int := if IsLeap year then 366 else 365

/-- Day number of January 1. -/
def yearStart (year : Int) : Int :=
  365 * (year - 1970) + (year - 1) / 4 - (year - 1) / 100 + (year - 1) / 400 - 477

/-- Day number of March 1, where an era-based calendar starts its years. -/
def marchStart (year : Int) : Int :=
  365 * year + year / 4 - year / 100 + year / 400 - 719468

theorem yearStart_succ (year : Int) :
    yearStart (year + 1) = yearStart year + yearLength year := by
  simp only [yearStart, yearLength]
  by_cases leap : IsLeap year
  · rw [if_pos leap]
    unfold IsLeap at leap
    omega
  · rw [if_neg leap]
    unfold IsLeap at leap
    omega

example : yearStart 1970 = 0 := by decide

theorem yearStart_lt_succ (year : Int) : yearStart year < yearStart (year + 1) := by
  have length : 0 < yearLength year := by unfold yearLength; split <;> omega
  have next := yearStart_succ year
  omega

theorem yearStart_strictMono : StrictMono yearStart :=
  strictMono_int_of_lt_succ yearStart_lt_succ

/-- Ten months separate March 1 from the next January 1. -/
theorem yearStart_of_march (year : Int) : yearStart (year + 1) = marchStart year + 306 := by
  simp only [yearStart, marchStart]
  omega

theorem march_in_year (year : Int) :
    yearStart year < marchStart year ∧ marchStart year < yearStart (year + 1) := by
  simp only [yearStart, marchStart]
  omega

/-! ### Months -/

def monthLength (year month : Int) : Int :=
  if month = 2 then if IsLeap year then 29 else 28
  else if month = 4 ∨ month = 6 ∨ month = 9 ∨ month = 11 then 30
  else 31

/-- Days of the year before the month. -/
def daysBeforeMonth (year month : Int) : Int :=
  if month ≤ 2 then 31 * (month - 1)
  else (if IsLeap year then 60 else 59) + (153 * (month - 3) + 2) / 5

theorem daysBeforeMonth_january (year : Int) : daysBeforeMonth year 1 = 0 := rfl

theorem daysBeforeMonth_succ (year month : Int) (low : 1 ≤ month) (high : month ≤ 12) :
    daysBeforeMonth year (month + 1) = daysBeforeMonth year month + monthLength year month := by
  unfold daysBeforeMonth monthLength
  interval_cases month <;> simp <;> split <;> rfl

/-- The months make up the year. -/
theorem daysBeforeMonth_end (year : Int) : daysBeforeMonth year 13 = yearLength year := by
  unfold daysBeforeMonth yearLength
  rw [if_neg (by decide)]
  split <;> rfl

structure Date where
  year : Int
  month : Int
  day : Int
  deriving DecidableEq, Repr

/-- The date is one of the calendar. -/
def Date.Exists (date : Date) : Prop :=
  1 ≤ date.month ∧ date.month ≤ 12 ∧ 1 ≤ date.day ∧ date.day ≤ monthLength date.year date.month

instance (date : Date) : Decidable date.Exists := inferInstanceAs (Decidable (_ ∧ _))

/-- The number of the day; days past the end of a month count on into the next. -/
def Date.number (date : Date) : Int :=
  yearStart date.year + daysBeforeMonth date.year date.month + (date.day - 1)

/-- The date as `YYYY-MM-DD`. -/
def Date.iso (date : Date) : List Char :=
  fixedDecimal 4 date.year.toNat ++
    '-' :: (fixedDecimal 2 date.month.toNat ++ '-' :: fixedDecimal 2 date.day.toNat)

/-- March 1, where the first two months end. -/
theorem marchStart_of_year (year : Int) :
    marchStart year = yearStart year + (if IsLeap year then 60 else 59) := by
  have next := yearStart_succ year
  have march := yearStart_of_march year
  unfold yearLength at next
  split <;> rename_i leap
  · rw [if_pos leap] at next
    omega
  · rw [if_neg leap] at next
    omega

/-- The day lies in the year. -/
def InYear (year day : Int) : Prop := yearStart year ≤ day ∧ day < yearStart (year + 1)

theorem InYear.unique {a b day : Int} (inA : InYear a day) (inB : InYear b day) : a = b := by
  have below : a < b + 1 := yearStart_strictMono.lt_iff_lt.mp (lt_of_le_of_lt inA.1 inB.2)
  have above : b < a + 1 := yearStart_strictMono.lt_iff_lt.mp (lt_of_le_of_lt inB.1 inA.2)
  omega

/-! ### Days in order -/

/-- The months of a year follow each other. -/
theorem daysBeforeMonth_mono (year : Int) {month later : Int} (first : 1 ≤ month)
    (before : month < later) (last : later ≤ 12) :
    daysBeforeMonth year month + monthLength year month ≤ daysBeforeMonth year later := by
  rw [← daysBeforeMonth_succ year month first (by omega)]
  unfold daysBeforeMonth
  by_cases leap : IsLeap year
  · simp only [if_pos leap]
    split <;> split <;> omega
  · simp only [if_neg leap]
    split <;> split <;> omega

/-- December has 31 days, so a day of any month, counted up to 31, lies in the year. -/
theorem Date.inYear {date : Date} (month : 1 ≤ date.month ∧ date.month ≤ 12)
    (day : 1 ≤ date.day ∧ date.day ≤ 31) : InYear date.year date.number := by
  have next := yearStart_succ date.year
  unfold yearLength at next
  unfold InYear Date.number daysBeforeMonth
  by_cases leap : IsLeap date.year
  · simp only [if_pos leap] at next ⊢
    split <;> omega
  · simp only [if_neg leap] at next ⊢
    split <;> omega

theorem monthLength_le (year month : Int) : monthLength year month ≤ 31 := by
  unfold monthLength
  split
  · split <;> decide
  · split <;> decide

theorem Date.Exists.day {date : Date} (real : date.Exists) : 1 ≤ date.day ∧ date.day ≤ 31 :=
  ⟨real.2.2.1, real.2.2.2.trans (monthLength_le _ _)⟩

/-- A day that comes before the next month is one of its month. -/
theorem Date.exists_of_number {date : Date} (month : 1 ≤ date.month ∧ date.month ≤ 12)
    (day : 1 ≤ date.day)
    (ends : date.number < yearStart date.year + daysBeforeMonth date.year (date.month + 1)) :
    date.Exists := by
  rw [daysBeforeMonth_succ _ _ month.1 month.2, Date.number] at ends
  exact ⟨month.1, month.2, day, by omega⟩

/-- A day has one date. -/
theorem Date.number_inj {date other : Date} (real : date.Exists) (also : other.Exists)
    (same : date.number = other.number) : date = other := by
  have inYear := Date.inYear ⟨real.1, real.2.1⟩ real.day
  have inOther := Date.inYear ⟨also.1, also.2.1⟩ also.day
  rw [← same] at inOther
  have year := inYear.unique inOther
  obtain ⟨y, m, d⟩ := date
  obtain ⟨y', m', d'⟩ := other
  obtain rfl : y = y' := year
  obtain ⟨first, last, low, high⟩ := real
  obtain ⟨first', last', low', high'⟩ := also
  simp only [Date.number] at *
  -- an earlier month ends before a later one begins
  have month : m = m' := by
    rcases lt_trichotomy m m' with before | rfl | after
    · have ends := daysBeforeMonth_mono y first before last'
      omega
    · rfl
    · have ends := daysBeforeMonth_mono y first' after last
      omega
  subst month
  obtain rfl : d = d' := by omega
  rfl

/-- The day after. -/
def Date.next (date : Date) : Date :=
  if date.day < monthLength date.year date.month then { date with day := date.day + 1 }
  else if date.month < 12 then ⟨date.year, date.month + 1, 1⟩
  else ⟨date.year + 1, 1, 1⟩

theorem monthLength_pos (year month : Int) : 1 ≤ monthLength year month := by
  unfold monthLength
  split
  · split <;> decide
  · split <;> decide

theorem Date.next_exists {date : Date} (real : date.Exists) : date.next.Exists := by
  obtain ⟨first, last, low, high⟩ := real
  unfold Date.next
  split
  · exact ⟨first, last, by simp only; omega, by simp only; omega⟩
  · split
    · exact ⟨by simp only; omega, by simp only; omega, le_rfl, monthLength_pos _ _⟩
    · exact ⟨le_rfl, by simp, le_rfl, monthLength_pos _ _⟩

/-- The day after has the next number. -/
theorem Date.number_next {date : Date} (real : date.Exists) :
    date.next.number = date.number + 1 := by
  obtain ⟨first, last, low, high⟩ := real
  unfold Date.next
  split
  · simp only [Date.number]
    ring
  next whole =>
    have ends := daysBeforeMonth_succ date.year date.month first last
    split
    · simp only [Date.number]
      omega
    next december =>
      -- the last month ends the year
      have twelve : date.month = 12 := by omega
      have year := daysBeforeMonth_end date.year
      have next := yearStart_succ date.year
      rw [twelve] at ends whole high
      simp only [Date.number, daysBeforeMonth_january, twelve]
      norm_num at ends
      omega

theorem Date.iterate_next {date : Date} (real : date.Exists) (n : Nat) :
    (Date.next^[n] date).Exists ∧ (Date.next^[n] date).number = date.number + n := by
  induction n with
  | zero => exact ⟨real, by simp⟩
  | succ n ih =>
    rw [Function.iterate_succ_apply']
    refine ⟨Date.next_exists ih.1, ?_⟩
    rw [Date.number_next ih.1, ih.2]
    push_cast
    ring

/-- The date with the days of its month taken off, in the next month. -/
def Date.carried (date : Date) : Date :=
  ⟨date.year, date.month + 1, date.day - monthLength date.year date.month⟩

/-- Days past the end of a month are days of the next. -/
theorem Date.number_carried {date : Date} (month : 1 ≤ date.month ∧ date.month ≤ 12) :
    date.carried.number = date.number := by
  simp only [Date.number, Date.carried]
  rw [daysBeforeMonth_succ date.year date.month month.1 month.2]
  ring

/-- A day of 1..31 is one of its month, or one of the first of the next month in its year. -/
theorem Date.exists_or_carried {date : Date} (month : 1 ≤ date.month ∧ date.month ≤ 12)
    (day : 1 ≤ date.day ∧ date.day ≤ 31) : date.Exists ∨ date.carried.Exists := by
  by_cases inside : date.day ≤ monthLength date.year date.month
  · exact .inl ⟨month.1, month.2, day.1, inside⟩
  · right
    obtain ⟨year, month', day'⟩ := date
    unfold Date.Exists Date.carried
    simp only at *
    unfold monthLength at inside ⊢
    obtain ⟨first, last⟩ := month
    interval_cases month' <;> simp at inside ⊢ <;> omega

/-! ### Dates as text -/

private theorem readDigits_field {width n : Nat} (fits : n < 10 ^ width) (rest : List Char) :
    readDigits 0 width (fixedDecimal width n ++ rest) = some n := by
  rw [readDigits_fixed, Nat.mod_eq_of_lt fits, zero_mul, zero_add]

/-- A year of four digits is read back from the text of a date. -/
theorem Date.iso_year {date : Date} (year : 0 ≤ date.year ∧ date.year ≤ 9999)
    (rest : List Char) : readDigits 0 4 (date.iso ++ rest) = some date.year.toNat := by
  rw [Date.iso, List.append_assoc]
  exact readDigits_field (by norm_num; omega) _

/-- A month and a day of two digits are read back from the text of a date. -/
theorem Date.iso_month_day {date : Date} (month : 1 ≤ date.month ∧ date.month ≤ 12)
    (day : 1 ≤ date.day ∧ date.day ≤ 31) (rest : List Char) :
    readDigits 0 2 ((date.iso ++ rest).drop 5) = some date.month.toNat ∧
      readDigits 0 2 ((date.iso ++ rest).drop 8) = some date.day.toNat :=
  ⟨readDigits_field (by norm_num; omega) _, readDigits_field (by norm_num; omega) _⟩

/-- A text with dashes between three fields of digits starts with a date. -/
theorem Date.iso_inv {text : List Char} {y m d : Nat} (dash : text[4]? = some '-')
    (dash' : text[7]? = some '-') (year : readDigits 0 4 text = some y)
    (month : readDigits 0 2 (text.drop 5) = some m)
    (day : readDigits 0 2 (text.drop 8) = some d) :
    y < 10 ^ 4 ∧ text = (⟨y, m, d⟩ : Date).iso ++ text.drop 10 := by
  have field {i width n : Nat} (reads : readDigits 0 width (text.drop i) = some n) :
      n < 10 ^ width ∧ text.drop i = fixedDecimal width n ++ text.drop (i + width) := by
    obtain ⟨k, rest, below, written, rfl⟩ := readDigits_inv reads
    rw [zero_mul, zero_add]
    refine ⟨below, ?_⟩
    rw [← List.drop_drop, written, List.drop_left' (length_fixedDecimal width k)]
  have step {i : Nat} {c : Char} (found : text[i]? = some c) :
      text.drop i = c :: text.drop (i + 1) := by
    obtain ⟨bound, rfl⟩ := List.getElem?_eq_some_iff.mp found
    exact List.drop_eq_getElem_cons bound
  obtain ⟨short, first⟩ := field (i := 0) (by rwa [List.drop_zero])
  obtain ⟨_, second⟩ := field month
  obtain ⟨_, third⟩ := field day
  refine ⟨short, ?_⟩
  rw [List.drop_zero, step dash, second, step dash', third] at first
  simpa [Date.iso] using first

/-- Day of the week, Monday 0 to Sunday 6; day 0 is a Thursday. -/
def weekday (day : Int) : Int := (day + 3) % 7

def IsSaturday (day : Int) : Prop := weekday day = 5

def IsSunday (day : Int) : Prop := weekday day = 6

instance (day : Int) : Decidable (IsSaturday day) := inferInstanceAs (Decidable (_ = _))

instance (day : Int) : Decidable (IsSunday day) := inferInstanceAs (Decidable (_ = _))

end Gregorian

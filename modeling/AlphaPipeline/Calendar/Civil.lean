import AlphaPipeline.CRuntime
import AlphaPipeline.Library.Gregorian

/-!
# Civil dates of the Redis cache driver

The era-based conversions of `redis_cache.c`, and that they agree with the Gregorian
calendar. An era is 400 years of 146097 days, counted from March 1 of year 0.
-/
namespace AlphaPipeline.RedisCache

open Gregorian

/-- `days_from_civil`. -/
def daysFromCivil (year month day : Int) : Int :=
  let year := year - (if month ≤ 2 then 1 else 0)
  let era := (if year ≥ 0 then year else year - 399).tdiv 400
  let yoe := u32 (year - era * 400)
  let doy := u32 (u32 (153 * u32 (month + (if month > 2 then u32 (-3) else 9)) + 2) / 5 + day - 1)
  let doe := u32 (yoe * 365 + yoe / 4 - yoe / 100 + doy)
  era * 146097 + doe - 719468

/-- `civil_year_from_days`, where no signed step overflows; `(int)era * 400` does on the days
before March 1 of year -2147483600. -/
def civilYearFromDays (epochDay : Int) : Int :=
  let z := epochDay + 719468
  let era := (if z ≥ 0 then z else z - 146096).tdiv 146097
  let doe := u32 (z - era * 146097)
  let yoe := u32 (doe - doe / 1460 + doe / 36524 - doe / 146096) / 365
  let year := i32 yoe + i32 era * 400
  let doy := u32 (doe - u32 (365 * yoe + yoe / 4 - yoe / 100))
  let mp := u32 (5 * doy + 2) / 153
  let month := u32 (mp + (if mp < 10 then 3 else u32 (-9)))
  year + (if month ≤ 2 then 1 else 0)

/-- Truncating division after the sources' shift of negative numerators is floor division. -/
theorem tdiv_shifted (z n : Int) (positive : 0 < n) :
    (if z ≥ 0 then z else z - (n - 1)).tdiv n = z / n := by
  split
  next nonneg => exact Int.tdiv_eq_ediv_of_nonneg nonneg
  next negative =>
    have below : z - (n - 1) ≤ 0 := by omega
    have shifted : z - (n - 1) = -(-z + (n - 1)) := by ring
    rw [shifted, Int.neg_tdiv, Int.tdiv_eq_ediv_of_nonneg (by omega)]
    have quotient := Int.mul_ediv_add_emod z n
    have low := Int.emod_nonneg z (show n ≠ 0 by omega)
    have high := Int.emod_lt_of_pos z positive
    -- the shifted numerator is a multiple of the divisor less a remainder below it
    have rest : -z + (n - 1) = (n - 1 - z % n) + n * (-(z / n)) := by linarith
    rw [rest, Int.add_mul_ediv_left _ _ (by omega), Int.ediv_eq_zero_of_lt (by omega) (by omega)]
    omega

/-! ### The year of an era -/

/-- Days of an era before its year `yoe`. -/
def yoeStart (yoe : Int) : Int := 365 * yoe + yoe / 4 - yoe / 100 + yoe / 400

private theorem quotients_of_cycles (century cycle rest : Int)
    (hc : 0 ≤ century ∧ century ≤ 3) (hq : 0 ≤ cycle ∧ cycle ≤ 24) (hr : 0 ≤ rest ∧ rest ≤ 1460)
    (short : 1461 * cycle + rest < 36524) (doe : Int)
    (split : doe = 36524 * century + 1461 * cycle + rest) :
    doe / 1460 = 25 * century + cycle + (24 * century + cycle + rest) / 1460 ∧
    doe / 36524 = century ∧ doe / 146096 = 0 := by
  refine ⟨?_, ?_, ?_⟩ <;> omega

/-- Centuries of 36524 days and four-year cycles of 1461 days locate the year. -/
private theorem yoe_of_cycles (century cycle rest : Int)
    (hc : 0 ≤ century ∧ century ≤ 3) (hq : 0 ≤ cycle ∧ cycle ≤ 24) (hr : 0 ≤ rest ∧ rest ≤ 1460)
    (short : 1461 * cycle + rest < 36524) (doe : Int)
    (split : doe = 36524 * century + 1461 * cycle + rest) :
    (doe - doe / 1460 + doe / 36524 - doe / 146096) / 365 =
      100 * century + 4 * cycle + (if rest = 1460 then 3 else rest / 365) := by
  obtain ⟨h1460, h36524, h146096⟩ :=
    quotients_of_cycles century cycle rest hc hq hr short doe split
  rw [h1460, h36524, h146096]
  split
  · omega
  -- dividing by 1460 instead of 1461 overshoots by at most one
  · have carry : (24 * century + cycle + rest) / 1460 = 0 ∨
        (24 * century + cycle + rest) / 1460 = 1 := by omega
    rcases carry with none | one
    · rw [none]; omega
    · rw [one]; omega

private theorem yoeStart_of_cycles (century cycle k : Int) (hc : 0 ≤ century ∧ century ≤ 3)
    (hq : 0 ≤ cycle ∧ cycle ≤ 24) (hk : 0 ≤ k ∧ k ≤ 3) :
    yoeStart (100 * century + 4 * cycle + k) = 36524 * century + 1461 * cycle + 365 * k := by
  have quarter : (100 * century + 4 * cycle + k) / 4 = 25 * century + cycle := by omega
  have hundred : (100 * century + 4 * cycle + k) / 100 = century := by omega
  have whole : (100 * century + 4 * cycle + k) / 400 = 0 := by omega
  rw [yoeStart, quarter, hundred, whole]
  ring

private theorem yoeStart_next_le (yoe : Int) (low : 0 ≤ yoe) (high : yoe ≤ 399) :
    yoeStart (yoe + 1) ≤ yoeStart yoe + 366 := by
  by_cases last : yoe = 399
  · subst last
    decide
  · have whole : (yoe + 1) / 400 = 0 := by omega
    unfold yoeStart
    rw [whole]
    omega

private theorem yoeStart_step (yoe : Int) : yoeStart yoe + 365 ≤ yoeStart (yoe + 1) := by
  unfold yoeStart
  omega

/-- Every day of an era but the last lies in a century, a cycle and a place there. -/
private theorem exists_cycles (doe : Int) (low : 0 ≤ doe) (high : doe < 146096) :
    ∃ century cycle rest : Int,
      (0 ≤ century ∧ century ≤ 3) ∧ (0 ≤ cycle ∧ cycle ≤ 24) ∧ (0 ≤ rest ∧ rest ≤ 1460) ∧
      1461 * cycle + rest < 36524 ∧ doe = 36524 * century + 1461 * cycle + rest := by
  refine ⟨doe / 36524, doe % 36524 / 1461, doe % 36524 % 1461, ?_, ?_, ?_, ?_, ?_⟩ <;> omega

/-- The formula for the year of the era finds the year that holds the day. -/
theorem yoe_spec (doe yoe : Int) (low : 0 ≤ doe) (high : doe < 146097)
    (formula : (doe - doe / 1460 + doe / 36524 - doe / 146096) / 365 = yoe) :
    0 ≤ yoe ∧ yoe ≤ 399 ∧ yoeStart yoe ≤ doe ∧ doe < yoeStart (yoe + 1) := by
  by_cases last : doe = 146096
  -- the last day of the era is the one day the cycles do not reach
  · subst last
    subst formula
    decide
  obtain ⟨century, cycle, rest, hc, hq, hr, short, located⟩ := exists_cycles doe low (by omega)
  rw [yoe_of_cycles century cycle rest hc hq hr short doe located] at formula
  clear last low high
  split at formula
  next leapDay =>
    -- the last day of a four-year cycle stays in its fourth year
    have start := yoeStart_of_cycles century cycle 3 hc hq (by omega)
    have next := yoeStart_of_cycles century (cycle + 1) 0 hc (by omega) (by omega)
    have moved : 100 * century + 4 * (cycle + 1) + 0 = yoe + 1 := by omega
    rw [formula] at start
    rw [moved] at next
    omega
  next ordinary =>
    have year : 0 ≤ rest / 365 ∧ rest / 365 ≤ 3 := by omega
    have start := yoeStart_of_cycles century cycle (rest / 365) hc hq year
    have next := yoeStart_step yoe
    rw [formula] at start
    omega

/-! ### Agreement with the Gregorian calendar -/

/-- March 1 of a year, counted by eras. -/
theorem marchStart_of_era (era yoe : Int) (low : 0 ≤ yoe) (high : yoe ≤ 399) :
    marchStart (yoe + era * 400) = era * 146097 + yoeStart yoe - 719468 := by
  unfold marchStart yoeStart
  omega

private theorem marchStart_of_next (era yoe : Int) :
    marchStart (yoe + era * 400 + 1) = era * 146097 + yoeStart (yoe + 1) - 719468 := by
  unfold marchStart yoeStart
  omega

/-- The steps from a day to its year since March, which both conversions from days share: no
unsigned step wraps, and the day is day `doy` of that year. -/
theorem era_parts (day : Int) : ∃ era doe yoe doy : Int,
    (if day + 719468 ≥ 0 then day + 719468 else day + 719468 - 146096).tdiv 146097 = era ∧
    u32 (day + 719468 - era * 146097) = doe ∧
    u32 (doe - doe / 1460 + doe / 36524 - doe / 146096) / 365 = yoe ∧
    u32 (doe - u32 (365 * yoe + yoe / 4 - yoe / 100)) = doy ∧
    era = (day + 719468) / 146097 ∧ (0 ≤ yoe ∧ yoe ≤ 399) ∧ (0 ≤ doy ∧ doy ≤ 365) ∧
    day = marchStart (yoe + era * 400) + doy ∧ day < marchStart (yoe + era * 400 + 1) := by
  obtain ⟨era, hEra⟩ : ∃ era, era = (day + 719468) / 146097 := ⟨_, rfl⟩
  obtain ⟨doe, hDoe⟩ : ∃ doe, doe = day + 719468 - era * 146097 := ⟨_, rfl⟩
  obtain ⟨yoe, hYoe⟩ : ∃ yoe, (doe - doe / 1460 + doe / 36524 - doe / 146096) / 365 = yoe :=
    ⟨_, rfl⟩
  have doeRange : 0 ≤ doe ∧ doe < 146097 := by omega
  obtain ⟨yoeLow, yoeHigh, started, ending⟩ := yoe_spec doe yoe doeRange.1 doeRange.2 hYoe
  have start := marchStart_of_era era yoe yoeLow yoeHigh
  have next := marchStart_of_next era yoe
  have short : yoeStart yoe = 365 * yoe + yoe / 4 - yoe / 100 := by unfold yoeStart; omega
  have length := yoeStart_next_le yoe yoeLow yoeHigh
  refine ⟨era, doe, yoe, doe - yoeStart yoe, ?_, ?_, ?_, ?_, hEra, ⟨yoeLow, yoeHigh⟩,
    ⟨by omega, by omega⟩, by omega, by omega⟩
  · rw [hEra]
    exact tdiv_shifted (day + 719468) 146097 (by omega)
  · rw [← hDoe]
    exact u32_of_range (by omega) (by omega)
  · rw [u32_of_range (by omega) (by omega)]
    exact hYoe
  · rw [u32_of_range (x := 365 * yoe + yoe / 4 - yoe / 100) (by omega) (by omega), ← short]
    exact u32_of_range (by omega) (by omega)

/-- The month of a day counted from March 1: January and February come last. -/
theorem month_of_doy (doy : Int) (low : 0 ≤ doy) (high : doy ≤ 365) :
    u32 (5 * doy + 2) / 153 = (5 * doy + 2) / 153 ∧
      u32 ((5 * doy + 2) / 153 + (if (5 * doy + 2) / 153 < 10 then 3 else u32 (-9))) =
        (5 * doy + 2) / 153 + (if 306 ≤ doy then -9 else 3) := by
  refine ⟨by rw [u32_of_range (by omega) (by omega)], ?_⟩
  split
  next early =>
    rw [u32_of_range (by omega) (by omega), if_neg (by omega)]
  next late =>
    -- the source subtracts 9 by adding its unsigned wrap
    rw [if_pos (by omega)]
    unfold u32
    omega

/-- `civil_year_from_days` gives the year the day lies in, as long as the era fits an `int`. -/
theorem civilYearFromDays_inYear (day : Int) (low : -300000000000000 ≤ day)
    (high : day ≤ 300000000000000) : InYear (civilYearFromDays day) day := by
  obtain ⟨era, doe, yoe, doy, eraEq, doeEq, yoeEq, doyEq, hEra, hYoe, hDoy, started, ending⟩ :=
    era_parts day
  obtain ⟨mpEq, monthEq⟩ := month_of_doy doy hDoy.1 hDoy.2
  -- no conversion of the source loses a bit on this range
  have computed : civilYearFromDays day = yoe + era * 400 + (if 306 ≤ doy then 1 else 0) := by
    simp only [civilYearFromDays, eraEq, doeEq, yoeEq, doyEq, mpEq, monthEq]
    rw [i32_of_range (x := yoe) (by omega) (by omega),
      i32_of_range (x := era) (by omega) (by omega)]
    congr 1
    split
    · rw [if_pos (by omega)]
    · rw [if_neg (by omega)]
  have inMarch := march_in_year (yoe + era * 400)
  have boundary := yearStart_of_march (yoe + era * 400)
  have later := march_in_year (yoe + era * 400 + 1)
  rw [computed]
  unfold InYear
  split
  · omega
  · simp only [add_zero]
    omega

/-- March 1 of the era's year, as `days_from_civil` adds the day of the year to it. -/
private theorem daysFromCivil_of_doy (year month day doy : Int)
    (range : 0 ≤ doy ∧ doy < 400)
    (computed : u32 (u32 (153 * u32 (month + (if month > 2 then u32 (-3) else 9)) + 2) / 5 +
      day - 1) = doy) :
    daysFromCivil year month day = marchStart (year - (if month ≤ 2 then 1 else 0)) + doy := by
  obtain ⟨shifted, hShifted⟩ : ∃ shifted, shifted = year - (if month ≤ 2 then 1 else 0) := ⟨_, rfl⟩
  have eraEq : (if shifted ≥ 0 then shifted else shifted - 399).tdiv 400 = shifted / 400 :=
    tdiv_shifted shifted 400 (by omega)
  have yoeEq : u32 (shifted - shifted / 400 * 400) = shifted % 400 := by
    rw [u32_of_range (by omega) (by omega)]
    omega
  have doeEq : u32 (shifted % 400 * 365 + shifted % 400 / 4 - shifted % 400 / 100 + doy) =
      shifted % 400 * 365 + shifted % 400 / 4 - shifted % 400 / 100 + doy :=
    u32_of_range (by omega) (by omega)
  have start := marchStart_of_era (shifted / 400) (shifted % 400) (by omega) (by omega)
  have whole : shifted % 400 + shifted / 400 * 400 = shifted := by omega
  rw [whole] at start
  unfold yoeStart at start
  simp only [daysFromCivil, ← hShifted, eraEq, yoeEq, computed, doeEq]
  omega

private theorem u32_doy (march day : Int) (month : 0 ≤ march ∧ march ≤ 11)
    (range : 1 ≤ day ∧ day ≤ 31) :
    u32 (u32 (153 * march + 2) / 5 + day - 1) = (153 * march + 2) / 5 + day - 1 := by
  rw [u32_of_range (x := 153 * march + 2) (by omega) (by omega)]
  exact u32_of_range (by omega) (by omega)

/-- `days_from_civil` is the day number of a date, also where its day is past the end of the
month. -/
theorem daysFromCivil_eq (date : Date) (month : 1 ≤ date.month ∧ date.month ≤ 12)
    (day : 1 ≤ date.day ∧ date.day ≤ 31) :
    daysFromCivil date.year date.month date.day = date.number := by
  unfold Date.number daysBeforeMonth
  by_cases early : date.month ≤ 2
  -- January and February count to the year before
  · have march : u32 (date.month + (if date.month > 2 then u32 (-3) else 9)) = date.month + 9 := by
      rw [if_neg (by omega)]
      exact u32_of_range (by omega) (by omega)
    have doy := u32_doy (date.month + 9) date.day (by omega) day
    rw [← march] at doy
    have boundary := yearStart_of_march (date.year - 1)
    rw [sub_add_cancel] at boundary
    rw [daysFromCivil_of_doy _ _ _ _ (by omega) doy, if_pos early, if_pos early, boundary, march]
    omega
  · have march : u32 (date.month + (if date.month > 2 then u32 (-3) else 9)) = date.month - 3 := by
      rw [if_pos (by omega)]
      unfold u32
      omega
    have doy := u32_doy (date.month - 3) date.day (by omega) day
    rw [← march] at doy
    rw [daysFromCivil_of_doy _ _ _ _ (by omega) doy, if_neg early, if_neg early, sub_zero,
      marchStart_of_year, march]
    omega

/-- December 31 is the day before the next year starts. -/
theorem daysFromCivil_december (year : Int) :
    daysFromCivil year 12 31 = yearStart (year + 1) - 1 := by
  have number := daysFromCivil_eq ⟨year, 12, 31⟩ ⟨by simp, by simp⟩ ⟨by simp, by simp⟩
  have length : daysBeforeMonth year 13 = daysBeforeMonth year 12 + 31 :=
    daysBeforeMonth_succ year 12 (by decide) (by decide)
  have whole := daysBeforeMonth_end year
  have next := yearStart_succ year
  simp only [Date.number] at number
  omega

/-- January 1 is the day the year starts. -/
theorem daysFromCivil_january (year : Int) : daysFromCivil year 1 1 = yearStart year := by
  have number := daysFromCivil_eq ⟨year, 1, 1⟩ ⟨by simp, by simp⟩ ⟨by simp, by simp⟩
  simp only [Date.number, daysBeforeMonth_january] at number
  omega

end AlphaPipeline.RedisCache

import AlphaPipeline.Calendar.Civil

/-!
# Calendar dates

The conversions of `date.c` between dates and day numbers, with a signed 64-bit year and
unsigned 32-bit months and days. They are inverse to each other on the Gregorian calendar, and
the day after a date has the next number.
-/
namespace AlphaPipeline.Dates

open Gregorian

/-- `days_from_civil`. -/
def daysFromCivil (y m d : Int) : Int :=
  let y := y - (if m ≤ 2 then 1 else 0)
  let era := (if y ≥ 0 then y else y - 399).tdiv 400
  let yoe := u32 (y - era * 400)
  let doy := u32 (u32 (153 * u32 (m + (if m > 2 then u32 (-3) else 9)) + 2) / 5 + d - 1)
  let doe := u32 (yoe * 365 + yoe / 4 - yoe / 100 + doy)
  era * 146097 + doe - 719468

/-- `civil_from_days`. -/
def civilFromDays (z : Int) : Date :=
  let z := z + 719468
  let era := (if z ≥ 0 then z else z - 146096).tdiv 146097
  let doe := u32 (z - era * 146097)
  let yoe := u32 (doe - doe / 1460 + doe / 36524 - doe / 146096) / 365
  let yy := yoe + era * 400
  let doy := u32 (doe - u32 (365 * yoe + yoe / 4 - yoe / 100))
  let mp := u32 (5 * doy + 2) / 153
  let d := u32 (doy - u32 (153 * mp + 2) / 5 + 1)
  let m := u32 (mp + (if mp < 10 then 3 else u32 (-9)))
  ⟨yy + (if m ≤ 2 then 1 else 0), m, d⟩

/-- `alpha_date_diff_days`. -/
def alphaDateDiffDays (a b : Int) : Int := b - a

/-- `days_from_civil` is the day number of a date, also where its day is past the end of the
month. -/
theorem daysFromCivil_eq (date : Date) (month : 1 ≤ date.month ∧ date.month ≤ 12)
    (day : 1 ≤ date.day ∧ date.day ≤ 31) :
    daysFromCivil date.year date.month date.day = date.number :=
  RedisCache.daysFromCivil_eq date month day

theorem daysFromCivil_of_exists {date : Date} (real : date.Exists) :
    daysFromCivil date.year date.month date.day = date.number :=
  daysFromCivil_eq date ⟨real.1, real.2.1⟩ real.day

/-- What `civil_from_days` computes: the year since March `year`, day `doy` in it. -/
private theorem civilFromDays_parts (z : Int) : ∃ year doy : Int, (0 ≤ doy ∧ doy ≤ 365) ∧
    z = marchStart year + doy ∧ z < marchStart (year + 1) ∧
    civilFromDays z = ⟨year + (if 306 ≤ doy then 1 else 0),
      (5 * doy + 2) / 153 + (if 306 ≤ doy then -9 else 3),
      doy - (153 * ((5 * doy + 2) / 153) + 2) / 5 + 1⟩ := by
  obtain ⟨era, doe, yoe, doy, eraEq, doeEq, yoeEq, doyEq, _, _, hDoy, started, ending⟩ :=
    RedisCache.era_parts z
  obtain ⟨mpEq, monthEq⟩ := RedisCache.month_of_doy doy hDoy.1 hDoy.2
  refine ⟨yoe + era * 400, doy, hDoy, started, ending, ?_⟩
  simp only [civilFromDays, eraEq, doeEq, yoeEq, doyEq, mpEq, monthEq, Date.mk.injEq, true_and]
  have inner : u32 (153 * ((5 * doy + 2) / 153) + 2) = 153 * ((5 * doy + 2) / 153) + 2 :=
    u32_of_range (by omega) (by omega)
  constructor
  · congr 1
    split
    · rw [if_pos (by omega)]
    · rw [if_neg (by omega)]
  · rw [inner]
    exact u32_of_range (by omega) (by omega)

/-- `civil_from_days` gives the date of the day. -/
theorem civilFromDays_spec (z : Int) :
    (civilFromDays z).Exists ∧ (civilFromDays z).number = z := by
  obtain ⟨year, doy, range, started, ending, computed⟩ := civilFromDays_parts z
  rw [computed]
  by_cases winter : 306 ≤ doy
  · -- January and February belong to the next year, whose March is not reached
    simp only [if_pos winter]
    have boundary := yearStart_of_march year
    have march := marchStart_of_year (year + 1)
    have months : (5 * doy + 2) / 153 = 10 ∨ (5 * doy + 2) / 153 = 11 := by omega
    have number : (⟨year + 1, (5 * doy + 2) / 153 + -9,
        doy - (153 * ((5 * doy + 2) / 153) + 2) / 5 + 1⟩ : Date).number = z := by
      unfold Date.number daysBeforeMonth
      rw [if_pos (by dsimp only; omega)]
      dsimp only
      omega
    refine ⟨Date.exists_of_number ⟨by dsimp only; omega, by dsimp only; omega⟩
      (by dsimp only; omega) ?_, number⟩
    rw [number]
    unfold daysBeforeMonth
    rcases months with january | february
    · rw [if_pos (by dsimp only; omega)]
      dsimp only
      omega
    · rw [if_neg (by dsimp only; omega)]
      dsimp only
      omega
  · simp only [if_neg winter]
    have march := marchStart_of_year year
    have number : (⟨year + 0, (5 * doy + 2) / 153 + 3,
        doy - (153 * ((5 * doy + 2) / 153) + 2) / 5 + 1⟩ : Date).number = z := by
      unfold Date.number daysBeforeMonth
      rw [if_neg (by dsimp only; omega)]
      dsimp only
      rw [add_zero]
      omega
    refine ⟨Date.exists_of_number ⟨by dsimp only; omega, by dsimp only; omega⟩
      (by dsimp only; omega) ?_, number⟩
    rw [number]
    unfold daysBeforeMonth
    rw [if_neg (by dsimp only; omega)]
    dsimp only
    rw [add_zero]
    omega

/-- Dates and day numbers correspond one to one: converting a date of the calendar there and back
gives the date, converting a number there and back the number, and counting days in the calendar
is counting numbers. -/
theorem civil_round_trip :
    (∀ date : Date, date.Exists →
      civilFromDays (daysFromCivil date.year date.month date.day) = date) ∧
    (∀ z, (civilFromDays z).Exists ∧
      daysFromCivil (civilFromDays z).year (civilFromDays z).month (civilFromDays z).day = z) ∧
    (∀ date : Date, date.Exists → date.next.Exists ∧
      daysFromCivil date.next.year date.next.month date.next.day =
        daysFromCivil date.year date.month date.day + 1) ∧
    (∀ date later : Date, date.Exists → later.Exists → ∀ n : Nat,
      alphaDateDiffDays (daysFromCivil date.year date.month date.day)
        (daysFromCivil later.year later.month later.day) = n ↔ Date.next^[n] date = later) := by
  refine ⟨?_, ?_, ?_, ?_⟩
  · intro date real
    obtain ⟨exists_, number⟩ := civilFromDays_spec (daysFromCivil date.year date.month date.day)
    apply Date.number_inj exists_ real
    rw [number, daysFromCivil_of_exists real]
  · intro z
    obtain ⟨real, number⟩ := civilFromDays_spec z
    exact ⟨real, by rw [daysFromCivil_of_exists real, number]⟩
  · intro date real
    have next := Date.next_exists real
    exact ⟨next, by rw [daysFromCivil_of_exists next, daysFromCivil_of_exists real,
      Date.number_next real]⟩
  · intro date later real also n
    obtain ⟨reached, number⟩ := Date.iterate_next real n
    rw [daysFromCivil_of_exists real, daysFromCivil_of_exists also, alphaDateDiffDays]
    constructor
    · intro apart
      exact Date.number_inj reached also (by rw [number]; omega)
    · rintro rfl
      rw [number]
      ring

end AlphaPipeline.Dates

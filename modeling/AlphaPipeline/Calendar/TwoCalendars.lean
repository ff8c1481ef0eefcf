import AlphaPipeline.Calendar.Dates

/-!
# Two calendars

`redis_cache.c` and `date.c` each convert between dates and day numbers, the first with `int`
years, the second with 64-bit ones. Here every signed step of both is checked for its width, where
C leaves an overflow undefined: what the narrow version computes without overflow is what the wide
one computes.
-/
namespace AlphaPipeline

open Gregorian

theorem Fits.wider {bits more : Nat} {x : Int} (fits : Fits bits x) (wider : bits ≤ more) :
    Fits more x := by
  have power : (2 : Int) ^ (bits - 1) ≤ 2 ^ (more - 1) :=
    pow_le_pow_right₀ (by decide) (by omega)
  exact ⟨by linarith [fits.1], by linarith [fits.2]⟩

/-- The numerator of an era, moved down before the truncating division where it is negative. -/
def eraNumerator (bits : Nat) (z shift : Int) : Option Int :=
  if z ≥ 0 then some z else signed bits (z - shift)

theorem eraNumerator_eq_some {bits : Nat} {z shift v : Int} :
    eraNumerator bits z shift = some v ↔
      (z < 0 → Fits bits (z - shift)) ∧ (if z ≥ 0 then z else z - shift) = v := by
  unfold eraNumerator
  split
  next nonneg => simp [show ¬ z < 0 by omega]
  next negative => simp [signed_eq_some, show z < 0 by omega]

/-- Both versions of `days_from_civil`, with years of the given width. -/
def checkedDays (bits : Nat) (y m d : Int) : Option Int := do
  let y ← signed bits (y - (if m ≤ 2 then 1 else 0))
  let shifted ← eraNumerator bits y 399
  let era := shifted.tdiv 400
  let years ← signed bits (era * 400)
  let rest ← signed bits (y - years)
  let yoe := u32 rest
  let doy := u32 (u32 (153 * u32 (m + (if m > 2 then u32 (-3) else 9)) + 2) / 5 + d - 1)
  let doe := u32 (yoe * 365 + yoe / 4 - yoe / 100 + doy)
  let days ← signed 64 (era * 146097)
  let sum ← signed 64 (days + doe)
  signed 64 (sum - 719468)

/-- The year as both versions compute it from a day, with years of the given width after the given
conversion. -/
def checkedYear (bits : Nat) (cast : Int → Int) (epochDay : Int) : Option Int := do
  let z ← signed 64 (epochDay + 719468)
  let shifted ← eraNumerator 64 z 146096
  let era := shifted.tdiv 146097
  let days ← signed 64 (era * 146097)
  let rest ← signed 64 (z - days)
  let doe := u32 rest
  let yoe := u32 (doe - doe / 1460 + doe / 36524 - doe / 146096) / 365
  let years ← signed bits (cast era * 400)
  let year ← signed bits (cast yoe + years)
  let doy := u32 (doe - u32 (365 * yoe + yoe / 4 - yoe / 100))
  let mp := u32 (5 * doy + 2) / 153
  let month := u32 (mp + (if mp < 10 then 3 else u32 (-9)))
  signed bits (year + (if month ≤ 2 then 1 else 0))

/-- `days_from_civil` of `redis_cache.c`, undefined where a signed step overflows. -/
def RedisCache.daysFromCivilChecked (year month day : Int) : Option Int :=
  checkedDays 32 year month day

/-- `civil_year_from_days` of `redis_cache.c`, undefined where a signed step overflows. -/
def RedisCache.civilYearFromDaysChecked (epochDay : Int) : Option Int :=
  checkedYear 32 i32 epochDay

/-- `days_from_civil` of `date.c`, undefined where a signed step overflows. -/
def Dates.daysFromCivilChecked (y m d : Int) : Option Int := checkedDays 64 y m d

/-- The year of `civil_from_days` of `date.c`, undefined where a signed step overflows. -/
def Dates.civilYearChecked (z : Int) : Option Int := checkedYear 64 id z

/-- Every step that fits the narrow width fits the wide one, so the wide version has the value. -/
theorem checkedDays_wider {bits more : Nat} (wider : bits ≤ more) {y m d v : Int}
    (computed : checkedDays bits y m d = some v) :
    checkedDays more y m d = some v ∧ Dates.daysFromCivil y m d = v := by
  simp only [checkedDays, Option.bind_eq_bind, Option.bind_eq_some_iff, signed_eq_some,
    eraNumerator_eq_some] at computed ⊢
  obtain ⟨_, ⟨year, rfl⟩, _, ⟨below, rfl⟩, _, ⟨years, rfl⟩, _, ⟨rest, rfl⟩, _, ⟨days, rfl⟩, _,
    ⟨sum, rfl⟩, total, rfl⟩ := computed
  refine ⟨⟨_, ⟨year.wider wider, rfl⟩, _, ⟨fun negative => (below negative).wider wider, rfl⟩,
    _, ⟨years.wider wider, rfl⟩, _, ⟨rest.wider wider, rfl⟩, _, ⟨days, rfl⟩, _, ⟨sum, rfl⟩,
    total, rfl⟩, rfl⟩

/-- The year is computed without overflow where it fits together with the first year of its era. -/
theorem checkedYear_eq {bits : Nat} {cast : Int → Int} {day : Int}
    (keeps : ∀ x, Fits 32 x → cast x = x) (small : -300000000000000 ≤ day ∧ day ≤ 300000000000000)
    (first : Fits bits ((day + 719468) / 146097 * 400))
    (year : Fits bits (Dates.civilFromDays day).year) :
    checkedYear bits cast day = some (Dates.civilFromDays day).year := by
  obtain ⟨era, doe, yoe, doy, eraEq, doeEq, yoeEq, doyEq, rfl, hYoe, _, _, _⟩ :=
    RedisCache.era_parts day
  generalize hEra : (day + 719468) / 146097 = era at *
  have castEra : cast era = era := keeps era (by unfold Fits; omega)
  have castYoe : cast yoe = yoe := keeps yoe (by unfold Fits; omega)
  have computed : (Dates.civilFromDays day).year = yoe + era * 400 +
      (if u32 (u32 (5 * doy + 2) / 153 + (if u32 (5 * doy + 2) / 153 < 10 then 3 else u32 (-9))) ≤ 2
        then 1 else 0) := by
    simp only [Dates.civilFromDays, eraEq, doeEq, yoeEq, doyEq]
  rw [computed] at year ⊢
  have middle : Fits bits (yoe + era * 400) := by
    unfold Fits at first year ⊢
    split at year <;> omega
  simp only [checkedYear, Option.bind_eq_bind, Option.bind_eq_some_iff, signed_eq_some,
    eraNumerator_eq_some]
  refine ⟨_, ⟨by unfold Fits; omega, rfl⟩, _, ⟨by unfold Fits; omega, rfl⟩, _,
    ⟨by rw [eraEq]; unfold Fits; omega, rfl⟩, _, ⟨by rw [eraEq]; unfold Fits; omega, rfl⟩, ?_⟩
  simp only [eraEq, doeEq, yoeEq, doyEq, castEra, castYoe]
  exact ⟨_, ⟨first, rfl⟩, _, ⟨middle, rfl⟩, year, rfl⟩

/-- The first year of the era is one of the signed steps. -/
theorem checkedYear_first {bits : Nat} {cast : Int → Int} {day v : Int}
    (computed : checkedYear bits cast day = some v) :
    Fits bits (cast ((day + 719468) / 146097) * 400) := by
  simp only [checkedYear, Option.bind_eq_bind, Option.bind_eq_some_iff, signed_eq_some,
    eraNumerator_eq_some] at computed
  obtain ⟨_, ⟨_, rfl⟩, _, ⟨_, rfl⟩, _, _, _, _, _, ⟨first, _⟩, _⟩ := computed
  have era := RedisCache.tdiv_shifted (day + 719468) 146097 (by decide)
  norm_num only at era
  rwa [era] at first

/-- Days of a year that fits an `int` are far from the ends of 64 bits. -/
private theorem day_of_int_year {day : Int} (year : Fits 32 (Dates.civilFromDays day).year) :
    -300000000000000 ≤ day ∧ day ≤ 300000000000000 := by
  obtain ⟨real, number⟩ := Dates.civilFromDays_spec day
  obtain ⟨started, ending⟩ := Date.inYear ⟨real.1, real.2.1⟩ real.day
  rw [number] at started ending
  unfold yearStart at started ending
  unfold Fits at year
  omega

/-- The two calendars agree: on the day of a date where the narrow one does not overflow, and on
the year of a day that is an `int`, from March 1 of year -2147483600 on. Before, the first year of
the era is no `int`, and the narrow one overflows. -/
theorem calendars_agree :
    (∀ year month day v : Int, RedisCache.daysFromCivilChecked year month day = some v →
      RedisCache.daysFromCivil year month day = v ∧
      Dates.daysFromCivilChecked year month day = some v ∧
      Dates.daysFromCivil year month day = v) ∧
    ∀ day : Int, Fits 32 (Dates.civilFromDays day).year →
      Dates.civilYearChecked day = some (Dates.civilFromDays day).year ∧
      (RedisCache.civilYearFromDaysChecked day = some (Dates.civilFromDays day).year ↔
        marchStart (-2147483600) ≤ day) ∧
      (marchStart (-2147483600) ≤ day →
        RedisCache.civilYearFromDaysChecked day = some (RedisCache.civilYearFromDays day)) := by
  constructor
  · intro year month day v computed
    obtain ⟨wide, value⟩ := checkedDays_wider (by decide : 32 ≤ 64) computed
    exact ⟨value, wide, value⟩
  · intro day year
    have small := day_of_int_year year
    obtain ⟨real, number⟩ := Dates.civilFromDays_spec day
    have inYear := Date.inYear ⟨real.1, real.2.1⟩ real.day
    rw [number] at inYear
    have keeps (x : Int) (fits : Fits 32 x) : i32 x = x := i32_of_range fits.1 fits.2
    have narrow : RedisCache.civilYearFromDaysChecked day = some (Dates.civilFromDays day).year ↔
        marchStart (-2147483600) ≤ day := by
      obtain ⟨_, ending⟩ := inYear
      unfold yearStart at ending
      unfold marchStart
      constructor
      · intro computed
        have first := checkedYear_first computed
        rw [keeps _ (by unfold Fits; omega)] at first
        unfold Fits at first
        omega
      · intro march
        apply checkedYear_eq keeps small _ year
        unfold Fits at year ⊢
        omega
    refine ⟨checkedYear_eq (fun _ _ => rfl) small (by unfold Fits; omega) (year.wider (by decide)),
      narrow, fun march => ?_⟩
    rw [narrow.mpr march,
      (RedisCache.civilYearFromDays_inYear day small.1 small.2).unique inYear]

/-- The day before: its year is an `int`, and only the wide version yields it. -/
theorem civilYear_before_first_era :
    let day := marchStart (-2147483600) - 1
    Fits 32 (Dates.civilFromDays day).year ∧ Dates.civilYearChecked day = some (-2147483600) ∧
      RedisCache.civilYearFromDaysChecked day = none := by
  decide +kernel

end AlphaPipeline

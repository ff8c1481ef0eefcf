import AlphaPipeline.Calendar.Civil

/-!
# KRX trading sessions

`market_hours.c`: the session after an instant, skipping weekends and, in the safety
variant, the listed holidays. A session starts at 09:00 in Seoul, which is midnight UTC.
-/
namespace AlphaPipeline.MarketHours

open Gregorian

/-- `ALPHA_KST_OFFSET_SECONDS`. -/
def kstOffsetSeconds : Int := 32400

/-- `SECONDS_PER_DAY`. -/
def secondsPerDay : Int := 86400

/-- `ALPHA_SESSION_CALENDAR_INSUFFICIENT`. -/
def calendarInsufficient : Int := -1

/-- `floor_div`. -/
def floorDiv (a b : Int) : Int :=
  let q := a.tdiv b
  if a.tmod b ≠ 0 ∧ (decide (a < 0) ≠ decide (b < 0)) then q - 1 else q

/-- `is_weekend`. -/
def isWeekend (epochDay : Int) : Bool :=
  let weekday := ((epochDay + 3).tmod 7 + 7).tmod 7
  decide (weekday ≥ 5)

/-- `kst_day_of`. -/
def kstDayOf (fromEpoch : Int) : Int := floorDiv (fromEpoch + kstOffsetSeconds) secondsPerDay

/-- `session_start_epoch`. -/
def sessionStartEpoch (kstDay : Int) : Int := kstDay * secondsPerDay + 9 * 3600 - kstOffsetSeconds

/-- `is_holiday`: the scan stops at the first day past the one asked for. -/
def isHoliday (epochDay : Int) : List Int → Bool
  | [] => false
  | day :: rest =>
    if day = epochDay then true
    else if day > epochDay then false
    else isHoliday epochDay rest

/-- The loop of `alpha_next_trading_session_start_holiday_aware` from `day` on. Each turn
that does not return moves on to a day not past the coverage, so `budget` turns suffice
from a day where `calendarMaxDay + 1 - day < budget` (`sessionFrom_eq`). -/
def sessionLoop (holidayDays : List Int) (calendarMaxDay : Int) : Nat → Int → Int
  | 0, _ => calendarInsufficient
  | budget + 1, day =>
    if isWeekend day || isHoliday day holidayDays then
      -- beyond known coverage: fail closed, keep the lockout
      if day > calendarMaxDay then calendarInsufficient
      else sessionLoop holidayDays calendarMaxDay budget (day + 1)
    -- the chosen trading day itself must be within calendar coverage
    else if day > calendarMaxDay then calendarInsufficient
    else sessionStartEpoch day

def sessionFrom (holidayDays : List Int) (calendarMaxDay day : Int) : Int :=
  sessionLoop holidayDays calendarMaxDay ((calendarMaxDay + 1 - day).toNat + 1) day

/-- `alpha_next_trading_session_start_holiday_aware`. -/
def alphaNextTradingSessionStartHolidayAware (fromEpoch : Int) (holidayDays : List Int)
    (calendarMaxDay : Int) : Int :=
  sessionFrom holidayDays calendarMaxDay (kstDayOf fromEpoch + 1)

theorem floorDiv_eq (a b : Int) (positive : 0 < b) : floorDiv a b = a / b := by
  simp only [floorDiv]
  by_cases nonneg : 0 ≤ a
  · have same : decide (a < 0) = decide (b < 0) := by
      rw [decide_eq_false (by omega), decide_eq_false (by omega)]
    simp only [same, ne_eq, not_true_eq_false, and_false, if_false]
    exact Int.tdiv_eq_ediv_of_nonneg nonneg
  · have differ : decide (a < 0) ≠ decide (b < 0) := by
      rw [decide_eq_true (by omega), decide_eq_false (by omega)]
      decide
    rw [Int.tdiv_eq_ediv, Int.tmod_eq_emod]
    have sign : b.sign = 1 := Int.sign_eq_one_of_pos positive
    by_cases divides : b ∣ a
    · have zero : a % b = 0 := Int.emod_eq_zero_of_dvd divides
      simp [zero, nonneg, divides]
    · have remainder : a % b < b := Int.emod_lt_of_pos a positive
      have natAbs : (b.natAbs : Int) = b := by omega
      simp only [nonneg, divides, or_self, if_false, sign, natAbs]
      rw [if_pos ⟨by omega, differ⟩]
      omega

theorem kstDayOf_eq (fromEpoch : Int) : kstDayOf fromEpoch = (fromEpoch + 32400) / 86400 :=
  floorDiv_eq _ _ (by decide)

theorem sessionStartEpoch_eq (kstDay : Int) : sessionStartEpoch kstDay = 86400 * kstDay := by
  simp only [sessionStartEpoch, secondsPerDay, kstOffsetSeconds]
  omega

theorem isWeekend_iff (day : Int) : isWeekend day = true ↔ IsSaturday day ∨ IsSunday day := by
  have weekdayEq : ((day + 3).tmod 7 + 7).tmod 7 = (day + 3) % 7 := by
    have inner : (day + 3).tmod 7 = (day + 3) % 7 ∨ (day + 3).tmod 7 = (day + 3) % 7 - 7 := by
      rw [Int.tmod_eq_emod]
      split
      · exact Or.inl (by simp)
      · exact Or.inr rfl
    rw [Int.tmod_eq_emod_of_nonneg (by omega)]
    omega
  simp only [isWeekend, weekdayEq, decide_eq_true_eq, IsSaturday, IsSunday, weekday]
  omega

/-- On an ascending list the early exit of the scan loses nothing. -/
theorem isHoliday_iff (day : Int) (holidayDays : List Int)
    (ascending : holidayDays.Pairwise (· ≤ ·)) :
    isHoliday day holidayDays = true ↔ day ∈ holidayDays := by
  induction holidayDays with
  | nil => simp [isHoliday]
  | cons first rest ih =>
    have tail := ih (List.pairwise_cons.mp ascending).2
    simp only [isHoliday]
    split
    next same => simp [same]
    next differs =>
      split
      next past =>
        have absent : day ∉ rest := by
          intro member
          have later := (List.pairwise_cons.mp ascending).1 day member
          omega
        simp [absent, Ne.symm differs]
      next before => rw [tail]; simp [Ne.symm differs]

/-- The loop of `alpha_next_trading_session_start` from `day` on. -/
def skipWeekend (day : Int) : Int := if isWeekend day then skipWeekend (day + 1) else day
termination_by ((7 - weekday day) % 7).toNat
decreasing_by
  -- two days to Monday on a Saturday, one on a Sunday
  rename_i weekend
  rcases (isWeekend_iff day).mp weekend with saturday | sunday
  · unfold IsSaturday at saturday
    unfold weekday at saturday ⊢
    omega
  · unfold IsSunday at sunday
    unfold weekday at sunday ⊢
    omega

/-- `alpha_next_trading_session_start`. -/
def alphaNextTradingSessionStart (fromEpoch : Int) : Int :=
  sessionStartEpoch (skipWeekend (kstDayOf fromEpoch + 1))

/-- The source's loop, one turn unrolled: the budget is never exhausted. -/
theorem sessionFrom_eq (holidayDays : List Int) (calendarMaxDay day : Int) :
    sessionFrom holidayDays calendarMaxDay day =
      if isWeekend day || isHoliday day holidayDays then
        if day > calendarMaxDay then calendarInsufficient
        else sessionFrom holidayDays calendarMaxDay (day + 1)
      else if day > calendarMaxDay then calendarInsufficient
      else sessionStartEpoch day := by
  rw [sessionFrom, sessionLoop]
  by_cases past : day > calendarMaxDay
  · simp only [past, if_true]
  · have budget :
        (calendarMaxDay + 1 - day).toNat = (calendarMaxDay + 1 - (day + 1)).toNat + 1 := by
      omega
    simp only [past, if_false, budget, sessionFrom]

/-- Days on which the market is open, given the days it is listed as closed. -/
def Open (holidayDays : List Int) (day : Int) : Prop :=
  ¬ IsSaturday day ∧ ¬ IsSunday day ∧ day ∉ holidayDays

theorem closed_iff (day : Int) (holidayDays : List Int)
    (ascending : holidayDays.Pairwise (· ≤ ·)) :
    (isWeekend day || isHoliday day holidayDays) = true ↔ ¬ Open holidayDays day := by
  rw [Bool.or_eq_true, isWeekend_iff, isHoliday_iff day holidayDays ascending]
  unfold Open
  tauto

end AlphaPipeline.MarketHours

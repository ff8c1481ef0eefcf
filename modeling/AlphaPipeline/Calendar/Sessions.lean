import AlphaPipeline.Library.Loops
import AlphaPipeline.Calendar.MarketHours

/-!
# The next trading session

The loops of `market_hours.c` search day by day. Each is left, and at the first open day: the
weekend loop always, the holiday-aware one when the coverage reaches that far. The weekend loop
agrees with the reference `_next_session_epoch` of `generate_golden_decisions.py`.
-/
namespace AlphaPipeline.MarketHours

open Gregorian Loops

/-! ### The first open day -/

/-- Holidays end, so some day after any other is open. -/
theorem exists_open (holidayDays : List Int) (start : Int) :
    ∃ day, start ≤ day ∧ Open holidayDays day := by
  obtain ⟨last, above⟩ : ∃ last, ∀ day ∈ start :: holidayDays, day ≤ last :=
    (start :: holidayDays).toFinset.exists_le.imp fun last above day listed =>
      above day (List.mem_toFinset.mpr listed)
  have late : start ≤ last := above start List.mem_cons_self
  have free : ∀ day, last < day → day ∉ holidayDays := by
    intro day after listed
    have := above day (List.mem_cons_of_mem _ listed)
    omega
  -- past the last holiday: the next day, or the Monday after a weekend
  obtain ⟨day, after, weekdays⟩ : ∃ day, last < day ∧ weekday day < 5 := by
    by_cases tomorrow : weekday (last + 1) < 5
    · exact ⟨last + 1, by omega, tomorrow⟩
    · refine ⟨last + 3, by omega, ?_⟩
      unfold weekday at tomorrow ⊢
      omega
  refine ⟨day, by omega, ?_, ?_, free day after⟩
  · unfold IsSaturday
    omega
  · unfold IsSunday
    omega

theorem exists_firstOpen (holidayDays : List Int) (start : Int) :
    ∃ day, IsLeast {x | start ≤ x ∧ Open holidayDays x} day := by
  obtain ⟨day, least, lower⟩ := Int.exists_least_of_bdd
    ⟨start, fun x (member : start ≤ x ∧ Open holidayDays x) => member.1⟩
    (exists_open holidayDays start)
  exact ⟨day, least, fun x member => lower x member⟩

/-! ### The loops -/

/-- One turn of the loop of `alpha_next_trading_session_start`. -/
def weekendTurn (day : Int) : Turn Int Int :=
  if isWeekend day then .again (day + 1) else .leave day

/-- One turn of the loop of `alpha_next_trading_session_start_holiday_aware`, with the return
after it. -/
def holidayAwareTurn (holidayDays : List Int) (calendarMaxDay day : Int) : Turn Int Int :=
  if isWeekend day || isHoliday day holidayDays then
    if day > calendarMaxDay then .leave calendarInsufficient else .again (day + 1)
  else if day > calendarMaxDay then .leave calendarInsufficient
  else .leave (sessionStartEpoch day)

section HolidayAware

variable {holidayDays : List Int} (ascending : holidayDays.Pairwise (· ≤ ·))
  (calendarMaxDay : Int) {start day : Int}
  (least : IsLeast {x | start ≤ x ∧ Open holidayDays x} day)
include ascending least

/-- The days before the first open one keep the loop going, as far as the coverage reaches. -/
private theorem holidayAwareTurn_before (x : Int) (after : start ≤ x) (before : x < day)
    (covered : x ≤ calendarMaxDay) :
    holidayAwareTurn holidayDays calendarMaxDay x = .again (x + 1) := by
  have closed : (isWeekend x || isHoliday x holidayDays) = true :=
    (closed_iff x holidayDays ascending).mpr fun isOpen => by
      have := least.2 ⟨after, isOpen⟩
      omega
  unfold holidayAwareTurn
  rw [if_pos closed, if_neg (by omega)]

/-- The loop is left with the start of the first open day, or with the sentinel if the calendar
does not cover that day. -/
theorem holidayAware_leaves :
    Leaves (holidayAwareTurn holidayDays calendarMaxDay) start
      (if day ≤ calendarMaxDay then 86400 * day else calendarInsufficient) := by
  split
  next covered =>
    refine leaves_of_search start day least.1.1 (fun x after before =>
      holidayAwareTurn_before ascending calendarMaxDay least x after before (by omega)) ?_
    have opened : ¬ (isWeekend day || isHoliday day holidayDays) = true := fun closed =>
      (closed_iff day holidayDays ascending).mp closed least.1.2
    unfold holidayAwareTurn
    rw [if_neg opened, if_neg (by omega), sessionStartEpoch_eq]
  next beyond =>
    -- the loop passes the end of the coverage first
    refine leaves_of_search start (max start (calendarMaxDay + 1)) (le_max_left _ _)
      (fun x after before => holidayAwareTurn_before ascending calendarMaxDay least x after
        (by omega) (by omega)) ?_
    unfold holidayAwareTurn
    have past : max start (calendarMaxDay + 1) > calendarMaxDay := by omega
    rw [if_pos past, if_pos past, ite_self]

theorem sessionFrom_spec : sessionFrom holidayDays calendarMaxDay start =
    if day ≤ calendarMaxDay then 86400 * day else calendarInsufficient := by
  -- the function unrolls as the turns do, so it has the value the loop is left with
  refine (holidayAware_leaves ascending calendarMaxDay least).value
    (sessionFrom holidayDays calendarMaxDay) fun day => ?_
  rw [sessionFrom_eq]
  unfold holidayAwareTurn
  split
  · split <;> rfl
  · split <;> rfl

end HolidayAware

/-- An answer other than the sentinel is the first open day, within coverage. -/
theorem sessionFrom_least (holidayDays : List Int) (ascending : holidayDays.Pairwise (· ≤ ·))
    (calendarMaxDay start : Int)
    (answered : sessionFrom holidayDays calendarMaxDay start ≠ calendarInsufficient) :
    ∃ day, sessionFrom holidayDays calendarMaxDay start = 86400 * day ∧ day ≤ calendarMaxDay ∧
      IsLeast {x | start ≤ x ∧ Open holidayDays x} day := by
  obtain ⟨day, least⟩ := exists_firstOpen holidayDays start
  have value := sessionFrom_spec ascending calendarMaxDay least
  split at value
  next covered => exact ⟨day, value, covered, least⟩
  · exact absurd value answered

/-! ### Weekends only -/

/-- Without holidays the first open day is where the weekend loop is left. -/
theorem skipWeekend_spec {start day : Int} (least : IsLeast {x | start ≤ x ∧ Open [] x} day) :
    skipWeekend start = day := by
  -- without holidays, closed means a weekend
  have turn : ∀ x, isWeekend x = true ↔ ¬ Open [] x := by
    intro x
    simpa [isHoliday] using closed_iff x [] List.Pairwise.nil
  have leaves : Leaves weekendTurn start day := by
    refine leaves_of_search start day least.1.1 (fun x after before => ?_) ?_
    · refine if_pos ((turn x).mpr fun isOpen => ?_)
      have := least.2 ⟨after, isOpen⟩
      omega
    · exact if_neg fun closed => (turn day).mp closed least.1.2
  refine leaves.value skipWeekend fun x => ?_
  rw [skipWeekend]
  unfold weekendTurn
  split <;> rfl

namespace Reference

/-- The loop of `_next_session_epoch` from `day` on. -/
def skipWeekend (day : Int) : Int := if (day + 3) % 7 ≥ 5 then skipWeekend (day + 1) else day
termination_by ((7 - (day + 3) % 7) % 7).toNat
decreasing_by omega

/-- `_next_session_epoch`. -/
def nextSessionEpoch (fromEpoch : Int) : Int :=
  let day := skipWeekend ((fromEpoch + 32400) / 86400 + 1)
  day * 86400 + 9 * 3600 - 32400

end Reference

/-- Both languages skip the same days. -/
theorem skipWeekend_reference (day : Int) : skipWeekend day = Reference.skipWeekend day := by
  -- Python counts from Monday, C from the epoch day, a Thursday
  have same : ∀ day, isWeekend day = true ↔ (day + 3) % 7 ≥ 5 := by
    intro day
    rw [isWeekend_iff]
    unfold IsSaturday IsSunday weekday
    omega
  induction day using skipWeekend.induct with
  | case1 day weekend ih =>
    rw [skipWeekend, Reference.skipWeekend, if_pos weekend, if_pos ((same day).mp weekend), ih]
  | case2 day working =>
    rw [skipWeekend, Reference.skipWeekend, if_neg working,
      if_neg fun late => working ((same day).mpr late)]

/-! ### The functions -/

/-- The next session of both functions: the loop of the holiday-aware one is left with the start
of the first open day after the day in Seoul, if the calendar covers it, and with the sentinel
otherwise, which no session start is; without holidays and with enough coverage the two agree,
and the weekend-only one agrees with the reference. -/
theorem next_session_start (fromEpoch : Int) (holidayDays : List Int)
    (ascending : holidayDays.Pairwise (· ≤ ·)) (calendarMaxDay : Int) :
    (∃ day, IsLeast {x | (fromEpoch + 32400) / 86400 < x ∧ Open holidayDays x} day ∧
      Leaves (holidayAwareTurn holidayDays calendarMaxDay) (kstDayOf fromEpoch + 1)
        (alphaNextTradingSessionStartHolidayAware fromEpoch holidayDays calendarMaxDay) ∧
      alphaNextTradingSessionStartHolidayAware fromEpoch holidayDays calendarMaxDay =
        if day ≤ calendarMaxDay then 86400 * day else calendarInsufficient) ∧
      (∀ day, sessionStartEpoch day = 86400 * day ∧
        sessionStartEpoch day ≠ calendarInsufficient) ∧
      (∀ day, IsLeast {x | (fromEpoch + 32400) / 86400 < x ∧ Open [] x} day →
        day ≤ calendarMaxDay →
        alphaNextTradingSessionStartHolidayAware fromEpoch [] calendarMaxDay =
          alphaNextTradingSessionStart fromEpoch) ∧
      alphaNextTradingSessionStart fromEpoch = Reference.nextSessionEpoch fromEpoch := by
  have start : kstDayOf fromEpoch + 1 = (fromEpoch + 32400) / 86400 + 1 := by rw [kstDayOf_eq]
  refine ⟨?_, fun day => ⟨sessionStartEpoch_eq day, ?_⟩, ?_, ?_⟩
  · obtain ⟨day, least⟩ := exists_firstOpen holidayDays (kstDayOf fromEpoch + 1)
    have value := sessionFrom_spec ascending calendarMaxDay least
    refine ⟨day, ?_, ?_, value⟩
    · rw [start] at least
      exact least
    · rw [alphaNextTradingSessionStartHolidayAware, value]
      exact holidayAware_leaves ascending calendarMaxDay least
  · rw [sessionStartEpoch_eq, calendarInsufficient]
    omega
  · intro day least covered
    have first : IsLeast {x | kstDayOf fromEpoch + 1 ≤ x ∧ Open [] x} day := by
      rw [start]
      exact least
    rw [alphaNextTradingSessionStartHolidayAware, alphaNextTradingSessionStart,
      sessionFrom_spec List.Pairwise.nil calendarMaxDay first, if_pos covered,
      skipWeekend_spec first, sessionStartEpoch_eq]
  · rw [alphaNextTradingSessionStart, start, skipWeekend_reference]
    rfl

/-- Thursday, January 1 of 1970: the Friday is a holiday, so the answer is Monday, day 4. -/
theorem next_session_start_friday_holiday :
    alphaNextTradingSessionStartHolidayAware 0 [1] 10 = 345600 ∧
      ∃ day, IsLeast {x | ((0 : Int) + 32400) / 86400 < x ∧ Open [1] x} day ∧
        Leaves (holidayAwareTurn [1] 10) (kstDayOf 0 + 1)
          (alphaNextTradingSessionStartHolidayAware 0 [1] 10) ∧
        alphaNextTradingSessionStartHolidayAware 0 [1] 10 =
          if day ≤ 10 then 86400 * day else calendarInsufficient :=
  ⟨by decide, (next_session_start 0 [1] (List.pairwise_singleton _ _) 10).1⟩

end AlphaPipeline.MarketHours

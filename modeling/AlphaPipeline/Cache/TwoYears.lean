import AlphaPipeline.Cache.NextSession

/-!
# One calendar or two

`alpha_redis_set_breaker_lockout_next_session` searches with the calendar of the current year
and, only when that one does not reach far enough, with the next year's appended. What loads is
sorted and stays within its year, so the longer array is fit for the search too, and the first
stage never answers anything else than the second would.
-/
namespace AlphaPipeline.RedisCache

open Interaction Interaction.Prog Redis MarketHours Gregorian

/-- The arrays handed to the search for two loaded calendars: the first one alone, and both when
they fit. -/
def handedCalendars (holidays nextHolidays : List Int) : List (List Int) :=
  holidays ::
    if holidays.length + nextHolidays.length > maxHolidays then [] else [holidays ++ nextHolidays]

/-- What the search needs of its array: room, order, and that the early exit of `is_holiday`
loses nothing. -/
structure FitForSearch (year : Int) (days : List Int) : Prop where
  fits : days.length ≤ maxHolidays
  ascending : days.Pairwise (· < ·)
  within : ∀ day ∈ days, daysFromCivil year 1 1 ≤ day ∧ day ≤ daysFromCivil (year + 1) 12 31
  scanned : ∀ day, isHoliday day days = true ↔ day ∈ days

/-- The answer of the search for one of the arrays handed to it. -/
def HandedAnswer (nowEpoch expiry : Int) : Prop :=
  let year := civilYearFromDays ((nowEpoch + kstOffsetSeconds).tdiv secondsPerDay)
  ∃ text holidays, parseHolidayJson (cString text) year = some holidays ∧
    ((expiry ≠ calendarInsufficient ∧ expiry =
      alphaNextTradingSessionStartHolidayAware nowEpoch holidays (daysFromCivil year 12 31)) ∨
    ∃ nextText nextHolidays, parseHolidayJson (cString nextText) (year + 1) = some nextHolidays ∧
      holidays ++ nextHolidays ∈ handedCalendars holidays nextHolidays ∧
      expiry = alphaNextTradingSessionStartHolidayAware nowEpoch (holidays ++ nextHolidays)
        (daysFromCivil (year + 1) 12 31))

/-! ### What is handed over -/

/-- A loaded calendar comes from a text, whatever the server answers. -/
private theorem loadCalendar_text (year : Int) :
    wp (fun _ => True) (fun _ _ ghost => ghost)
      (fun result (_ : Unit) => ∀ days, result = .ok days →
        ∃ text, parseHolidayJson (cString text) year = some days)
      (loadCalendar year) () := by
  simp only [loadCalendar]
  split
  · simp
  · simp only [wp_bind, wp_ask, true_and]
    intro reply
    split
    next bytes =>
      split
      next days parsed =>
        simp only [wp_bind, wp_ask, true_and]
        intro ttl
        split
        · simp only [wp_pure]
          -- only a key that expires and text that parses make a calendar
          intro loaded same
          split at same
          · cases same
            exact ⟨bytes, parsed⟩
          · cases same
        · simp
      · simp
    · simp

/-- Whatever the server answers, the expiry is the answer for an array handed over. -/
theorem nextSessionExpiry_handed (nowEpoch : Int) :
    wp (fun _ => True) (fun _ _ ghost => ghost)
      (fun result (_ : Unit) => ∀ expiry, result = .ok expiry → HandedAnswer nowEpoch expiry)
      (nextSessionExpiry nowEpoch) () := by
  simp only [nextSessionExpiry, wp_bind]
  refine wp_mono _ _ ?_ _ _ (loadCalendar_text _)
  rintro (status | holidays) _ loaded
  · simp
  · obtain ⟨text, parsed⟩ := loaded holidays rfl
    simp only
    split
    next enough =>
      simp only [wp_pure]
      rintro expiry same
      cases same
      exact ⟨text, holidays, parsed, .inl ⟨enough, rfl⟩⟩
    · simp only [wp_bind]
      refine wp_mono _ _ ?_ _ _ (loadCalendar_text _)
      rintro (status | nextHolidays) _ loadedNext
      · simp
      · obtain ⟨nextText, parsedNext⟩ := loadedNext nextHolidays rfl
        simp only
        split
        · simp
        next room =>
          simp only [wp_pure]
          rintro expiry same
          cases same
          refine ⟨text, holidays, parsed, .inr ⟨nextText, nextHolidays, parsedNext, ?_, rfl⟩⟩
          rw [handedCalendars, if_neg room]
          exact List.mem_cons_of_mem _ List.mem_cons_self

/-! ### Two calendars that load -/

section Loaded

variable {year : Int} {holidays nextHolidays : List Int}
  (ascending : holidays.Pairwise (· < ·)) (own : ∀ day ∈ holidays, InYear year day)
  (ascendingNext : nextHolidays.Pairwise (· < ·))
  (ownNext : ∀ day ∈ nextHolidays, InYear (year + 1) day)
include ascending own ascendingNext ownNext

theorem handedCalendars_fit (fits : holidays.length ≤ maxHolidays) (days : List Int)
    (handed : days ∈ handedCalendars holidays nextHolidays) : FitForSearch year days := by
  have both := append_ascending year holidays nextHolidays ascending ascendingNext own ownNext
  have next : yearStart (year + 1) < yearStart (year + 1 + 1) := yearStart_lt_succ _
  have this : yearStart year < yearStart (year + 1) := yearStart_lt_succ _
  -- the array is the first calendar, or both, which follow each other
  have sorted : days.Pairwise (· < ·) ∧ days.length ≤ maxHolidays ∧
      ∀ day ∈ days, yearStart year ≤ day ∧ day < yearStart (year + 1 + 1) := by
    rcases List.mem_cons.mp handed with rfl | longer
    · refine ⟨ascending, fits, fun day member => ?_⟩
      have := own day member
      unfold InYear at this
      omega
    · split at longer
      · cases longer
      next room =>
        rw [List.mem_singleton.mp longer]
        refine ⟨both, by rw [List.length_append]; omega, fun day member => ?_⟩
        rcases List.mem_append.mp member with first | second
        · have := own day first
          unfold InYear at this
          omega
        · have := ownNext day second
          unfold InYear at this
          omega
  refine ⟨sorted.2.1, sorted.1, fun day member => ?_, fun day => ?_⟩
  · rw [daysFromCivil_january, daysFromCivil_december]
    have := sorted.2.2 day member
    omega
  · exact isHoliday_iff day days (sorted.1.imp le_of_lt)

/-- A day that the first calendar gives is the day both give. -/
theorem one_year_suffices (nowEpoch : Int)
    (answered : alphaNextTradingSessionStartHolidayAware nowEpoch holidays
      (daysFromCivil year 12 31) ≠ calendarInsufficient) :
    alphaNextTradingSessionStartHolidayAware nowEpoch holidays (daysFromCivil year 12 31) =
      alphaNextTradingSessionStartHolidayAware nowEpoch (holidays ++ nextHolidays)
        (daysFromCivil (year + 1) 12 31) := by
  rw [daysFromCivil_december] at answered
  rw [daysFromCivil_december, daysFromCivil_december]
  obtain ⟨day, value, covered, ⟨after, isOpen⟩, lower⟩ := sessionFrom_least holidays
    (ascending.imp le_of_lt) _ _ answered
  have both := append_ascending year holidays nextHolidays ascending ascendingNext own ownNext
  have next : yearStart (year + 1) < yearStart (year + 1 + 1) := yearStart_lt_succ _
  -- more holidays close no day up to the one that was found
  have least : IsLeast {x | kstDayOf nowEpoch + 1 ≤ x ∧ Open (holidays ++ nextHolidays) x} day := by
    refine ⟨⟨after, isOpen.1, isOpen.2.1, fun listed => ?_⟩, fun x member => lower ⟨member.1, ?_⟩⟩
    · rcases List.mem_append.mp listed with first | second
      · exact isOpen.2.2 first
      · -- the next year's holidays come later
        have := (ownNext day second).1
        omega
    · obtain ⟨saturday, sunday, unlisted⟩ := member.2
      exact ⟨saturday, sunday, fun first => unlisted (List.mem_append_left _ first)⟩
  rw [alphaNextTradingSessionStartHolidayAware, alphaNextTradingSessionStartHolidayAware, value,
    sessionFrom_spec (both.imp le_of_lt) _ least, if_pos (by omega)]

end Loaded

/-- For every two texts that load as the calendars of a year and the next, both `int`: the arrays
handed to the search are fit for it, and an answer from the first year alone is the answer from
both. Whatever the server does, every expiry is an answer for such an array. -/
theorem two_year_calendar (year : Int) (low : -2147483648 ≤ year) (high : year + 1 ≤ 2147483647)
    (text nextText : Text) (holidays nextHolidays : List Int)
    (loads : parseHolidayJson (cString text) year = some holidays)
    (loadsNext : parseHolidayJson (cString nextText) (year + 1) = some nextHolidays) :
    (∀ days ∈ handedCalendars holidays nextHolidays, FitForSearch year days) ∧
      (∀ nowEpoch, alphaNextTradingSessionStartHolidayAware nowEpoch holidays
          (daysFromCivil year 12 31) ≠ calendarInsufficient →
        alphaNextTradingSessionStartHolidayAware nowEpoch holidays (daysFromCivil year 12 31) =
          alphaNextTradingSessionStartHolidayAware nowEpoch (holidays ++ nextHolidays)
            (daysFromCivil (year + 1) 12 31)) ∧
      ∀ nowEpoch, wp (fun _ => True) (fun _ _ ghost => ghost)
        (fun result (_ : Unit) => ∀ expiry, result = .ok expiry → HandedAnswer nowEpoch expiry)
        (nextSessionExpiry nowEpoch) () := by
  obtain ⟨ascending, own, fits⟩ :=
    parseHolidayJson_spec (by omega) (by omega) _ holidays loads
  obtain ⟨ascendingNext, ownNext, _⟩ :=
    parseHolidayJson_spec (by omega) (by omega) _ nextHolidays loadsNext
  exact ⟨handedCalendars_fit ascending own ascendingNext ownNext fits,
    one_year_suffices ascending own ascendingNext ownNext, nextSessionExpiry_handed⟩

/-- New Year's Eve of 2026 and New Year's Day of 2027. -/
theorem two_year_calendar_turn_of_year :
    let eve := "[\"2026-12-31\"]".toList
    let day := "[\"2027-01-01\"]".toList
    parseHolidayJson (cString eve) 2026 = some [20818] ∧
      parseHolidayJson (cString day) 2027 = some [20819] ∧
      ∀ days ∈ handedCalendars [20818] [20819], FitForSearch 2026 days := by
  intro eve day
  have first : parseHolidayJson (cString eve) 2026 = some [20818] := by decide +kernel
  have second : parseHolidayJson (cString day) 2027 = some [20819] := by decide +kernel
  exact ⟨first, second, (two_year_calendar 2026 (by decide) (by decide) eve day _ _ first second).1⟩

end AlphaPipeline.RedisCache

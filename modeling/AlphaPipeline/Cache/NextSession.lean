import AlphaPipeline.Calendar.Sessions
import AlphaPipeline.Cache.CalendarText
import AlphaPipeline.Cache.Lockout

/-!
# The lockout until the next session

`alpha_redis_set_breaker_lockout_next_session` against one server: what a successful call
stores, and that an unsuccessful one stores nothing. Each function gets one lemma about a
run of it; its callers use that lemma and never look inside.
-/
namespace AlphaPipeline.RedisCache

open Interaction Interaction.Prog Redis MarketHours Gregorian

/-! ### The stored calendars -/

section OneClient

variable (turns : Nat → Turn)

/-- The days parsed from the stored calendar of a year. -/
def calendarDays (store : Store) (year : Int) : Option (List Int) :=
  (store (holidaysKey year)).bind fun entry => parseHolidayJson (cString entry.value) year

/-- A calendar that `GET` finds and that parses is the stored one. -/
private theorem calendarDays_of_get (year : Int) (turn : Turn) (store : Store) (bytes : Text)
    (days : List Int) (reply : (meet turn (.get (holidaysKey year)) store).1 = some (.string bytes))
    (parsed : parseHolidayJson (cString bytes) year = some days) :
    calendarDays store year = some days := by
  obtain ⟨answer, _⟩ := meet_reply _ _ _ _ reply (by simp)
  simp only [exec] at answer
  split at answer
  · cases answer
  next entry visible =>
    have stored : store (holidaysKey year) = some entry :=
      (Option.filter_eq_some_iff.mp visible).1
    cases answer
    simp [calendarDays, stored, parsed]

/-- Loading a calendar reads only, and succeeds only with the days stored for the year. -/
theorem loadCalendar_run (year : Int) (s after : Session) (result : Except AlphaErr (List Int))
    (returned : run (serve turns) (loadCalendar year) s = (result, after)) :
    after.store = s.store ∧ s.sent ≤ after.sent ∧
      ((∃ days, result = .ok days ∧ calendarDays s.store year = some days) ∨
        ∃ status, status ≠ .ok ∧ result = .error status) := by
  simp only [loadCalendar] at returned
  split at returned
  · cases returned
    exact ⟨rfl, le_rfl, Or.inr ⟨.range, by decide, rfl⟩⟩
  · simp only [run_bind, run_ask, serve_reply, serve_get] at returned
    split at returned
    next bytes reply =>
      split at returned
      next days parsed =>
        have found := calendarDays_of_get year _ _ bytes days reply parsed
        simp only [run_bind, run_ask, serve_reply, serve_ttl] at returned
        split at returned
        next ttl _ =>
          cases returned
          refine ⟨rfl, by simp only; omega, ?_⟩
          split
          -- the days are believed only when the key also has a positive time to live
          · exact Or.inl ⟨days, rfl, found⟩
          · exact Or.inr ⟨.io, by decide, rfl⟩
        · cases returned
          exact ⟨rfl, by simp only; omega, Or.inr ⟨.io, by decide, rfl⟩⟩
      · cases returned
        exact ⟨rfl, by simp only; omega, Or.inr ⟨.io, by decide, rfl⟩⟩
    · cases returned
      exact ⟨rfl, by simp only; omega, Or.inr ⟨.io, by decide, rfl⟩⟩

/-- The expiry comes from the stored calendar of the current year, or from it and the next. -/
def Chosen (store : Store) (nowEpoch expiry : Int) : Prop :=
  let year := civilYearFromDays ((nowEpoch + kstOffsetSeconds).tdiv secondsPerDay)
  ∃ holidays, calendarDays store year = some holidays ∧
    (expiry = alphaNextTradingSessionStartHolidayAware nowEpoch holidays
      (daysFromCivil year 12 31) ∨
    ∃ nextHolidays, calendarDays store (year + 1) = some nextHolidays ∧
      expiry = alphaNextTradingSessionStartHolidayAware nowEpoch (holidays ++ nextHolidays)
        (daysFromCivil (year + 1) 12 31))

theorem nextSessionExpiry_run (nowEpoch : Int) (s after : Session) (result : Except AlphaErr Int)
    (returned : run (serve turns) (nextSessionExpiry nowEpoch) s = (result, after)) :
    after.store = s.store ∧ s.sent ≤ after.sent ∧
      ((∃ expiry, result = .ok expiry ∧ Chosen s.store nowEpoch expiry) ∨
        ∃ status, status ≠ .ok ∧ result = .error status) := by
  simp only [nextSessionExpiry, run_bind] at returned
  obtain ⟨year, hYear⟩ : ∃ year,
      year = civilYearFromDays ((nowEpoch + kstOffsetSeconds).tdiv secondsPerDay) := ⟨_, rfl⟩
  rw [← hYear] at returned
  obtain ⟨loaded, middle, first⟩ : ∃ loaded middle,
      run (serve turns) (loadCalendar year) s = (loaded, middle) := ⟨_, _, rfl⟩
  rw [first] at returned
  obtain ⟨kept, grew, outcome⟩ := loadCalendar_run turns year s middle loaded first
  rcases outcome with ⟨holidays, rfl, stored⟩ | ⟨status, bad, rfl⟩
  · simp only at returned
    split at returned
    next enough =>
      cases returned
      refine ⟨kept, grew, Or.inl ⟨_, rfl, ?_⟩⟩
      exact ⟨holidays, hYear ▸ stored, Or.inl (by rw [hYear])⟩
    -- no session before the new year: the second calendar is loaded and the search begun again
    next insufficient =>
      simp only [run_bind] at returned
      obtain ⟨loadedNext, last, second⟩ : ∃ loadedNext last,
          run (serve turns) (loadCalendar (year + 1)) middle = (loadedNext, last) := ⟨_, _, rfl⟩
      rw [second] at returned
      obtain ⟨keptNext, grewNext, outcome⟩ :=
        loadCalendar_run turns (year + 1) middle last loadedNext second
      rcases outcome with ⟨nextHolidays, rfl, storedNext⟩ | ⟨status, bad, rfl⟩
      · simp only at returned
        split at returned
        · cases returned
          exact ⟨keptNext.trans kept, grew.trans grewNext, Or.inr ⟨.io, by decide, rfl⟩⟩
        · cases returned
          refine ⟨keptNext.trans kept, grew.trans grewNext, Or.inl ⟨_, rfl, ?_⟩⟩
          rw [kept] at storedNext
          exact ⟨holidays, hYear ▸ stored, Or.inr ⟨nextHolidays, hYear ▸ storedNext,
            by rw [hYear]⟩⟩
      · cases returned
        exact ⟨keptNext.trans kept, grew.trans grewNext, Or.inr ⟨.io, by decide, rfl⟩⟩
  · cases returned
    exact ⟨kept, grew, Or.inr ⟨status, bad, rfl⟩⟩

end OneClient

/-! ### Which day is chosen -/

/-- Neither a Saturday nor a Sunday, nor listed in the stored calendar of its own year. -/
def TradingDay (store : Store) (day : Int) : Prop :=
  ¬ IsSaturday day ∧ ¬ IsSunday day ∧
    ∀ year days, InYear year day → calendarDays store year = some days → day ∉ days

/-- `listed` stands for the stored calendars on the days after `kstDay` up to `last`: each of
these days has a stored calendar, and is in it exactly when it is listed. -/
def Covers (store : Store) (kstDay last : Int) (listed : List Int) : Prop :=
  ∀ x, kstDay < x → x ≤ last → ∃ year days, InYear year x ∧ calendarDays store year = some days ∧
    (x ∈ days ↔ x ∈ listed)

theorem tradingDay_iff_open (store : Store) (kstDay last : Int) (listed : List Int)
    (covers : Covers store kstDay last listed) (x : Int) (after : kstDay < x) (within : x ≤ last) :
    TradingDay store x ↔ Open listed x := by
  obtain ⟨year, days, inYear, stored, same⟩ := covers x after within
  unfold TradingDay Open
  rw [← same]
  constructor
  · rintro ⟨saturday, sunday, absent⟩
    exact ⟨saturday, sunday, absent year days inYear stored⟩
  · rintro ⟨saturday, sunday, absent⟩
    refine ⟨saturday, sunday, fun otherYear otherDays inOther otherStored => ?_⟩
    -- a day lies in one year, so no other calendar speaks about it
    rw [inOther.unique inYear, stored] at otherStored
    cases otherStored
    exact absent

/-- The first open day of a covering list is the first trading day. -/
theorem isLeast_tradingDay (store : Store) (kstDay last day : Int) (listed : List Int)
    (covers : Covers store kstDay last listed) (within : day ≤ last)
    (least : IsLeast {x | kstDay + 1 ≤ x ∧ Open listed x} day) :
    IsLeast {x | kstDay < x ∧ TradingDay store x} day := by
  obtain ⟨⟨after, isOpen⟩, lower⟩ := least
  refine ⟨⟨by omega, ?_⟩, ?_⟩
  · exact (tradingDay_iff_open store kstDay last listed covers day (by omega) within).mpr isOpen
  · rintro x ⟨later, trades⟩
    -- a trading day before the chosen one is covered too, and would be open
    by_contra before
    have covered := tradingDay_iff_open store kstDay last listed covers x later (by omega)
    exact before (lower ⟨by omega, covered.mp trades⟩)

/-- The calendar of the year covers the rest of the year. -/
theorem covers_one (store : Store) (year kstDay : Int) (holidays : List Int)
    (inYear : InYear year kstDay) (stored : calendarDays store year = some holidays) :
    Covers store kstDay (yearStart (year + 1) - 1) holidays := by
  intro x after within
  exact ⟨year, holidays, ⟨by have := inYear.1; omega, by omega⟩, stored, Iff.rfl⟩

/-- Two calendars in a row cover the rest of the year and all of the next. -/
theorem covers_two (store : Store) (year kstDay : Int) (holidays nextHolidays : List Int)
    (inYear : InYear year kstDay) (stored : calendarDays store year = some holidays)
    (storedNext : calendarDays store (year + 1) = some nextHolidays)
    (own : ∀ d ∈ holidays, InYear year d) (ownNext : ∀ d ∈ nextHolidays, InYear (year + 1) d) :
    Covers store kstDay (yearStart (year + 2) - 1) (holidays ++ nextHolidays) := by
  intro x after within
  by_cases same : x < yearStart (year + 1)
  · have inThis : InYear year x := ⟨by have := inYear.1; omega, same⟩
    refine ⟨year, holidays, inThis, stored, ?_⟩
    have absent : x ∉ nextHolidays := by
      intro member
      have impossible := inThis.unique (ownNext x member)
      omega
    simp [absent]
  · have inNext : InYear (year + 1) x :=
      ⟨by omega, by rw [show year + 1 + 1 = year + 2 by ring]; omega⟩
    refine ⟨year + 1, nextHolidays, inNext, storedNext, ?_⟩
    have absent : x ∉ holidays := by
      intro member
      have impossible := inNext.unique (own x member)
      omega
    simp [absent]

/-- Appending the next year's days keeps the list ascending. -/
theorem append_ascending (year : Int) (holidays nextHolidays : List Int)
    (ascending : holidays.Pairwise (· < ·)) (ascendingNext : nextHolidays.Pairwise (· < ·))
    (own : ∀ d ∈ holidays, InYear year d) (ownNext : ∀ d ∈ nextHolidays, InYear (year + 1) d) :
    (holidays ++ nextHolidays).Pairwise (· < ·) := by
  refine List.pairwise_append.mpr ⟨ascending, ascendingNext, fun a inA b inB => ?_⟩
  have upper := (own a inA).2
  have lower := (ownNext b inB).1
  omega

private theorem year_range (year kstDay : Int) (low : 0 ≤ kstDay) (high : kstDay ≤ 200000000000)
    (inYear : InYear year kstDay) : 1969 ≤ year ∧ year ≤ 1000000000 := by
  obtain ⟨started, ending⟩ := inYear
  unfold yearStart at started ending
  omega

/-- A chosen expiry is the start of the first trading day after the event's day in Seoul, and
the calendar of that day's year was stored. -/
theorem chosen_isLeast (store : Store) (nowEpoch expiry : Int) (low : -32400 ≤ nowEpoch)
    (high : nowEpoch ≤ 10000000000000000) (chosen : Chosen store nowEpoch expiry)
    (answered : expiry ≠ calendarInsufficient) :
    ∃ day, expiry = 86400 * day ∧
      IsLeast {x | (nowEpoch + 32400) / 86400 < x ∧ TradingDay store x} day ∧
      ∃ year days, InYear year day ∧ calendarDays store year = some days := by
  obtain ⟨kstDay, hKst⟩ : ∃ kstDay, kstDay = (nowEpoch + 32400) / 86400 := ⟨_, rfl⟩
  have sameDay : (nowEpoch + kstOffsetSeconds).tdiv secondsPerDay = kstDay := by
    rw [hKst]
    exact Int.tdiv_eq_ediv_of_nonneg (by unfold kstOffsetSeconds; omega)
  have start : kstDayOf nowEpoch + 1 = kstDay + 1 := by rw [kstDayOf_eq, hKst]
  have inYear := civilYearFromDays_inYear kstDay (by omega) (by omega)
  obtain ⟨yearLow, yearHigh⟩ := year_range _ kstDay (by omega) (by omega) inYear
  obtain ⟨holidays, stored, source⟩ := chosen
  rw [sameDay] at stored source
  generalize civilYearFromDays kstDay = year at *
  obtain ⟨entry, present, parsed⟩ := Option.bind_eq_some_iff.mp stored
  obtain ⟨ascending, own, _⟩ :=
    parseHolidayJson_spec (by omega) (by omega) _ holidays parsed
  rw [← hKst]
  rcases source with one | ⟨nextHolidays, storedNext, two⟩
  · rw [daysFromCivil_december, alphaNextTradingSessionStartHolidayAware, start] at one
    obtain ⟨day, value, within, least⟩ := sessionFrom_least holidays (ascending.imp le_of_lt)
      (yearStart (year + 1) - 1) (kstDay + 1) (one ▸ answered)
    have covers := covers_one store year kstDay holidays inYear stored
    obtain ⟨y, days, inY, storedY, _⟩ := covers day (by have := least.1.1; omega) within
    exact ⟨day, one.trans value, isLeast_tradingDay store kstDay _ day holidays covers within least,
      y, days, inY, storedY⟩
  · rw [daysFromCivil_december, alphaNextTradingSessionStartHolidayAware, start,
      show year + 1 + 1 = year + 2 by ring] at two
    obtain ⟨entryNext, presentNext, parsedNext⟩ := Option.bind_eq_some_iff.mp storedNext
    obtain ⟨ascendingNext, ownNext, _⟩ :=
      parseHolidayJson_spec (by omega) (by omega) _ nextHolidays parsedNext
    have sorted := append_ascending year holidays nextHolidays ascending ascendingNext own ownNext
    obtain ⟨day, value, within, least⟩ := sessionFrom_least (holidays ++ nextHolidays)
      (sorted.imp le_of_lt) (yearStart (year + 2) - 1) (kstDay + 1) (two ▸ answered)
    have covers :=
      covers_two store year kstDay holidays nextHolidays inYear stored storedNext own ownNext
    obtain ⟨y, days, inY, storedY, _⟩ := covers day (by have := least.1.1; omega) within
    exact ⟨day, two.trans value, isLeast_tradingDay store kstDay _ day _ covers within least,
      y, days, inY, storedY⟩

/-! ### The whole call -/

/-- The lockout is stored under the scope's key, and reported, until the start of the first
trading day after the event's day; no other key changes. The expiry is later than the server
time at every command before the `SET` itself. -/
def LocksUntilNextSession (turns : Nat → Turn) (store : Store) (scope : Option Text)
    (nowEpoch : Int) (expiresAtOut out : Option Int) (after : Session) : Prop :=
  ∃ text expiry day, scope = some text ∧ expiry = 86400 * day ∧
    IsLeast {x | (nowEpoch + 32400) / 86400 < x ∧ TradingDay store x} day ∧
    (∃ year days, InYear year day ∧ calendarDays store year = some days) ∧
    after.store = Function.update store (lockoutPrefix ++ text)
      (some ⟨printDecimal expiry, some (1000 * expiry)⟩) ∧
    out = expiresAtOut.map (fun _ => expiry) ∧
    2 ≤ after.sent ∧ ∀ i, i + 1 < after.sent → (turns i).clock < 1000 * expiry

private theorem nextSession_outcome (printer : Printer) (redis : Option AlphaRedis)
    (scope : Option Text) (printable : ∀ text ∈ scope, text.length + 18 ≤ intMax)
    (nowEpoch : Int) (expiresAtOut : Option Int) (store : Store) (turns : Nat → Turn)
    (applied : ∀ i, (turns i).fate ≠ .unheard) (forward : Monotone fun i => (turns i).clock)
    (status : AlphaErr) (out : Option Int) (after : Session)
    (returned : run (serve turns) (alphaRedisSetBreakerLockoutNextSession printer redis scope
      nowEpoch expiresAtOut) ⟨store, 0⟩ = ((status, out), after)) :
    (status ≠ .ok ∧ after.store = store ∧ out = expiresAtOut) ∨
    (status = .ok ∧ LocksUntilNextSession turns store scope nowEpoch expiresAtOut out after) := by
  have failed (err : AlphaErr) (bad : err ≠ .ok) (session : Session) (kept : session.store = store)
      (same : (((err, expiresAtOut), session) : (AlphaErr × Option Int) × Session) =
        ((status, out), after)) :
      status ≠ .ok ∧ after.store = store ∧ out = expiresAtOut := by
    cases same
    exact ⟨bad, kept, rfl⟩
  unfold alphaRedisSetBreakerLockoutNextSession at returned
  split at returned
  next redis text =>
    have printed := breakerKey_printable printer text (printable text rfl)
    simp only [run_bind, redisServerTime_run] at returned
    split at returned
    next err read =>
      left
      exact failed err (by rw [serverTimeOf_error _ _ read]; decide) _ rfl returned
    next serverNow read =>
      have time := serverTime_meet _ _ _ read
      split at returned
      · exact Or.inl (failed _ (by decide) _ rfl returned)
      next window =>
        simp only [run_bind] at returned
        obtain ⟨chosen, middle, computed⟩ : ∃ chosen middle, run (serve turns)
            (nextSessionExpiry nowEpoch) ⟨store, 0 + 1⟩ = (chosen, middle) := ⟨_, _, rfl⟩
        rw [computed] at returned
        obtain ⟨kept, grew, outcome⟩ := nextSessionExpiry_run turns nowEpoch _ _ _ computed
        rcases outcome with ⟨expiry, rfl, source⟩ | ⟨err, bad, rfl⟩
        · simp only at returned
          split at returned
          · exact Or.inl (failed _ (by decide) _ kept returned)
          next usable =>
            simp only [run_bind, run_pure] at returned
            obtain ⟨set, last, written⟩ : ∃ set last, run (serve turns)
                (alphaRedisSetBreakerLockout printer (some redis) (some text) nowEpoch expiry)
                middle = (set, last) := ⟨_, _, rfl⟩
            rw [written] at returned
            have effect :=
              setBreakerLockout_run printer turns redis text nowEpoch expiry middle last set written
            rcases effect with
              ⟨bad, unchanged⟩ | ⟨rfl, accepts, sent, _, later, key, valid, stored⟩
            · simp only [bad, if_false] at returned
              exact Or.inl (failed _ bad _ ((unchanged applied).trans kept) returned)
            · right
              simp only [if_true] at returned
              cases returned
              -- Redis keeps expiries in 64-bit milliseconds, which bounds every date involved
              have bound : expiry ≤ int64Max / 1000 := by
                simp only [acceptsExpiry, decide_eq_true_eq] at accepts
                exact accepts.2
              unfold int64Max at bound
              obtain ⟨day, value, least, covered⟩ := chosen_isLeast store nowEpoch expiry
                (by omega) (by omega) source (by omega)
              refine ⟨rfl, text, expiry, day, rfl, value, least, covered, ?_, rfl, by omega, ?_⟩
              · rw [stored, kept, printed key valid]
              · intro i before
                have earlier : (turns i).clock ≤ (turns middle.sent).clock := forward (by omega)
                omega
        · exact Or.inl (failed err bad _ kept returned)
  next => exact Or.inl (failed _ (by decide) _ rfl returned)

/-- A successful call locks until the next session, and any other return leaves the store and
the out-parameter alone. The server time does not go back, and a command whose reply is an
error or missing was not applied. The length of the key is an `int`. -/
theorem setBreakerLockoutNextSession_correct (printer : Printer) (redis : Option AlphaRedis)
    (scope : Option Text) (printable : ∀ text ∈ scope, text.length + 18 ≤ intMax)
    (nowEpoch : Int) (expiresAtOut : Option Int) (store : Store) (turns : Nat → Turn)
    (applied : ∀ i, (turns i).fate ≠ .unheard) (forward : Monotone fun i => (turns i).clock)
    (status : AlphaErr) (out : Option Int) (after : Session)
    (returned : run (serve turns) (alphaRedisSetBreakerLockoutNextSession printer redis scope
      nowEpoch expiresAtOut) ⟨store, 0⟩ = ((status, out), after)) :
    (status = .ok → LocksUntilNextSession turns store scope nowEpoch expiresAtOut out after) ∧
    (status ≠ .ok → after.store = store ∧ out = expiresAtOut) := by
  rcases nextSession_outcome printer redis scope printable nowEpoch expiresAtOut store turns applied
    forward status out after returned with ⟨bad, kept⟩ | ⟨good, locks⟩
  · exact ⟨fun ok => absurd ok bad, fun _ => kept⟩
  · exact ⟨fun _ => locks, fun bad => absurd good bad⟩

/-- New Year's Eve of 2026 (a Thursday), with New Year's Day listed for 2027. -/
def yearEndStore : Store := fun key =>
  if key = holidaysKey 2026 then some ⟨"[]".toList, some 1798800000000⟩
  else if key = holidaysKey 2027 then some ⟨['[', quote] ++ "2027-01-01".toList ++ [quote, ']'],
    some 1798800000000⟩
  else none

/-- The server's clock stands at New Year's Eve, and every command is served. -/
def newYearsEve : Nat → Turn := fun _ => ⟨1798700000000, .served⟩

theorem nextSession_over_new_year :
    let result := run (serve newYearsEve) (alphaRedisSetBreakerLockoutNextSession fillingPrinter
      (some ⟨0⟩) (some "paper".toList) 1798700003 (some 0)) ⟨yearEndStore, 0⟩
    result.1 = (.ok, some 1799020800) ∧
    LocksUntilNextSession newYearsEve yearEndStore (some "paper".toList) 1798700003 (some 0)
      result.1.2 result.2 := by
  intro result
  have computed : result.1 = (.ok, some 1799020800) := by decide +kernel
  refine ⟨computed, ?_⟩
  exact (setBreakerLockoutNextSession_correct fillingPrinter (some ⟨0⟩) (some "paper".toList)
    (by rintro _ ⟨⟩; decide) 1798700003 (some 0) yearEndStore newYearsEve
    (fun _ => by simp [newYearsEve]) (fun _ _ _ => le_rfl) result.1.1 result.1.2 result.2
    rfl).1 (by rw [computed])

/-! ### A scope whose key is too long for `snprintf` -/

/-- Scopes with one key are one to the call. -/
theorem nextSession_sameKey (printer : Printer) (redis : AlphaRedis) (scope other : Text)
    (same : breakerKey printer scope = breakerKey printer other) (nowEpoch : Int)
    (expiresAtOut : Option Int) :
    alphaRedisSetBreakerLockoutNextSession printer (some redis) (some scope) nowEpoch expiresAtOut =
      alphaRedisSetBreakerLockoutNextSession printer (some redis) (some other) nowEpoch
        expiresAtOut := by
  simp only [alphaRedisSetBreakerLockoutNextSession, alphaRedisSetBreakerLockout, same]

/-- A scope of 2147483630 letters: the call succeeds, and the lockout stands under the first 95
characters of its key; nothing is stored under the key. -/
theorem nextSession_overlong_scope :
    let scope : Text := List.replicate 2147483630 's'
    let result := run (serve newYearsEve) (alphaRedisSetBreakerLockoutNextSession fillingPrinter
      (some ⟨0⟩) (some scope) 1798700003 (some 0)) ⟨yearEndStore, 0⟩
    result.1 = (.ok, some 1799020800) ∧ result.2.store (lockoutPrefix ++ scope) = none ∧
    result.2.store (lockoutPrefix ++ List.replicate 77 's') ≠ none ∧
    ¬ LocksUntilNextSession newYearsEve yearEndStore (some scope) 1798700003 (some 0)
      result.1.2 result.2 := by
  intro scope result
  have length : scope.length = 2147483630 := List.length_replicate
  -- the text is cut inside the scope, where it looks like a shorter scope's
  have cut : (lockoutPrefix ++ scope).take 95 = lockoutPrefix ++ List.replicate 77 's' := by
    rw [List.take_append, length_lockoutPrefix, List.take_of_length_le (by decide),
      List.take_replicate]
    rfl
  clear_value scope
  have named := breakerKey_overlong fillingPrinter scope (by rw [length]; decide)
  have same : breakerKey fillingPrinter scope =
      breakerKey fillingPrinter (List.replicate 77 's') := by
    rw [named]
    exact (congrArg Except.ok cut).trans (by decide)
  have apart : lockoutPrefix ++ scope ≠ lockoutPrefix ++ List.replicate 77 's' := by
    intro equal
    have shorter : scope.length = (List.replicate 77 's').length :=
      congrArg List.length (List.append_cancel_left equal)
    rw [length] at shorter
    exact absurd shorter (by decide)
  have computed : result = run (serve newYearsEve) (alphaRedisSetBreakerLockoutNextSession
      fillingPrinter (some ⟨0⟩) (some (List.replicate 77 's')) 1798700003 (some 0))
      ⟨yearEndStore, 0⟩ := by
    simp only [result, nextSession_sameKey fillingPrinter _ scope _ same]
  have returned : result.1 = (.ok, some 1799020800) := by
    rw [computed]
    decide +kernel
  clear_value result
  obtain ⟨⟨status, out⟩, after⟩ := result
  rcases nextSession_outcome fillingPrinter (some ⟨0⟩) (some (List.replicate 77 's'))
    (by rintro _ ⟨⟩; decide) 1798700003 (some 0) yearEndStore newYearsEve
    (fun _ => by simp [newYearsEve]) (fun _ _ _ => le_rfl) status out after computed.symm with
    ⟨failed, _⟩ | ⟨_, text, expiry, day, short, _, _, _, stored, _⟩
  · exact absurd (congrArg Prod.fst returned) failed
  cases short
  have absent : after.store (lockoutPrefix ++ scope) = none := by
    have other (key : Text) (short : key.length < 100) : lockoutPrefix ++ scope ≠ key := by
      rintro rfl
      rw [List.length_append, length] at short
      omega
    rw [stored, Function.update_of_ne apart, yearEndStore, if_neg (other _ (by decide +kernel)),
      if_neg (other _ (by decide +kernel))]
  refine ⟨returned, absent, ?_, ?_⟩
  · simp only [stored, Function.update_self]
    exact Option.some_ne_none _
  · rintro ⟨_, expiry, _, ⟨⟩, _, _, _, locked, _⟩
    rw [locked, Function.update_self] at absent
    cases absent

end AlphaPipeline.RedisCache

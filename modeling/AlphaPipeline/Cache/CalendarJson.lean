import AlphaPipeline.Cache.CalendarText

/-!
# Calendars that are JSON

The contract of `krx:holidays:{year}` is a sorted JSON array of existing dates. This compares
`parse_holiday_json` with it, text by text.
-/
namespace AlphaPipeline.RedisCache

open Gregorian

/-- The text is a JSON array of at most `MAX_HOLIDAYS` strings `YYYY-MM-DD`, each a date of the
calendar in the year, strictly ascending; `days` are their numbers. -/
def IsCalendar (year : Int) (text : Text) (days : List Int) : Prop :=
  ∃ (layout : JsonArray.Layout) (dates : List Date), layout.text = text ∧ layout.IsJson ∧
    layout.Spells (dates.map Date.iso) ∧ (∀ date ∈ dates, date.year = year ∧ date.Exists) ∧
    (dates.map Date.number).Pairwise (· < ·) ∧ dates.length ≤ maxHolidays ∧
    days = dates.map Date.number

/-- The scanner takes the text if and only if it is a calendar, and with the right days. -/
def ReadsAsCalendar (year : Int) (text : Text) : Prop :=
  ∀ days, parseHolidayJson text year = some days ↔ IsCalendar year text days

theorem isSpace_of_isBlank {c : Char} (blank : JsonArray.isBlank c = true) : isSpace c = true := by
  simp only [JsonArray.isBlank, Bool.or_eq_true, beq_iff_eq] at blank
  rcases blank with ((rfl | rfl) | rfl) | rfl <;> decide

theorem listed_of_exists {year : Int} {date : Date} (same : date.year = year)
    (real : date.Exists) : Listed year date := by
  obtain ⟨low, high, first, last⟩ := real
  refine ⟨same, ⟨low, high⟩, first, last.trans ?_⟩
  unfold monthLength
  split
  · split <;> decide
  · split <;> decide

/-- Calendars are the texts that lay out existing dates as JSON does. -/
theorem isCalendar_iff (year : Int) (text : Text) (days : List Int) :
    IsCalendar year text days ↔ ∃ layout dates, Lays year text layout dates ∧
      (layout.IsJson ∧ ∀ date ∈ dates, date.Exists) ∧ days = dates.map Date.number := by
  constructor
  · rintro ⟨layout, dates, shape, json, spells, real, ascending, fits, value⟩
    refine ⟨layout, dates, ⟨shape, ?_, spells, ?_, ascending, fits⟩,
      ⟨json, fun date h => (real date h).2⟩, value⟩
    · exact fun c h => isSpace_of_isBlank (json.1 c h)
    · exact fun date h => listed_of_exists (real date h).1 (real date h).2
  · rintro ⟨layout, dates, lays, ⟨json, real⟩, value⟩
    exact ⟨layout, dates, lays.text, json, lays.spells,
      fun date h => ⟨(lays.listed date h).year, real date h⟩, lays.ascending, lays.fits, value⟩

/-- The text as laid out is spelled without escapes exactly when JSON has its blanks and commas
and the calendar has its dates. -/
def PlainAsJson (year : Int) (text : Text) : Prop :=
  ∀ layout dates, Lays year text layout dates →
    (layout.isPlain = true ↔ layout.IsJson ∧ ∀ date ∈ dates, date.Exists)

/-- For every year of four digits and every text: the scanner treats the text as the contract says
exactly when the text is no array of dates at all, or is one where leaving out escapes goes with
leaving out the comma before the bracket, the blanks that JSON does not have, and the days past the
end of their month. -/
theorem calendar_text_iff (year : Int) (low : 0 ≤ year) (high : year ≤ 9999) (text : Text) :
    ReadsAsCalendar year text ↔ PlainAsJson year text := by
  constructor
  · intro reads layout dates lays
    constructor
    · intro plain
      have parsed := (parseHolidayJson_iff low high text _).mpr ⟨layout, dates, lays, plain, rfl⟩
      obtain ⟨_, _, also, strict, _⟩ := (isCalendar_iff year text _).mp ((reads _).mp parsed)
      -- a text has one layout, so the one the contract speaks of is this one
      obtain ⟨rfl, rfl⟩ := lays.unique also
      exact strict
    · intro strict
      have calendar := (isCalendar_iff year text _).mpr ⟨layout, dates, lays, strict, rfl⟩
      obtain ⟨_, _, also, plain, _⟩ :=
        (parseHolidayJson_iff low high text _).mp ((reads _).mpr calendar)
      obtain ⟨rfl, rfl⟩ := lays.unique also
      exact plain
  · intro agree days
    rw [parseHolidayJson_iff low high, isCalendar_iff]
    refine exists_congr fun layout => exists_congr fun dates => and_congr_right fun lays => ?_
    rw [agree layout dates lays]

/-- A single plain date, with or without a comma after it. -/
def singleDate (date : Date) (comma : Bool) : JsonArray.Layout :=
  let literal := date.iso.map .plain
  ⟨[], [], if comma then .comma literal [] [] .close else .last literal [], []⟩

theorem lays_singleDate {year : Int} {date : Date} (comma : Bool) (listed : Listed year date) :
    Lays year (singleDate date comma).text (singleDate date comma) [date] := by
  have strings : [date.iso.map JsonArray.Spelled.plain] =
      [date].map fun date => date.iso.map .plain := rfl
  refine ⟨rfl, ?_, ?_, ?_, List.pairwise_singleton _ _, Nat.le_add_left 1 511⟩
  · cases comma <;> nofun
  · cases comma <;> exact (strings_plain_iff.mp strings).1
  · intro other member
    rw [List.mem_singleton.mp member]
    exact listed

/-- A text whose layout breaks the contract is no calendar. -/
theorem Lays.not_calendar {year : Int} {text : Text} {layout : JsonArray.Layout}
    {dates : List Date} (lays : Lays year text layout dates)
    (broken : ¬ (layout.IsJson ∧ ∀ date ∈ dates, date.Exists)) (days : List Int) :
    ¬ IsCalendar year text days := by
  intro calendar
  obtain ⟨_, _, also, strict, _⟩ := (isCalendar_iff year text days).mp calendar
  obtain ⟨rfl, rfl⟩ := lays.unique also
  exact broken strict

/-- New Year's Day of 2026. -/
theorem calendar_text_new_year : ReadsAsCalendar 2026 "[\"2026-01-01\"]".toList := by
  have listed : Listed 2026 ⟨2026, 1, 1⟩ := ⟨rfl, by decide, by decide⟩
  refine (calendar_text_iff 2026 (by decide) (by decide) _).mpr fun layout dates lays => ?_
  obtain ⟨rfl, rfl⟩ := (lays_singleDate false listed).unique lays
  refine iff_of_true (by decide) ⟨⟨nofun, rfl⟩, ?_⟩
  decide

/-- February 30 is taken for March 2, and a comma may stand before the bracket. -/
theorem calendar_takes_february_thirty :
    parseHolidayJson "[\"2026-02-30\"]".toList 2026 = some [20514] ∧
      ¬ ReadsAsCalendar 2026 "[\"2026-02-30\"]".toList ∧
      parseHolidayJson "[\"2026-01-01\",]".toList 2026 = some [20454] ∧
      ¬ ReadsAsCalendar 2026 "[\"2026-01-01\",]".toList := by
  have february : parseHolidayJson "[\"2026-02-30\"]".toList 2026 = some [20514] := by
    decide +kernel
  have comma : parseHolidayJson "[\"2026-01-01\",]".toList 2026 = some [20454] := by
    decide +kernel
  refine ⟨february, fun reads => ?_, comma, fun reads => ?_⟩
  · have listed : Listed 2026 ⟨2026, 2, 30⟩ := ⟨rfl, by decide, by decide⟩
    refine (lays_singleDate false listed).not_calendar (fun strict => ?_) _ ((reads _).mp february)
    exact absurd (strict.2 _ List.mem_cons_self) (by decide)
  · have listed : Listed 2026 ⟨2026, 1, 1⟩ := ⟨rfl, by decide, by decide⟩
    refine (lays_singleDate true listed).not_calendar (fun strict => ?_) _ ((reads _).mp comma)
    exact absurd strict.1.2 (by decide)

end AlphaPipeline.RedisCache

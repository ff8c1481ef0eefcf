import AlphaPipeline.Library.JsonArray
import AlphaPipeline.Cache.HolidayCalendar

/-!
# The calendars that load

What `parse_holiday_json` accepts, as layouts of arrays of strings, beside what a JSON calendar
is. The scanner takes no escapes; otherwise it takes more than JSON: blanks that JSON does not
have, a comma before the closing bracket, and days past the end of their month, which it stores
as days of the next one.
-/
namespace AlphaPipeline.RedisCache

open Gregorian Decimal

/-! ### The scanner -/

private theorem skipSpace_blanks {blanks : Text} {c : Char} (rest : Text)
    (spaces : ∀ b ∈ blanks, isSpace b = true) (visible : isSpace c = false) :
    skipSpace (blanks ++ c :: rest) = c :: rest := by
  rw [skipSpace, List.dropWhile_append_of_pos spaces,
    List.dropWhile_cons_of_neg (by simp [visible])]

/-- The blanks that were skipped. -/
private theorem skipSpace_split (text : Text) :
    ∃ blanks, (∀ b ∈ blanks, isSpace b = true) ∧ text = blanks ++ skipSpace text :=
  ⟨text.takeWhile isSpace, fun _ member => List.mem_takeWhile_imp member,
    (List.takeWhile_append_dropWhile ..).symm⟩

/-- A body as the scanner takes it: plain dates it lists, with blanks of C. -/
structure Scanned (year : Int) (body : JsonArray.Body) (dates : List Date) : Prop where
  spaced : ∀ c ∈ body.blanks, isSpace c = true
  plain : body.strings = dates.map fun date => date.iso.map .plain
  listed : ∀ date ∈ dates, Listed year date

private theorem literalText_plain (text rest : Text) :
    JsonArray.literalText (text.map .plain) ++ rest = quote :: (text ++ quote :: rest) := by
  have same : (text.map JsonArray.Spelled.plain).flatMap JsonArray.Spelled.text = text := by
    induction text with
    | nil => rfl
    | cons c text ih => rw [List.map_cons, List.flatMap_cons, ih]; rfl
  rw [JsonArray.literalText, same, List.cons_append, List.append_assoc]
  rfl

private theorem later_of_ascending {days : List Int} {day : Int} {more : List Int}
    (ascending : (days.reverse ++ day :: more).Pairwise (· < ·)) :
    ∀ last ∈ days.head?, last < day :=
  fun last top => (List.pairwise_append.mp ascending).2.2 last
    (List.mem_reverse.mpr (List.mem_of_mem_head? top)) day List.mem_cons_self

private theorem ascending_later {days : List Int} {day : Int}
    (ascending : days.reverse.Pairwise (· < ·)) (later : ∀ last ∈ days.head?, last < day) :
    (day :: days).reverse.Pairwise (· < ·) := by
  rw [List.pairwise_reverse] at ascending ⊢
  refine List.pairwise_cons.mpr ⟨fun d member => ?_, ascending⟩
  cases days with
  | nil => cases member
  | cons last older =>
    have above := later last rfl
    rcases List.mem_cons.mp member with rfl | old
    · exact above
    · exact ((List.pairwise_cons.mp ascending).1 d old).trans above

private theorem marks_visible : ∀ c ∈ ['[', ']', ',', JsonArray.quote], isSpace c = false := by
  intro c member
  simp only [List.mem_cons, List.not_mem_nil, or_false] at member
  rcases member with rfl | rfl | rfl | rfl <;> decide

/-! ### The bodies the loop builds -/

section Bodies

variable {year : Int} {date : Date} {dates : List Date} {after gap : Text}
  {body : JsonArray.Body} (listed : Listed year date)
  (spaces : ∀ c ∈ after, isSpace c = true) (gaps : ∀ c ∈ gap, isSpace c = true)

private theorem Scanned.close : Scanned year .close [] := ⟨nofun, rfl, nofun⟩

include listed spaces

private theorem Scanned.last : Scanned year (.last (date.iso.map .plain) after) [date] := by
  refine ⟨spaces, rfl, fun d member => ?_⟩
  rw [List.mem_singleton.mp member]
  exact listed

include gaps

private theorem Scanned.comma (scanned : Scanned year body dates) :
    Scanned year (.comma (date.iso.map .plain) after gap body) (date :: dates) := by
  refine ⟨?_, ?_, ?_⟩
  · simp only [JsonArray.Body.blanks, List.mem_append]
    rintro c ((first | second) | third)
    · exact spaces c first
    · exact gaps c second
    · exact scanned.spaced c third
  · rw [JsonArray.Body.strings, scanned.plain, List.map_cons]
  · intro d member
    rcases List.mem_cons.mp member with rfl | more
    · exact listed
    · exact scanned.listed d more

end Bodies

private theorem text_last (date : Date) (after rest : Text) :
    (JsonArray.Body.last (date.iso.map .plain) after).text ++ rest =
      quote :: (date.iso ++ quote :: (after ++ ']' :: rest)) := by
  rw [JsonArray.Body.text, List.append_assoc, literalText_plain, List.append_assoc,
    List.singleton_append]

private theorem text_comma (date : Date) (after gap : Text) (body : JsonArray.Body) (rest : Text) :
    (JsonArray.Body.comma (date.iso.map .plain) after gap body).text ++ rest =
      quote :: (date.iso ++ quote :: (after ++ ',' :: (gap ++ (body.text ++ rest)))) := by
  rw [JsonArray.Body.text, List.append_assoc, literalText_plain, List.append_assoc,
    List.cons_append, List.append_assoc]

/-- No body starts with a blank, so the gap before it is skipped and nothing else. -/
private theorem skipSpace_body {gap : Text} (body : JsonArray.Body) (rest : Text)
    (gaps : ∀ c ∈ gap, isSpace c = true) :
    skipSpace (gap ++ (body.text ++ rest)) = body.text ++ rest := by
  obtain ⟨c, tail, starts, shown⟩ := JsonArray.body_head marks_visible body
  rw [starts, List.cons_append]
  exact skipSpace_blanks _ gaps shown

/-! ### The loop -/

private theorem drop_date (date : Date) (rest : Text) :
    (quote :: (date.iso ++ quote :: rest)).drop 12 = rest := by
  simp [Date.iso, fixedDecimal]

theorem holidayElements_close {year : Int} (room : Nat) (rest : Text) (days : List Int) :
    holidayElements year room (']' :: rest) days = some (days.reverse, rest) := by
  cases room <;> rfl

section Complete

variable {year : Int} (low : 0 ≤ year) (high : year ≤ 9999)
include low high

/-- One turn of the loop on a quoted date. -/
theorem holidayElements_date (room : Nat) {date : Date} (listed : Listed year date) (rest : Text)
    (days : List Int) (later : ∀ last ∈ days.head?, last < date.number) :
    holidayElements year (room + 1) (quote :: (date.iso ++ quote :: rest)) days =
      match skipSpace rest with
      | ',' :: rest => holidayElements year room (skipSpace rest) (date.number :: days)
      | ']' :: rest => holidayElements year room (']' :: rest) (date.number :: days)
      | _ => none := by
  have accepted := holidayElement_date low high listed rest
  have fresh : days.head?.any (fun last => decide (date.number ≤ last)) = false := by
    cases days with
    | nil => rfl
    | cons last older => simpa using later last rfl
  conv_lhs => unfold holidayElements
  split
  next bracket => exact absurd (List.cons.inj bracket).1 (by decide)
  · simp only [accepted, fresh, drop_date]
    rfl

/-- What the scanner reads, it takes. -/
theorem holidayElements_complete (body : JsonArray.Body) (dates : List Date) (room : Nat)
    (days : List Int) (rest : Text) (scanned : Scanned year body dates)
    (ascending : (days.reverse ++ dates.map Date.number).Pairwise (· < ·))
    (fits : dates.length ≤ room) :
    holidayElements year room (body.text ++ rest) days =
      some (days.reverse ++ dates.map Date.number, rest) := by
  -- along the body: each literal is a date, which takes one of the slots left
  induction body generalizing dates room days with
  | close =>
    have none : dates = [] := List.map_eq_nil_iff.mp scanned.plain.symm
    subst none
    rw [List.map_nil, List.append_nil]
    exact holidayElements_close room rest days
  | last literal after =>
    obtain ⟨spaced, plain, listed⟩ := scanned
    simp only [JsonArray.Body.blanks] at spaced
    cases dates with
    | nil => cases plain
    | cons date more =>
      obtain ⟨rfl, none⟩ := List.cons.inj plain
      obtain rfl : more = [] := List.map_eq_nil_iff.mp none.symm
      cases room with
      | zero => cases fits
      | succ room =>
        rw [text_last, holidayElements_date low high room (listed date List.mem_cons_self) _ days
          (later_of_ascending ascending), skipSpace_blanks rest spaced (by decide)]
        change holidayElements year room (']' :: rest) (date.number :: days) = _
        rw [holidayElements_close, List.reverse_cons]
        rfl
  | comma literal after gap body ih =>
    obtain ⟨spaced, plain, listed⟩ := scanned
    simp only [JsonArray.Body.blanks, List.mem_append] at spaced
    cases dates with
    | nil => cases plain
    | cons date more =>
      obtain ⟨rfl, others⟩ := List.cons.inj plain
      cases room with
      | zero => cases fits
      | succ room =>
        have ordered : ((date.number :: days).reverse ++ more.map Date.number).Pairwise
            (· < ·) := by
          rw [List.reverse_cons, List.append_assoc]
          exact ascending
        rw [text_comma, holidayElements_date low high room (listed date List.mem_cons_self) _ days
          (later_of_ascending ascending),
          skipSpace_blanks _ (fun b h => spaced b (.inl (.inl h))) (by decide)]
        change holidayElements year room (skipSpace (gap ++ (body.text ++ rest)))
          (date.number :: days) = _
        rw [skipSpace_body body rest (fun b h => spaced b (.inl (.inr h))),
          ih more room (date.number :: days) ⟨fun c h => spaced c (.inr h), others,
            fun d h => listed d (List.mem_cons_of_mem _ h)⟩ ordered
            (Nat.le_of_succ_le_succ fits), List.reverse_cons, List.append_assoc]
        rfl

end Complete

section Sound

variable {year : Int} (low : -2147483648 ≤ year) (high : year < 2147483648)
include low high

/-- One turn of the loop, read backwards: the array was closed, or a later date was read, and
then a comma and the rest of the array, or the bracket. -/
private theorem holidayElements_turn {room : Nat} {cursor : Text} {days result : List Int}
    {rest : Text} (parses : holidayElements year room cursor days = some (result, rest)) :
    (cursor = ']' :: rest ∧ result = days.reverse) ∨ ∃ left date tail, room = left + 1 ∧
      Listed year date ∧ cursor = quote :: (date.iso ++ quote :: tail) ∧
      (∀ last ∈ days.head?, last < date.number) ∧
      ((∃ more, skipSpace tail = ',' :: more ∧ holidayElements year left (skipSpace more)
          (date.number :: days) = some (result, rest)) ∨
        (skipSpace tail = ']' :: rest ∧ result = (date.number :: days).reverse)) := by
  unfold holidayElements at parses
  split at parses
  next closing =>
    cases parses
    exact .inl ⟨rfl, rfl⟩
  · split at parses
    · cases parses
    next left =>
      split at parses
      · cases parses
      next epochDay accepted =>
        obtain ⟨date, tail, listed, rfl, rfl⟩ := holidayElement_inv low high accepted
        split at parses
        · cases parses
        next fresh =>
          have later : ∀ last ∈ days.head?, last < date.number := by
            intro last top
            rw [Option.mem_def] at top
            simpa [top] using fresh
          refine .inr ⟨left, date, tail, rfl, listed, rfl, later, ?_⟩
          rw [drop_date] at parses
          split at parses
          next more comma => exact .inl ⟨more, comma, parses⟩
          next more bracket =>
            rw [holidayElements_close] at parses
            cases parses
            exact .inr ⟨bracket, rfl⟩
          · cases parses

/-- What the scanner takes, it has read. -/
theorem holidayElements_sound (room : Nat) (cursor : Text) (days result : List Int) (rest : Text)
    (ascending : days.reverse.Pairwise (· < ·))
    (parses : holidayElements year room cursor days = some (result, rest)) :
    ∃ body dates, Scanned year body dates ∧ cursor = body.text ++ rest ∧
      result = days.reverse ++ dates.map Date.number ∧ result.Pairwise (· < ·) ∧
      dates.length ≤ room := by
  -- on the slots left, with the days stored so far ascending
  induction room generalizing cursor days with
  | zero =>
    rcases holidayElements_turn low high parses with ⟨rfl, rfl⟩ | ⟨left, _, _, full, _⟩
    · exact ⟨.close, [], .close, rfl, by simp, ascending, Nat.zero_le _⟩
    · cases full
  | succ room ih =>
    rcases holidayElements_turn low high parses with
      ⟨rfl, rfl⟩ | ⟨left, date, tail, slot, listed, rfl, later, follows⟩
    · exact ⟨.close, [], .close, rfl, by simp, ascending, Nat.zero_le _⟩
    · obtain rfl := Nat.succ.inj slot
      have sorted := ascending_later ascending later
      obtain ⟨after, spaces, split⟩ := skipSpace_split tail
      rcases follows with ⟨more, comma, parsed⟩ | ⟨bracket, rfl⟩
      · obtain ⟨gap, gaps, inner⟩ := skipSpace_split more
        obtain ⟨body, dates, scanned, text, value, ordered, fits⟩ := ih _ _ sorted parsed
        refine ⟨.comma (date.iso.map .plain) after gap body, date :: dates,
          .comma listed spaces gaps scanned, ?_, ?_, ordered, Nat.succ_le_succ fits⟩
        · rw [text_comma, ← text, ← inner, ← comma, ← split]
        · rw [value, List.reverse_cons, List.append_assoc]
          rfl
      · refine ⟨.last (date.iso.map .plain) after, [date], .last listed spaces, ?_, ?_, sorted,
          Nat.succ_le_succ (Nat.zero_le _)⟩
        · rw [text_last, ← bracket, ← split]
        · exact List.reverse_cons

/-- What `parse_holiday_json` returns is what its loop stored, with nothing but blanks around. -/
private theorem parseHolidayJson_inv {text : Text} {days : List Int}
    (parses : parseHolidayJson text year = some days) :
    ∃ lead gap tail body dates, text = lead ++ '[' :: (gap ++ (body.text ++ tail)) ∧
      (∀ c ∈ lead, isSpace c = true) ∧ (∀ c ∈ gap, isSpace c = true) ∧
      (∀ c ∈ tail, isSpace c = true) ∧ Scanned year body dates ∧
      days = dates.map Date.number ∧ days.Pairwise (· < ·) ∧ dates.length ≤ maxHolidays := by
  unfold parseHolidayJson at parses
  obtain ⟨lead, leads, whole⟩ := skipSpace_split text
  split at parses
  next inside bracket =>
    obtain ⟨gap, gaps, opened⟩ := skipSpace_split inside
    split at parses
    next found tail scanned =>
      split at parses
      next ends =>
        cases parses
        obtain ⟨body, dates, read, shape, value, ascending, fits⟩ :=
          holidayElements_sound low high maxHolidays _ [] days tail List.Pairwise.nil scanned
        refine ⟨lead, gap, tail, body, dates, ?_, leads, gaps,
          List.dropWhile_eq_nil_iff.mp ends, read, value, ascending, fits⟩
        rw [← shape, ← opened, ← bracket, ← whole]
      · cases parses
    · cases parses
  · cases parses

/-- A loaded calendar is strictly ascending, fits the array and stays within its year. -/
theorem parseHolidayJson_spec (json : Text) (days : List Int)
    (parses : parseHolidayJson json year = some days) :
    days.Pairwise (· < ·) ∧ (∀ d ∈ days, InYear year d) ∧ days.length ≤ maxHolidays := by
  obtain ⟨_, _, _, _, dates, _, _, _, _, read, rfl, ascending, fits⟩ :=
    parseHolidayJson_inv low high parses
  refine ⟨ascending, ?_, by rwa [List.length_map]⟩
  intro d member
  obtain ⟨date, listed, rfl⟩ := List.mem_map.mp member
  exact (read.listed date listed).inYear

end Sound

/-! ### Whole texts -/

/-- The text lays out dates the scanner lists, with blanks of C and spelled in any way. -/
structure Lays (year : Int) (text : Text) (layout : JsonArray.Layout) (dates : List Date) :
    Prop where
  text : layout.text = text
  spaced : layout.Spaced isSpace
  spells : layout.Spells (dates.map Date.iso)
  listed : ∀ date ∈ dates, Listed year date
  ascending : (dates.map Date.number).Pairwise (· < ·)
  fits : dates.length ≤ maxHolidays

/-- The characters of a date need no escape. -/
theorem iso_value (date : Date) :
    (date.iso.map JsonArray.Spelled.plain).map JsonArray.Spelled.value = date.iso.map some := by
  have digits : ∀ c : Char, c.isDigit = true → (JsonArray.Spelled.plain c).value = some c := by
    intro c digit
    simp only [Char.isDigit, Bool.and_eq_true, decide_eq_true_eq] at digit
    have low : 48 ≤ c.toNat := digit.1
    have high : c.toNat ≤ 57 := digit.2
    refine if_pos ⟨?_, ?_, by omega⟩
    · rintro rfl
      exact absurd low (by decide)
    · rintro rfl
      exact absurd high (by decide)
  rw [List.map_map]
  refine List.map_congr_left fun c member => ?_
  simp only [Date.iso, List.mem_append, List.mem_cons] at member
  rcases member with first | rfl | second | rfl | third
  · exact digits c (isDigit_of_mem_fixedDecimal _ _ c first)
  · rfl
  · exact digits c (isDigit_of_mem_fixedDecimal _ _ c second)
  · rfl
  · exact digits c (isDigit_of_mem_fixedDecimal _ _ c third)

/-- A plain string is spelled in one way. -/
theorem plain_of_value {literal : List JsonArray.Spelled} {value : Text}
    (plain : literal.all JsonArray.Spelled.isPlain = true)
    (means : literal.map JsonArray.Spelled.value = value.map some) :
    literal = value.map .plain := by
  induction literal generalizing value with
  | nil =>
    obtain rfl : value = [] := List.map_eq_nil_iff.mp means.symm
    rfl
  | cons c literal ih =>
    cases value with
    | nil => cases means
    | cons v value =>
      rw [List.all_cons, Bool.and_eq_true] at plain
      obtain ⟨first, others⟩ := List.cons.inj means
      rw [ih plain.2 others]
      cases c with
      | plain c =>
        rw [JsonArray.Spelled.value] at first
        split at first
        · rw [Option.some.inj first]
          rfl
        · cases first
      -- an escape is not plain
      | short c => cases plain.1
      | unicode a b c d => cases plain.1

/-- Plain spellings of dates are the dates themselves. -/
theorem strings_plain_iff {strings : List (List JsonArray.Spelled)} {dates : List Date} :
    strings = dates.map (fun date => date.iso.map .plain) ↔
      strings.map (List.map JsonArray.Spelled.value) =
        (dates.map Date.iso).map (List.map some) ∧
      strings.all (fun s => s.all JsonArray.Spelled.isPlain) = true := by
  constructor
  · rintro rfl
    refine ⟨?_, by simp [JsonArray.Spelled.isPlain]⟩
    rw [List.map_map, List.map_map]
    exact List.map_congr_left fun date _ => iso_value date
  · rintro ⟨means, plain⟩
    induction strings generalizing dates with
    | nil =>
      rw [List.map_nil, List.map_map] at means
      rw [List.map_eq_nil_iff.mp means.symm]
      rfl
    | cons literal strings ih =>
      cases dates with
      | nil => cases means
      | cons date dates =>
        rw [List.all_cons, Bool.and_eq_true] at plain
        obtain ⟨first, others⟩ := List.cons.inj means
        rw [List.map_cons, ← ih others plain.2, plain_of_value plain.1 first]

/-- A text lays out one list of dates, in one way. -/
theorem Lays.unique {year : Int} {text : Text} {layout other : JsonArray.Layout}
    {dates others : List Date} (lays : Lays year text layout dates)
    (also : Lays year text other others) :
    layout = other ∧ dates = others := by
  obtain rfl := JsonArray.layout_unique marks_visible lays.spaced also.spaced lays.spells.valid
    also.spells.valid (lays.text.trans also.text.symm)
  refine ⟨rfl, ?_⟩
  -- one layout spells one list of texts, and a listed date has one text
  have same : dates.map Date.iso = others.map Date.iso :=
    List.map_injective_iff.mpr (List.map_injective_iff.mpr (Option.some_injective Char))
      (lays.spells.symm.trans also.spells)
  have listed := lays.listed
  have listed' := also.listed
  clear lays also
  induction dates generalizing others with
  | nil => exact (List.map_eq_nil_iff.mp same.symm).symm
  | cons date dates ih =>
    cases others with
    | nil => cases same
    | cons other others =>
      obtain ⟨first, rest⟩ := List.cons.inj same
      rw [iso_inj (listed date List.mem_cons_self) (listed' other List.mem_cons_self) first,
        ih rest (fun d h => listed d (List.mem_cons_of_mem _ h))
          (fun d h => listed' d (List.mem_cons_of_mem _ h))]

section Text

variable {year : Int} (low : 0 ≤ year) (high : year ≤ 9999)
include low high

/-- The scanner takes exactly the texts that lay out plain dates, and stores their numbers. -/
theorem parseHolidayJson_iff (text : Text) (days : List Int) :
    parseHolidayJson text year = some days ↔
      ∃ layout dates, Lays year text layout dates ∧ layout.isPlain = true ∧
        days = dates.map Date.number := by
  constructor
  · intro parses
    obtain ⟨lead, gap, tail, body, dates, whole, leads, gaps, tails, read, value, ascending,
      fits⟩ := parseHolidayJson_inv (by omega) (by omega) parses
    obtain ⟨spells, plain⟩ := strings_plain_iff.mp read.plain
    refine ⟨⟨lead, gap, body, tail⟩, dates,
      ⟨whole.symm, ?_, spells, read.listed, value ▸ ascending, fits⟩, plain, value⟩
    simp only [JsonArray.Layout.Spaced, JsonArray.Layout.blanks, List.mem_append]
    rintro c (((first | second) | third) | fourth)
    · exact leads c first
    · exact gaps c second
    · exact read.spaced c third
    · exact tails c fourth
  · rintro ⟨⟨lead, gap, body, tail⟩, dates, lays, plain, rfl⟩
    obtain ⟨rfl, spaced, spells, listed, ascending, fits⟩ := lays
    simp only [JsonArray.Layout.Spaced, JsonArray.Layout.blanks, List.mem_append] at spaced
    have scanned : Scanned year body dates :=
      ⟨fun c h => spaced c (.inl (.inr h)), strings_plain_iff.mpr ⟨spells, plain⟩, listed⟩
    have opened := skipSpace_body body tail fun b h => spaced b (.inl (.inl (.inr h)))
    have ends : skipSpace tail = [] := List.dropWhile_eq_nil_iff.mpr fun c h => spaced c (.inr h)
    unfold parseHolidayJson
    rw [JsonArray.Layout.text, skipSpace_blanks _ (fun b h => spaced b (.inl (.inl (.inl h))))
      (by decide)]
    simp only [opened, holidayElements_complete low high body dates maxHolidays [] tail scanned
      ascending fits, List.reverse_nil, List.nil_append, ends, if_true]

end Text

end AlphaPipeline.RedisCache

import AlphaPipeline.CRuntime

/-!
# Instrument ids

A ticker and a market are printed as one text, with the market's suffix behind a dot, and such a
text is cut again at its last dot. Several markets share a suffix and a text may have none, so
neither way undoes the other everywhere.
-/
namespace AlphaPipeline.MarketData

/-- `alpha_market_t`. -/
inductive AlphaMarket where
  | kospi
  | kosdaq
  | nyse
  | nasdaq
  deriving DecidableEq, Repr

def marketSuffix : AlphaMarket → Text
  | .kospi => ['K', 'S']
  | .kosdaq => ['K', 'Q']
  | .nyse | .nasdaq => ['U', 'S']

def suffixMarket (suffix : Text) : AlphaMarket :=
  if suffix = ['K', 'S'] then .kospi
  else if suffix = ['K', 'Q'] then .kosdaq
  else if suffix = ['U', 'S'] then .nyse
  else .kospi

/-- The text of `"%s.%s"`. -/
def instrumentText (ticker : Text) (market : AlphaMarket) : Text :=
  ticker ++ '.' :: marketSuffix market

/-- `alpha_to_instrument_id`. `out` is the size of the buffer if there is one; with the status,
what C reads of the buffer after a call that printed to it. -/
def alphaToInstrumentId (snprintf : Snprintf) (ticker : Option Text) (market : AlphaMarket)
    (out : Option Nat) : AlphaErr × Option Text :=
  match ticker, out with
  | some ticker, some n =>
    let text := instrumentText ticker market
    match snprintf.written n text with
    | none => (.range, none)
    | some written =>
      if n ≤ written then (.range, if n = 0 then none else some (text.take (n - 1)))
      else (.ok, some (text.take (n - 1)))
  | _, _ => (.invalidArg, none)

/-- `strrchr`: where the character is last found. -/
def strrchr (c : Char) : Text → Option Nat
  | [] => none
  | x :: rest =>
    match strrchr c rest with
    | some i => some (i + 1)
    | none => if x = c then some 0 else none

/-- How much of the id is the ticker, and the suffix after its last dot. -/
def lastDot (instrumentId : Text) : Nat × Text :=
  match strrchr '.' instrumentId with
  | none => (instrumentId.length, ['K', 'S'])
  | some dot => (dot, instrumentId.drop (dot + 1))

/-- `alpha_from_instrument_id`, with what it writes. -/
def alphaFromInstrumentId (instrumentId : Option Text) (rawOut : Option Nat) (marketOut : Bool) :
    AlphaErr × Option (Text × AlphaMarket) :=
  match instrumentId, rawOut, marketOut with
  | some id, some rawN, true =>
    let (rawLen, suffix) := lastDot id
    if rawN ≤ rawLen then (.range, none)
    else (.ok, some (id.take rawLen, suffixMarket suffix))
  | _, _, _ => (.invalidArg, none)

/-! ### The last dot -/

theorem strrchr_eq_none {c : Char} {text : Text} (absent : c ∉ text) : strrchr c text = none := by
  induction text with
  | nil => rfl
  | cons x rest ih =>
    obtain ⟨other, absent⟩ := not_or.mp (mt List.mem_cons.mpr absent)
    rw [strrchr, ih absent]
    exact if_neg (Ne.symm other)

theorem strrchr_append {c : Char} (raw : Text) {suffix : Text} (absent : c ∉ suffix) :
    strrchr c (raw ++ c :: suffix) = some raw.length := by
  induction raw with
  | nil =>
    rw [List.nil_append, strrchr, strrchr_eq_none absent]
    exact if_pos rfl
  | cons x raw ih =>
    rw [List.cons_append, strrchr, ih]
    rfl

/-- A text either has no such character or is cut at the last one. -/
theorem last_or_none (c : Char) (text : Text) :
    c ∉ text ∨ ∃ raw suffix, text = raw ++ c :: suffix ∧ c ∉ suffix := by
  induction text with
  | nil => exact Or.inl List.not_mem_nil
  | cons x rest ih =>
    rcases ih with absent | ⟨raw, suffix, rfl, absent⟩
    · by_cases found : x = c
      · exact Or.inr ⟨[], rest, by rw [found, List.nil_append], absent⟩
      · exact Or.inl (mt List.mem_cons.mp (not_or.mpr ⟨Ne.symm found, absent⟩))
    · exact Or.inr ⟨x :: raw, suffix, rfl, absent⟩

/-- The ticker of an id. -/
def rawPart (id : Text) : Text := id.take (lastDot id).1

theorem lastDot_none {id : Text} (absent : '.' ∉ id) : lastDot id = (id.length, ['K', 'S']) := by
  rw [lastDot, strrchr_eq_none absent]

theorem lastDot_append (raw : Text) {suffix : Text} (absent : '.' ∉ suffix) :
    lastDot (raw ++ '.' :: suffix) = (raw.length, suffix) := by
  rw [lastDot, strrchr_append raw absent]
  simp

theorem rawPart_append (raw : Text) {suffix : Text} (absent : '.' ∉ suffix) :
    rawPart (raw ++ '.' :: suffix) = raw := by
  rw [rawPart, lastDot_append raw absent, List.take_left]

theorem length_rawPart (id : Text) : (rawPart id).length = (lastDot id).1 := by
  rcases last_or_none '.' id with absent | ⟨raw, suffix, rfl, absent⟩
  · rw [rawPart, lastDot_none absent, List.take_length]
  · rw [rawPart_append raw absent, lastDot_append raw absent]

/-! ### Suffixes -/

theorem dot_not_mem_marketSuffix (market : AlphaMarket) : '.' ∉ marketSuffix market := by
  cases market <;> decide

theorem length_marketSuffix (market : AlphaMarket) : (marketSuffix market).length = 2 := by
  cases market <;> rfl

/-- The market that is read back: NASDAQ shares its suffix with NYSE. -/
def readBack : AlphaMarket → AlphaMarket
  | .kospi => .kospi
  | .kosdaq => .kosdaq
  | .nyse | .nasdaq => .nyse

theorem suffixMarket_marketSuffix (market : AlphaMarket) :
    suffixMarket (marketSuffix market) = readBack market := by
  cases market <;> rfl

theorem marketSuffix_readBack (market : AlphaMarket) :
    marketSuffix (readBack market) = marketSuffix market := by
  cases market <;> rfl

/-- The suffixes that stand for a market. -/
def knownSuffixes : List Text := [['K', 'S'], ['K', 'Q'], ['U', 'S']]

theorem marketSuffix_mem (market : AlphaMarket) : marketSuffix market ∈ knownSuffixes := by
  cases market <;> decide

theorem marketSuffix_suffixMarket {suffix : Text} (known : suffix ∈ knownSuffixes) :
    marketSuffix (suffixMarket suffix) = suffix := by
  simp only [knownSuffixes, List.mem_cons, List.not_mem_nil, or_false] at known
  rcases known with rfl | rfl | rfl <;> rfl

/-! ### Both ways -/

theorem alphaToInstrumentId_ok {snprintf : Snprintf} {n : Nat} (size : n ≤ intMax) {ticker : Text}
    {market : AlphaMarket} (fits : (instrumentText ticker market).length < n) :
    alphaToInstrumentId snprintf (some ticker) market (some n) =
      (.ok, some (instrumentText ticker market)) := by
  have printed : snprintf.written n (instrumentText ticker market) =
      some (instrumentText ticker market).length := by
    rw [Snprintf.written, snprintf.ordinary n _ size (fits.le.trans size)]
    rfl
  simp only [alphaToInstrumentId, printed]
  rw [if_neg (not_le.mpr fits), List.take_of_length_le (Nat.le_sub_one_of_lt fits)]

theorem alphaToInstrumentId_ok_iff {snprintf : Snprintf} {n : Nat} (size : n ≤ intMax)
    (ticker : Text) (market : AlphaMarket) :
    (alphaToInstrumentId snprintf (some ticker) market (some n)).1 = .ok ↔
      (instrumentText ticker market).length < n := by
  constructor
  · intro accepted
    simp only [alphaToInstrumentId, Snprintf.written] at accepted
    split at accepted
    · cases accepted
    next written found =>
      split at found
      · cases found
      · obtain rfl := Option.some.inj found
        split at accepted
        · cases accepted
        next fits => exact not_le.mp fits
  · intro fits
    rw [alphaToInstrumentId_ok size fits]

theorem alphaFromInstrumentId_eq (id : Text) (rawN : Nat) :
    alphaFromInstrumentId (some id) (some rawN) true =
      if (rawPart id).length < rawN then (.ok, some (rawPart id, suffixMarket (lastDot id).2))
      else (.range, none) := by
  rw [length_rawPart, rawPart]
  simp only [alphaFromInstrumentId]
  by_cases fits : (lastDot id).1 < rawN
  · rw [if_pos fits, if_neg (not_le.mpr fits)]
  · rw [if_neg fits, if_pos (not_lt.mp fits)]

/-- The id of the parts of an id. -/
def normalised (id : Text) : Text := instrumentText (rawPart id) (suffixMarket (lastDot id).2)

/-- Printing what was read, in buffers of these sizes. -/
def normalise (snprintf : Snprintf) (rawN n : Nat) (id : Text) : Option Text :=
  match alphaFromInstrumentId (some id) (some rawN) true with
  | (.ok, some (raw, market)) =>
    match alphaToInstrumentId snprintf (some raw) market (some n) with
    | (.ok, out) => out
    | _ => none
  | _ => none

theorem rawPart_instrumentText (ticker : Text) (market : AlphaMarket) :
    rawPart (instrumentText ticker market) = ticker :=
  rawPart_append ticker (dot_not_mem_marketSuffix market)

theorem lastDot_instrumentText (ticker : Text) (market : AlphaMarket) :
    lastDot (instrumentText ticker market) = (ticker.length, marketSuffix market) :=
  lastDot_append ticker (dot_not_mem_marketSuffix market)

theorem length_instrumentText (ticker : Text) (market : AlphaMarket) :
    (instrumentText ticker market).length = ticker.length + 3 := by
  rw [instrumentText, List.length_append, List.length_cons, length_marketSuffix]

theorem normalised_idempotent (id : Text) : normalised (normalised id) = normalised id := by
  rw [normalised, normalised, rawPart_instrumentText, lastDot_instrumentText,
    suffixMarket_marketSuffix, instrumentText, instrumentText, marketSuffix_readBack]

/-- Only ids with a known suffix are printed as they were. -/
theorem normalised_eq_iff (id : Text) :
    normalised id = id ↔
      ∃ raw suffix, id = raw ++ '.' :: suffix ∧ '.' ∉ suffix ∧ suffix ∈ knownSuffixes := by
  constructor
  · intro same
    rw [← same]
    exact ⟨rawPart id, _, rfl, dot_not_mem_marketSuffix _, marketSuffix_mem _⟩
  · rintro ⟨raw, suffix, rfl, absent, known⟩
    rw [normalised, rawPart_append raw absent, lastDot_append raw absent, instrumentText,
      marketSuffix_suffixMarket known]

theorem normalise_ok {snprintf : Snprintf} {rawN n : Nat} (size : n ≤ intMax) {id : Text}
    (read : (rawPart id).length < rawN) (fits : (rawPart id).length + 3 < n) :
    normalise snprintf rawN n id = some (normalised id) := by
  rw [← length_instrumentText _ (suffixMarket (lastDot id).2)] at fits
  simp only [normalise, alphaFromInstrumentId_eq, if_pos read, alphaToInstrumentId_ok size fits,
    normalised]

/-- `alpha_to_instrument_id` and `alpha_from_instrument_id` with buffers of up to `INT_MAX` bytes
for the id: what is printed is read back, NASDAQ as NYSE; what is read is printed as it was exactly
if it ends in a known suffix, and the same again after that; and both succeed exactly when the
output and its terminator fit. -/
theorem instrumentId_roundTrip (snprintf : Snprintf) (rawN n : Nat) (size : n ≤ intMax) :
    (∀ ticker market, ticker.length + 3 < n → ticker.length < rawN →
      ∃ id, alphaToInstrumentId snprintf (some ticker) market (some n) = (.ok, some id) ∧
        alphaFromInstrumentId (some id) (some rawN) true =
          (.ok, some (ticker, readBack market))) ∧
      (∀ id, (rawPart id).length < rawN → (rawPart id).length + 3 < n →
        normalise snprintf rawN n id = some (normalised id) ∧
        (normalised id = id ↔
          ∃ raw suffix, id = raw ++ '.' :: suffix ∧ '.' ∉ suffix ∧ suffix ∈ knownSuffixes) ∧
        normalise snprintf rawN n (normalised id) = some (normalised id)) ∧
      (∀ ticker market, (alphaToInstrumentId snprintf (some ticker) market (some n)).1 = .ok ↔
        (instrumentText ticker market).length + 1 ≤ n) ∧
      ∀ id, (alphaFromInstrumentId (some id) (some rawN) true).1 = .ok ↔
        (rawPart id).length + 1 ≤ rawN := by
  refine ⟨?_, ?_, alphaToInstrumentId_ok_iff size, ?_⟩
  · intro ticker market fits read
    refine ⟨instrumentText ticker market, alphaToInstrumentId_ok size ?_, ?_⟩
    · rwa [length_instrumentText]
    · rw [alphaFromInstrumentId_eq, rawPart_instrumentText, if_pos read, lastDot_instrumentText,
        suffixMarket_marketSuffix]
  · intro id read fits
    refine ⟨normalise_ok size read fits, normalised_eq_iff id, ?_⟩
    have same : rawPart (normalised id) = rawPart id := rawPart_instrumentText _ _
    have again : normalise snprintf rawN n (normalised id) = some (normalised (normalised id)) :=
      normalise_ok size (by rwa [same]) (by rwa [same])
    rw [again, normalised_idempotent]
  · intro id
    rw [alphaFromInstrumentId_eq, ← Nat.lt_iff_add_one_le]
    split
    next fits => exact iff_of_true rfl fits
    next cut => exact iff_of_false nofun cut

/-- A ticker with a dot, on the NASDAQ. -/
theorem instrumentId_roundTrip_dotted :
    ∃ id, alphaToInstrumentId plainSnprintf (some "BRK.B".toList) .nasdaq (some 32) =
        (.ok, some id) ∧
      alphaFromInstrumentId (some id) (some 32) true = (.ok, some ("BRK.B".toList, .nyse)) :=
  (instrumentId_roundTrip plainSnprintf 32 32 (by decide)).1 "BRK.B".toList .nasdaq (by decide)
    (by decide)

theorem alphaToInstrumentId_of_overlong (snprintf : Snprintf) {ticker : Text}
    (long : intMax < ticker.length + 3) (market : AlphaMarket) (n : Nat) :
    alphaToInstrumentId snprintf (some ticker) market (some n) = (.range, none) := by
  have failed : snprintf.written n (instrumentText ticker market) = none := by
    rw [Snprintf.written, snprintf.overlong n _ (by rwa [length_instrumentText])]
    rfl
  simp only [alphaToInstrumentId, failed]

/-- An id longer than `INT_MAX` is refused by `alpha_to_instrument_id` even if it fits the
buffer. -/
theorem alphaToInstrumentId_overlong :
    (instrumentText (List.replicate 2147483645 'A') .kospi).length + 1 ≤ 2147483649 ∧
      ∀ snprintf, alphaToInstrumentId snprintf (some (List.replicate 2147483645 'A')) .kospi
        (some 2147483649) = (.range, none) := by
  constructor
  · rw [length_instrumentText, List.length_replicate]
  · intro snprintf
    apply alphaToInstrumentId_of_overlong
    rw [List.length_replicate, intMax]
    norm_num

end AlphaPipeline.MarketData

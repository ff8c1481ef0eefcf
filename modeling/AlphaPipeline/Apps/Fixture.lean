import AlphaPipeline.Backtest.Engine
import AlphaPipeline.Calendar.DateText
import AlphaPipeline.Library.Slots

/-!
# Loading a backtest fixture

`backtest_fixture.c` reads a JSON document with yyjson and fills the configuration, the bars and
the signals of a run. An accessor answers `NULL` or zero where there is no value of its type. The
loader checks texts for `NULL`; it cannot tell a zero.
-/
namespace AlphaPipeline.BacktestFixture

open Backtest CDouble Dates

/-! ### The documents of yyjson -/

/-- A `yyjson_val`. A number is unsigned if it is no less than zero, signed if it is, and real if
it has a fraction or an exponent or does not fit 64 bits. -/
inductive Value (α : Type) where
  | null
  | bool (b : Bool)
  | uint (n : BitVec 64)
  | sint (n : BitVec 64)
  | real (x : α)
  | str (text : Text)
  | arr (items : List (Value α))
  | obj (fields : List (Text × Value α))

variable {α : Type}

def isObj : Option (Value α) → Bool
  | some (.obj _) => true
  | _ => false

/-- `yyjson_obj_get`: the first field with the key. -/
def objGet (value : Option (Value α)) (key : String) : Option (Value α) :=
  match value with
  | some (.obj fields) => (fields.find? fun field => field.1 = key.toList).map (·.2)
  | _ => none

/-- `yyjson_get_str`. -/
def getStr : Option (Value α) → Option Text
  | some (.str text) => some text
  | _ => none

/-- `yyjson_get_sint`: the 64 bits of an integer, read as signed. -/
def getSint : Option (Value α) → Int
  | some (.uint n) => n.toInt
  | some (.sint n) => n.toInt
  | _ => 0

/-- `yyjson_get_num`. -/
def getNum [CDouble α] : Option (Value α) → α
  | some (.real x) => x
  | some (.sint n) => ofInt n.toInt
  | some (.uint n) => ofInt n.toNat
  | _ => literal 0

/-! ### The loader -/

/-- `alpha_fixture_t`. A buffer is a pointer to slots that may not have been written. -/
structure Fixture (α : Type) where
  config : BacktestConfig α
  prices : Option (List (Option α))
  dates : Option (List (Option Int))
  barCount : Nat
  signalDays : Option (List (Option Int))
  signalValues : Option (List (Option AlphaSignal))
  signalCount : Nat

/-- All bytes zero. -/
def Fixture.zero [CDouble α] : Fixture α where
  config :=
    { ticker := [], strategy := [], trainStart := 0, trainEnd := 0, testStart := 0, testEnd := 0
      initialCapital := 0, commissionRatePct := literal 0, taxRatePct := literal 0
      slippageBps := 0 }
  prices := none
  dates := none
  barCount := 0
  signalDays := none
  signalValues := none
  signalCount := 0

/-- Which of the four calls of `malloc` give memory. -/
structure Memory where
  prices : Bool
  dates : Bool
  signalDays : Bool
  signalValues : Bool

def malloc {β : Type} (granted : Bool) (count : Nat) : Option (List (Option β)) :=
  if granted then some (Slots.fresh count) else none

/-- `copy_bounded`. -/
def copyBounded (src : Text) (cap : Nat) : Text := (cString src).take (cap - 1)

/-- `parse_signal`; `none` is `ALPHA_ERR_INVALID_ARG`. -/
def parseSignal (text : Text) : Option AlphaSignal :=
  if cString text = "BUY".toList then some .buy
  else if cString text = "SELL".toList then some .sell
  else if cString text = "HOLD".toList then some .hold
  else if cString text = "CLOSE".toList then some .close
  else none

/-- The day that a text gives, if it is not `NULL` and `alpha_date_parse` takes it. Nothing is
written otherwise. -/
def readDate (iso : Option Text) : Option Int :=
  match iso with
  | none => none
  | some iso =>
    match alphaDateParse (some iso) (some 0) with
    | (.ok, day) => day
    | _ => none

/-- The table of `parse_config`: a key, and the field that its date goes to. -/
def configDates : List (String × (BacktestConfig α → Int → BacktestConfig α)) :=
  [("train_start", fun out day => { out with trainStart := day }),
   ("train_end", fun out day => { out with trainEnd := day }),
   ("test_start", fun out day => { out with testStart := day }),
   ("test_end", fun out day => { out with testEnd := day })]

def parseDates (cfg : Option (Value α)) (out : BacktestConfig α) :
    List (String × (BacktestConfig α → Int → BacktestConfig α)) → AlphaErr × BacktestConfig α
  | [] => (.ok, out)
  | (key, write) :: rest =>
    match readDate (getStr (objGet cfg key)) with
    | none => (.invalidArg, out)
    | some day => parseDates cfg (write out day) rest

/-- `parse_config`. -/
def parseConfig [CDouble α] (cfg : Option (Value α)) (out : BacktestConfig α) :
    AlphaErr × BacktestConfig α :=
  if !isObj cfg then (.invalidArg, out)
  else
    match getStr (objGet cfg "ticker"), getStr (objGet cfg "strategy") with
    | some ticker, some strategy =>
      let out := { out with ticker := copyBounded ticker 32, strategy := copyBounded strategy 16 }
      match parseDates cfg out configDates with
      | (.ok, out) =>
        -- no result of an accessor is looked at from here on
        (.ok,
          { out with
            initialCapital := getSint (objGet cfg "initial_capital")
            commissionRatePct := getNum (objGet cfg "commission_rate_pct")
            taxRatePct := getNum (objGet cfg "tax_rate_pct")
            slippageBps := i32 (getSint (objGet cfg "slippage_bps")) })
      | (_, out) => (.invalidArg, out)
    | _, _ => (.invalidArg, out)

def barDate (bar : Value α) : Option Int := readDate (getStr (objGet (some bar) "date"))

def barClose [CDouble α] (bar : Value α) : α := getNum (objGet (some bar) "close")

/-- What `parse_bars` and `parse_signals` have in common: two buffers with a slot for each item are
allocated and filled. Without a result, a write was outside its buffer. -/
def readInto {β γ δ : Type} (first : β → Option γ) (second : β → Option δ)
    (forFirst forSecond : Bool) (items : List β) :
    Option (AlphaErr × Option (List (Option γ)) × Option (List (Option δ))) :=
  -- both allocations are made before either is looked at
  match malloc forFirst items.length, malloc forSecond items.length with
  | some firsts, some seconds => do
    let (all, firsts, seconds) ← Slots.fill first second 0 firsts seconds items
    some (if all then .ok else .invalidArg, some firsts, some seconds)
  | firsts, seconds => some (.io, firsts, seconds)

/-- `parse_bars`. -/
def parseBars [CDouble α] (memory : Memory) (bars : Option (Value α)) (out : Fixture α) :
    Option (AlphaErr × Fixture α) :=
  match bars with
  | some (.arr items) => do
    let (status, dates, prices) ←
      readInto barDate (fun bar => some (barClose bar)) memory.dates memory.prices items
    some (status, { out with barCount := items.length, dates, prices })
  | _ => some (.invalidArg, out)

/-- The date of a signal is looked at only if its value is a text. -/
def signalDay (field : Text × Value α) : Option Int :=
  if (getStr (some field.2)).isSome then readDate (some field.1) else none

def signalValue (field : Text × Value α) : Option AlphaSignal :=
  (getStr (some field.2)).bind parseSignal

/-- `parse_signals`. -/
def parseSignals (memory : Memory) (signals : Option (Value α)) (out : Fixture α) :
    Option (AlphaErr × Fixture α) :=
  match signals with
  | some (.obj fields) => do
    let (status, signalDays, signalValues) ←
      readInto signalDay signalValue memory.signalDays memory.signalValues fields
    some (status, { out with signalCount := fields.length, signalDays, signalValues })
  -- signals are optional, and anything but an object counts as none
  | _ => some (.ok, out)

/-- `alpha_fixture_free`. -/
def alphaFixtureFree [CDouble α] (_ : Fixture α) : Fixture α := Fixture.zero

/-- What `alpha_fixture_load` does with the root of a document. -/
def parseRoot [CDouble α] (memory : Memory) (root : Value α) (out : Fixture α) :
    Option (AlphaErr × Fixture α) :=
  if !isObj (some root) then some (.invalidArg, out)
  else
    match parseConfig (objGet (some root) "config") out.config with
    | (.ok, config) => do
      let (status, out) ← parseBars memory (objGet (some root) "bars") { out with config }
      if status = .ok then parseSignals memory (objGet (some root) "signals") out
      else some (status, out)
    | (status, config) => some (status, { out with config })

/-- `alpha_fixture_load`, by the document that `yyjson_read_file` makes of the file. -/
def alphaFixtureLoad [CDouble α] (memory : Memory) (doc : Option (Value α))
    (path : Option Text) (out : Option (Fixture α)) : Option (AlphaErr × Option (Fixture α)) :=
  match path, out with
  | some _, some _ =>
    -- what `out` held is cleared first, so a file that cannot be read leaves nothing either
    match doc with
    | none => some (.io, some Fixture.zero)
    | some root => do
      let (status, out) ← parseRoot memory root Fixture.zero
      some (status, some (if status ≠ .ok then alphaFixtureFree out else out))
  | _, _ => some (.invalidArg, out)

/-- `alpha_fixture_replay`, with the entries that it gives a view of. -/
def alphaFixtureReplay (fixture : Fixture α) : Option ReplaySource := do
  let days ← Slots.readFirst (fixture.signalDays.getD []) fixture.signalCount
  let values ← Slots.readFirst (fixture.signalValues.getD []) fixture.signalCount
  some (days.zip values)

/-! ### What is checked -/

/-- The value is the text of a date. -/
def IsDate (value : Option (Value α)) : Prop :=
  ∃ text date, getStr value = some text ∧ Names (cString text) date

/-- The texts of a configuration. -/
structure ConfigChecked (cfg : Option (Value α)) : Prop where
  ticker : (getStr (objGet cfg "ticker")).isSome
  strategy : (getStr (objGet cfg "strategy")).isSome
  dates : ∀ key ∈ ["train_start", "train_end", "test_start", "test_end"], IsDate (objGet cfg key)

/-- There are bars, each with a date, and memory for them. -/
def BarsChecked (memory : Memory) (bars : Option (Value α)) : Prop :=
  ∃ items, bars = some (.arr items) ∧ memory.dates = true ∧ memory.prices = true ∧
    ∀ bar ∈ items, IsDate (objGet (some bar) "date")

/-- The signals, if there are any, have dates and known names, and there is memory for them. -/
def SignalsChecked (memory : Memory) (signals : Option (Value α)) : Prop :=
  ∀ fields, signals = some (.obj fields) →
    memory.signalDays = true ∧ memory.signalValues = true ∧
      ∀ field ∈ fields, (∃ date, Names (cString field.1) date) ∧
        ∃ word, getStr (some field.2) = some word ∧
          cString word ∈ ["BUY", "SELL", "HOLD", "CLOSE"].map String.toList

/-- What is checked of a document, and of the memory. No number is. -/
structure Checked (memory : Memory) (root : Value α) : Prop where
  config : ConfigChecked (objGet (some root) "config")
  bars : BarsChecked memory (objGet (some root) "bars")
  signals : SignalsChecked memory (objGet (some root) "signals")

theorem readDate_eq_some {iso : Option Text} {day : Int} :
    readDate iso = some day ↔
      ∃ text date, iso = some text ∧ Names (cString text) date ∧ date.number = day := by
  cases iso with
  | none => simp [readDate]
  | some text =>
    have parsed := alphaDateParse_ok_iff text 0 day
    rw [readDate]
    constructor
    · intro read
      split at read
      next day' ok =>
        obtain ⟨date, names, number⟩ := parsed.mp (ok.trans (by rw [read]))
        exact ⟨text, date, rfl, names, number⟩
      · cases read
    · rintro ⟨_, date, same, names, number⟩
      obtain rfl := Option.some.inj same
      rw [parsed.mpr ⟨date, names, number⟩]

theorem isDate_iff {value : Option (Value α)} :
    IsDate value ↔ (readDate (getStr value)).isSome := by
  rw [Option.isSome_iff_exists]
  constructor
  · rintro ⟨text, date, read, names⟩
    exact ⟨date.number, readDate_eq_some.mpr ⟨text, date, read, names, rfl⟩⟩
  · rintro ⟨day, read⟩
    obtain ⟨text, date, read, names, -⟩ := readDate_eq_some.mp read
    exact ⟨text, date, read, names⟩

theorem readInto_accepts {β γ δ : Type} {first : β → Option γ} {second : β → Option δ}
    {forFirst forSecond : Bool} {items : List β} (grantedFirst : forFirst = true)
    (grantedSecond : forSecond = true)
    (read : ∀ item ∈ items, (first item).isSome ∧ (second item).isSome) :
    readInto first second forFirst forSecond items =
      some (.ok, some (items.map first), some (items.map second)) := by
  rw [readInto, malloc, malloc, if_pos grantedFirst, if_pos grantedSecond]
  dsimp only
  rw [Slots.fill_fresh first second items read]
  rfl

theorem readInto_refuses {β γ δ : Type} {first : β → Option γ} {second : β → Option δ}
    {forFirst forSecond : Bool} {items : List β}
    (missing : ¬ (forFirst = true ∧ forSecond = true ∧
      ∀ item ∈ items, (first item).isSome ∧ (second item).isSome)) :
    ∃ status firsts seconds, readInto first second forFirst forSecond items =
      some (status, firsts, seconds) ∧ status ≠ .ok := by
  unfold readInto malloc
  cases forFirst with
  | false => exact ⟨_, _, _, rfl, nofun⟩
  | true =>
    cases forSecond with
    | false => exact ⟨_, _, _, rfl, nofun⟩
    | true =>
      obtain ⟨firsts, seconds, stopped⟩ := Slots.fill_stops first second items
        fun read => missing ⟨rfl, rfl, read⟩
      rw [if_pos rfl, if_pos rfl]
      dsimp only
      rw [stopped]
      exact ⟨_, _, _, rfl, nofun⟩

theorem parseSignal_isSome {word : Text} : (parseSignal word).isSome ↔
    cString word ∈ ["BUY", "SELL", "HOLD", "CLOSE"].map String.toList := by
  rw [parseSignal]
  simp only [List.map_cons, List.map_nil, List.mem_cons, List.not_mem_nil, or_false]
  repeat' split
  all_goals simp_all

theorem signalRead_iff {field : Text × Value α} :
    (signalDay field).isSome ∧ (signalValue field).isSome ↔
      (∃ date, Names (cString field.1) date) ∧
        ∃ word, getStr (some field.2) = some word ∧
          cString word ∈ ["BUY", "SELL", "HOLD", "CLOSE"].map String.toList := by
  rw [signalDay, signalValue]
  cases getStr (some field.2) with
  | none => simp
  | some word =>
    have dated : (readDate (some field.1)).isSome ↔ ∃ date, Names (cString field.1) date := by
      rw [Option.isSome_iff_exists]
      constructor
      · rintro ⟨day, read⟩
        obtain ⟨text, date, same, names, -⟩ := readDate_eq_some.mp read
        obtain rfl := Option.some.inj same
        exact ⟨date, names⟩
      · rintro ⟨date, names⟩
        exact ⟨date.number, readDate_eq_some.mpr ⟨field.1, date, rfl, names, rfl⟩⟩
    rw [Option.isSome_some, if_pos rfl, dated, Option.bind_some, parseSignal_isSome]
    simp

/-! ### What is loaded -/

section Loaded

variable [CDouble α]

def configDay (cfg : Option (Value α)) (key : String) : Int :=
  (readDate (getStr (objGet cfg key))).getD 0

/-- The configuration that is loaded. -/
def loadedConfig (cfg : Option (Value α)) : BacktestConfig α where
  ticker := copyBounded ((getStr (objGet cfg "ticker")).getD []) 32
  strategy := copyBounded ((getStr (objGet cfg "strategy")).getD []) 16
  trainStart := configDay cfg "train_start"
  trainEnd := configDay cfg "train_end"
  testStart := configDay cfg "test_start"
  testEnd := configDay cfg "test_end"
  initialCapital := getSint (objGet cfg "initial_capital")
  commissionRatePct := getNum (objGet cfg "commission_rate_pct")
  taxRatePct := getNum (objGet cfg "tax_rate_pct")
  slippageBps := i32 (getSint (objGet cfg "slippage_bps"))

/-- The elements of an array, and the fields of an object. -/
def elements : Option (Value α) → List (Value α)
  | some (.arr items) => items
  | _ => []

def signalFields : Option (Value α) → Option (List (Text × Value α))
  | some (.obj fields) => some fields
  | _ => none

/-- The fixture that is loaded from a document. -/
def loaded (root : Value α) : Fixture α where
  config := loadedConfig (objGet (some root) "config")
  prices := some ((elements (objGet (some root) "bars")).map fun bar => some (barClose bar))
  dates := some ((elements (objGet (some root) "bars")).map barDate)
  barCount := (elements (objGet (some root) "bars")).length
  signalDays := (signalFields (objGet (some root) "signals")).map (List.map signalDay)
  signalValues := (signalFields (objGet (some root) "signals")).map (List.map signalValue)
  signalCount := ((signalFields (objGet (some root) "signals")).getD []).length

omit [CDouble α] in
theorem parseDates_accepts {cfg : Option (Value α)}
    {table : List (String × (BacktestConfig α → Int → BacktestConfig α))}
    (dates : ∀ entry ∈ table, IsDate (objGet cfg entry.1)) (out : BacktestConfig α) :
    parseDates cfg out table =
      (.ok, table.foldl (fun out entry => entry.2 out (configDay cfg entry.1)) out) := by
  -- on the table, with the fields that were written before it
  induction table generalizing out with
  | nil => rfl
  | cons entry table ih =>
    obtain ⟨key, write⟩ := entry
    obtain ⟨here, later⟩ := List.forall_mem_cons.mp dates
    obtain ⟨day, read⟩ := Option.isSome_iff_exists.mp (isDate_iff.mp here)
    rw [parseDates, read, List.foldl_cons, configDay, read]
    exact ih later _

omit [CDouble α] in
theorem parseDates_refuses {cfg : Option (Value α)}
    {table : List (String × (BacktestConfig α → Int → BacktestConfig α))}
    (missing : ¬ ∀ entry ∈ table, IsDate (objGet cfg entry.1)) (out : BacktestConfig α) :
    (parseDates cfg out table).1 ≠ .ok := by
  induction table generalizing out with
  | nil => exact absurd nofun missing
  | cons entry table ih =>
    obtain ⟨key, write⟩ := entry
    rw [parseDates]
    split
    · exact nofun
    next day read =>
      refine ih (fun later => missing (List.forall_mem_cons.mpr ⟨?_, later⟩)) _
      rw [isDate_iff, read]
      rfl

omit [CDouble α] in
theorem isObj_of_objGet {value : Option (Value α)} {key : String}
    (found : (getStr (objGet value key)).isSome) : isObj value = true := by
  unfold objGet at found
  split at found
  · rfl
  · cases found

omit [CDouble α] in
theorem configDates_iff {cfg : Option (Value α)} :
    (∀ key ∈ ["train_start", "train_end", "test_start", "test_end"], IsDate (objGet cfg key)) ↔
      ∀ entry ∈ configDates (α := α), IsDate (objGet cfg entry.1) := by
  have keys : ["train_start", "train_end", "test_start", "test_end"] =
      (configDates (α := α)).map Prod.fst := rfl
  rw [keys, List.forall_mem_map]

theorem parseConfig_accepts {cfg : Option (Value α)} (checked : ConfigChecked cfg)
    (out : BacktestConfig α) : parseConfig cfg out = (.ok, loadedConfig cfg) := by
  obtain ⟨ticker, hasTicker⟩ := Option.isSome_iff_exists.mp checked.ticker
  obtain ⟨strategy, hasStrategy⟩ := Option.isSome_iff_exists.mp checked.strategy
  rw [parseConfig, isObj_of_objGet checked.ticker, hasTicker, hasStrategy]
  dsimp only
  rw [parseDates_accepts (configDates_iff.mp checked.dates), loadedConfig, hasTicker, hasStrategy]
  rfl

theorem parseConfig_refuses {cfg : Option (Value α)} (unchecked : ¬ ConfigChecked cfg)
    (out : BacktestConfig α) : (parseConfig cfg out).1 ≠ .ok := by
  rw [parseConfig]
  split
  · exact nofun
  · split
    next ticker strategy hasTicker hasStrategy =>
      have missing : ¬ ∀ entry ∈ configDates (α := α), IsDate (objGet cfg entry.1) := by
        refine fun dates => unchecked ⟨?_, ?_, configDates_iff.mpr dates⟩
        · rw [hasTicker]
          rfl
        · rw [hasStrategy]
          rfl
      dsimp only
      split
      next ok =>
        -- both texts are there, so it is a date that is missing
        have refused := parseDates_refuses missing
          { out with ticker := copyBounded ticker 32, strategy := copyBounded strategy 16 }
        rw [ok] at refused
        exact absurd rfl refused
      · exact nofun
    · exact nofun

theorem parseBars_accepts {memory : Memory} {bars : Option (Value α)}
    (checked : BarsChecked memory bars) (out : Fixture α) :
    parseBars memory bars out = some (.ok, { out with
      barCount := (elements bars).length
      prices := some ((elements bars).map fun bar => some (barClose bar))
      dates := some ((elements bars).map barDate) }) := by
  obtain ⟨items, rfl, forDates, forPrices, dated⟩ := checked
  have read : ∀ bar ∈ items, (barDate bar).isSome ∧ (some (barClose bar)).isSome :=
    fun bar member => ⟨isDate_iff.mp (dated bar member), rfl⟩
  rw [parseBars, readInto_accepts forDates forPrices read]
  rfl

theorem parseBars_refuses {memory : Memory} {bars : Option (Value α)}
    (unchecked : ¬ BarsChecked memory bars) (out : Fixture α) :
    ∃ status out', parseBars memory bars out = some (status, out') ∧ status ≠ .ok := by
  unfold parseBars
  split
  next items =>
    have missing : ¬ (memory.dates = true ∧ memory.prices = true ∧
        ∀ bar ∈ items, (barDate bar).isSome ∧ (some (barClose bar)).isSome) :=
      fun ⟨forDates, forPrices, read⟩ => unchecked ⟨items, rfl, forDates, forPrices,
        fun bar member => isDate_iff.mpr (read bar member).1⟩
    obtain ⟨status, dates, prices, stopped, failed⟩ := readInto_refuses missing
    rw [stopped]
    exact ⟨status, _, rfl, failed⟩
  · exact ⟨_, _, rfl, nofun⟩

omit [CDouble α] in
theorem parseSignals_accepts {memory : Memory} {signals : Option (Value α)}
    (checked : SignalsChecked memory signals) {out : Fixture α}
    (fresh : out.signalDays = none ∧ out.signalValues = none ∧ out.signalCount = 0) :
    parseSignals memory signals out = some (.ok, { out with
      signalDays := (signalFields signals).map (List.map signalDay)
      signalValues := (signalFields signals).map (List.map signalValue)
      signalCount := ((signalFields signals).getD []).length }) := by
  unfold parseSignals
  split
  next fields =>
    obtain ⟨forDays, forValues, read⟩ := checked fields rfl
    rw [readInto_accepts forDays forValues fun field member =>
      signalRead_iff.mpr (read field member)]
    rfl
  next other =>
    have none : signalFields signals = none := by
      unfold signalFields
      split
      next fields => exact absurd rfl (other fields)
      · rfl
    obtain ⟨days, values, count⟩ := fresh
    rw [none, Option.map_none, Option.map_none, Option.getD_none, List.length_nil, ← days,
      ← values, ← count]

omit [CDouble α] in
theorem parseSignals_refuses {memory : Memory} {signals : Option (Value α)}
    (unchecked : ¬ SignalsChecked memory signals) (out : Fixture α) :
    ∃ status out', parseSignals memory signals out = some (status, out') ∧ status ≠ .ok := by
  unfold parseSignals
  split
  next fields =>
    have missing : ¬ (memory.signalDays = true ∧ memory.signalValues = true ∧
        ∀ field ∈ fields, (signalDay field).isSome ∧ (signalValue field).isSome) := by
      rintro ⟨forDays, forValues, read⟩
      refine unchecked fun _ same => ?_
      cases same
      exact ⟨forDays, forValues, fun field member => signalRead_iff.mp (read field member)⟩
    obtain ⟨status, days, values, stopped, failed⟩ := readInto_refuses missing
    rw [stopped]
    exact ⟨status, _, rfl, failed⟩
  next other => exact absurd (fun fields same => absurd same (other fields)) unchecked

/-- A document that passes the checks is loaded, whatever its numbers are. -/
theorem parseRoot_accepts {memory : Memory} {root : Value α} (checked : Checked memory root) :
    parseRoot memory root Fixture.zero = some (.ok, loaded root) := by
  -- that the root is an object is no check of its own: nothing else has bars
  have object : isObj (some root) = true := by
    obtain ⟨items, bars, -⟩ := checked.bars
    unfold objGet at bars
    split at bars
    next fields same => rw [same]; rfl
    · cases bars
  rw [parseRoot, object, parseConfig_accepts checked.config]
  dsimp only
  rw [parseBars_accepts checked.bars]
  exact parseSignals_accepts checked.signals ⟨rfl, rfl, rfl⟩

/-- Every other document is refused. -/
theorem parseRoot_refuses {memory : Memory} {root : Value α} (unchecked : ¬ Checked memory root)
    (out : Fixture α) :
    ∃ status out', parseRoot memory root out = some (status, out') ∧ status ≠ .ok := by
  rw [parseRoot]
  split
  · exact ⟨_, _, rfl, nofun⟩
  -- the first part that fails decides, and the parts after it are not looked at
  · by_cases config : ConfigChecked (objGet (some root) "config")
    · rw [parseConfig_accepts config]
      dsimp only
      by_cases bars : BarsChecked memory (objGet (some root) "bars")
      · rw [parseBars_accepts bars]
        exact parseSignals_refuses (fun signals => unchecked ⟨config, bars, signals⟩) _
      · obtain ⟨status, out', refused, failed⟩ := parseBars_refuses bars _
        rw [refused]
        exact ⟨status, out', if_neg failed, failed⟩
    · have refused := parseConfig_refuses config out.config
      split
      next ok =>
        rw [ok] at refused
        exact absurd rfl refused
      next status config other same =>
        rw [same] at refused
        exact ⟨status, _, rfl, refused⟩

/-! ### The signals of a run -/

omit [CDouble α] in
/-- A buffer all of whose slots are written is read back. -/
theorem readFirst_map {β γ : Type} {read : β → Option γ} {items : List β} (default : γ)
    (written : ∀ item ∈ items, (read item).isSome) :
    Slots.readFirst (items.map read) items.length =
      some (items.map fun item => (read item).getD default) := by
  have slots : items.map read =
      Slots.holding items.length (items.map fun item => (read item).getD default) := by
    rw [Slots.holding, List.length_map, Nat.sub_self, List.replicate_zero, List.append_nil,
      List.map_map]
    refine List.map_congr_left fun item member => ?_
    obtain ⟨value, is⟩ := Option.isSome_iff_exists.mp (written item member)
    rw [Function.comp_apply, is, Option.getD_some]
  rw [slots, Slots.readFirst_holding _ _ _ (by rw [List.length_map])]
  rw [List.take_of_length_le (by rw [List.length_map])]

/-- The replay source of a loaded fixture has the dates and signals of the document, in order. -/
theorem alphaFixtureReplay_loaded {memory : Memory} {root : Value α}
    (checked : SignalsChecked memory (objGet (some root) "signals")) :
    ∃ source, alphaFixtureReplay (loaded root) = some source ∧
      List.Forall₂ (fun field entry =>
        (∃ date, Names (cString field.1) date ∧ date.number = entry.1) ∧
          signalValue field = some entry.2)
        ((signalFields (objGet (some root) "signals")).getD []) source := by
  cases fields : signalFields (objGet (some root) "signals") with
  | none =>
    refine ⟨[], ?_, .nil⟩
    rw [alphaFixtureReplay, loaded, fields]
    rfl
  | some fields' =>
    have read : ∀ field ∈ fields', (signalDay field).isSome ∧ (signalValue field).isSome := by
      have object : objGet (some root) "signals" = some (.obj fields') := by
        unfold signalFields at fields
        split at fields
        next same => rw [same, Option.some.inj fields]
        · cases fields
      exact fun field member => signalRead_iff.mpr ((checked fields' object).2.2 field member)
    refine ⟨fields'.map fun field => ((signalDay field).getD 0, (signalValue field).getD .hold),
      ?_, ?_⟩
    · rw [alphaFixtureReplay, loaded, fields]
      dsimp only [Option.map_some, Option.getD_some]
      rw [readFirst_map 0 fun field member => (read field member).1,
        readFirst_map .hold fun field member => (read field member).2]
      exact congrArg some (List.zip_map' ..)
    · rw [Option.getD_some, List.forall₂_map_right_iff, List.forall₂_same]
      intro field member
      obtain ⟨hasDay, hasValue⟩ := read field member
      obtain ⟨day, dayRead⟩ := Option.isSome_iff_exists.mp hasDay
      obtain ⟨value, valueRead⟩ := Option.isSome_iff_exists.mp hasValue
      refine ⟨?_, by rw [valueRead, Option.getD_some]⟩
      rw [signalDay] at dayRead
      split at dayRead
      next text =>
        obtain ⟨_, date, same, names, number⟩ := readDate_eq_some.mp dayRead
        obtain rfl := Option.some.inj same
        rw [signalDay, if_pos text, dayRead, Option.getD_some]
        exact ⟨date, names, number⟩
      · cases dayRead

/-! ### The numbers -/

omit [CDouble α] in
/-- The integer that a value is. -/
def integer? : Option (Value α) → Option Int
  | some (.uint n) => some n.toNat
  | some (.sint n) => some n.toInt
  | _ => none

/-- The number that a value is, as a double. -/
def number? : Option (Value α) → Option α
  | some (.uint n) => some (ofInt n.toNat)
  | some (.sint n) => some (ofInt n.toInt)
  | some (.real x) => some x
  | _ => none

/-- The numbers of a document are there, and fit the fields they are for. -/
structure NumbersFit (root : Value α) : Prop where
  capital : ∃ n, integer? (objGet (objGet (some root) "config") "initial_capital") = some n ∧
    Fits 64 n
  slippage : ∃ n, integer? (objGet (objGet (some root) "config") "slippage_bps") = some n ∧
    Fits 32 n
  commission : ∃ x, number? (objGet (objGet (some root) "config") "commission_rate_pct") = some x
  tax : ∃ x, number? (objGet (objGet (some root) "config") "tax_rate_pct") = some x
  closes : ∀ bar ∈ elements (objGet (some root) "bars"),
    ∃ x, number? (objGet (some bar) "close") = some x

/-- The numbers of a fixture are those of the document. -/
structure Carries (root : Value α) (fixture : Fixture α) : Prop where
  capital : integer? (objGet (objGet (some root) "config") "initial_capital") =
    some fixture.config.initialCapital
  slippage : integer? (objGet (objGet (some root) "config") "slippage_bps") =
    some fixture.config.slippageBps
  commission : number? (objGet (objGet (some root) "config") "commission_rate_pct") =
    some fixture.config.commissionRatePct
  tax : number? (objGet (objGet (some root) "config") "tax_rate_pct") =
    some fixture.config.taxRatePct
  barCount : fixture.barCount = (elements (objGet (some root) "bars")).length
  prices : fixture.prices = some ((elements (objGet (some root) "bars")).map fun bar =>
    number? (objGet (some bar) "close"))

/-- No number is invented: a document is loaded only if its numbers fit, with these numbers, and a
document whose numbers do not fit is refused and leaves nothing. -/
def Faithful (root : Value α) (status : AlphaErr) (fixture : Fixture α) : Prop :=
  (status = .ok → NumbersFit root ∧ Carries root fixture) ∧
    (¬ NumbersFit root → status ≠ .ok ∧ fixture = Fixture.zero)

omit [CDouble α] in
theorem getSint_of_integer {value : Option (Value α)} {n : Int} (is : integer? value = some n)
    (fits : Fits 64 n) : getSint value = n := by
  unfold integer? at is
  split at is
  next bits =>
    obtain rfl := Option.some.inj is
    -- the sign bit is clear
    have small : 2 * bits.toNat < 2 ^ 64 := by
      have high := fits.2
      omega
    exact BitVec.toInt_eq_toNat_of_lt small
  next bits => exact Option.some.inj is
  · cases is

theorem getNum_of_number {value : Option (Value α)} {x : α} (is : number? value = some x) :
    getNum value = x := by
  unfold number? at is
  split at is
  · exact Option.some.inj is
  · exact Option.some.inj is
  · exact Option.some.inj is
  · cases is

/-- Numbers that fit are loaded as they are. -/
theorem loaded_carries {root : Value α} (fit : NumbersFit root) : Carries root (loaded root) where
  capital := by
    obtain ⟨n, is, fits⟩ := fit.capital
    exact is.trans (congrArg some (getSint_of_integer is fits).symm)
  slippage := by
    obtain ⟨n, is, low, high⟩ := fit.slippage
    -- the accessor reads 64 bits, of which the field keeps 32
    have wide : Fits 64 n := by
      constructor <;> omega
    have exact32 : i32 n = n := i32_of_range low high
    change _ = some (i32 (getSint (objGet (objGet (some root) "config") "slippage_bps")))
    rw [getSint_of_integer is wide, exact32, is]
  commission := by
    obtain ⟨x, is⟩ := fit.commission
    exact is.trans (congrArg some (getNum_of_number is).symm)
  tax := by
    obtain ⟨x, is⟩ := fit.tax
    exact is.trans (congrArg some (getNum_of_number is).symm)
  barCount := rfl
  prices := by
    refine congrArg some (List.map_congr_left fun bar member => ?_)
    obtain ⟨x, is⟩ := fit.closes bar member
    rw [is, barClose, getNum_of_number is]

/-- For every document: `alpha_fixture_load` invents no number exactly if the document that passes
the checks of its texts has all its numbers. -/
theorem alphaFixtureLoad_faithful_iff (memory : Memory) (root : Value α) (path : Text)
    (held : Fixture α) :
    ∃ status fixture,
      alphaFixtureLoad memory (some root) (some path) (some held) = some (status, some fixture) ∧
      (Faithful root status fixture ↔ (Checked memory root → NumbersFit root)) := by
  rw [alphaFixtureLoad]
  by_cases checked : Checked memory root
  · refine ⟨.ok, loaded root, ?_, fun faithful _ => (faithful.1 rfl).1, fun fit => ?_⟩
    · rw [parseRoot_accepts checked]
      rfl
    · exact ⟨fun _ => ⟨fit checked, loaded_carries (fit checked)⟩,
        fun misfit => absurd (fit checked) misfit⟩
  · obtain ⟨status, out, refused, failed⟩ := parseRoot_refuses checked Fixture.zero
    refine ⟨status, Fixture.zero, ?_, fun _ passed => absurd passed checked, fun _ => ?_⟩
    · rw [refused]
      exact congrArg (fun out => some (status, some out)) (if_pos failed)
    · exact ⟨fun ok => absurd ok failed, fun _ => ⟨failed, rfl⟩⟩

end Loaded

/-- A document with neither a capital nor a price. -/
def noCapital : Value ℚ :=
  let text (s : String) : Value ℚ := .str s.toList
  let field (key : String) (value : Value ℚ) : Text × Value ℚ := (key.toList, value)
  .obj [
    field "config" (.obj [
      field "ticker" (text "005930"), field "strategy" (text "replay"),
      field "train_start" (text "2024-01-01"), field "train_end" (text "2024-06-30"),
      field "test_start" (text "2024-07-01"), field "test_end" (text "2024-12-31")]),
    field "bars" (.arr [.obj [field "date" (text "2024-07-01")]])]

/-- It is loaded, with a capital and a price of zero. -/
theorem alphaFixtureLoad_invents :
    ∃ fixture, alphaFixtureLoad ⟨true, true, true, true⟩ (some noCapital)
        (some "fixture.json".toList) (some Fixture.zero) = some (.ok, some fixture) ∧
      fixture.config.initialCapital = 0 ∧ fixture.prices = some [some 0] ∧
      ¬ Faithful noCapital .ok fixture := by
  have missing : integer? (objGet (objGet (some noCapital) "config") "initial_capital") = none := by
    rfl
  refine ⟨_, rfl, rfl, rfl, fun faithful => ?_⟩
  obtain ⟨n, is, -⟩ := (faithful.1 rfl).1.capital
  rw [missing] at is
  cases is

end AlphaPipeline.BacktestFixture

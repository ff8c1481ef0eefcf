import AlphaPipeline.Apps.Fixture
import AlphaPipeline.Backtest.Ledger

/-!
# The backtest program

`backtest_runner.c` loads a document, replays its signals over its bars and prints the figures of
the run. From the document to the last snapshot, the run does what the document says: what is
bought or sold on a day is decided by the first signal that names the day, and the bars give the
dates and the prices.
-/
namespace AlphaPipeline.BacktestRunner

open Backtest BacktestFixture CDouble Dates

/-! ### The program -/

/-- What the floating-point environment answers: whether `fesetround` succeeds, and whether
`fegetround` then says `FE_TONEAREST`. -/
structure Rounding where
  accepted : Bool
  nearest : Bool

/-- `alpha_initialize`. -/
def alphaInitialize (rounding : Rounding) : AlphaErr :=
  if !rounding.accepted || !rounding.nearest then .range else .ok

section Program

variable {α : Type} [CDouble α]

/-- An array that is indexed up to `count`; without a result, a slot was never written. -/
def arrayOf {β : Type} (default : β) (slots : Option (List (Option β))) (count : Nat) :
    Option (Option (Nat → β)) :=
  match slots with
  | none => some none
  | some slots => do
    let values ← Slots.readFirst slots count
    some (some fun i => values.getD i default)

/-- `run_once`: the status, and `*result` afterwards. -/
def runOnce (platform : Platform α) (alloc : Allocations) (fixture : Fixture α)
    (result : BacktestResult α) : Option (Nat × Option (BacktestResult α)) := do
  let replay ← alphaFixtureReplay fixture
  let cost := alphaCostModelMake fixture.config.commissionRatePct fixture.config.taxRatePct
    fixture.config.slippageBps
  let prices ← arrayOf (literal 0) fixture.prices fixture.barCount
  let dates ← arrayOf 0 fixture.dates fixture.barCount
  let (err, result) ← alphaBacktestRun platform alloc (some fixture.config) prices dates
    fixture.barCount (some alphaReplaySignal) replay (some cost) (some result)
  some (if err = .ok then 0 else 1, result)

/-- The figures that `cmd_run` prints, before they are rounded for the output. -/
structure Summary (α : Type) where
  bars : Nat
  trades : Nat
  finalPortfolioValue : α
  metrics : BacktestMetrics α

/-- The portfolio value that `cmd_run` prints: that of the last snapshot, if there is one. -/
def finalValue (result : BacktestResult α) : Option α :=
  if result.snapshotCount ≠ 0 then
    (Slots.read result.snapshots (result.snapshotCount - 1)).map (·.portfolioValue)
  else some (literal 0)

/-- `cmd_run`: the exit code, and what is printed. -/
def cmdRun (platform : Platform α) (alloc : Allocations) (fixture : Fixture α)
    (result : BacktestResult α) : Option (Nat × Option (Summary α)) := do
  let (status, result) ← runOnce platform alloc fixture result
  if status ≠ 0 then some (1, none)
  else do
    let result ← result
    let value ← finalValue result
    some (0, some ⟨result.snapshotCount, result.tradeCount, value, result.metrics⟩)

/-- What `main` does with the arguments `run` and a path, by the document that `yyjson_read_file`
makes of the file. What the stack holds for the fixture and the result is arbitrary. -/
def runFile (rounding : Rounding) (platform : Platform α) (alloc : Allocations) (memory : Memory)
    (doc : Option (Value α)) (path : Text) (fixture : Fixture α) (result : BacktestResult α) :
    Option (Nat × Option (Summary α)) :=
  if alphaInitialize rounding ≠ .ok then some (1, none)
  else do
    let (status, fixture) ← alphaFixtureLoad memory doc (some path) (some fixture)
    if status ≠ .ok then some (1, none)
    else do
      let fixture ← fixture
      cmdRun platform alloc fixture result

end Program

/-! ### What a document says -/

section Document

variable {α : Type}

/-- The word of a document for a day: that of the first signal whose key names the day. -/
inductive Said : List (Text × Value α) → Int → String → Prop where
  | here {key text : Text} {value : Value α} {rest : List (Text × Value α)} {date : Gregorian.Date}
      {word : String} (names : Names (cString key) date) (read : getStr (some value) = some text)
      (same : cString text = word.toList) : Said ((key, value) :: rest) date.number word
  | later {key : Text} {value : Value α} {rest : List (Text × Value α)} {day : Int}
      {word : String} (other : ∀ date, Names (cString key) date → date.number ≠ day)
      (said : Said rest day word) : Said ((key, value) :: rest) day word

/-- The word of a signal. -/
def signalWord : AlphaSignal → String
  | .buy => "BUY"
  | .sell => "SELL"
  | .hold => "HOLD"
  | .close => "CLOSE"

theorem parseSignal_iff {text : Text} {signal : AlphaSignal} :
    parseSignal text = some signal ↔ cString text = (signalWord signal).toList := by
  unfold parseSignal
  constructor
  · intro parsed
    repeat' split at parsed
    all_goals cases parsed
    all_goals assumption
  · intro word
    rw [word]
    cases signal <;> decide

/-- The fields of the signals. -/
def signalsOf (root : Value α) : List (Text × Value α) :=
  (signalFields (objGet (some root) "signals")).getD []

/-- The scan of `alpha_replay_signal` finds the word of the document. A day without a word is
like a day of `HOLD`. -/
theorem replay_iff_said {fields : List (Text × Value α)} {source : ReplaySource}
    (read : List.Forall₂ (fun field entry =>
      (∃ date, Names (cString field.1) date ∧ date.number = entry.1) ∧
        signalValue field = some entry.2) fields source)
    {signal : AlphaSignal} (order : signal ≠ .hold) (day : Int) :
    ((source.find? fun entry => entry.1 = day).map (·.2)).getD .hold = signal ↔
      Said fields day (signalWord signal) := by
  induction read with
  | nil =>
    constructor
    · exact fun held => absurd held.symm order
    · exact nofun
  | @cons field entry fields source first _ ih =>
    obtain ⟨key, value⟩ := field
    obtain ⟨⟨date, names, number⟩, valued⟩ := first
    obtain ⟨text, isText, parsed⟩ := Option.bind_eq_some_iff.mp valued
    have word := parseSignal_iff.mp parsed
    by_cases named : entry.1 = day
    · rw [List.find?_cons_of_pos (by simpa using named), Option.map_some, Option.getD_some]
      have found : date.number = day := number.trans named
      constructor
      · rintro rfl
        exact found ▸ Said.here names isText word
      · -- the key names one date, so no later signal is for this day
        intro said
        cases said with
        | here _ read same =>
          obtain rfl := Option.some.inj (isText.symm.trans read)
          exact Option.some.inj (parsed.symm.trans (parseSignal_iff.mpr same))
        | later other _ => exact absurd found (other date names)
    · rw [List.find?_cons_of_neg (by simpa using named), ih]
      have other : ∀ date, Names (cString key) date → date.number ≠ day := by
        intro date' names' found
        obtain rfl := names.unique names'
        exact named (number.symm.trans found)
      constructor
      · exact Said.later other
      · intro said
        cases said with
        | here names' => exact absurd rfl (other _ names')
        | later _ said => exact said

end Document

/-! ### The trades of a replayed run -/

section Replay

variable {α : Type} [CDouble α] (inputs : Inputs ReplaySource α) (platform : Platform α)

/-- A replay source does not change. -/
theorem ledger_ctx (replays : inputs.signalFn = alphaReplaySignal) (k : Nat) :
    (inputs.ledger platform k).ctx = inputs.signalCtx := by
  induction k with
  | zero => rfl
  | succ k ih =>
    refine Eq.trans ?_ ih
    rw [Inputs.ledger, Inputs.post, Inputs.signal, replays]
    rfl

/-- The signal of a bar is the one of its day. -/
theorem ledger_signal (replays : inputs.signalFn = alphaReplaySignal) (i : Nat) :
    (inputs.ledger platform i).signal inputs i =
      ((inputs.signalCtx.find? fun entry => entry.1 = inputs.dates i).map (·.2)).getD .hold := by
  rw [Ledger.signal, Inputs.signal, replays, ledger_ctx inputs platform replays]
  rfl

end Replay

section Engine

variable {σ α : Type} [CDouble α] (inputs : Inputs σ α) (platform : Platform α)

/-- The shares that are held before bar `i`. -/
def held (i : Nat) : Int := (inputs.ledger platform i).state.positionQty

/-- The trade is the one of bar `i`. -/
structure TradedOn (i : Nat) (trade : TradeRecord α) : Prop where
  date : trade.date = inputs.dates i
  price : trade.price = inputs.prices i
  bought : trade.side = .buy → (inputs.ledger platform i).signal inputs i = .buy ∧
    held inputs platform (i + 1) = trade.quantity
  sold : trade.side = .sell → ((inputs.ledger platform i).signal inputs i = .sell ∨
    (inputs.ledger platform i).signal inputs i = .close) ∧ held inputs platform (i + 1) = 0

/-- A bar takes one trade or none. -/
theorem bar_trades (i : Nat) :
    (inputs.ledger platform (i + 1)).trades = (inputs.ledger platform i).trades ∨
      ∃ trade, (inputs.ledger platform (i + 1)).trades =
        (inputs.ledger platform i).trades ++ [trade] ∧ TradedOn inputs platform i trade := by
  cases traded : inputs.trade platform (inputs.ledger platform i).state
      ((inputs.ledger platform i).signal inputs i) i with
  | none =>
    left
    simp only [Inputs.ledger, Inputs.post, Inputs.afterTrade, traded, List.append_nil]
  | some taken =>
    right
    have after : held inputs platform (i + 1) = taken.1.positionQty := by
      simp only [held, Inputs.ledger, Inputs.post, Inputs.afterTrade, traded,
        takeSnapshot_positionQty]
    refine ⟨taken.2, by simp only [Inputs.ledger, Inputs.post, Inputs.afterTrade, traded], ?_⟩
    rcases trade_shapes inputs platform traded with
      ⟨buy, _, quantity, _, rfl⟩ | ⟨sell, _, rfl⟩
    · exact ⟨rfl, rfl, fun _ => ⟨buy, after⟩, fun sold => AlphaSide.noConfusion sold⟩
    · exact ⟨rfl, rfl, fun bought => AlphaSide.noConfusion bought, fun _ => ⟨sell, after⟩⟩

/-- The trades are those of bars in order, at most one a bar. -/
theorem trades_on_bars (k : Nat) : ∃ bars : List Nat, bars.Pairwise (· < ·) ∧ (∀ i ∈ bars, i < k) ∧
    List.Forall₂ (TradedOn inputs platform) bars (inputs.ledger platform k).trades := by
  induction k with
  | zero => exact ⟨[], .nil, nofun, .nil⟩
  | succ k ih =>
    obtain ⟨bars, sorted, inside, traded⟩ := ih
    rcases bar_trades inputs platform k with same | ⟨trade, added, here⟩
    · rw [same]
      exact ⟨bars, sorted, fun i member => Nat.lt_succ_of_lt (inside i member), traded⟩
    · refine ⟨bars ++ [k], ?_, ?_, ?_⟩
      · rw [List.pairwise_append]
        refine ⟨sorted, List.pairwise_singleton _ _, fun i member j last => ?_⟩
        rw [List.mem_singleton.mp last]
        exact inside i member
      · intro i member
        rcases List.mem_append.mp member with old | last
        · exact Nat.lt_succ_of_lt (inside i old)
        · rw [List.mem_singleton.mp last]
          exact Nat.lt_succ_self k
      · rw [added]
        exact List.rel_append traded (.cons here .nil)

/-- A sell or close signal leaves nothing. -/
theorem held_after_sell {i : Nat} (sell : (inputs.ledger platform i).signal inputs i = .sell ∨
    (inputs.ledger platform i).signal inputs i = .close) : held inputs platform (i + 1) = 0 := by
  -- the book holds nothing or a lot, which is sold
  have book := held_of_booked (ledger_balanced inputs platform i).booked
  rcases afterTrade_cases inputs platform (inputs.ledger platform i) i with
    ⟨quiet, ignored⟩ | ⟨after, trade, traded, entered, reason⟩
  · have kept : held inputs platform (i + 1) = held inputs platform i := by
      simp only [held, Inputs.ledger, Inputs.post, quiet, takeSnapshot_positionQty]
    rw [kept]
    rcases book with ⟨_, flat⟩ | ⟨_, holding, _⟩
    · exact flat
    · exact absurd ⟨sell, holding⟩ ignored
  · have taken : held inputs platform (i + 1) = after.positionQty := by
      simp only [held, Inputs.ledger, Inputs.post, traded, takeSnapshot_positionQty]
    rw [taken]
    rcases reason with ⟨_, buy, _⟩ | ⟨sold, _⟩
    · rcases sell with sell | close
      · rw [buy] at sell
        cases sell
      · rw [buy] at close
        cases close
    · rcases bookTrade_cases entered with ⟨bought, _⟩ | ⟨_, _, _, flat⟩
      · rw [sold] at bought
        cases bought
      · exact flat

/-- A snapshot shows the date and price of its bar, and what is held after it. -/
theorem shot_shows {i k : Nat} {shot : DailySnapshot α}
    (entry : (inputs.ledger platform k).snapshots[i]? = some shot) :
    i < k ∧ shot.date = inputs.dates i ∧ shot.closePrice = inputs.prices i ∧
      shot.positionQty = held inputs platform (i + 1) := by
  have inside : i < k := by
    rw [← (ledger_balanced inputs platform k).bars]
    exact (List.getElem?_eq_some_iff.mp entry).1
  obtain ⟨_, taken, date, price, _, quantity, _⟩ := snapshot_of_bar inputs platform inside
  obtain rfl := Option.some.inj (taken.symm.trans entry)
  exact ⟨inside, date, price, quantity⟩

/-- Without a sell or close signal what is held stays, but for a buy signal while flat. -/
theorem held_kept {i : Nat} (sell : (inputs.ledger platform i).signal inputs i ≠ .sell)
    (close : (inputs.ledger platform i).signal inputs i ≠ .close)
    (buy : (inputs.ledger platform i).signal inputs i = .buy → held inputs platform i ≠ 0) :
    held inputs platform (i + 1) = held inputs platform i := by
  rcases afterTrade_cases inputs platform (inputs.ledger platform i) i with
    ⟨quiet, _⟩ | ⟨_, _, _, _, ⟨_, bought, flat⟩ | ⟨_, sold, _⟩⟩
  · simp only [held, Inputs.ledger, Inputs.post, quiet, takeSnapshot_positionQty]
  · exact absurd flat (buy bought)
  · rcases sold with sold | closed
    · exact absurd sold sell
    · exact absurd closed close

end Engine

/-! ### From the document to the figures -/

section Follows

variable {α : Type} [CDouble α]

/-- The snapshot is for the date of the bar, at its close. -/
def ShotOf (bar : Value α) (shot : DailySnapshot α) : Prop :=
  (∃ text date, getStr (objGet (some bar) "date") = some text ∧ Names (cString text) date ∧
    date.number = shot.date) ∧ shot.closePrice = getNum (objGet (some bar) "close")

/-- The trade was made on the day of the snapshot, at its price, because the document says so, and
the snapshot shows the position it left. -/
structure TradedAt (root : Value α) (shot : DailySnapshot α) (trade : TradeRecord α) : Prop where
  date : trade.date = shot.date
  price : trade.price = shot.closePrice
  bought : trade.side = .buy → Said (signalsOf root) shot.date "BUY" ∧
    shot.positionQty = trade.quantity
  sold : trade.side = .sell →
    (Said (signalsOf root) shot.date "SELL" ∨ Said (signalsOf root) shot.date "CLOSE") ∧
      shot.positionQty = 0

/-- The shares held before day `i`, as the snapshots show them. -/
def heldBefore (snapshots : List (DailySnapshot α)) : Nat → Int
  | 0 => 0
  | i + 1 => (snapshots[i]?.map (·.positionQty)).getD 0

/-- The snapshots and trades are what the document asks for. -/
structure Follows (root : Value α) (snapshots : List (DailySnapshot α))
    (trades : List (TradeRecord α)) : Prop where
  /-- There is a snapshot for each bar. -/
  bars : List.Forall₂ ShotOf (elements (objGet (some root) "bars")) snapshots
  /-- Each trade has a day of its own. -/
  days : ∃ days : List Nat, days.Pairwise (· < ·) ∧
    List.Forall₂ (fun i trade => ∃ shot, snapshots[i]? = some shot ∧ TradedAt root shot trade)
      days trades
  /-- Nothing is held at the end of a day to sell. -/
  sells : ∀ shot ∈ snapshots,
    Said (signalsOf root) shot.date "SELL" ∨ Said (signalsOf root) shot.date "CLOSE" →
      shot.positionQty = 0
  /-- Only a day to sell, or a day to buy while nothing is held, changes the position. -/
  keeps : ∀ i shot, snapshots[i]? = some shot → ¬ Said (signalsOf root) shot.date "SELL" →
    ¬ Said (signalsOf root) shot.date "CLOSE" →
    (Said (signalsOf root) shot.date "BUY" → heldBefore snapshots i ≠ 0) →
      shot.positionQty = heldBefore snapshots i

/-- The inputs of a run of a loaded document. -/
def inputsOf (root : Value α) (source : ReplaySource) : Inputs ReplaySource α where
  config := loadedConfig (objGet (some root) "config")
  prices := fun i => ((elements (objGet (some root) "bars")).map barClose).getD i (literal 0)
  dates := fun i =>
    ((elements (objGet (some root) "bars")).map fun bar => (barDate bar).getD 0).getD i 0
  n := (elements (objGet (some root) "bars")).length
  signalFn := alphaReplaySignal
  signalCtx := source
  cost := alphaCostModelMake (loadedConfig (objGet (some root) "config")).commissionRatePct
    (loadedConfig (objGet (some root) "config")).taxRatePct
    (loadedConfig (objGet (some root) "config")).slippageBps

theorem arrayOf_map {β γ : Type} {read : β → Option γ} {items : List β} (default : γ)
    (written : ∀ item ∈ items, (read item).isSome) :
    arrayOf default (some (items.map read)) items.length =
      some (some fun i => (items.map fun item => (read item).getD default).getD i default) := by
  rw [arrayOf, readFirst_map default written]
  rfl

omit [CDouble α] in
theorem elements_dated {memory : Memory} {root : Value α} (checked : Checked memory root) :
    ∀ bar ∈ elements (objGet (some root) "bars"), IsDate (objGet (some bar) "date") := by
  obtain ⟨items, bars, _, _, dated⟩ := checked.bars
  rw [bars]
  exact dated

/-- A loaded document is run on its own inputs. -/
theorem runOnce_loaded {memory : Memory} {root : Value α} (checked : Checked memory root)
    {source : ReplaySource} (replay : alphaFixtureReplay (loaded root) = some source)
    (platform : Platform α) (alloc : Allocations) (result : BacktestResult α) :
    runOnce platform alloc (loaded root) result =
      ((inputsOf root source).run platform alloc result).map fun returned =>
        (if returned.1 = .ok then 0 else 1, returned.2) := by
  have prices : arrayOf (literal 0) (loaded root).prices (loaded root).barCount =
      some (some (inputsOf root source).prices) :=
    arrayOf_map (literal 0) fun _ _ => rfl
  have dates : arrayOf 0 (loaded root).dates (loaded root).barCount =
      some (some (inputsOf root source).dates) :=
    arrayOf_map 0 fun bar member => isDate_iff.mp (elements_dated checked bar member)
  rw [runOnce, replay]
  simp only [Option.bind_eq_bind, Option.bind_some, prices, dates]
  rw [Option.map_eq_bind]
  rfl

/-- What is held before a bar is what the snapshot before it shows. -/
theorem heldBefore_eq {σ : Type} (inputs : Inputs σ α) (platform : Platform α) {i k : Nat}
    (inside : i ≤ k) :
    heldBefore (inputs.ledger platform k).snapshots i = held inputs platform i := by
  cases i with
  | zero => rfl
  | succ i =>
    obtain ⟨shot, taken, _, _, _, quantity, _⟩ := snapshot_of_bar inputs platform inside
    rw [heldBefore, taken]
    exact quantity

/-- The entries of the replay source are the signals of the document. -/
def Replays (root : Value α) (source : ReplaySource) : Prop :=
  List.Forall₂ (fun field entry =>
    (∃ date, Names (cString field.1) date ∧ date.number = entry.1) ∧
      signalValue field = some entry.2) (signalsOf root) source

/-- A bar is bought or sold on as the document says. -/
theorem signal_iff_said {root : Value α} {source : ReplaySource} (replays : Replays root source)
    (platform : Platform α) (i : Nat) (signal : AlphaSignal) (order : signal ≠ .hold) :
    ((inputsOf root source).ledger platform i).signal (inputsOf root source) i = signal ↔
      Said (signalsOf root) ((inputsOf root source).dates i) (signalWord signal) := by
  rw [ledger_signal (inputsOf root source) platform rfl]
  exact replay_iff_said replays order _

/-- The snapshots are those of the bars. -/
theorem shots_of_bars {memory : Memory} {root : Value α} (checked : Checked memory root)
    (source : ReplaySource) (platform : Platform α) :
    List.Forall₂ ShotOf (elements (objGet (some root) "bars"))
      ((inputsOf root source).ledger platform (inputsOf root source).n).snapshots := by
  rw [List.forall₂_iff_get]
  refine ⟨(ledger_balanced _ platform _).bars.symm, fun i inBars inShots => ?_⟩
  obtain ⟨_, date, price, _⟩ := shot_shows (inputsOf root source) platform
    (List.getElem?_eq_getElem inShots)
  have dated := elements_dated checked _ (List.getElem_mem inBars)
  obtain ⟨day, read⟩ := Option.isSome_iff_exists.mp (isDate_iff.mp dated)
  obtain ⟨text, named, isText, names, number⟩ := readDate_eq_some.mp read
  refine ⟨⟨text, named, isText, names, ?_⟩, ?_⟩
  · rw [number, List.get_eq_getElem, date]
    simp [inputsOf, barDate, List.getD_eq_getElem?_getD, inBars, read]
  · rw [List.get_eq_getElem, price]
    simp [inputsOf, barClose, List.getD_eq_getElem?_getD, inBars]

/-- The ledger of a document follows the document. -/
theorem ledger_follows {memory : Memory} {root : Value α} (checked : Checked memory root)
    {source : ReplaySource} (replays : Replays root source) (platform : Platform α) :
    Follows root ((inputsOf root source).ledger platform (inputsOf root source).n).snapshots
      ((inputsOf root source).ledger platform (inputsOf root source).n).trades := by
  have buys (i) := signal_iff_said replays platform i .buy nofun
  have sells (i) := signal_iff_said replays platform i .sell nofun
  have closes (i) := signal_iff_said replays platform i .close nofun
  refine ⟨shots_of_bars checked source platform, ?_, ?_, ?_⟩
  · obtain ⟨days, sorted, inside, traded⟩ :=
      trades_on_bars (inputsOf root source) platform (inputsOf root source).n
    refine ⟨days, sorted, ((List.forall₂_and_left _ _).mpr ⟨inside, traded⟩).imp ?_⟩
    rintro i trade ⟨bar, date, price, bought, sold⟩
    obtain ⟨shot, entry, _⟩ := snapshot_of_bar (inputsOf root source) platform bar
    obtain ⟨_, shotDate, shotPrice, quantity⟩ := shot_shows _ platform entry
    refine ⟨shot, entry, date.trans shotDate.symm, price.trans shotPrice.symm, ?_, ?_⟩
    · intro side
      rw [shotDate, quantity]
      exact ⟨(buys i).mp (bought side).1, (bought side).2⟩
    · intro side
      rw [shotDate, quantity]
      exact ⟨(sold side).1.imp (sells i).mp (closes i).mp, (sold side).2⟩
  · intro shot member said
    obtain ⟨i, entry⟩ := List.mem_iff_getElem?.mp member
    obtain ⟨_, date, _, quantity⟩ := shot_shows _ platform entry
    rw [date] at said
    rw [quantity]
    exact held_after_sell _ platform (said.imp (sells i).mpr (closes i).mpr)
  · intro i shot entry noSell noClose buy
    obtain ⟨inside, date, _, quantity⟩ := shot_shows _ platform entry
    rw [date] at noSell noClose buy
    rw [heldBefore_eq _ platform inside.le] at buy ⊢
    rw [quantity]
    exact held_kept _ platform (fun sell => noSell ((sells i).mp sell))
      (fun close => noClose ((closes i).mp close)) (fun bought => buy ((buys i).mp bought))

/-- The figures are those of the snapshots and trades. -/
structure Summary.Of (summary : Summary α) (platform : Platform α) (alloc : Allocations)
    (capital : Int) (snapshots : List (DailySnapshot α)) (trades : List (TradeRecord α)) :
    Prop where
  barCount : summary.bars = snapshots.length
  tradeCount : summary.trades = trades.length
  value : summary.finalPortfolioValue =
    (snapshots.getLast?.map (·.portfolioValue)).getD (literal 0)
  metrics : alphaComputeMetrics platform alloc snapshots trades capital = some summary.metrics

/-- A document that is run: it passes the checks, its test period comes after its training period,
and there is memory for the arrays of its bars. -/
structure Accepted (alloc : Allocations) (memory : Memory) (root : Value α) : Prop where
  checked : Checked memory root
  periods : configDay (objGet (some root) "config") "train_end" <
    configDay (objGet (some root) "config") "test_start"
  arrays : (elements (objGet (some root) "bars")).length = 0 ∨
    (alloc.trades = true ∧ alloc.snapshots = true)

/-- A run that is refused returns an error. -/
theorem run_refused {σ : Type} (inputs : Inputs σ α) (platform : Platform α) {alloc : Allocations}
    (refused : ¬ (inputs.config.trainEnd < inputs.config.testStart ∧
      (inputs.n = 0 ∨ (alloc.trades = true ∧ alloc.snapshots = true))))
    (out : BacktestResult α) :
    ∃ err result, inputs.run platform alloc out = some (err, result) ∧ err ≠ .ok := by
  simp only [Inputs.run, alphaBacktestRun]
  by_cases ordered : inputs.config.trainEnd ≥ inputs.config.testStart
  · rw [if_pos ordered]
    exact ⟨_, _, rfl, by decide⟩
  · have missing := array_missing fun arrays => refused ⟨not_le.mp ordered, arrays⟩
    rw [if_neg ordered, Inputs.backtest, if_pos missing]
    exact ⟨.io, _, rfl, by decide⟩

theorem finalValue_eq {result : BacktestResult α} {snapshots : List (DailySnapshot α)}
    (written : result.snapshots = Slots.holding result.snapshotCount snapshots)
    (count : snapshots.length = result.snapshotCount) :
    finalValue result = some ((snapshots.getLast?.map (·.portfolioValue)).getD (literal 0)) := by
  rw [finalValue, written, Slots.read_holding, ← count, ← List.getLast?_eq_getElem?]
  rcases List.eq_nil_or_concat snapshots with rfl | ⟨earlier, last, rfl⟩
  · rfl
  · simp

/-- `cmd_run` prints the figures of the ledger. -/
theorem cmdRun_prints {memory : Memory} {root : Value α} {alloc : Allocations}
    (accepted : Accepted alloc memory root) {source : ReplaySource}
    (replay : alphaFixtureReplay (loaded root) = some source) (platform : Platform α)
    (result : BacktestResult α) :
    ∃ summary, cmdRun platform alloc (loaded root) result = some (0, some summary) ∧
      summary.Of platform alloc (getSint (objGet (objGet (some root) "config") "initial_capital"))
        ((inputsOf root source).ledger platform (inputsOf root source).n).snapshots
        ((inputsOf root source).ledger platform (inputsOf root source).n).trades := by
  obtain ⟨metrics, computed, returned⟩ := alphaBacktestRun_metrics (inputsOf root source) platform
    alloc result accepted.periods accepted.arrays
  have bars := (ledger_balanced (inputsOf root source) platform (inputsOf root source).n).bars
  rw [cmdRun, runOnce_loaded accepted.checked replay, Inputs.run, returned]
  refine ⟨⟨_, _, _, metrics⟩, ?_, bars.symm, rfl, rfl, computed⟩
  simp only [Option.map_some, if_true, Option.bind_eq_bind, Option.bind_some, ne_eq,
    not_true_eq_false, if_false]
  rw [finalValue_eq rfl bars]
  rfl

/-- Where it rounds to nearest, the program runs a document that is accepted, and prints the figures
of snapshots and trades that follow the document. On everything else it prints nothing and exits
with 1. -/
theorem run_follows_document (rounding : Rounding) (platform : Platform α) (alloc : Allocations)
    (memory : Memory) (doc : Option (Value α)) (path : Text) (fixture : Fixture α)
    (result : BacktestResult α) :
    (∃ root summary snapshots trades, alphaInitialize rounding = .ok ∧ doc = some root ∧
      Accepted alloc memory root ∧
      runFile rounding platform alloc memory doc path fixture result = some (0, some summary) ∧
      Follows root snapshots trades ∧
      summary.Of platform alloc (getSint (objGet (objGet (some root) "config") "initial_capital"))
        snapshots trades) ∨
    ((∀ root, alphaInitialize rounding = .ok → doc = some root → ¬ Accepted alloc memory root) ∧
      runFile rounding platform alloc memory doc path fixture result = some (1, none)) := by
  by_cases nearest : alphaInitialize rounding = .ok
  · cases doc with
    | none => exact .inr ⟨nofun, if_neg (not_not.mpr nearest)⟩
    | some root =>
      by_cases checked : Checked memory root
      · have load : runFile rounding platform alloc memory (some root) path fixture result =
            cmdRun platform alloc (loaded root) result := by
          rw [runFile, if_neg (not_not.mpr nearest), alphaFixtureLoad, parseRoot_accepts checked]
          rfl
        obtain ⟨source, replay, replays⟩ := alphaFixtureReplay_loaded checked.signals
        rw [load]
        by_cases accepted : Accepted alloc memory root
        · obtain ⟨summary, printed, figures⟩ := cmdRun_prints accepted replay platform result
          exact .inl ⟨root, summary, _, _, nearest, rfl, accepted, printed,
            ledger_follows checked replays platform, figures⟩
        · obtain ⟨err, result', refused, failed⟩ := run_refused (inputsOf root source) platform
            (fun run => accepted ⟨checked, run.1, run.2⟩) result
          refine .inr ⟨fun _ _ same => Option.some.inj same ▸ accepted, ?_⟩
          rw [cmdRun, runOnce_loaded checked replay, refused]
          simp [failed]
      · obtain ⟨status, fixture', refused, failed⟩ := parseRoot_refuses checked Fixture.zero
        refine .inr
          ⟨fun _ _ same accepted => checked (Option.some.inj same ▸ accepted.checked), ?_⟩
        rw [runFile, if_neg (not_not.mpr nearest), alphaFixtureLoad, refused]
        exact if_pos failed
  · exact .inr ⟨fun _ rounds => absurd rounds nearest, if_pos nearest⟩

end Follows

/-- Three bars with two words for the first day, of which the first counts. -/
def twoWords : Value ℚ :=
  let text (s : String) : Value ℚ := .str s.toList
  let field (key : String) (value : Value ℚ) : Text × Value ℚ := (key.toList, value)
  let bar (date : String) (close : BitVec 64) : Value ℚ :=
    .obj [field "date" (text date), field "close" (.uint close)]
  .obj [
    field "config" (.obj [
      field "ticker" (text "005930"), field "strategy" (text "replay"),
      field "train_start" (text "2024-01-01"), field "train_end" (text "2024-06-30"),
      field "test_start" (text "2024-07-01"), field "test_end" (text "2024-12-31"),
      field "initial_capital" (.uint 1000)]),
    field "bars" (.arr [bar "2024-07-01" 100, bar "2024-07-02" 90, bar "2024-07-03" 120]),
    field "signals" (.obj [
      field "2024-07-01" (text "BUY"), field "2024-07-01" (text "HOLD"),
      field "2024-07-03" (text "CLOSE")])]

example : (runFile ⟨true, true⟩ somePlatform ⟨true, true, true, true⟩ ⟨true, true, true, true⟩
      (some twoWords) "fixture.json".toList Fixture.zero
      (clearedResult Fixture.zero.config)).map (fun exit =>
        (exit.1, exit.2.map fun figures =>
          (figures.bars, figures.trades, figures.finalPortfolioValue))) =
    some (0, some (3, 2, 1200)) := by decide +kernel

end AlphaPipeline.BacktestRunner

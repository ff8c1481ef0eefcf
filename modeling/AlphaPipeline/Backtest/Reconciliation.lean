import AlphaPipeline.Backtest.Ledger

/-!
# Self-financing and realised gains

Doubles are read as exact rationals here. A trade exchanges cash for shares at one price, so
at that price it lowers the value of the portfolio by its cost and by nothing else; between
two bars the value moves with the shares held. Valued at the price they were bought for,
the shares and the cash together show the gains realised so far.
-/
namespace AlphaPipeline.Backtest

open CDouble

/-- What the trades cost together. -/
def totalCosts (trades : List (TradeRecord ℚ)) : ℚ := (trades.map TradeRecord.totalCost).sum

/-- The gains of the sales less the costs of the purchases. -/
def realised (trades : List (TradeRecord ℚ)) : ℚ :=
  ((trades.filter fun trade => trade.side = .sell).map TradeRecord.pnl).sum -
    ((trades.filter fun trade => trade.side = .buy).map TradeRecord.totalCost).sum

theorem realised_append (trades more : List (TradeRecord ℚ)) :
    realised (trades ++ more) = realised trades + realised more := by
  simp only [realised, List.filter_append, List.map_append, List.sum_append]
  ring

theorem realised_purchase {trade : TradeRecord ℚ} (side : trade.side = .buy) :
    realised [trade] = -trade.totalCost := by
  simp [realised, side]

theorem realised_sale {trade : TradeRecord ℚ} (side : trade.side = .sell) :
    realised [trade] = trade.pnl := by
  simp [realised, side]

/-- Cash and shares, the shares at the given price. -/
def EngineState.valueAt (state : EngineState ℚ) (price : ℚ) : ℚ :=
  state.cash + state.positionQty * price

variable {σ : Type} (inputs : Inputs σ ℚ) (platform : Platform ℚ)

/-- A trade costs its total cost at the price of its bar; at the purchase price it shows what
it realises. -/
private theorem trade_reconciles {state : EngineState ℚ} {signal : AlphaSignal} {i : Nat}
    {taken : EngineState ℚ × TradeRecord ℚ}
    (traded : inputs.trade platform state signal i = some taken) :
    taken.1.valueAt (inputs.prices i) =
        state.valueAt (inputs.prices i) - taken.2.totalCost ∧
      taken.1.valueAt taken.1.avgBuyPrice =
        state.valueAt state.avgBuyPrice + realised [taken.2] := by
  -- a purchase starts from no shares; a sale leaves none
  rcases trade_shapes inputs platform traded with
    ⟨_, flat, quantity, _, rfl⟩ | ⟨_, _, rfl⟩
  · rw [realised_purchase rfl]
    simp only [EngineState.valueAt, buyShares, flat, CDouble.ofInt, Int.cast_zero]
    constructor <;> ring
  · rw [realised_sale rfl]
    simp only [EngineState.valueAt, closePosition, CDouble.ofInt, Int.cast_zero]
    constructor <;> ring

/-- A bar first trades at its price; the snapshot changes neither cash nor shares. -/
private theorem post_reconciles (ledger : Ledger σ ℚ) (i : Nat) :
    ∃ traded, (inputs.post platform ledger i).trades = ledger.trades ++ traded ∧
      traded.length ≤ 1 ∧
      (inputs.post platform ledger i).state.valueAt (inputs.prices i) =
        ledger.state.valueAt (inputs.prices i) - totalCosts traded ∧
      (inputs.post platform ledger i).state.valueAt
          (inputs.post platform ledger i).state.avgBuyPrice =
        ledger.state.valueAt ledger.state.avgBuyPrice + realised traded := by
  -- at most one trade, and the snapshot only copies
  cases traded : inputs.trade platform ledger.state (ledger.signal inputs i) i with
  | none =>
    have quiet : inputs.afterTrade platform ledger i = (ledger.state, []) := by
      simp only [Inputs.afterTrade, traded]
    refine ⟨[], ?_⟩
    simp [Inputs.post, quiet, takeSnapshot, EngineState.valueAt, totalCosts, realised]
  | some taken =>
    have entered : inputs.afterTrade platform ledger i = (taken.1, [taken.2]) := by
      simp only [Inputs.afterTrade, traded]
    obtain ⟨value, gains⟩ := trade_reconciles inputs platform traded
    refine ⟨[taken.2], by simp only [Inputs.post, entered], le_rfl, ?_, ?_⟩
    · simpa only [Inputs.post, entered, takeSnapshot, EngineState.valueAt, totalCosts,
        List.map_cons, List.map_nil, List.sum_singleton] using value
    · simpa only [Inputs.post, entered, takeSnapshot, EngineState.valueAt] using gains

/-- At the purchase price of its shares the portfolio is worth the capital and the gains. -/
private theorem ledger_realised (k : Nat) :
    (inputs.ledger platform k).state.valueAt (inputs.ledger platform k).state.avgBuyPrice =
      inputs.config.initialCapital + realised (inputs.ledger platform k).trades := by
  induction k with
  | zero =>
    simp [Inputs.ledger, Inputs.start, EngineState.valueAt, realised, CDouble.ofInt]
  | succ k ih =>
    obtain ⟨traded, trades, _, _, gains⟩ :=
      post_reconciles inputs platform (inputs.ledger platform k) k
    rw [Inputs.ledger, gains, ih, trades, realised_append, add_assoc]

/-- The position and the portfolio value that bar `i` starts from. -/
def carried (result : BacktestResult ℚ) : Nat → Option (Int × ℚ)
  | 0 => some (0, result.config.initialCapital)
  | i + 1 => (Slots.read result.snapshots i).map fun snapshot =>
    (snapshot.positionQty, snapshot.portfolioValue)

/-- The accounts of bar `i`, between the state of the loop before it and the state after it:
the value moves with the position carried into the bar and falls by the cost of the bar's
trade, and while flat the cash shows what all trades so far have realised. -/
def BarReconciled (result : BacktestResult ℚ) (i : Nat) (before after : Loop σ ℚ) : Prop :=
  ∃ position value snapshot trades, carried result i = some (position, value) ∧
    Slots.read result.snapshots i = some snapshot ∧
    Slots.readFirst result.trades after.tradeCount = some trades ∧
    (trades.drop before.tradeCount).length ≤ 1 ∧
    snapshot.portfolioValue - value =
      position * (inputs.prices i - inputs.prices (i - 1)) -
        totalCosts (trades.drop before.tradeCount) ∧
    (snapshot.positionQty = 0 →
      snapshot.cash - inputs.config.initialCapital = realised trades)

/-- What bar `i` starts from is the ledger of the bars before it, at the last price. -/
private theorem carried_ledger {result : BacktestResult ℚ} (config : result.config = inputs.config)
    (snapshots : result.snapshots =
      Slots.holding inputs.n (inputs.ledger platform inputs.n).snapshots)
    {i : Nat} (inside : i < inputs.n) :
    carried result i = some ((inputs.ledger platform i).state.positionQty,
      (inputs.ledger platform i).state.valueAt (inputs.prices (i - 1))) := by
  cases i with
  | zero =>
    simp [carried, config, Inputs.ledger, Inputs.start, EngineState.valueAt, CDouble.ofInt]
  | succ i =>
    obtain ⟨snapshot, entry, _, _, _, held, value⟩ :=
      snapshot_of_bar inputs platform (by omega : i < inputs.n)
    rw [carried, snapshots, Slots.read_holding, entry, Option.map_some, held, value]
    rfl

/-- Every bar of an accepted run is self-financing, and the realised gains reconcile. -/
theorem backtest_reconciles (alloc : Allocations) (out : BacktestResult ℚ)
    (accepted : inputs.config.trainEnd < inputs.config.testStart)
    (allocated : inputs.n = 0 ∨ (alloc.trades = true ∧ alloc.snapshots = true)) :
    ∃ result, alphaBacktestRun platform alloc (some inputs.config) (some inputs.prices)
        (some inputs.dates) inputs.n (some inputs.signalFn) inputs.signalCtx (some inputs.cost)
        (some out) = some (.ok, some result) ∧
      ∀ i < inputs.n, ∃ before after, inputs.reached platform i = some before ∧
        inputs.reached platform (i + 1) = some after ∧
        BarReconciled inputs result i before after := by
  obtain ⟨metrics, returned⟩ :=
    alphaBacktestRun_ledger inputs platform alloc out accepted allocated
  refine ⟨_, returned, fun i inside => ⟨_, _, reached_eq_ledger inputs platform i inside.le,
    reached_eq_ledger inputs platform (i + 1) inside, ?_⟩⟩
  obtain ⟨snapshot, entry, _, _, cash, held, value⟩ := snapshot_of_bar inputs platform inside
  obtain ⟨traded, trades, one, financed, _⟩ :=
    post_reconciles inputs platform (inputs.ledger platform i) i
  have added : (inputs.ledger platform (i + 1)).trades.drop
      (inputs.ledger platform i).trades.length = traded := by
    rw [Inputs.ledger, trades, List.drop_left]
  refine ⟨_, _, snapshot, _, carried_ledger inputs platform rfl rfl inside,
    by rw [Slots.read_holding, entry],
    Slots.readFirst_of_prefix inputs.n (ledger_grows inputs platform (Nat.succ_le_of_lt inside)).1,
    ?_, ?_, ?_⟩
  · simpa only [Ledger.loop, added] using one
  -- at the price of the bar, only the cost of the trade is lost
  · have worth : snapshot.portfolioValue =
        (inputs.ledger platform i).state.valueAt (inputs.prices i) - totalCosts traded :=
      value.trans financed
    simp only [Ledger.loop, added, worth, EngineState.valueAt]
    ring
  · intro flat
    -- without shares, the value at any price is the cash
    have gains := ledger_realised inputs platform (i + 1)
    rw [EngineState.valueAt, ← held, flat, Int.cast_zero, zero_mul, add_zero, ← cash] at gains
    rw [gains]
    ring

theorem backtest_reconciles_one_lot :
    ∃ result, alphaBacktestRun somePlatform ⟨true, true, true, true⟩ (some oneLot.config)
        (some oneLot.prices) (some oneLot.dates) oneLot.n (some oneLot.signalFn) oneLot.signalCtx
        (some oneLot.cost) (some (clearedResult oneLot.config)) = some (.ok, some result) ∧
      ∀ i < oneLot.n, ∃ before after, oneLot.reached somePlatform i = some before ∧
        oneLot.reached somePlatform (i + 1) = some after ∧
        BarReconciled oneLot result i before after :=
  backtest_reconciles oneLot somePlatform ⟨true, true, true, true⟩ (clearedResult oneLot.config)
    (by decide) (Or.inr ⟨rfl, rfl⟩)

end AlphaPipeline.Backtest

import AlphaPipeline.Backtest.Metrics

/-!
# The backtest engine

`alpha_backtest_run` plays the bars in order. A pointer argument is an `Option`, an array
argument the function that indexes it. The two result arrays are allocated with one slot a
bar and written slot by slot; `none` as the outcome of a run stands for an access outside
them or to a slot never written. A signal function may keep state in its context.
-/
namespace AlphaPipeline.Backtest

open CDouble

/-- `alpha_backtest_config_t`. -/
structure BacktestConfig (α : Type) where
  ticker : Text
  strategy : Text
  trainStart : Int
  trainEnd : Int
  testStart : Int
  testEnd : Int
  initialCapital : Int
  commissionRatePct : α
  taxRatePct : α
  slippageBps : Int

/-- `alpha_backtest_result_t`. -/
structure BacktestResult (α : Type) where
  config : BacktestConfig α
  metrics : BacktestMetrics α
  trades : List (Option (TradeRecord α))
  tradeCount : Nat
  snapshots : List (Option (DailySnapshot α))
  snapshotCount : Nat

/-- `engine_state_t`. -/
structure EngineState (α : Type) where
  cash : α
  positionQty : Int
  avgBuyPrice : α
  prevPortfolioValue : α

/-- `alpha_signal_fn`: the context, the day, the prices, how many of them are history, and the
position. -/
abbrev SignalFn (σ α : Type) :=
  σ → Int → (Nat → α) → Nat → Int → AlphaSignal × σ

/-- `alpha_replay_source_t`, as the pairs of its two arrays. -/
abbrev ReplaySource := List (Int × AlphaSignal)

/-- `alpha_replay_signal`. -/
def alphaReplaySignal {α : Type} : SignalFn ReplaySource α :=
  fun source epochDay _ _ _ =>
    (((source.find? fun entry => entry.1 = epochDay).map (·.2)).getD .hold, source)

/-- What a run is given. -/
structure Inputs (σ α : Type) where
  config : BacktestConfig α
  prices : Nat → α
  dates : Nat → Int
  n : Nat
  signalFn : SignalFn σ α
  signalCtx : σ
  cost : CostModel α

variable {σ α : Type} [CDouble α]

/-- `copy_ticker`, with `ALPHA_TICKER_CAP` 32. -/
def copyTicker (src : Text) : Text := (cString src).take 31

/-- The purchase of `quantity` shares that `open_position` settles on. -/
def buyShares (state : EngineState α) (config : BacktestConfig α) (date : Int) (price : α)
    (quantity : Int) (c : TradeCost α) : EngineState α × TradeRecord α :=
  ({ state with
      cash := state.cash - (price * ofInt quantity + c.total)
      avgBuyPrice := price
      positionQty := quantity },
    { date
      side := .buy
      ticker := copyTicker config.ticker
      price
      quantity
      commission := c.commission
      tax := c.tax
      slippageCost := c.slippageCost
      totalCost := c.total
      pnl := literal 0 })

/-- `open_position`. -/
def openPosition (platform : Platform α) (state : EngineState α) (cost : CostModel α)
    (config : BacktestConfig α) (date : Int) (price : α) :
    Option (EngineState α × TradeRecord α) :=
  let unit := alphaCostCalculate cost .buy price 1
  let effectivePrice := price + unit.total
  if le effectivePrice (literal 0) then none
  else
    let quantity := platform.toInt64 (floor (state.cash / effectivePrice))
    if quantity ≤ 0 then none
    else
      let c := alphaCostCalculate cost .buy price quantity
      let totalOutlay := price * ofInt quantity + c.total
      if lt state.cash totalOutlay then
        -- the rounding guard gives up one share
        if quantity - 1 ≤ 0 then none
        else
          let c := alphaCostCalculate cost .buy price (quantity - 1)
          some (buyShares state config date price (quantity - 1) c)
      else some (buyShares state config date price quantity c)

/-- `close_position`. -/
def closePosition (state : EngineState α) (cost : CostModel α) (config : BacktestConfig α)
    (date : Int) (price : α) : EngineState α × TradeRecord α :=
  let qty := state.positionQty
  let c := alphaCostCalculate cost .sell price qty
  let pnl := (price - state.avgBuyPrice) * ofInt qty - c.total
  ({ state with
      cash := state.cash + (price * ofInt qty - c.total)
      positionQty := 0
      avgBuyPrice := literal 0 },
    { date
      side := .sell
      ticker := copyTicker config.ticker
      price
      quantity := qty
      commission := c.commission
      tax := c.tax
      slippageCost := c.slippageCost
      totalCost := c.total
      pnl })

/-- `take_snapshot`. -/
def takeSnapshot (state : EngineState α) (date : Int) (closePrice : α) :
    EngineState α × DailySnapshot α :=
  let positionValue := ofInt state.positionQty * closePrice
  let portfolioValue := state.cash + positionValue
  let dailyReturnPct :=
    if lt (literal 0) state.prevPortfolioValue then
      (portfolioValue - state.prevPortfolioValue) / state.prevPortfolioValue * literal 100
    else literal 0
  ({ state with prevPortfolioValue := portfolioValue },
    { date
      closePrice
      cash := state.cash
      positionQty := state.positionQty
      positionValue
      portfolioValue
      dailyReturnPct })

/-- The variables of the loop over the bars. -/
structure Loop (σ α : Type) where
  state : EngineState α
  ctx : σ
  trades : List (Option (TradeRecord α))
  tradeCount : Nat
  snapshots : List (Option (DailySnapshot α))

/-- What the signal function answers on bar `i`. -/
def Inputs.signal (inputs : Inputs σ α) (ctx : σ) (i : Nat) (position : Int) : AlphaSignal × σ :=
  inputs.signalFn ctx (inputs.dates i) inputs.prices (i + 1) position

/-- The trade of bar `i`, if one is taken, with the state it leaves. -/
def Inputs.trade (inputs : Inputs σ α) (platform : Platform α) (state : EngineState α)
    (signal : AlphaSignal) (i : Nat) : Option (EngineState α × TradeRecord α) :=
  if signal = .buy ∧ state.positionQty = 0 then
    openPosition platform state inputs.cost inputs.config (inputs.dates i) (inputs.prices i)
  else if (signal = .sell ∨ signal = .close) ∧ state.positionQty > 0 then
    some (closePosition state inputs.cost inputs.config (inputs.dates i) (inputs.prices i))
  else none

/-- The loop body of `alpha_backtest_run`. -/
def Inputs.bar (inputs : Inputs σ α) (platform : Platform α) (loop : Loop σ α) (i : Nat) :
    Option (Loop σ α) := do
  let (signal, ctx) := inputs.signal loop.ctx i loop.state.positionQty
  let (state, trades, tradeCount) ←
    match inputs.trade platform loop.state signal i with
    | some (state, trade) => do
      let trades ← Slots.write loop.trades loop.tradeCount trade
      some (state, trades, loop.tradeCount + 1)
    | none => some (loop.state, loop.trades, loop.tradeCount)
  let (state, snapshot) := takeSnapshot state (inputs.dates i) (inputs.prices i)
  let snapshots ← Slots.write loop.snapshots i snapshot
  some ⟨state, ctx, trades, tradeCount, snapshots⟩

/-- The state the loop starts in. -/
def Inputs.start (inputs : Inputs σ α) : Loop σ α where
  state :=
    { cash := ofInt inputs.config.initialCapital
      positionQty := 0
      avgBuyPrice := literal 0
      prevPortfolioValue := ofInt inputs.config.initialCapital }
  ctx := inputs.signalCtx
  trades := Slots.fresh inputs.n
  tradeCount := 0
  snapshots := Slots.fresh inputs.n

/-- The loop after its first `k` bars. -/
def Inputs.reached (inputs : Inputs σ α) (platform : Platform α) : Nat → Option (Loop σ α)
  | 0 => some inputs.start
  | k + 1 => do
    let loop ← inputs.reached platform k
    inputs.bar platform loop k

/-- `*out` after the `memset` and the copy of the config. -/
def clearedResult (config : BacktestConfig α) : BacktestResult α :=
  ⟨config, zeroMetrics, [], 0, [], 0⟩

/-- The part of `alpha_backtest_run` after its checks. -/
def Inputs.backtest (inputs : Inputs σ α) (platform : Platform α) (alloc : Allocations) :
    Option (AlphaErr × BacktestResult α) :=
  if inputs.n > 0 ∧ (alloc.trades = false ∨ alloc.snapshots = false) then
    some (.io, clearedResult inputs.config)
  else do
    let loop ← inputs.reached platform inputs.n
    let snapshots ← Slots.readFirst loop.snapshots inputs.n
    let trades ← Slots.readFirst loop.trades loop.tradeCount
    let metrics ←
      alphaComputeMetrics platform alloc snapshots trades inputs.config.initialCapital
    some (.ok,
      ⟨inputs.config, metrics, loop.trades, loop.tradeCount, loop.snapshots, inputs.n⟩)

/-- `alpha_backtest_run`: the error code and `*out` afterwards. -/
def alphaBacktestRun (platform : Platform α) (alloc : Allocations)
    (config : Option (BacktestConfig α)) (prices : Option (Nat → α))
    (dates : Option (Nat → Int)) (n : Nat) (signalFn : Option (SignalFn σ α)) (signalCtx : σ)
    (cost : Option (CostModel α)) (out : Option (BacktestResult α)) :
    Option (AlphaErr × Option (BacktestResult α)) :=
  match config, prices, dates, signalFn, cost, out with
  | some config, some prices, some dates, some signalFn, some cost, some _ =>
    if config.trainEnd ≥ config.testStart then some (.invalidArg, out)
    else do
      let (err, result) ←
        Inputs.backtest ⟨config, prices, dates, n, signalFn, signalCtx, cost⟩ platform alloc
      some (err, some result)
  | _, _, _, _, _, _ => some (.invalidArg, out)

end AlphaPipeline.Backtest

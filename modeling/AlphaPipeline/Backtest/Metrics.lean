import AlphaPipeline.Library.Slots
import AlphaPipeline.Backtest.CostModel

/-!
# Performance metrics

`alpha_compute_metrics` reads the snapshots and trades of a finished run. Arrays that are
only read are lists; the queue of open purchases, which is written and read back at moving
indices, is an array of slots. `none` stands for an access outside that array or to a slot
never written.
-/
namespace AlphaPipeline.Backtest

open CDouble

/-- `alpha_trade_record_t`; the ticker is the string its buffer holds. -/
structure TradeRecord (α : Type) where
  date : Int
  side : AlphaSide
  ticker : Text
  price : α
  quantity : Int
  commission : α
  tax : α
  slippageCost : α
  totalCost : α
  pnl : α

/-- `alpha_daily_snapshot_t`. -/
structure DailySnapshot (α : Type) where
  date : Int
  closePrice : α
  cash : α
  positionQty : Int
  positionValue : α
  portfolioValue : α
  dailyReturnPct : α

/-- `alpha_backtest_metrics_t`. -/
structure BacktestMetrics (α : Type) where
  totalReturnPct : α
  annualReturnPct : α
  sharpeRatio : α
  maxDrawdownPct : α
  winRate : α
  totalTrades : Int
  avgHoldingDays : α
  baselineReturnPct : α
  excessReturnPct : α

/-- Which allocations succeed: the two result arrays, and the scratch arrays of the metrics. -/
structure Allocations where
  trades : Bool
  snapshots : Bool
  returns : Bool
  queue : Bool

/-- The size of the scratch arrays on the stack. -/
def stackCapacity : Nat := 512

variable {α : Type} [CDouble α]

/-- `TRADING_DAYS_PER_YEAR`. -/
def tradingDaysPerYear : α := literal 252

/-- `compute_sharpe`. -/
def computeSharpe (platform : Platform α) (returns : List α) : α :=
  if returns.length < 2 then literal 0
  else
    let sum := returns.foldl (· + ·) (literal 0)
    let mean := sum / ofInt returns.length
    let sq := returns.foldl (fun sq r => sq + (r - mean) * (r - mean)) (literal 0)
    let variance := sq / ofInt (returns.length - 1)
    let std := platform.sqrt variance
    if le std (literal 0) then literal 0
    else mean / std * platform.sqrt tradingDaysPerYear

/-- One value of the equity curve, against the peak and the drawdown so far. -/
def mddStep (curve : α × α) (snapshot : DailySnapshot α) : α × α :=
  let value := snapshot.portfolioValue
  let peak := if lt curve.1 value then value else curve.1
  let dd := (value - peak) / peak * literal 100
  (peak, if lt dd curve.2 then dd else curve.2)

/-- `compute_mdd`, on the non-empty snapshots it is called with. -/
def computeMdd (first : DailySnapshot α) (rest : List (DailySnapshot α)) : α :=
  ((first :: rest).foldl mddStep (first.portfolioValue, literal 0)).2

/-- The variables of the loop that pairs purchases with sales. -/
structure Matching where
  buyQueue : List (Option Int)
  head : Nat
  tail : Nat
  totalHolding : Int
  matched : Int

/-- The loop body of `compute_avg_holding_days`. -/
def matchTrade (m : Matching) (trade : TradeRecord α) : Option Matching :=
  if trade.side = .buy then do
    let buyQueue ← Slots.write m.buyQueue m.tail trade.date
    some { m with buyQueue, tail := m.tail + 1 }
  else if m.head < m.tail then do
    let bought ← Slots.read m.buyQueue m.head
    let holding := trade.date - bought
    some { m with
      head := m.head + 1
      totalHolding := m.totalHolding + if holding > 0 then holding else 0
      matched := m.matched + 1 }
  else some m

/-- `compute_avg_holding_days`. -/
def computeAvgHoldingDays (trades : List (TradeRecord α)) (buyQueue : List (Option Int)) :
    Option α := do
  let m ← trades.foldlM matchTrade ⟨buyQueue, 0, 0, 0, 0⟩
  some (if m.matched ≠ 0 then ofInt m.totalHolding / ofInt m.matched else literal 0)

/-- The share of winning sales, in percent. -/
def winRate (trades : List (TradeRecord α)) : α :=
  let sells := trades.filter fun t => t.side = .sell
  let wins := sells.filter fun t => lt (literal 0) t.pnl
  if sells.length > 0 then ofInt wins.length / ofInt sells.length * literal 100 else literal 0

/-- The average holding time, 0 when its queue cannot be allocated. -/
def avgHoldingDays (alloc : Allocations) (trades : List (TradeRecord α)) : Option α :=
  if trades.length = 0 then some (literal 0)
  else if trades.length ≤ stackCapacity then
    computeAvgHoldingDays trades (Slots.fresh stackCapacity)
  else if alloc.queue then computeAvgHoldingDays trades (Slots.fresh trades.length)
  else some (literal 0)

/-- The Sharpe ratio of the daily returns, 0 when their array cannot be allocated. -/
def sharpe (platform : Platform α) (alloc : Allocations) (snapshots : List (DailySnapshot α)) :
    α :=
  if snapshots.length ≤ stackCapacity || alloc.returns then
    computeSharpe platform (snapshots.map fun s => s.dailyReturnPct / literal 100)
  else literal 0

/-- The metrics of `memset` and `{0}`. -/
def zeroMetrics : BacktestMetrics α :=
  let zero := literal 0
  ⟨zero, zero, zero, zero, zero, 0, zero, zero, zero⟩

/-- `alpha_compute_metrics`. -/
def alphaComputeMetrics (platform : Platform α) (alloc : Allocations)
    (snapshots : List (DailySnapshot α)) (trades : List (TradeRecord α)) (initialCapital : Int) :
    Option (BacktestMetrics α) :=
  match snapshots with
  | [] => some zeroMetrics
  | first :: rest => do
    let ns := (first :: rest).length
    let last := (first :: rest).getLast (List.cons_ne_nil first rest)
    let initial : α := ofInt initialCapital
    let totalReturn := (last.portfolioValue - initial) / initial
    let totalReturnPct := totalReturn * literal 100
    let annualReturnPct :=
      if ns > 1 && lt (literal (-1)) totalReturn then
        (platform.pow (literal 1 + totalReturn) (tradingDaysPerYear / ofInt ns) - literal 1) *
          literal 100
      else literal 0
    let held ← avgHoldingDays alloc trades
    let baselineReturnPct :=
      if lt (literal 0) first.closePrice then
        (last.closePrice / first.closePrice - literal 1) * literal 100
      else literal 0
    some {
      totalReturnPct := roundDp totalReturnPct 4
      annualReturnPct := roundDp annualReturnPct 4
      sharpeRatio := roundDp (sharpe platform alloc (first :: rest)) 4
      maxDrawdownPct := roundDp (computeMdd first rest) 4
      winRate := roundDp (winRate trades) 4
      totalTrades := trades.length
      avgHoldingDays := roundDp held 1
      baselineReturnPct := roundDp baselineReturnPct 4
      excessReturnPct := roundDp (totalReturnPct - baselineReturnPct) 4 }

/-- The queue holds the dates of the purchases so far, and room for the trades to come. -/
def Matching.Fits (m : Matching) (capacity left : Nat) : Prop :=
  ∃ bought : List Int, m.buyQueue = Slots.holding capacity bought ∧ m.tail = bought.length ∧
    bought.length + left ≤ capacity

omit [CDouble α] in
private theorem matchTrade_fits {m : Matching} {capacity left : Nat} (trade : TradeRecord α)
    (fits : m.Fits capacity (left + 1)) :
    ∃ m', matchTrade m trade = some m' ∧ m'.Fits capacity left := by
  obtain ⟨bought, queue, tail, room⟩ := fits
  unfold matchTrade
  split
  · rw [queue, tail, Slots.write_holding (by omega)]
    refine ⟨_, rfl, bought ++ [trade.date], rfl, ?_, ?_⟩
    · rw [List.length_append, List.length_singleton]
    · rw [List.length_append, List.length_singleton]
      omega
  · split
    next _ open_ =>
      -- an unmatched purchase lies below the tail, so its slot was written
      rw [queue, Slots.read_holding, List.getElem?_eq_getElem (tail ▸ open_)]
      exact ⟨_, rfl, bought, rfl, tail, by omega⟩
    · exact ⟨_, rfl, bought, queue, tail, by omega⟩

omit [CDouble α] in
private theorem matchTrades_fits (trades : List (TradeRecord α)) {m : Matching} {capacity : Nat}
    (fits : m.Fits capacity trades.length) : ∃ m', trades.foldlM matchTrade m = some m' := by
  induction trades generalizing m with
  | nil => exact ⟨m, rfl⟩
  | cons trade rest ih =>
    obtain ⟨next, stepped, nextFits⟩ := matchTrade_fits trade fits
    obtain ⟨last, run⟩ := ih nextFits
    exact ⟨last, by rw [List.foldlM_cons, stepped]; exact run⟩

/-- A queue with a slot for every trade is never accessed outside what was written. -/
theorem computeAvgHoldingDays_defined (trades : List (TradeRecord α)) {capacity : Nat}
    (fits : trades.length ≤ capacity) :
    ∃ days, computeAvgHoldingDays trades (Slots.fresh capacity) = some days := by
  have start : Matching.Fits ⟨Slots.fresh capacity, 0, 0, 0, 0⟩ capacity trades.length :=
    ⟨[], Slots.fresh_eq_holding capacity, rfl, by simpa using fits⟩
  obtain ⟨m, run⟩ := matchTrades_fits trades start
  exact ⟨_, by rw [computeAvgHoldingDays, run]; rfl⟩

private theorem avgHoldingDays_defined (alloc : Allocations) (trades : List (TradeRecord α)) :
    ∃ days, avgHoldingDays alloc trades = some days := by
  unfold avgHoldingDays
  split
  · exact ⟨_, rfl⟩
  · split
    next small => exact computeAvgHoldingDays_defined trades small
    · split
      · exact computeAvgHoldingDays_defined trades le_rfl
      · exact ⟨_, rfl⟩

/-- The metrics are computed without an access outside an array, whatever is allocated. -/
theorem alphaComputeMetrics_defined (platform : Platform α) (alloc : Allocations)
    (snapshots : List (DailySnapshot α)) (trades : List (TradeRecord α)) (initialCapital : Int) :
    ∃ metrics, alphaComputeMetrics platform alloc snapshots trades initialCapital =
      some metrics := by
  cases snapshots with
  | nil => exact ⟨_, rfl⟩
  | cons first rest =>
    obtain ⟨days, held⟩ := avgHoldingDays_defined alloc trades
    exact ⟨_, by rw [alphaComputeMetrics, held]; rfl⟩

end AlphaPipeline.Backtest

import AlphaPipeline.Backtest.Solvency

/-!
# Failed allocations

A run allocates its two result arrays, and the metrics allocate two scratch arrays when there are
more than 512 bars or trades. The engine answers a failure of the first with `ALPHA_ERR_IO`; the
metrics answer a failure of the second with a zero in the Sharpe ratio or the average holding
time.
-/
namespace AlphaPipeline.Backtest

open CDouble

/-- Every allocation succeeds. -/
def Allocations.all : Allocations := ⟨true, true, true, true⟩

section

variable {σ α : Type} [CDouble α]

/-- Under failed allocations the run returns `ALPHA_ERR_IO`, or what it returns when none fails. -/
def Tolerates (platform : Platform α) (alloc : Allocations) (config : Option (BacktestConfig α))
    (prices : Option (Nat → α)) (dates : Option (Nat → Int)) (n : Nat)
    (signalFn : Option (SignalFn σ α)) (signalCtx : σ) (cost : Option (CostModel α))
    (out : Option (BacktestResult α)) : Prop :=
  (∃ result, alphaBacktestRun platform alloc config prices dates n signalFn signalCtx cost out =
    some (.io, result)) ∨
  alphaBacktestRun platform alloc config prices dates n signalFn signalCtx cost out =
    alphaBacktestRun platform .all config prices dates n signalFn signalCtx cost out

/-- A scratch array of this length is on the stack, or its `malloc` succeeds. -/
def Scratch (allocated : Bool) (length : Nat) : Prop := length ≤ stackCapacity ∨ allocated = true

/-- What the scratch arrays are for, in the metrics. -/
theorem alphaComputeMetrics_scratch {platform : Platform α} {alloc : Allocations}
    {snapshots : List (DailySnapshot α)} {trades : List (TradeRecord α)} {initialCapital : Int}
    {metrics : BacktestMetrics α} (bars : snapshots ≠ [])
    (computed : alphaComputeMetrics platform alloc snapshots trades initialCapital = some metrics) :
    metrics.sharpeRatio = roundDp (sharpe platform alloc snapshots) 4 ∧
      ∃ held, avgHoldingDays alloc trades = some held ∧
        metrics.avgHoldingDays = roundDp held 1 := by
  cases snapshots with
  | nil => exact absurd rfl bars
  | cons first rest =>
    rw [alphaComputeMetrics] at computed
    obtain ⟨held, some_, filled⟩ := Option.bind_eq_some_iff.mp computed
    rw [← Option.some.inj filled]
    exact ⟨rfl, held, some_, rfl⟩

/-- Without its array the Sharpe ratio is 0. -/
theorem sharpe_cases (platform : Platform α) (alloc : Allocations)
    (snapshots : List (DailySnapshot α)) :
    (Scratch alloc.returns snapshots.length ∧
      sharpe platform alloc snapshots = sharpe platform .all snapshots) ∨
    (¬ Scratch alloc.returns snapshots.length ∧ sharpe platform alloc snapshots = literal 0) := by
  by_cases scratch : Scratch alloc.returns snapshots.length
  · refine .inl ⟨scratch, ?_⟩
    unfold sharpe
    rw [if_pos (by simpa [Scratch] using scratch), if_pos (by simp [Allocations.all])]
  · refine .inr ⟨scratch, ?_⟩
    unfold sharpe
    rw [if_neg (by simpa [Scratch] using scratch)]

/-- Without its queue the average holding time is 0. -/
theorem avgHoldingDays_cases (alloc : Allocations) (trades : List (TradeRecord α)) :
    (Scratch alloc.queue trades.length ∧
      avgHoldingDays alloc trades = (avgHoldingDays .all trades : Option α)) ∨
    (¬ Scratch alloc.queue trades.length ∧ avgHoldingDays alloc trades = some (literal 0 : α)) := by
  by_cases scratch : Scratch alloc.queue trades.length
  · refine .inl ⟨scratch, ?_⟩
    rcases scratch with few | allocated
    · simp [avgHoldingDays, few]
    · simp [avgHoldingDays, allocated, Allocations.all]
  · refine .inr ⟨scratch, ?_⟩
    obtain ⟨many, failed⟩ := not_or.mp scratch
    have some_ : trades.length ≠ 0 := by omega
    rw [avgHoldingDays, if_neg some_, if_neg many, if_neg failed]

/-- The metrics do not show the allocations exactly where each scratch array is there, or would
have given a 0. -/
theorem alphaComputeMetrics_same_iff {platform : Platform α} {alloc : Allocations}
    {snapshots : List (DailySnapshot α)} {trades : List (TradeRecord α)} {initialCapital : Int}
    {metrics full : BacktestMetrics α} (room : trades.length ≤ snapshots.length)
    (computed : alphaComputeMetrics platform alloc snapshots trades initialCapital = some metrics)
    (computedFull :
      alphaComputeMetrics platform .all snapshots trades initialCapital = some full) :
    metrics = full ↔
      (Scratch alloc.returns snapshots.length ∨ full.sharpeRatio = roundDp (literal 0) 4) ∧
      (Scratch alloc.queue trades.length ∨ full.avgHoldingDays = roundDp (literal 0) 1) := by
  by_cases bars : snapshots = []
  · subst bars
    have few : trades.length = 0 := by simpa using room
    rw [few]
    exact iff_of_true (Option.some.inj (computed.symm.trans computedFull))
      ⟨.inl (.inl (Nat.zero_le _)), .inl (.inl (Nat.zero_le _))⟩
  obtain ⟨ratio, held, averaged, days⟩ := alphaComputeMetrics_scratch bars computed
  obtain ⟨fullRatio, fullHeld, fullAveraged, fullDays⟩ :=
    alphaComputeMetrics_scratch bars computedFull
  have ratios : metrics.sharpeRatio = full.sharpeRatio ↔
      Scratch alloc.returns snapshots.length ∨ full.sharpeRatio = roundDp (literal 0) 4 := by
    rw [ratio, fullRatio]
    rcases sharpe_cases platform alloc snapshots with ⟨there, same⟩ | ⟨missing, zero⟩
    · exact iff_of_true (by rw [same]) (.inl there)
    · rw [zero, or_iff_right missing, eq_comm]
  have holdings : metrics.avgHoldingDays = full.avgHoldingDays ↔
      Scratch alloc.queue trades.length ∨ full.avgHoldingDays = roundDp (literal 0) 1 := by
    rw [days, fullDays]
    rcases avgHoldingDays_cases (α := α) alloc trades with ⟨there, same⟩ | ⟨missing, zero⟩
    · rw [averaged, fullAveraged] at same
      exact iff_of_true (by rw [Option.some.inj same]) (.inl there)
    · rw [averaged] at zero
      rw [Option.some.inj zero, or_iff_right missing, eq_comm]
  rw [← ratios, ← holdings]
  refine ⟨fun same => same ▸ ⟨rfl, rfl⟩, fun ⟨sameRatio, sameDays⟩ => ?_⟩
  cases snapshots with
  | nil => exact absurd rfl bars
  | cons first rest =>
    -- the other fields do not read the allocations
    rw [alphaComputeMetrics] at computed computedFull
    obtain ⟨_, _, filled⟩ := Option.bind_eq_some_iff.mp computed
    obtain ⟨_, _, filledFull⟩ := Option.bind_eq_some_iff.mp computedFull
    obtain rfl := Option.some.inj filled
    obtain rfl := Option.some.inj filledFull
    simp only [BacktestMetrics.mk.injEq, true_and, and_true]
    exact ⟨sameRatio, sameDays⟩

/-- A run under failed allocations is refused, or returns what the full run returns with the two
metrics recomputed. -/
theorem tolerates_run_iff (inputs : Inputs σ α) (platform : Platform α) (alloc : Allocations)
    (out : BacktestResult α) :
    Tolerates platform alloc (some inputs.config) (some inputs.prices) (some inputs.dates)
        inputs.n (some inputs.signalFn) inputs.signalCtx (some inputs.cost) (some out) ↔
      (alloc.trades = false ∨ alloc.snapshots = false) ∨
      ∀ full, inputs.run platform .all out = some (.ok, some full) →
        (Scratch alloc.returns full.snapshotCount ∨
          full.metrics.sharpeRatio = roundDp (literal 0) 4) ∧
        (Scratch alloc.queue full.tradeCount ∨
          full.metrics.avgHoldingDays = roundDp (literal 0) 1) := by
  by_cases accepted : inputs.config.trainEnd < inputs.config.testStart
  · obtain ⟨full, computedFull, returnedFull⟩ :=
      alphaBacktestRun_metrics inputs platform .all out accepted (.inr ⟨rfl, rfl⟩)
    by_cases allocated : inputs.n = 0 ∨ (alloc.trades = true ∧ alloc.snapshots = true)
    · obtain ⟨metrics, computed, returned⟩ :=
        alphaBacktestRun_metrics inputs platform alloc out accepted allocated
      have balanced := ledger_balanced inputs platform inputs.n
      have same := alphaComputeMetrics_same_iff (balanced.room.trans balanced.bars.ge) computed
        computedFull
      rw [balanced.bars] at same
      have shown : Tolerates platform alloc (some inputs.config) (some inputs.prices)
          (some inputs.dates) inputs.n (some inputs.signalFn) inputs.signalCtx (some inputs.cost)
          (some out) ↔ metrics = full := by
        unfold Tolerates
        rw [returned, returnedFull]
        simp
      rw [shown, same]
      have ran : inputs.run platform .all out = _ := returnedFull
      simp only [ran, Option.some.injEq, Prod.mk.injEq, true_and, forall_eq']
      refine ⟨.inr, Or.rec (fun missing => ?_) id⟩
      -- an array is missing and not needed, as there are no bars
      have empty : inputs.n = 0 := by
        rcases allocated with empty | both
        · exact empty
        · simp [both] at missing
      have idle : (inputs.ledger platform inputs.n).trades.length = 0 := by
        have := balanced.room
        omega
      rw [idle, empty]
      exact ⟨.inl (.inl (Nat.zero_le _)), .inl (.inl (Nat.zero_le _))⟩
    · have fails := array_missing allocated
      refine iff_of_true (.inl ⟨some (clearedResult inputs.config), ?_⟩) (.inl fails.2)
      simp [alphaBacktestRun, not_le.mpr accepted, Inputs.backtest, fails]
  · have refused (alloc : Allocations) :
        inputs.run platform alloc out = some (.invalidArg, some out) := by
      simp [Inputs.run, alphaBacktestRun, not_lt.mp accepted]
    refine iff_of_true (.inr ?_) (.inr fun full returned => ?_)
    · exact (refused alloc).trans (refused .all).symm
    · cases (refused .all).symm.trans returned

end

/-- What is used of `sqrt`: it keeps numbers positive and on their side of 1. -/
structure RootLaws (platform : Platform ℚ) : Prop where
  positive : ∀ x, 0 < x → 0 < platform.sqrt x
  small : ∀ x, 0 < x → x ≤ 1 → platform.sqrt x ≤ 1
  large : ∀ x, 1 ≤ x → 1 ≤ platform.sqrt x

theorem somePlatform_roots : RootLaws somePlatform :=
  ⟨fun _ => id, fun _ _ => id, fun _ => id⟩

/-- A price that doubles between every purchase and its sale, ten days apart: one share is
bought and sold in turn, a trade a bar. -/
def swinging (n : Nat) : Inputs Unit ℚ where
  config := { oneLot.config with initialCapital := 1 }
  prices := fun i => 2 ^ ((i + 1) / 2)
  dates := fun i => 10 * i
  n := n
  signalFn := fun ctx _ _ _ position => (if position = 0 then .buy else .sell, ctx)
  signalCtx := ()
  cost := ⟨0, 0, 0⟩

/-- The state after `k` bars: flat after an even number, one share after an odd one. -/
def swingState (k : Nat) : EngineState ℚ :=
  if k % 2 = 0 then ⟨2 ^ (k / 2), 0, 0, 2 ^ (k / 2)⟩ else ⟨0, 1, 2 ^ (k / 2), 2 ^ (k / 2)⟩

/-- The side and the day of trade `i`. -/
def swingTrade (i : Nat) : AlphaSide × Int := (if i % 2 = 0 then .buy else .sell, 10 * i)

/-- The return of bar `i`. -/
def swingReturn (i : Nat) : ℚ := if i % 2 = 0 then 0 else 1

variable {platform : Platform ℚ}

theorem swingState_even (j : Nat) : swingState (2 * j) = ⟨2 ^ j, 0, 0, 2 ^ j⟩ := by
  rw [swingState, if_pos (by omega), show 2 * j / 2 = j by omega]

theorem swingState_odd (j : Nat) : swingState (2 * j + 1) = ⟨0, 1, 2 ^ j, 2 ^ j⟩ := by
  rw [swingState, if_neg (by omega), show (2 * j + 1) / 2 = j by omega]

theorem swinging_price_even (n j : Nat) : (swinging n).prices (2 * j) = 2 ^ j := by
  simp only [swinging]
  rw [show (2 * j + 1) / 2 = j by omega]

theorem swinging_price_odd (n j : Nat) : (swinging n).prices (2 * j + 1) = 2 ^ (j + 1) := by
  simp only [swinging]
  rw [show (2 * j + 1 + 1) / 2 = j + 1 by omega]

/-- The cash of a flat bar is the price of one share. -/
private theorem swinging_buys (platform : Platform ℚ) (n j : Nat) :
    ∃ trade, (swinging n).trade platform (swingState (2 * j)) .buy (2 * j) =
        some (swingState (2 * j + 1), trade) ∧ trade.side = .buy ∧ trade.date = 20 * j := by
  have unit : effectivePrice (swinging n).cost (2 ^ j) = 2 ^ j := by
    simp [effectivePrice_eq, swinging]
  have one : sizedQuantity platform (swinging n).cost (2 ^ j) (2 ^ j) = 1 := by
    have quotient : ((2 : ℚ) ^ j / 2 ^ j).floor = 1 := by
      rw [div_self (by positivity)]
      rfl
    rw [sizedQuantity_eq, unit, quotient]
    rw [unit, quotient]
    decide
  rw [Inputs.trade, if_pos ⟨rfl, by rw [swingState_even]⟩, swinging_price_even, openPosition_eq,
    swingState_even, swingState_odd, unit, one]
  -- there is a price, a share is affordable, and the guard does not fire
  rw [if_neg, if_neg, if_neg]
  · refine ⟨_, congrArg some (Prod.ext ?_ rfl), rfl, ?_⟩
    · simp [buyShares, alphaCostCalculate, swinging, CDouble.ofInt, CDouble.literal]
    · simp only [buyShares, swinging]
      push_cast
      ring
  · rw [totalOutlay_eq, unit]
    simp
  · decide
  · simp

/-- The share is sold for twice what was paid. -/
private theorem swinging_sells (platform : Platform ℚ) (n j : Nat) :
    ∃ trade, (swinging n).trade platform (swingState (2 * j + 1)) .sell (2 * j + 1) =
        some (⟨2 ^ (j + 1), 0, 0, 2 ^ j⟩, trade) ∧
      trade.side = .sell ∧ trade.date = 20 * j + 10 := by
  rw [Inputs.trade, if_neg (by simp), if_pos ⟨.inl rfl, by simp [swingState_odd]⟩,
    swinging_price_odd, swingState_odd]
  refine ⟨_, congrArg some (Prod.ext ?_ rfl), rfl, ?_⟩
  · simp [closePosition, alphaCostCalculate, swinging, CDouble.ofInt, CDouble.literal]
  · simp only [closePosition, swinging]
    push_cast
    ring

/-- What the ledger of the first `k` bars shows. -/
structure Swung (ledger : Ledger Unit ℚ) (k : Nat) : Prop where
  state : ledger.state = swingState k
  trades : ledger.trades.map (fun trade => (trade.side, trade.date)) =
    (List.range k).map swingTrade
  returns : ledger.snapshots.map (fun snapshot => snapshot.dailyReturnPct / 100) =
    (List.range k).map swingReturn

private theorem post_swung {n k : Nat} {ledger : Ledger Unit ℚ} (swung : Swung ledger k) :
    Swung ((swinging n).post platform ledger k) (k + 1) := by
  obtain ⟨state, trades, returns⟩ := swung
  -- a bar after an even number of them buys, the next one sells
  obtain ⟨j, rfl | rfl⟩ := Nat.even_or_odd' k
  · obtain ⟨trade, bought, side, date⟩ := swinging_buys platform n j
    have signal : ledger.signal (swinging n) (2 * j) = .buy := by
      simp [Ledger.signal, Inputs.signal, swinging, state, swingState_even]
    have after : (swinging n).afterTrade platform ledger (2 * j) =
        (swingState (2 * j + 1), [trade]) := by
      simp only [Inputs.afterTrade, signal, state, bought]
    refine ⟨?_, ?_, ?_⟩
    · simp [Inputs.post, after, takeSnapshot, swingState_odd, swinging_price_even, CDouble.ofInt]
    · simp [Inputs.post, after, List.range_succ, trades, swingTrade, side, date]
      ring
    · simp [Inputs.post, after, List.range_succ, returns, swingReturn, takeSnapshot,
        swingState_odd, swinging_price_even, CDouble.ofInt, CDouble.literal]
  · obtain ⟨trade, sold, side, date⟩ := swinging_sells platform n j
    have signal : ledger.signal (swinging n) (2 * j + 1) = .sell := by
      simp [Ledger.signal, Inputs.signal, swinging, state, swingState_odd]
    have after : (swinging n).afterTrade platform ledger (2 * j + 1) =
        (⟨2 ^ (j + 1), 0, 0, 2 ^ j⟩, [trade]) := by
      simp only [Inputs.afterTrade, signal, state, sold]
    refine ⟨?_, ?_, ?_⟩
    · rw [show 2 * j + 1 + 1 = 2 * (j + 1) by ring, swingState_even]
      simp [Inputs.post, after, takeSnapshot, CDouble.ofInt]
    · simp [Inputs.post, after, List.range_succ, trades, swingTrade, side, date]
      ring
    · have doubled : ((2 : ℚ) ^ (j + 1) - 2 ^ j) / 2 ^ j = 1 := by
        field_simp
        ring
      simp [Inputs.post, after, List.range_succ, returns, swingReturn, takeSnapshot,
        swinging_price_odd, CDouble.ofInt, CDouble.literal, CDouble.lt, doubled]

theorem ledger_swung (platform : Platform ℚ) (n k : Nat) :
    Swung ((swinging n).ledger platform k) k := by
  induction k with
  | zero =>
    refine ⟨?_, rfl, rfl⟩
    simp [Inputs.ledger, Inputs.start, swingState, swinging, CDouble.ofInt, CDouble.literal]
  | succ k ih => exact post_swung ih

/-- A sum over the returns counts the bars of each kind. -/
private theorem foldl_swings (g : ℚ → ℚ) (k : Nat) :
    ((List.range k).map swingReturn).foldl (fun sum r => sum + g r) 0 =
      ((k - k / 2 : Nat) : ℚ) * g 0 + ((k / 2 : Nat) : ℚ) * g 1 := by
  induction k with
  | zero => simp
  | succ k ih =>
    rw [List.range_succ, List.map_append, List.foldl_append, ih, List.map_singleton,
      List.foldl_cons, List.foldl_nil, swingReturn]
    split
    next even =>
      rw [show (k + 1) / 2 = k / 2 by omega, show k + 1 - k / 2 = k - k / 2 + 1 by omega]
      push_cast
      ring
    next odd =>
      rw [show (k + 1) / 2 = k / 2 + 1 by omega, show k + 1 - (k / 2 + 1) = k - k / 2 by omega]
      push_cast
      ring

/-- How many of `n` bars rise. -/
def swingRises (n : Nat) : ℚ := (n / 2 : Nat)

def swingMean (n : Nat) : ℚ := swingRises n / n

def swingVariance (n : Nat) : ℚ :=
  ((n - swingRises n) * (swingMean n * swingMean n) +
    swingRises n * ((1 - swingMean n) * (1 - swingMean n))) / (n - 1)

private theorem swingRises_bounds (n : Nat) :
    2 * swingRises n ≤ n ∧ (n : ℚ) ≤ 2 * swingRises n + 1 := by
  unfold swingRises
  exact ⟨by exact_mod_cast (by omega : 2 * (n / 2) ≤ n),
    by exact_mod_cast (by omega : n ≤ 2 * (n / 2) + 1)⟩

private theorem swingMean_bounds {n : Nat} (many : 3 ≤ n) :
    1 / 3 ≤ swingMean n ∧ swingMean n ≤ 1 / 2 := by
  have bars : (3 : ℚ) ≤ n := by exact_mod_cast many
  obtain ⟨half, most⟩ := swingRises_bounds n
  unfold swingMean
  constructor
  · rw [div_le_div_iff₀ (by norm_num) (by linarith)]
    linarith
  · rw [div_le_div_iff₀ (by linarith) (by norm_num)]
    linarith

private theorem swingVariance_bounds {n : Nat} (many : 3 ≤ n) :
    0 < swingVariance n ∧ swingVariance n ≤ 1 := by
  have bars : (3 : ℚ) ≤ n := by exact_mod_cast many
  obtain ⟨half, most⟩ := swingRises_bounds n
  obtain ⟨third, below⟩ := swingMean_bounds many
  have rises : 0 < swingRises n := by linarith
  have others : 0 ≤ n - swingRises n := by linarith
  unfold swingVariance
  constructor
  · apply div_pos _ (by linarith)
    have up : 0 < swingRises n * ((1 - swingMean n) * (1 - swingMean n)) :=
      mul_pos rises (mul_pos (by linarith) (by linarith))
    have down : 0 ≤ (n - swingRises n) * (swingMean n * swingMean n) :=
      mul_nonneg others (mul_self_nonneg _)
    linarith
  · rw [div_le_one (by linarith)]
    -- both deviations from the mean are at most 1, the smaller one at most a half
    have up : (1 - swingMean n) * (1 - swingMean n) ≤ 1 * 1 :=
      mul_le_mul (by linarith) (by linarith) (by linarith) zero_le_one
    have down : swingMean n * swingMean n ≤ 1 / 2 * (1 / 2) :=
      mul_le_mul below below (by linarith) (by norm_num)
    have ups := mul_le_mul_of_nonneg_left up rises.le
    have downs := mul_le_mul_of_nonneg_left down others
    linarith

/-- `compute_sharpe` of the swings, in these terms. -/
private theorem computeSharpe_swings (roots : RootLaws platform) {n : Nat} (many : 3 ≤ n) :
    computeSharpe platform ((List.range n).map swingReturn) =
      swingMean n / platform.sqrt (swingVariance n) * platform.sqrt 252 := by
  have downs : ((n - n / 2 : Nat) : ℚ) = n - swingRises n := by
    rw [Nat.cast_sub (by omega), swingRises]
  have sum : ((List.range n).map swingReturn).foldl (· + ·) (literal 0) = swingRises n := by
    refine (foldl_swings id n).trans ?_
    simp [swingRises]
  have squares : ((List.range n).map swingReturn).foldl
      (fun sq r => sq + (r - swingMean n) * (r - swingMean n)) (literal 0) =
        (n - swingRises n) * (swingMean n * swingMean n) +
          swingRises n * ((1 - swingMean n) * (1 - swingMean n)) := by
    refine (foldl_swings (fun r => (r - swingMean n) * (r - swingMean n)) n).trans ?_
    rw [downs, ← swingRises]
    ring
  have length : ((List.range n).map swingReturn).length = n := by simp
  have mean : swingRises n / ofInt n = swingMean n := rfl
  have variance : ((n - swingRises n) * (swingMean n * swingMean n) +
      swingRises n * ((1 - swingMean n) * (1 - swingMean n))) / ofInt ((n : Int) - 1) =
        swingVariance n := by
    simp [swingVariance, CDouble.ofInt]
  have spread := roots.positive _ (swingVariance_bounds many).1
  rw [computeSharpe, length, if_neg (by omega), sum]
  simp only [mean, squares, variance]
  rw [if_neg]
  · rfl
  · simpa only [CDouble.le, CDouble.literal, decide_eq_true_eq, not_le] using spread

/-- The Sharpe ratio of the swings is at least a third. -/
private theorem third_le_computeSharpe (roots : RootLaws platform) {n : Nat} (many : 3 ≤ n) :
    1 / 3 ≤ computeSharpe platform ((List.range n).map swingReturn) := by
  obtain ⟨third, _⟩ := swingMean_bounds many
  obtain ⟨spread, narrow⟩ := swingVariance_bounds many
  have root := roots.positive _ spread
  have positive : 0 ≤ swingMean n := by linarith
  rw [computeSharpe_swings roots many]
  calc 1 / 3 ≤ swingMean n := third
    _ ≤ swingMean n / platform.sqrt (swingVariance n) := by
      rw [le_div_iff₀ root]
      exact mul_le_of_le_one_right positive (roots.small _ spread narrow)
    _ ≤ swingMean n / platform.sqrt (swingVariance n) * platform.sqrt 252 :=
      le_mul_of_one_le_right (div_nonneg positive root.le) (roots.large _ (by norm_num))

/-- The queue of open purchases after `k` trades. -/
def swingMatching (capacity k : Nat) : Matching where
  buyQueue := Slots.holding capacity ((List.range ((k + 1) / 2)).map fun i : Nat => 20 * (i : Int))
  head := k / 2
  tail := (k + 1) / 2
  totalHolding := 10 * (k / 2 : Nat)
  matched := (k / 2 : Nat)

private theorem matchTrade_swing {capacity k : Nat} {trade : TradeRecord ℚ}
    (shape : (trade.side, trade.date) = swingTrade k) (room : k < capacity) :
    matchTrade (swingMatching capacity k) trade = some (swingMatching capacity (k + 1)) := by
  obtain ⟨side, date⟩ := Prod.ext_iff.mp shape
  obtain ⟨j, rfl | rfl⟩ := Nat.even_or_odd' k
  · -- a purchase is written behind those before it
    have behind : ((List.range j).map fun i : Nat => 20 * (i : Int)).length < capacity := by
      rw [List.length_map, List.length_range]
      omega
    have written := Slots.write_holding behind (20 * (j : Int))
    rw [List.length_map, List.length_range] at written
    have bought : trade.side = .buy := side.trans (if_pos (by omega))
    have day : trade.date = 20 * j := by
      refine date.trans ?_
      simp only [swingTrade]
      push_cast
      ring
    rw [matchTrade, if_pos bought, swingMatching, swingMatching,
      show (2 * j + 1) / 2 = j by omega, show (2 * j + 1 + 1) / 2 = j + 1 by omega,
      show 2 * j / 2 = j by omega, day, written, List.range_succ, List.map_append]
    rfl
  · -- a sale reads the one purchase that is open
    have sold : trade.side = .sell := side.trans (if_neg (by omega))
    have day : trade.date = 20 * j + 10 := by
      refine date.trans ?_
      simp only [swingTrade]
      push_cast
      ring
    rw [matchTrade, if_neg (by simp [sold]), swingMatching, swingMatching,
      show (2 * j + 1 + 1) / 2 = j + 1 by omega, show (2 * j + 1) / 2 = j by omega,
      show (2 * j + 1 + 1 + 1) / 2 = j + 1 by omega]
    simp [day]
    ring

private theorem matching_swings {capacity : Nat} {trades : List (TradeRecord ℚ)} {k : Nat}
    (swings : trades.map (fun trade => (trade.side, trade.date)) = (List.range k).map swingTrade)
    (fits : k ≤ capacity) :
    trades.foldlM matchTrade ⟨Slots.fresh capacity, 0, 0, 0, 0⟩ =
      some (swingMatching capacity k) := by
  induction k generalizing trades with
  | zero =>
    obtain rfl : trades = [] := by simpa using swings
    simp [Slots.fresh_eq_holding, swingMatching]
  | succ k ih =>
    rw [List.range_succ, List.map_append, List.map_eq_append_iff] at swings
    obtain ⟨earlier, last, rfl, before, now⟩ := swings
    obtain ⟨trade, rfl, shape⟩ := List.map_eq_singleton_iff.mp now
    rw [List.foldlM_append, ih before (by omega)]
    simp [matchTrade_swing shape fits]

/-- Every swing is held ten days. -/
private theorem computeAvgHoldingDays_swings {trades : List (TradeRecord ℚ)} {n : Nat}
    (many : 2 ≤ n)
    (swings : trades.map (fun trade => (trade.side, trade.date)) =
      (List.range n).map swingTrade) :
    computeAvgHoldingDays trades (Slots.fresh n) = some (10 : ℚ) := by
  have pairs : ((n / 2 : Nat) : ℚ) ≠ 0 := by
    exact_mod_cast (by omega : n / 2 ≠ 0)
  rw [computeAvgHoldingDays, matching_swings swings le_rfl]
  simp only [Option.bind_eq_bind, Option.bind_some, swingMatching, CDouble.ofInt, Option.some.injEq]
  rw [if_pos (by omega), Int.cast_mul, Int.cast_natCast, mul_div_cancel_right₀ _ pairs]
  rfl

/-- The Sharpe ratio of more than 512 swings is positive if its array is allocated, and 0 if it is
not. -/
private theorem sharpe_swings (roots : RootLaws platform) {n : Nat} (many : stackCapacity < n)
    (alloc : Allocations) {snapshots : List (DailySnapshot ℚ)}
    (swings : snapshots.map (fun snapshot => snapshot.dailyReturnPct / 100) =
      (List.range n).map swingReturn) :
    if alloc.returns then 0 < roundDp (sharpe platform alloc snapshots) 4
      else roundDp (sharpe platform alloc snapshots) 4 = 0 := by
  have capacity : stackCapacity = 512 := rfl
  have bars : snapshots.length = n := by simpa using congrArg List.length swings
  unfold sharpe
  rw [bars]
  split
  next allocated =>
    rw [if_pos (by simp [allocated])]
    have third := third_le_computeSharpe roots (by omega : 3 ≤ n)
    rw [← swings] at third
    have units : 1 ≤ computeSharpe platform
        (snapshots.map fun snapshot => snapshot.dailyReturnPct / 100) * 10 ^ 4 := by
      linarith
    exact alphaRoundDp_pos 4 (by decide) units
  next failed =>
    rw [if_neg (by simpa [failed] using many)]
    decide +kernel

/-- The average holding time of more than 512 swings is positive if its queue is allocated, and 0
if it is not. -/
private theorem avgHoldingDays_swings {n : Nat} (many : stackCapacity < n) (alloc : Allocations)
    {trades : List (TradeRecord ℚ)} {held : ℚ}
    (swings : trades.map (fun trade => (trade.side, trade.date)) = (List.range n).map swingTrade)
    (averaged : avgHoldingDays alloc trades = some held) :
    if alloc.queue then 0 < roundDp held 1 else roundDp held 1 = 0 := by
  have capacity : stackCapacity = 512 := rfl
  have traded : trades.length = n := by simpa using congrArg List.length swings
  rw [avgHoldingDays, traded, if_neg (by omega), if_neg (by omega)] at averaged
  split
  next allocated =>
    rw [if_pos allocated, computeAvgHoldingDays_swings (by omega) swings] at averaged
    obtain rfl := Option.some.inj averaged
    have units : (1 : ℚ) ≤ 10 * 10 ^ 1 := by norm_num
    exact alphaRoundDp_pos 1 (by decide) units
  next failed =>
    rw [if_neg failed] at averaged
    obtain rfl := Option.some.inj averaged
    decide +kernel

/-- What the scratch arrays are worth to the swings. -/
theorem swinging_run (roots : RootLaws platform) {n : Nat} (many : stackCapacity < n)
    (alloc : Allocations) (arrays : alloc.trades = true ∧ alloc.snapshots = true)
    (out : BacktestResult ℚ) :
    ∃ result, (swinging n).run platform alloc out = some (.ok, some result) ∧
      (if alloc.returns then 0 < result.metrics.sharpeRatio
        else result.metrics.sharpeRatio = 0) ∧
      (if alloc.queue then 0 < result.metrics.avgHoldingDays
        else result.metrics.avgHoldingDays = 0) := by
  have accepted : (swinging n).config.trainEnd < (swinging n).config.testStart :=
    (by decide : (-1 : Int) < 0)
  obtain ⟨metrics, computed, returned⟩ :=
    alphaBacktestRun_metrics (swinging n) platform alloc out accepted (.inr arrays)
  obtain ⟨_, trades, returns⟩ := ledger_swung platform n n
  have bars : ((swinging n).ledger platform n).snapshots ≠ [] := by
    apply List.ne_nil_of_length_pos
    rw [(ledger_balanced (swinging n) platform n).bars]
    omega
  obtain ⟨ratio, held, averaged, days⟩ := alphaComputeMetrics_scratch bars computed
  refine ⟨_, returned, ?_, ?_⟩
  · rw [ratio]
    exact sharpe_swings roots many alloc returns
  · rw [days]
    exact avgHoldingDays_swings many alloc trades averaged

/-- A scratch array that fails changes a metric of the swings, and no error is returned. -/
theorem swinging_not_tolerated (roots : RootLaws platform) {n : Nat} (many : stackCapacity < n)
    {alloc : Allocations} (arrays : alloc.trades = true ∧ alloc.snapshots = true)
    (scratch : ¬(alloc.returns = true ∧ alloc.queue = true)) (out : BacktestResult ℚ) :
    ¬ Tolerates platform alloc (some (swinging n).config) (some (swinging n).prices)
      (some (swinging n).dates) n (some (swinging n).signalFn) (swinging n).signalCtx
      (some (swinging n).cost) (some out) := by
  obtain ⟨result, returned, ratio, days⟩ := swinging_run roots many alloc arrays out
  obtain ⟨full, returnedFull, fullRatio, fullDays⟩ :=
    swinging_run roots many .all ⟨rfl, rfl⟩ out
  rintro (⟨_, failed⟩ | same)
  -- the run is not refused, and its metrics tell it from the full one
  · cases returned.symm.trans failed
  · obtain rfl : result = full := by
      simpa using (returned.symm.trans same).trans returnedFull
    rcases not_and_or.mp scratch with noReturns | noQueue
    · rw [if_neg noReturns] at ratio
      exact absurd ratio (ne_of_gt fullRatio)
    · rw [if_neg noQueue] at days
      exact absurd days (ne_of_gt fullDays)

/-- An allocation failure is reported or harmless exactly when a result array fails with it, or
each scratch array the run needs is there or would have given a 0. -/
theorem allocation_failures_tolerated_iff {σ α : Type} [CDouble α] (platform : Platform α)
    (alloc : Allocations) (config : Option (BacktestConfig α)) (prices : Option (Nat → α))
    (dates : Option (Nat → Int)) (n : Nat) (signalFn : Option (SignalFn σ α)) (signalCtx : σ)
    (cost : Option (CostModel α)) (out : Option (BacktestResult α)) :
    Tolerates platform alloc config prices dates n signalFn signalCtx cost out ↔
      (alloc.trades = false ∨ alloc.snapshots = false) ∨
      ∀ full, alphaBacktestRun platform .all config prices dates n signalFn signalCtx cost out =
          some (.ok, some full) →
        (full.snapshotCount ≤ 512 ∨ alloc.returns = true ∨
          full.metrics.sharpeRatio = roundDp (literal 0) 4) ∧
        (full.tradeCount ≤ 512 ∨ alloc.queue = true ∨
          full.metrics.avgHoldingDays = roundDp (literal 0) 1) := by
  -- a NULL pointer is rejected before anything is allocated
  rcases config with _ | config
  · exact iff_of_true (.inr rfl) (.inr nofun)
  rcases prices with _ | prices
  · exact iff_of_true (.inr rfl) (.inr nofun)
  rcases dates with _ | dates
  · exact iff_of_true (.inr rfl) (.inr nofun)
  rcases signalFn with _ | signalFn
  · exact iff_of_true (.inr rfl) (.inr nofun)
  rcases cost with _ | cost
  · exact iff_of_true (.inr rfl) (.inr nofun)
  rcases out with _ | out
  · exact iff_of_true (.inr rfl) (.inr nofun)
  simpa only [Scratch, stackCapacity, Inputs.run, or_assoc] using
    tolerates_run_iff ⟨config, prices, dates, n, signalFn, signalCtx, cost⟩ platform alloc out

theorem allocation_failures_tolerated_stack :
    ∀ out, Tolerates somePlatform ⟨true, true, false, false⟩ (some (swinging 512).config)
      (some (swinging 512).prices) (some (swinging 512).dates) (swinging 512).n
      (some (swinging 512).signalFn) (swinging 512).signalCtx (some (swinging 512).cost)
      (some out) := by
  intro out
  refine (allocation_failures_tolerated_iff somePlatform ⟨true, true, false, false⟩ _ _ _ _ _ _ _
    _).mpr (.inr fun full returned => ?_)
  have few : (swinging 512).n ≤ 512 := le_refl 512
  have traded := (ledger_balanced (swinging 512) somePlatform (swinging 512).n).room
  obtain ⟨_, _, _, _, rfl⟩ := run_ok (swinging 512) somePlatform returned
  dsimp only
  exact ⟨.inl few, .inl (traded.trans few)⟩

/-- With 513 bars and no array of returns, the run returns `ALPHA_OK` and a Sharpe ratio of 0. -/
theorem sharpe_silently_zero :
    RootLaws somePlatform ∧ ∀ platform, RootLaws platform → ∀ out,
      (∃ result full,
        (swinging 513).run platform ⟨true, true, false, true⟩ out = some (.ok, some result) ∧
        (swinging 513).run platform ⟨true, true, true, true⟩ out = some (.ok, some full) ∧
        result.metrics.sharpeRatio = 0 ∧ 0 < full.metrics.sharpeRatio) ∧
      ¬ Tolerates platform ⟨true, true, false, true⟩ (some (swinging 513).config)
        (some (swinging 513).prices) (some (swinging 513).dates) 513
        (some (swinging 513).signalFn) (swinging 513).signalCtx (some (swinging 513).cost)
        (some out) := by
  have many : stackCapacity < 513 := by decide
  refine ⟨somePlatform_roots, fun platform roots out => ⟨?_, ?_⟩⟩
  · obtain ⟨result, returned, ratio, _⟩ :=
      swinging_run roots many ⟨true, true, false, true⟩ ⟨rfl, rfl⟩ out
    obtain ⟨full, returnedFull, fullRatio, _⟩ :=
      swinging_run roots many ⟨true, true, true, true⟩ ⟨rfl, rfl⟩ out
    exact ⟨result, full, returned, returnedFull, ratio, fullRatio⟩
  · exact swinging_not_tolerated roots many ⟨rfl, rfl⟩ (by simp) out

end AlphaPipeline.Backtest

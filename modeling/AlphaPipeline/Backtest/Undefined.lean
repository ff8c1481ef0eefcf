import AlphaPipeline.Backtest.Conversions
import AlphaPipeline.Backtest.Divisions
import AlphaPipeline.Backtest.Returns

/-!
# Undefined metrics

Of the divisors of a run only the capital and the peaks of the equity curve go unchecked. Where
they are not zero, and the prices and rates are numbers, every metric is one.
-/
namespace AlphaPipeline.Backtest

open CDouble

section

variable {σ α : Type} [CDouble α]

/-! ### Defined values -/

/-- What is used of the numbers among the doubles, overflow apart: the operations stay among them,
except for a division by zero. The roots are those of mean squares and of the days of a year, the
powers those of growth factors. -/
structure DefinedLaws (platform : Platform α) (isZero defined : α → Prop) : Prop where
  literal : ∀ q, defined (literal q)
  ofInt : ∀ k, defined (ofInt k)
  add : ∀ x y, defined x → defined y → defined (x + y)
  sub : ∀ x y, defined x → defined y → defined (x - y)
  mul : ∀ x y, defined x → defined y → defined (x * y)
  div : ∀ x d, defined x → defined d → ¬ isZero d → defined (x / d)
  roundDp : ∀ x dp, defined x → defined (roundDp x dp)
  root : ∀ (xs : List α) (k : Int), (∀ x ∈ xs, defined x) → 0 < k →
    defined (platform.sqrt (xs.foldl (fun sum x => sum + x * x) (CDouble.literal 0) /
      CDouble.ofInt k))
  year : defined (platform.sqrt tradingDaysPerYear)
  power : ∀ x y, defined x → defined y → lt (CDouble.literal (-1)) x = true →
    defined (platform.pow (CDouble.literal 1 + x) y)

/-- The closes and the rates of a run are defined. -/
structure Inputs.Defined (inputs : Inputs σ α) (defined : α → Prop) : Prop where
  prices : ∀ i < inputs.n, defined (inputs.prices i)
  commissionRate : defined inputs.cost.commissionRate
  taxRate : defined inputs.cost.taxRate
  slippageRate : defined inputs.cost.slippageRate

/-- What the next bar is measured with. -/
structure EngineState.Defined (state : EngineState α) (defined : α → Prop) : Prop where
  cash : defined state.cash
  prevPortfolioValue : defined state.prevPortfolioValue

/-- What the metrics read of a snapshot. -/
structure DailySnapshot.Defined (snapshot : DailySnapshot α) (defined : α → Prop) : Prop where
  closePrice : defined snapshot.closePrice
  portfolioValue : defined snapshot.portfolioValue
  dailyReturnPct : defined snapshot.dailyReturnPct

/-- Every metric is defined. -/
structure BacktestMetrics.Defined (metrics : BacktestMetrics α) (defined : α → Prop) : Prop where
  totalReturnPct : defined metrics.totalReturnPct
  annualReturnPct : defined metrics.annualReturnPct
  sharpeRatio : defined metrics.sharpeRatio
  maxDrawdownPct : defined metrics.maxDrawdownPct
  winRate : defined metrics.winRate
  avgHoldingDays : defined metrics.avgHoldingDays
  baselineReturnPct : defined metrics.baselineReturnPct
  excessReturnPct : defined metrics.excessReturnPct

variable (inputs : Inputs σ α) {platform : Platform α} {isZero defined : α → Prop}
  (zeros : ZeroLaws isZero) (laws : DefinedLaws platform isZero defined)
include laws

theorem alphaCostCalculate_defined {cost : CostModel α} {price : α}
    (commissionRate : defined cost.commissionRate) (taxRate : defined cost.taxRate)
    (slippageRate : defined cost.slippageRate) (priced : defined price) (side : AlphaSide)
    (quantity : Int) : defined (alphaCostCalculate cost side price quantity).total := by
  have notional := laws.mul _ _ priced (laws.ofInt quantity)
  have tax : defined (if side = .sell then price * ofInt quantity * cost.taxRate
      else CDouble.literal 0) := by
    split
    · exact laws.mul _ _ notional taxRate
    · exact laws.literal 0
  exact laws.add _ _ (laws.add _ _ (laws.mul _ _ notional commissionRate) tax)
    (laws.mul _ _ notional slippageRate)

theorem trade_defined (given : inputs.Defined defined) {state : EngineState α}
    {signal : AlphaSignal} {i : Nat} (inside : i < inputs.n) (before : state.Defined defined)
    {taken : EngineState α × TradeRecord α}
    (traded : inputs.trade platform state signal i = some taken) : taken.1.Defined defined := by
  have price := given.prices i inside
  have total := alphaCostCalculate_defined laws given.commissionRate given.taxRate
    given.slippageRate price
  have paid (quantity : Int) := laws.mul _ _ price (laws.ofInt quantity)
  rcases trade_shapes inputs platform traded with ⟨_, _, quantity, _, rfl⟩ | ⟨_, _, rfl⟩
  · exact ⟨laws.sub _ _ before.cash (laws.add _ _ (paid quantity) (total .buy quantity)),
      before.prevPortfolioValue⟩
  · exact ⟨laws.add _ _ before.cash (laws.sub _ _ (paid _) (total .sell _)),
      before.prevPortfolioValue⟩

include zeros

theorem takeSnapshot_defined {state : EngineState α} (before : state.Defined defined)
    (date : Int) {closePrice : α} (closed : defined closePrice) :
    (takeSnapshot state date closePrice).1.Defined defined ∧
      (takeSnapshot state date closePrice).2.Defined defined := by
  have value := laws.add _ _ before.cash
    (laws.mul _ _ (laws.ofInt state.positionQty) closed)
  refine ⟨⟨before.cash, value⟩, closed, value, ?_⟩
  simp only [takeSnapshot]
  split
  next measured =>
    exact laws.mul _ _ (laws.div _ _ (laws.sub _ _ value before.prevPortfolioValue)
      before.prevPortfolioValue (zeros.positive _ measured)) (laws.literal 100)
  · exact laws.literal 0

/-- The bars keep to defined values: what they divide by, they check. -/
theorem ledger_defined (given : inputs.Defined defined) {k : Nat} (inside : k ≤ inputs.n) :
    (inputs.ledger platform k).state.Defined defined ∧
      ∀ snapshot ∈ (inputs.ledger platform k).snapshots, snapshot.Defined defined := by
  induction k with
  | zero => exact ⟨⟨laws.ofInt _, laws.ofInt _⟩, nofun⟩
  | succ k ih =>
    obtain ⟨state, snapshots⟩ := ih (by omega)
    have traded : (inputs.afterTrade platform (inputs.ledger platform k) k).1.Defined defined := by
      unfold Inputs.afterTrade
      split
      next taken => exact trade_defined inputs laws given (by omega) state taken
      · exact state
    obtain ⟨after, shot⟩ := takeSnapshot_defined zeros laws traded (inputs.dates k)
      (given.prices k (by omega))
    refine ⟨after, fun snapshot member => ?_⟩
    rcases List.mem_append.mp member with earlier | last
    · exact snapshots snapshot earlier
    · rwa [List.mem_singleton.mp last]

omit zeros in
theorem foldl_add_defined {xs : List α} (all : ∀ x ∈ xs, defined x) {sum : α}
    (start : defined sum) : defined (xs.foldl (· + ·) sum) := by
  induction xs generalizing sum with
  | nil => exact start
  | cons x rest ih =>
    obtain ⟨first, others⟩ := List.forall_mem_cons.mp all
    exact ih others (laws.add _ _ start first)

theorem computeSharpe_defined {returns : List α} (all : ∀ r ∈ returns, defined r) :
    defined (computeSharpe platform returns) := by
  unfold computeSharpe
  split
  · exact laws.literal 0
  next several =>
    have counted : ¬ isZero (ofInt returns.length) := by
      rw [zeros.ofInt]
      omega
    have mean : defined (meanOf returns) :=
      laws.div _ _ (foldl_add_defined laws all (laws.literal 0)) (laws.ofInt _) counted
    -- the deviations are what is squared
    have std : defined (stdOf platform returns) := by
      have deviations : ∀ x ∈ returns.map (· - meanOf returns), defined x := by
        intro x member
        obtain ⟨r, among, rfl⟩ := List.mem_map.mp member
        exact laws.sub _ _ (all r among) mean
      have root := laws.root _ (returns.length - 1) deviations (by omega)
      rwa [List.foldl_map] at root
    dsimp only
    split
    · exact laws.literal 0
    next varied =>
      exact laws.mul _ _ (laws.div _ _ mean std (zeros.notBelow _ varied)) laws.year

theorem sharpe_defined (alloc : Allocations) {snapshots : List (DailySnapshot α)}
    (all : ∀ snapshot ∈ snapshots, snapshot.Defined defined) :
    defined (sharpe platform alloc snapshots) := by
  unfold sharpe
  split
  · refine computeSharpe_defined zeros laws fun r member => ?_
    obtain ⟨snapshot, among, rfl⟩ := List.mem_map.mp member
    exact laws.div _ _ (all snapshot among).dailyReturnPct (laws.literal 100) zeros.hundred
  · exact laws.literal 0

theorem winRate_defined (trades : List (TradeRecord α)) : defined (winRate trades) := by
  simp only [winRate]
  split
  next sold =>
    refine laws.mul _ _ (laws.div _ _ (laws.ofInt _) (laws.ofInt _) ?_) (laws.literal 100)
    rw [zeros.ofInt]
    omega
  · exact laws.literal 0

theorem computeAvgHoldingDays_numeric {trades : List (TradeRecord α)} {queue : List (Option Int)}
    {days : α} (averaged : computeAvgHoldingDays trades queue = some days) : defined days := by
  obtain ⟨m, _, some_⟩ := Option.bind_eq_some_iff.mp averaged
  rw [← Option.some.inj some_]
  split
  next matched =>
    refine laws.div _ _ (laws.ofInt _) (laws.ofInt _) ?_
    rwa [zeros.ofInt]
  · exact laws.literal 0

theorem avgHoldingDays_numeric {alloc : Allocations} {trades : List (TradeRecord α)} {days : α}
    (averaged : avgHoldingDays alloc trades = some days) : defined days := by
  unfold avgHoldingDays at averaged
  split at averaged
  · exact Option.some.inj averaged ▸ laws.literal 0
  · split at averaged
    · exact computeAvgHoldingDays_numeric zeros laws averaged
    · split at averaged
      · exact computeAvgHoldingDays_numeric zeros laws averaged
      · exact Option.some.inj averaged ▸ laws.literal 0

omit laws zeros in
theorem mddStep_peak (curve : α × α) (snapshot : DailySnapshot α) :
    (mddStep curve snapshot).1 =
      if lt curve.1 snapshot.portfolioValue then snapshot.portfolioValue else curve.1 := rfl

omit laws zeros in
/-- The deepest fall so far, or the one from the peak to this value. -/
theorem mddStep_fall (curve : α × α) (snapshot : DailySnapshot α) :
    (mddStep curve snapshot).2 = curve.2 ∨
      (mddStep curve snapshot).2 = (snapshot.portfolioValue - (mddStep curve snapshot).1) /
        (mddStep curve snapshot).1 * CDouble.literal 100 :=
  (ite_eq_or_eq (lt _ curve.2 = true) _ curve.2).symm

omit zeros in
/-- While no peak is zero, the drawdown is defined. -/
theorem mdd_defined {snapshots : List (DailySnapshot α)}
    (all : ∀ snapshot ∈ snapshots, snapshot.Defined defined) {curve : α × α}
    (peak : defined curve.1) (mdd : defined curve.2)
    (peaks : NoneZero isZero (mddDivisors curve snapshots)) :
    defined (snapshots.foldl mddStep curve).2 := by
  induction snapshots generalizing curve with
  | nil => exact mdd
  | cons snapshot rest ih =>
    obtain ⟨first, others⟩ := List.forall_mem_cons.mp all
    obtain ⟨nonzero, later⟩ := List.forall_mem_cons.mp peaks
    have value := first.portfolioValue
    have high : defined (mddStep curve snapshot).1 := by
      rw [mddStep_peak]
      split
      · exact value
      · exact peak
    refine ih others high ?_ later
    rcases mddStep_fall curve snapshot with same | fall
    · rwa [same]
    · rw [fall]
      exact laws.mul _ _ (laws.div _ _ (laws.sub _ _ value high) high nonzero) (laws.literal 100)

/-- The metrics of defined snapshots are defined if neither the capital nor a peak is zero. -/
theorem alphaComputeMetrics_numeric {alloc : Allocations} {snapshots : List (DailySnapshot α)}
    {trades : List (TradeRecord α)} {initialCapital : Int} {metrics : BacktestMetrics α}
    (all : ∀ snapshot ∈ snapshots, snapshot.Defined defined)
    (nonzero : NoneZero isZero
      (metricsDivisors platform alloc snapshots trades initialCapital))
    (computed : alphaComputeMetrics platform alloc snapshots trades initialCapital =
      some metrics) :
    metrics.Defined defined := by
  have zero := laws.literal 0
  cases snapshots with
  | nil =>
    rw [← Option.some.inj computed]
    exact ⟨zero, zero, zero, zero, zero, zero, zero, zero⟩
  | cons first rest =>
    obtain ⟨capital, peaks⟩ := (metricsDivisors_nonzero_iff platform zeros alloc first rest trades
      initialCapital).mp nonzero
    rw [alphaComputeMetrics] at computed
    obtain ⟨held, averaged, filled⟩ := Option.bind_eq_some_iff.mp computed
    have start := all first List.mem_cons_self
    have last := all _ (List.getLast_mem (List.cons_ne_nil first rest))
    have total : defined (totalReturnOf ((first :: rest).getLast (List.cons_ne_nil first rest))
        initialCapital) :=
      laws.div _ _ (laws.sub _ _ last.portfolioValue (laws.ofInt _)) (laws.ofInt _)
        (by rwa [zeros.ofInt])
    have totalPct := laws.mul _ _ total (laws.literal 100)
    have baseline : defined (if lt (CDouble.literal 0) first.closePrice then
        (((first :: rest).getLast (List.cons_ne_nil first rest)).closePrice / first.closePrice -
          CDouble.literal 1) * CDouble.literal 100 else CDouble.literal 0) := by
      split
      next priced =>
        exact laws.mul _ _ (laws.sub _ _ (laws.div _ _ last.closePrice start.closePrice
          (zeros.positive _ priced)) (laws.literal 1)) (laws.literal 100)
      · exact zero
    rw [← Option.some.inj filled]
    refine ⟨laws.roundDp _ _ totalPct, laws.roundDp _ _ ?_,
      laws.roundDp _ _ (sharpe_defined zeros laws alloc all),
      laws.roundDp _ _ (mdd_defined laws all start.portfolioValue zero peaks),
      laws.roundDp _ _ (winRate_defined zeros laws trades),
      laws.roundDp _ _ (avgHoldingDays_numeric zeros laws averaged),
      laws.roundDp _ _ baseline, laws.roundDp _ _ (laws.sub _ _ totalPct baseline)⟩
    split
    next grown =>
      have counted : ¬ isZero (ofInt (first :: rest).length) := by
        rw [zeros.ofInt, List.length_cons]
        omega
      exact laws.mul _ _ (laws.sub _ _ (laws.power _ _ total
        (laws.div _ _ (laws.literal 252) (laws.ofInt _) counted)
        (Bool.and_eq_true_iff.mp grown).2) (laws.literal 1)) (laws.literal 100)
    · exact zero

/-- A run on defined prices and rates that divides by no zero has defined metrics. -/
theorem run_defined (given : inputs.Defined defined) {alloc : Allocations}
    {out result : BacktestResult α}
    (returned : inputs.run platform alloc out = some (.ok, some result))
    (nonzero : NoneZero isZero (inputs.divisors platform alloc)) :
    result.metrics.Defined defined := by
  obtain ⟨_, _, metrics, computed, rfl⟩ := run_ok inputs platform returned
  exact alphaComputeMetrics_numeric zeros laws (ledger_defined inputs zeros laws given le_rfl).2
    (noneZero_append.mp nonzero).2 computed

omit zeros laws

/-! ### Zero divisors -/

/-- What is used of the comparisons; a NaN is neither below nor above anything. -/
structure OrderLaws (isZero : α → Prop) : Prop extends ZeroLaws isZero where
  zero : ∀ x : α, isZero x → le x (literal 0) = true ∧ le (literal 0) x = true
  below : ∀ x : α, lt x (literal 0) = true → ¬ le (literal 0) x = true
  number : ∀ x y : α, lt x y = true → lt y (literal 0) = true ∨ le (literal 0) y = true
  trans : ∀ x y z : α, lt x y = true → lt y z = true → lt x z = true
  transLe : ∀ x y z : α, lt x y = true → le y z = true → lt x z = true

/-- The values come up to a zero from below: the first of those before it is negative, and none of
them is zero or more. -/
def RisesToZero (isZero : α → Prop) (values : List α) : Prop :=
  ∃ before zero after, values = before ++ zero :: after ∧ isZero zero ∧
    (∀ first ∈ before.head?, lt first (literal 0) = true) ∧
    ∀ value ∈ before, ¬ le (literal 0) value = true

/-- A first value that is not zero and not negative keeps the peaks from zero. -/
theorem not_risesToZero {values : List α}
    (first : ∀ value ∈ values.head?, ¬ isZero value ∧ ¬ lt value (literal 0) = true) :
    ¬ RisesToZero isZero values := by
  rintro ⟨before, zero, after, rfl, isZero, start, _⟩
  cases before with
  | nil => exact (first zero rfl).1 isZero
  | cons value rest => exact (first value rfl).2 (start value rfl)

/-- Some value is zero, and none of those before it is zero or more. -/
def ReachesZero (isZero : α → Prop) (values : List α) : Prop :=
  ∃ before zero after, values = before ++ zero :: after ∧ isZero zero ∧
    ∀ value ∈ before, ¬ le (literal 0) value = true

theorem reachesZero_nil : ¬ ReachesZero isZero ([] : List α) := by
  rintro ⟨before, zero, after, values, _⟩
  exact absurd values.symm (List.append_ne_nil_of_right_ne_nil _ (List.cons_ne_nil _ _))

theorem reachesZero_cons {value : α} {rest : List α} :
    ReachesZero isZero (value :: rest) ↔
      isZero value ∨ ¬ le (literal 0) value = true ∧ ReachesZero isZero rest := by
  constructor
  · rintro ⟨before, zero, after, values, isZero, below⟩
    cases before with
    | nil =>
      obtain ⟨rfl, _⟩ := List.cons.inj values
      exact .inl isZero
    | cons _ before =>
      obtain ⟨rfl, others⟩ := List.cons.inj values
      obtain ⟨under, below⟩ := List.forall_mem_cons.mp below
      exact .inr ⟨under, before, zero, after, others, isZero, below⟩
  · rintro (zero | ⟨under, before, zero, after, rfl, isZero, below⟩)
    · exact ⟨[], value, rest, rfl, zero, nofun⟩
    · exact ⟨value :: before, zero, after, rfl, isZero, List.forall_mem_cons.mpr ⟨under, below⟩⟩

theorem risesToZero_cons (order : OrderLaws isZero) {value : α} {rest : List α} :
    RisesToZero isZero (value :: rest) ↔
      isZero value ∨ lt value (literal 0) = true ∧ ReachesZero isZero rest := by
  constructor
  · rintro ⟨before, zero, after, values, isZero, start, below⟩
    cases before with
    | nil =>
      obtain ⟨rfl, _⟩ := List.cons.inj values
      exact .inl isZero
    | cons _ before =>
      obtain ⟨rfl, others⟩ := List.cons.inj values
      exact .inr ⟨start _ rfl, before, zero, after, others, isZero,
        (List.forall_mem_cons.mp below).2⟩
  · rintro (zero | ⟨negative, before, zero, after, rfl, isZero, below⟩)
    · exact ⟨[], value, rest, rfl, zero, nofun, nofun⟩
    · refine ⟨value :: before, zero, after, rfl, isZero, ?_,
        List.forall_mem_cons.mpr ⟨order.below _ negative, below⟩⟩
      rintro _ ⟨⟩
      exact negative

/-- A peak that is not zero becomes zero from below only, with a value that is. -/
theorem mddStep_zero_iff (order : OrderLaws isZero) {curve : α × α} (nonzero : ¬ isZero curve.1)
    (snapshot : DailySnapshot α) :
    isZero (mddStep curve snapshot).1 ↔
      lt curve.1 (literal 0) = true ∧ isZero snapshot.portfolioValue := by
  rw [mddStep_peak]
  constructor
  · intro reached
    split at reached
    next higher => exact ⟨order.transLe _ _ _ higher (order.zero _ reached).1, reached⟩
    · exact absurd reached nonzero
  · rintro ⟨negative, zero⟩
    rwa [if_pos (order.transLe _ _ _ negative (order.zero _ zero).2)]

/-- The peak stays below zero while the values do, or are none. -/
theorem mddStep_negative_iff (order : OrderLaws isZero) (curve : α × α)
    (snapshot : DailySnapshot α) :
    lt (mddStep curve snapshot).1 (literal 0) = true ↔
      lt curve.1 (literal 0) = true ∧ ¬ le (literal 0) snapshot.portfolioValue = true := by
  rw [mddStep_peak]
  split
  next higher =>
    exact ⟨fun negative => ⟨order.trans _ _ _ higher negative, order.below _ negative⟩,
      fun under => (order.number _ _ higher).resolve_right under.2⟩
  next lower =>
    exact ⟨fun negative => ⟨negative, fun above => lower (order.transLe _ _ _ negative above)⟩,
      fun under => under.1⟩

/-- From a peak that is not zero, the loop comes to one that is exactly from below. -/
theorem mddDivisors_zero_iff (order : OrderLaws isZero) (snapshots : List (DailySnapshot α))
    {curve : α × α} (nonzero : ¬ isZero curve.1) :
    ¬ NoneZero isZero (mddDivisors curve snapshots) ↔
      lt curve.1 (literal 0) = true ∧
        ReachesZero isZero (snapshots.map DailySnapshot.portfolioValue) := by
  induction snapshots generalizing curve with
  | nil => simp [mddDivisors, NoneZero, reachesZero_nil]
  | cons snapshot rest ih =>
    have zero := mddStep_zero_iff order nonzero snapshot
    rw [mddDivisors, NoneZero, List.forall_mem_cons, not_and_or, not_not, List.map_cons,
      reachesZero_cons]
    by_cases reached : isZero (mddStep curve snapshot).1
    · exact iff_of_true (.inl reached) ⟨(zero.mp reached).1, .inl (zero.mp reached).2⟩
    · have later := ih reached
      rw [mddStep_negative_iff order] at later
      rw [or_iff_right reached]
      -- below zero this value is not zero, or the peak would be
      refine later.trans ⟨fun ⟨under, reaches⟩ => ⟨under.1, .inr ⟨under.2, reaches⟩⟩, ?_⟩
      rintro ⟨negative, isZero | ⟨under, reaches⟩⟩
      · exact absurd (zero.mpr ⟨negative, isZero⟩) reached
      · exact ⟨⟨negative, under⟩, reaches⟩

/-- A peak is zero exactly where the values come up to zero. -/
theorem peaks_nonzero_iff (order : OrderLaws isZero) (first : DailySnapshot α)
    (rest : List (DailySnapshot α)) :
    NoneZero isZero (mddDivisors (first.portfolioValue, literal 0) (first :: rest)) ↔
      ¬ RisesToZero isZero ((first :: rest).map DailySnapshot.portfolioValue) := by
  -- the first value is the first peak
  have start : (mddStep (first.portfolioValue, literal 0) first).1 = first.portfolioValue :=
    ite_self _
  rw [mddDivisors, NoneZero, List.forall_mem_cons, start, List.map_cons, risesToZero_cons order,
    not_or]
  refine and_congr_right fun nonzero => ?_
  have later := mddDivisors_zero_iff order rest (start.symm ▸ nonzero)
  rw [start] at later
  exact not_not.symm.trans (not_congr later)

/-- A run divides by zero exactly where it has bars, and no capital or values that come up to
zero. -/
theorem divisors_nonzero_iff_values (order : OrderLaws isZero) (platform : Platform α)
    (alloc : Allocations) :
    NoneZero isZero (inputs.divisors platform alloc) ↔
      inputs.n = 0 ∨ inputs.config.initialCapital ≠ 0 ∧ ¬ RisesToZero isZero
        ((inputs.ledger platform inputs.n).snapshots.map DailySnapshot.portfolioValue) := by
  refine (divisors_nonzero_iff inputs platform order.toZeroLaws alloc).trans
    (or_congr_right (and_congr_right fun _ => ?_))
  cases (inputs.ledger platform inputs.n).snapshots with
  | nil => exact iff_of_true nofun (not_risesToZero nofun)
  | cons first rest =>
    rw [← peaks_nonzero_iff order]
    refine ⟨fun peaks => peaks first rest rfl, fun peaks _ _ same => ?_⟩
    obtain ⟨rfl, rfl⟩ := List.cons.inj same
    exact peaks

end

/-! ### Exact numbers -/

theorem orderLaws_rat : OrderLaws (α := ℚ) (· = 0) where
  positive x above := (of_decide_eq_true above).ne'
  notBelow x above := by
    intro zero
    apply above
    simp [CDouble.le, CDouble.literal, zero]
  ofInt k := by simp [CDouble.ofInt]
  hundred := by simp [CDouble.literal]
  zero x isZero := by simp [CDouble.le, CDouble.literal, isZero]
  below x negative := by simpa [CDouble.lt, CDouble.le, CDouble.literal] using negative
  number x y _ := by simpa [CDouble.lt, CDouble.le, CDouble.literal] using lt_or_ge y 0
  trans x y z first second :=
    decide_eq_true ((of_decide_eq_true first).trans (of_decide_eq_true second))
  transLe x y z first second :=
    decide_eq_true ((of_decide_eq_true first).trans_le (of_decide_eq_true second))

section

variable {σ : Type} (inputs : Inputs σ ℚ) (platform : Platform ℚ)

/-- A conversion that C leaves undefined does not turn a debt into shares. -/
def NegativeKept (platform : Platform ℚ) : Prop := ∀ x, x < 0 → platform.undefinedInt64 x ≤ 0

/-- Debt buys nothing. -/
theorem sizedQuantity_of_debt {cost : CostModel ℚ} {cash price : ℚ} (kept : NegativeKept platform)
    (debt : cash < 0) (priced : 0 < effectivePrice cost price) :
    sizedQuantity platform cost cash price ≤ 0 := by
  have negative : (cash / effectivePrice cost price).floor < 0 := by
    rw [Rat.floor_lt_iff]
    exact_mod_cast div_neg_of_neg_of_pos debt priced
  rw [sizedQuantity]
  refine (toInt64_intCast platform _).trans_le ?_
  split
  · exact negative.le
  · exact kept _ (by exact_mod_cast negative)

/-- The costs of the first purchase leave some of the capital, unless the price is negative and
more than it is given back. -/
theorem first_value_positive (valued : Int64Valued platform)
    (rates : 0 ≤ inputs.prices 0 ∨
      -1 ≤ inputs.cost.commissionRate + inputs.cost.slippageRate)
    (capital : 0 < inputs.config.initialCapital) {n : Nat} (bars : 0 < n) :
    ∃ first, (inputs.ledger platform n).snapshots[0]? = some first ∧ 0 < first.portfolioValue := by
  obtain ⟨first, entry, _, _, _, _, value⟩ := snapshot_of_bar inputs platform bars
  refine ⟨first, entry, ?_⟩
  have started : (0 : ℚ) < inputs.config.initialCapital := by exact_mod_cast capital
  have funded : 0 ≤ (inputs.ledger platform 0).state.cash := started.le
  rw [value]
  change 0 < (inputs.afterTrade platform (inputs.ledger platform 0) 0).1.cash +
    ((inputs.afterTrade platform (inputs.ledger platform 0) 0).1.positionQty : ℚ) * inputs.prices 0
  unfold Inputs.afterTrade
  split
  next state trade traded =>
    unfold Inputs.trade at traded
    split at traded
    · obtain ⟨priced, shares, _, cash⟩ := openPosition_bought platform valued funded traded
      rw [effectivePrice_eq] at priced
      have price : 0 < inputs.prices 0 := by
        rcases rates with price | rates
        · exact price.lt_of_ne fun zero => by simp [← zero] at priced
        · exact pos_of_mul_pos_left priced (by linarith)
      have shares' : (0 : ℚ) < state.positionQty := by exact_mod_cast shares
      exact add_pos_of_nonneg_of_pos cash (mul_pos shares' price)
    · split at traded
      next sells => exact absurd sells.2 (lt_irrefl 0)
      · cases traded
  · change (0 : ℚ) < inputs.config.initialCapital + ((0 : Int) : ℚ) * inputs.prices 0
    rw [Int.cast_zero, zero_mul, add_zero]
    exact started

/-- With debt every bar shows the debt. -/
theorem value_of_debt (kept : NegativeKept platform) (debt : inputs.config.initialCapital < 0)
    {n : Nat} {snapshot : DailySnapshot ℚ}
    (member : snapshot ∈ (inputs.ledger platform n).snapshots) :
    snapshot.portfolioValue = inputs.config.initialCapital := by
  have debt' : (inputs.config.initialCapital : ℚ) < 0 := by exact_mod_cast debt
  obtain ⟨i, entry⟩ := List.getElem?_of_mem member
  have inside : i < n := by
    have bound := (List.getElem?_eq_some_iff.mp entry).1
    rwa [(ledger_balanced inputs platform n).bars] at bound
  obtain ⟨shown, entry', _, _, _, _, value⟩ := snapshot_of_bar inputs platform inside
  obtain rfl := Option.some.inj (entry.symm.trans entry')
  obtain ⟨cash, flat⟩ := ledger_idle inputs platform
    (fun price priced => sizedQuantity_of_debt platform kept debt' priced) (i + 1)
  rw [value, cash, flat]
  change (inputs.config.initialCapital : ℚ) + ((0 : Int) : ℚ) * inputs.prices i = _
  rw [Int.cast_zero, zero_mul, add_zero]

/-- With exact numbers only the capital can be a zero divisor, unless the first price is negative
and costs give back more than it. -/
theorem not_risesToZero_exact (valued : Int64Valued platform) (kept : NegativeKept platform)
    (rates : 0 ≤ inputs.prices 0 ∨
      -1 ≤ inputs.cost.commissionRate + inputs.cost.slippageRate)
    (capital : inputs.config.initialCapital ≠ 0) :
    ¬ RisesToZero (· = 0)
      ((inputs.ledger platform inputs.n).snapshots.map DailySnapshot.portfolioValue) := by
  rcases lt_or_gt_of_ne capital with debt | positive
  · -- a zero would be the value of a bar, which shows the debt
    rintro ⟨before, zero, after, values, rfl, _⟩
    have member : (0 : ℚ) ∈
        (inputs.ledger platform inputs.n).snapshots.map DailySnapshot.portfolioValue := by
      rw [values]
      simp
    obtain ⟨snapshot, among, value⟩ := List.mem_map.mp member
    rw [value_of_debt inputs platform kept debt among] at value
    exact capital (by exact_mod_cast value)
  · apply not_risesToZero
    intro value first
    have bars : 0 < inputs.n := by
      by_contra none
      have empty : (inputs.ledger platform inputs.n).snapshots = [] := by
        rw [← List.length_eq_zero_iff, (ledger_balanced inputs platform inputs.n).bars]
        omega
      simp [empty] at first
    obtain ⟨snapshot, entry, above⟩ :=
      first_value_positive inputs platform valued rates positive bars
    rw [List.head?_map, List.head?_eq_getElem?, entry] at first
    obtain rfl := Option.some.inj first
    exact ⟨above.ne', by simpa [CDouble.lt, CDouble.literal] using above.le⟩

end

/-! ### Exact numbers and NaN -/

/-- Exact numbers, and NaN for what is none of them: the infinities are not told from it. -/
inductive WithNaN where
  | number (x : ℚ)
  | nan
  deriving DecidableEq

namespace WithNaN

/-- An operation that is NaN on NaN. -/
def strict (op : ℚ → ℚ → WithNaN) : WithNaN → WithNaN → WithNaN
  | number x, number y => op x y
  | _, _ => nan

/-- A comparison that is false on NaN. -/
def compares (test : ℚ → ℚ → Bool) : WithNaN → WithNaN → Bool
  | number x, number y => test x y
  | _, _ => false

theorem compares_iff {test : ℚ → ℚ → Bool} {x y : WithNaN} :
    compares test x y = true ↔ ∃ a b, x = number a ∧ y = number b ∧ test a b = true := by
  cases x <;> cases y <;> simp [compares]

/-- A function that is NaN on NaN. -/
def lift (f : ℚ → WithNaN) : WithNaN → WithNaN
  | number x => f x
  | nan => nan

instance : CDouble WithNaN where
  add := strict fun x y => number (x + y)
  sub := strict fun x y => number (x - y)
  mul := strict fun x y => number (x * y)
  div := strict fun x y => if y = 0 then nan else number (x / y)
  literal := number
  ofInt k := number k
  lt := compares fun x y => decide (x < y)
  le := compares fun x y => decide (x ≤ y)
  floor := lift fun x => number x.floor
  toInt64
    | number x => CDouble.toInt64 x
    | nan => none
  roundDp x dp := lift (fun x => number (alphaRoundDp x dp)) x

/-- The platform of the numbers; a root or a power outside its domain is NaN, and converting NaN
gives the least integer. -/
def platform (numbers : Platform ℚ) : Platform WithNaN where
  sqrt := lift fun x => if x < 0 then nan else number (numbers.sqrt x)
  pow := strict fun x y => if x ≤ 0 then nan else number (numbers.pow x y)
  undefinedInt64
    | number x => numbers.undefinedInt64 x
    | nan => -int64Max - 1

theorem orderLaws : OrderLaws (· = number 0) where
  positive x above := by
    rintro rfl
    exact absurd above (by decide)
  notBelow x above := by
    rintro rfl
    exact above (by decide)
  ofInt k := by simp [CDouble.ofInt]
  hundred := by decide
  zero x isZero := by
    subst isZero
    decide
  below x negative := by
    obtain ⟨a, _, rfl, zero, negative⟩ := compares_iff.mp negative
    obtain rfl := number.inj zero
    simpa [CDouble.le, CDouble.literal, compares] using negative
  number x y above := by
    obtain ⟨_, b, _, rfl, _⟩ := compares_iff.mp above
    simpa [CDouble.lt, CDouble.le, CDouble.literal, compares] using lt_or_ge b 0
  trans x y z first second := by
    obtain ⟨a, b, rfl, rfl, first⟩ := compares_iff.mp first
    obtain ⟨_, c, same, rfl, second⟩ := compares_iff.mp second
    obtain rfl := number.inj same
    exact decide_eq_true ((of_decide_eq_true first).trans (of_decide_eq_true second))
  transLe x y z first second := by
    obtain ⟨a, b, rfl, rfl, first⟩ := compares_iff.mp first
    obtain ⟨_, c, same, rfl, second⟩ := compares_iff.mp second
    obtain rfl := number.inj same
    exact decide_eq_true ((of_decide_eq_true first).trans_le (of_decide_eq_true second))

/-- A sum of squares is a number, and not negative. -/
theorem foldl_squares {xs : List WithNaN} (all : ∀ x ∈ xs, x ≠ nan) {sum : ℚ} (start : 0 ≤ sum) :
    ∃ total, 0 ≤ total ∧ xs.foldl (fun sum x => sum + x * x) (number sum) = number total := by
  induction xs generalizing sum with
  | nil => exact ⟨sum, start, rfl⟩
  | cons x rest ih =>
    obtain ⟨first, others⟩ := List.forall_mem_cons.mp all
    cases x with
    | nan => exact absurd rfl first
    | number x => exact ih others (add_nonneg start (mul_self_nonneg x))

theorem definedLaws (numbers : Platform ℚ) :
    DefinedLaws (platform numbers) (· = number 0) (· ≠ nan) where
  literal _ := nofun
  ofInt _ := nofun
  add x y hx hy := by
    cases x <;> cases y <;> first | contradiction | nofun
  sub x y hx hy := by
    cases x <;> cases y <;> first | contradiction | nofun
  mul x y hx hy := by
    cases x <;> cases y <;> first | contradiction | nofun
  div x d hx hd nonzero := by
    cases x <;> cases d <;> first | contradiction | skip
    next x d =>
      have divisor : d ≠ 0 := fun zero => nonzero (by rw [zero])
      change (if d = 0 then nan else number (x / d)) ≠ nan
      rw [if_neg divisor]
      nofun
  roundDp x _ hx := by
    cases x <;> first | contradiction | nofun
  root xs k all positive := by
    obtain ⟨total, nonneg, sum⟩ := foldl_squares all (le_refl 0)
    have count : (0 : ℚ) < k := by exact_mod_cast positive
    have mean : number total / CDouble.ofInt k = number (total / k) := if_neg count.ne'
    have root : ¬ total / k < 0 := not_lt.mpr (div_nonneg nonneg count.le)
    change (platform numbers).sqrt (xs.foldl _ (number 0) / _) ≠ nan
    rw [sum, mean]
    change (if total / k < 0 then nan else number _) ≠ nan
    rw [if_neg root]
    nofun
  year := by
    change (if (252 : ℚ) < 0 then nan else number _) ≠ nan
    rw [if_neg (by norm_num)]
    nofun
  power x y hx hy above := by
    cases x <;> cases y <;> first | contradiction | skip
    next x y =>
      have base : ¬ 1 + x ≤ 0 := by
        have := of_decide_eq_true (p := (-1 : ℚ) < x) above
        linarith
      change (if 1 + x ≤ 0 then nan else number _) ≠ nan
      rw [if_neg base]
      nofun

end WithNaN

/-- Without capital there is no total return. -/
theorem totalReturnPct_without_capital {platform : Platform WithNaN} {alloc : Allocations}
    {snapshots : List (DailySnapshot WithNaN)} {trades : List (TradeRecord WithNaN)}
    {initialCapital : Int} {metrics : BacktestMetrics WithNaN} {last : DailySnapshot WithNaN}
    (capital : initialCapital = 0)
    (computed : alphaComputeMetrics platform alloc snapshots trades initialCapital = some metrics)
    (final : snapshots.getLast? = some last) : metrics.totalReturnPct = .nan := by
  have quotient (x : WithNaN) : x / ofInt 0 = WithNaN.nan := by
    cases x <;> rfl
  rw [alphaComputeMetrics_totalReturn computed final, totalReturnOf, capital, quotient]
  rfl

/-! ### Runs -/

/-- What a run divides by is listed. A zero is among it exactly where there are bars, and no
capital or values that come up to zero; otherwise prices and rates that are numbers give metrics
that are. With exact numbers the values do not come up to zero, unless the first price is negative
and costs give back more than it. -/
theorem no_zero_divisor_iff {σ α : Type} [CDouble α] {isZero : α → Prop}
    (order : OrderLaws isZero) (inputs : Inputs σ α) (platform : Platform α) {alloc : Allocations}
    {out result : BacktestResult α} {snapshots : List (DailySnapshot α)}
    (returned : inputs.run platform alloc out = some (.ok, some result))
    (read : Slots.readFirst result.snapshots result.snapshotCount = some snapshots) :
    (∀ div, AgreesOn div (inputs.divisors platform alloc) →
      @Inputs.run σ α (withDiv div) inputs platform alloc out = some (.ok, some result)) ∧
    ((∀ d ∈ inputs.divisors platform alloc, ¬ isZero d) ↔
      inputs.n = 0 ∨ inputs.config.initialCapital ≠ 0 ∧
        ¬ RisesToZero isZero (snapshots.map DailySnapshot.portfolioValue)) ∧
    (∀ defined, DefinedLaws platform isZero defined → inputs.Defined defined →
      (∀ d ∈ inputs.divisors platform alloc, ¬ isZero d) → result.metrics.Defined defined) ∧
    ∀ (exact : Inputs σ ℚ) (libm : Platform ℚ), Int64Valued libm → NegativeKept libm →
      (0 ≤ exact.prices 0 ∨ -1 ≤ exact.cost.commissionRate + exact.cost.slippageRate) →
      ((∀ d ∈ exact.divisors libm alloc, d ≠ 0) ↔
        exact.n = 0 ∨ exact.config.initialCapital ≠ 0) := by
  refine ⟨fun div agrees => run_withDiv inputs platform returned agrees, ?_, ?_, ?_⟩
  · obtain rfl := run_snapshots inputs platform returned read
    exact divisors_nonzero_iff_values inputs order platform alloc
  · intro defined laws given nonzero
    exact run_defined inputs order.toZeroLaws laws given returned nonzero
  · intro exact libm valued kept rates
    -- exact values start above zero, or stay at the debt
    refine (divisors_nonzero_iff_values exact orderLaws_rat libm alloc).trans
      (or_congr_right (and_iff_left_of_imp fun capital => ?_))
    exact not_risesToZero_exact exact libm valued kept rates capital

theorem somePlatform_keeps_negative : NegativeKept somePlatform := by
  intro x _
  simp [somePlatform, int64Max]

/-- The bars of `oneLot`, among doubles that may be NaN, with a capital of one's own. -/
def oneLotOf (initialCapital : Int) : Inputs ReplaySource WithNaN where
  config :=
    { oneLot.config with
      initialCapital
      commissionRatePct := .number (15 / 1000)
      taxRatePct := .number (18 / 100) }
  prices i := .number (oneLot.prices i)
  dates := oneLot.dates
  n := oneLot.n
  signalFn := alphaReplaySignal
  signalCtx := oneLot.signalCtx
  cost := alphaCostModelDefault

theorem oneLotOf_defined (initialCapital : Int) :
    (oneLotOf initialCapital).Defined (· ≠ .nan) := by
  have rates : (alphaCostModelDefault : CostModel WithNaN).commissionRate ≠ .nan ∧
      (alphaCostModelDefault : CostModel WithNaN).taxRate ≠ .nan ∧
      (alphaCostModelDefault : CostModel WithNaN).slippageRate ≠ .nan := by decide +kernel
  exact ⟨fun _ _ => nofun, rates.1, rates.2.1, rates.2.2⟩

theorem no_zero_divisor_one_lot :
    ∃ result snapshots,
      (oneLotOf 10000000).run (WithNaN.platform somePlatform) ⟨true, true, true, true⟩
          (clearedResult (oneLotOf 10000000).config) = some (.ok, some result) ∧
      Slots.readFirst result.snapshots result.snapshotCount = some snapshots ∧
      result.metrics.Defined (· ≠ .nan) ∧
      (∀ d ∈ oneLot.divisors somePlatform ⟨true, true, true, true⟩, d ≠ 0) := by
  obtain ⟨metrics, _, returned⟩ := alphaBacktestRun_metrics (oneLotOf 10000000)
    (WithNaN.platform somePlatform) ⟨true, true, true, true⟩
    (clearedResult (oneLotOf 10000000).config) (by decide) (.inr ⟨rfl, rfl⟩)
  have read := Slots.readFirst_of_prefix 4
    (List.prefix_rfl :
      ((oneLotOf 10000000).ledger (WithNaN.platform somePlatform) 4).snapshots <+: _)
  obtain ⟨_, zeros, metrics, exact⟩ := no_zero_divisor_iff WithNaN.orderLaws (oneLotOf 10000000)
    (WithNaN.platform somePlatform) returned read
  refine ⟨_, _, returned, read, metrics _ (WithNaN.definedLaws somePlatform) (oneLotOf_defined _)
    (zeros.mpr (.inr ⟨by decide, not_risesToZero ?_⟩)),
    (exact oneLot somePlatform somePlatform_valued somePlatform_keeps_negative
      (.inl (by decide +kernel))).mpr (.inr (by decide))⟩
  decide +kernel

/-- One bar without capital. -/
def unfunded : Inputs ReplaySource WithNaN := { oneLotOf 0 with n := 1 }

/-- The run is accepted, returns `ALPHA_OK`, divides by zero, and has no total return. -/
theorem unfunded_divides_by_zero :
    ∃ result, unfunded.run (WithNaN.platform somePlatform) ⟨true, true, true, true⟩
        (clearedResult unfunded.config) = some (.ok, some result) ∧
      .number 0 ∈ unfunded.divisors (WithNaN.platform somePlatform) ⟨true, true, true, true⟩ ∧
      result.metrics.totalReturnPct = .nan := by
  obtain ⟨metrics, computed, returned⟩ := alphaBacktestRun_metrics unfunded
    (WithNaN.platform somePlatform) ⟨true, true, true, true⟩ (clearedResult unfunded.config)
    (by decide) (.inr ⟨rfl, rfl⟩)
  exact ⟨_, returned, by decide +kernel, totalReturnPct_without_capital rfl computed rfl⟩

end AlphaPipeline.Backtest

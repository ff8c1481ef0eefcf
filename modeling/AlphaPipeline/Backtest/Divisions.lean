import AlphaPipeline.Backtest.Ledger

/-!
# Divisions

What a run divides by, function by function, in the order of the sources: the price of a share
with its cost, the value of the bar before, the counts, the peak of the equity curve, the capital.
The lists are complete: another division that agrees on them leaves the run as it is.
-/
namespace AlphaPipeline.Backtest

open CDouble

section

variable {σ α : Type} [CDouble α]

/-! ### The divisors -/

/-- The divisors of `open_position`. -/
def openDivisors (cost : CostModel α) (price : α) : List α :=
  let effectivePrice := price + (alphaCostCalculate cost .buy price 1).total
  if le effectivePrice (literal 0) then [] else [effectivePrice]

/-- The divisors of the trade of bar `i`. -/
def Inputs.tradeDivisors (inputs : Inputs σ α) (state : EngineState α) (signal : AlphaSignal)
    (i : Nat) : List α :=
  if signal = .buy ∧ state.positionQty = 0 then openDivisors inputs.cost (inputs.prices i) else []

/-- The divisors of `take_snapshot`. -/
def snapshotDivisors (state : EngineState α) : List α :=
  if lt (literal 0) state.prevPortfolioValue then [state.prevPortfolioValue] else []

/-- `mean` of `compute_sharpe`. -/
def meanOf (returns : List α) : α := returns.foldl (· + ·) (literal 0) / ofInt returns.length

/-- `std` of `compute_sharpe`. -/
def stdOf (platform : Platform α) (returns : List α) : α :=
  platform.sqrt (returns.foldl (fun sq r => sq + (r - meanOf returns) * (r - meanOf returns))
    (literal 0) / ofInt (returns.length - 1))

/-- The divisors of `compute_sharpe`. -/
def sharpeDivisors (platform : Platform α) (returns : List α) : List α :=
  if returns.length < 2 then []
  else
    [ofInt returns.length, ofInt (returns.length - 1)] ++
      if le (stdOf platform returns) (literal 0) then [] else [stdOf platform returns]

/-- The divisors of the daily returns and of their Sharpe ratio. -/
def returnsDivisors (platform : Platform α) (alloc : Allocations)
    (snapshots : List (DailySnapshot α)) : List α :=
  if snapshots.length ≤ stackCapacity || alloc.returns then
    snapshots.map (fun _ => literal 100) ++
      sharpeDivisors platform (snapshots.map fun s => s.dailyReturnPct / literal 100)
  else []

/-- The divisors of the loop of `compute_mdd`: its peaks. -/
def mddDivisors (curve : α × α) : List (DailySnapshot α) → List α
  | [] => []
  | snapshot :: rest => (mddStep curve snapshot).1 :: mddDivisors (mddStep curve snapshot) rest

/-- The divisors of the win rate. -/
def winDivisors (trades : List (TradeRecord α)) : List α :=
  let sells := trades.filter fun t => t.side = .sell
  if sells.length > 0 then [ofInt sells.length] else []

/-- The divisors of `compute_avg_holding_days`. -/
def matchDivisors (trades : List (TradeRecord α)) (buyQueue : List (Option Int)) : List α :=
  match trades.foldlM matchTrade ⟨buyQueue, 0, 0, 0, 0⟩ with
  | some m => if m.matched ≠ 0 then [ofInt m.matched] else []
  | none => []

/-- The divisors of the average holding time. -/
def holdingDivisors (alloc : Allocations) (trades : List (TradeRecord α)) : List α :=
  if trades.length = 0 then []
  else if trades.length ≤ stackCapacity then matchDivisors trades (Slots.fresh stackCapacity)
  else if alloc.queue then matchDivisors trades (Slots.fresh trades.length)
  else []

omit [CDouble α] in
theorem snapshots_ne_nil (first : DailySnapshot α) (rest : List (DailySnapshot α)) :
    first :: rest ≠ [] := List.cons_ne_nil first rest

/-- The divisors of `alpha_compute_metrics`. -/
def metricsDivisors (platform : Platform α) (alloc : Allocations)
    (snapshots : List (DailySnapshot α)) (trades : List (TradeRecord α)) (initialCapital : Int) :
    List α :=
  match snapshots with
  | [] => []
  | first :: rest =>
    let ns := (first :: rest).length
    let last := (first :: rest).getLast (snapshots_ne_nil first rest)
    let totalReturn := (last.portfolioValue - ofInt initialCapital) / ofInt initialCapital
    [ofInt initialCapital] ++
      (if ns > 1 && lt (literal (-1)) totalReturn then [ofInt ns] else []) ++
      returnsDivisors platform alloc (first :: rest) ++
      mddDivisors (first.portfolioValue, literal 0) (first :: rest) ++
      winDivisors trades ++ holdingDivisors alloc trades ++
      if lt (literal 0) first.closePrice then [first.closePrice] else []

variable (inputs : Inputs σ α) (platform : Platform α)

/-- The divisors of bar `i`. -/
def Inputs.barDivisors (i : Nat) : List α :=
  inputs.tradeDivisors (inputs.ledger platform i).state
      (Ledger.signal inputs (inputs.ledger platform i) i) i ++
    snapshotDivisors (inputs.afterTrade platform (inputs.ledger platform i) i).1

/-- The divisors of a run that has its arrays. -/
def Inputs.divisors (alloc : Allocations) : List α :=
  (List.range inputs.n).flatMap (inputs.barDivisors platform) ++
    metricsDivisors platform alloc (inputs.ledger platform inputs.n).snapshots
      (inputs.ledger platform inputs.n).trades inputs.config.initialCapital

/-! ### Another division -/

/-- The doubles with another division. -/
abbrev withDiv (div : α → α → α) : CDouble α := { ‹CDouble α› with div := div }

/-- The other division agrees on these divisors. -/
def AgreesOn (div : α → α → α) (divisors : List α) : Prop := ∀ d ∈ divisors, ∀ x, div x d = x / d

variable {div : α → α → α}

theorem agreesOn_singleton {d : α} : AgreesOn div [d] ↔ ∀ x, div x d = x / d :=
  List.forall_mem_singleton

theorem agreesOn_append {ds es : List α} :
    AgreesOn div (ds ++ es) ↔ AgreesOn div ds ∧ AgreesOn div es := List.forall_mem_append

theorem openPosition_withDiv {cost : CostModel α} {price : α}
    (agrees : AgreesOn div (openDivisors cost price)) (state : EngineState α)
    (config : BacktestConfig α) (date : Int) :
    @openPosition α (withDiv div) platform state cost config date price =
      openPosition platform state cost config date price := by
  by_cases free : le (price + (alphaCostCalculate cost .buy price 1).total) (literal 0) = true
  · exact (if_pos free).trans (if_pos free).symm
  · have same : div state.cash (price + (alphaCostCalculate cost .buy price 1).total) =
        state.cash / (price + (alphaCostCalculate cost .buy price 1).total) := by
      rw [openDivisors, if_neg free, agreesOn_singleton] at agrees
      exact agrees _
    -- the quotient is the only place where the division matters
    refine (if_neg free).trans (Eq.trans ?_ (if_neg free).symm)
    rw [← same]
    rfl

theorem trade_withDiv {state : EngineState α} {signal : AlphaSignal} {i : Nat}
    (agrees : AgreesOn div (inputs.tradeDivisors state signal i)) :
    @Inputs.trade σ α (withDiv div) inputs platform state signal i =
      inputs.trade platform state signal i := by
  unfold Inputs.trade
  unfold Inputs.tradeDivisors at agrees
  split
  next buy =>
    rw [if_pos buy] at agrees
    exact openPosition_withDiv platform agrees state inputs.config (inputs.dates i)
  · rfl

theorem takeSnapshot_withDiv {state : EngineState α}
    (agrees : AgreesOn div (snapshotDivisors state))
    (date : Int) (closePrice : α) :
    @takeSnapshot α (withDiv div) state date closePrice = takeSnapshot state date closePrice := by
  have same (x : α) : (if lt (literal 0) state.prevPortfolioValue = true then
      div x state.prevPortfolioValue * literal 100 else literal 0) =
      if lt (literal 0) state.prevPortfolioValue = true then
        x / state.prevPortfolioValue * literal 100 else literal 0 := by
    split
    next measured =>
      rw [snapshotDivisors, if_pos measured, agreesOn_singleton] at agrees
      rw [agrees]
    · rfl
  symm
  rw [takeSnapshot, ← same]
  rfl

/-- As long as it agrees on the divisors of the bars, the other division leaves the ledger as it
is. -/
theorem ledger_withDiv {k : Nat}
    (agrees : ∀ i < k, AgreesOn div (inputs.barDivisors platform i)) :
    @Inputs.ledger σ α (withDiv div) inputs platform k = inputs.ledger platform k := by
  induction k with
  | zero => rfl
  | succ k ih =>
    obtain ⟨trading, measuring⟩ := agreesOn_append.mp (agrees k (by omega))
    have traded : @Inputs.afterTrade σ α (withDiv div) inputs platform
        (inputs.ledger platform k) k =
        inputs.afterTrade platform (inputs.ledger platform k) k := by
      unfold Inputs.afterTrade
      rw [← trade_withDiv inputs platform trading]
    have shot := takeSnapshot_withDiv measuring (inputs.dates k) (inputs.prices k)
    simp only [Inputs.ledger, Inputs.post, ih fun i inside => agrees i (by omega), traded, shot]

theorem computeSharpe_withDiv {returns : List α}
    (agrees : AgreesOn div (sharpeDivisors platform returns)) :
    @computeSharpe α (withDiv div) platform returns = computeSharpe platform returns := by
  by_cases short : returns.length < 2
  · exact (if_pos short).trans (if_pos short).symm
  · rw [sharpeDivisors, if_neg short, agreesOn_append] at agrees
    obtain ⟨counts, spread⟩ := agrees
    have mean : @meanOf α (withDiv div) returns = meanOf returns :=
      counts (ofInt returns.length) (by simp) _
    have std : @stdOf α (withDiv div) platform returns = stdOf platform returns := by
      unfold stdOf
      rw [mean]
      exact congrArg platform.sqrt (counts (ofInt (returns.length - 1)) (by simp) _)
    have steps : @computeSharpe α (withDiv div) platform returns =
        if le (@stdOf α (withDiv div) platform returns) (literal 0) = true then literal 0
        else div (@meanOf α (withDiv div) returns) (@stdOf α (withDiv div) platform returns) *
          platform.sqrt tradingDaysPerYear := if_neg short
    rw [steps, mean, std]
    refine Eq.trans ?_ (if_neg short).symm
    split
    next flat => exact (if_pos flat).symm
    next varied =>
      rw [if_neg varied, agreesOn_singleton] at spread
      rw [spread]
      exact (if_neg varied).symm

theorem sharpe_withDiv {alloc : Allocations} {snapshots : List (DailySnapshot α)}
    (agrees : AgreesOn div (returnsDivisors platform alloc snapshots)) :
    @sharpe α (withDiv div) platform alloc snapshots = sharpe platform alloc snapshots := by
  unfold sharpe
  unfold returnsDivisors at agrees
  split
  next stored =>
    rw [if_pos stored, agreesOn_append] at agrees
    obtain ⟨percent, ratio⟩ := agrees
    have returns : snapshots.map (fun s => div s.dailyReturnPct (literal 100)) =
        snapshots.map fun s => s.dailyReturnPct / literal 100 :=
      List.map_congr_left fun s member => percent _ (List.mem_map.mpr ⟨s, member, rfl⟩) _
    have same := computeSharpe_withDiv platform ratio
    rw [← returns] at same ⊢
    exact same
  · rfl

/-- The other division agrees on the peaks of the equity curve. -/
theorem mdd_withDiv {curve : α × α} {snapshots : List (DailySnapshot α)}
    (agrees : AgreesOn div (mddDivisors curve snapshots)) :
    snapshots.foldl (@mddStep α (withDiv div)) curve = snapshots.foldl mddStep curve := by
  induction snapshots generalizing curve with
  | nil => rfl
  | cons snapshot rest ih =>
    have once : @mddStep α (withDiv div) curve snapshot = mddStep curve snapshot := by
      obtain ⟨peak, hPeak⟩ : ∃ peak, peak =
        if lt curve.1 snapshot.portfolioValue then snapshot.portfolioValue else curve.1 := ⟨_, rfl⟩
      have same : div (snapshot.portfolioValue - peak) peak =
          (snapshot.portfolioValue - peak) / peak := by
        rw [hPeak]
        exact agrees _ List.mem_cons_self _
      have standard : mddStep curve snapshot = (peak,
          if lt ((snapshot.portfolioValue - peak) / peak * literal 100) curve.2 then
            (snapshot.portfolioValue - peak) / peak * literal 100 else curve.2) := by
        rw [hPeak]
        rfl
      rw [standard, ← same, hPeak]
      rfl
    rw [List.foldl_cons, List.foldl_cons, once]
    exact ih fun d member => agrees d (List.mem_cons_of_mem _ member)

theorem winRate_withDiv {trades : List (TradeRecord α)}
    (agrees : AgreesOn div (winDivisors trades)) :
    @winRate α (withDiv div) trades = winRate trades := by
  by_cases sold : (trades.filter fun t => t.side = .sell).length > 0
  · rw [winDivisors, if_pos sold, agreesOn_singleton] at agrees
    refine (if_pos sold).trans (Eq.trans ?_ (if_pos sold).symm)
    exact congrArg (· * literal 100) (agrees _)
  · exact (if_neg sold).trans (if_neg sold).symm

theorem computeAvgHoldingDays_withDiv {trades : List (TradeRecord α)} {queue : List (Option Int)}
    (agrees : AgreesOn div (matchDivisors trades queue)) :
    @computeAvgHoldingDays α (withDiv div) trades queue = computeAvgHoldingDays trades queue := by
  unfold computeAvgHoldingDays
  unfold matchDivisors at agrees
  cases matched : trades.foldlM matchTrade ⟨queue, 0, 0, 0, 0⟩ with
  | none => rfl
  | some m =>
    simp only [matched] at agrees
    simp only [Option.bind_eq_bind, Option.bind_some, Option.some.injEq]
    by_cases some_ : m.matched ≠ 0
    · rw [if_pos some_, agreesOn_singleton] at agrees
      rw [if_pos some_, if_pos some_]
      exact agrees _
    · rw [if_neg some_, if_neg some_]
      rfl

theorem avgHoldingDays_withDiv {alloc : Allocations} {trades : List (TradeRecord α)}
    (agrees : AgreesOn div (holdingDivisors alloc trades)) :
    @avgHoldingDays α (withDiv div) alloc trades = avgHoldingDays alloc trades := by
  unfold avgHoldingDays
  unfold holdingDivisors at agrees
  split
  · rfl
  next traded =>
    rw [if_neg traded] at agrees
    split
    next small =>
      rw [if_pos small] at agrees
      exact computeAvgHoldingDays_withDiv agrees
    next large =>
      rw [if_neg large] at agrees
      split
      next queued =>
        rw [if_pos queued] at agrees
        exact computeAvgHoldingDays_withDiv agrees
      · rfl

theorem alphaComputeMetrics_withDiv {alloc : Allocations} {snapshots : List (DailySnapshot α)}
    {trades : List (TradeRecord α)} {initialCapital : Int}
    (agrees : AgreesOn div (metricsDivisors platform alloc snapshots trades initialCapital)) :
    @alphaComputeMetrics α (withDiv div) platform alloc snapshots trades initialCapital =
      alphaComputeMetrics platform alloc snapshots trades initialCapital := by
  cases snapshots with
  | nil => rfl
  | cons first rest =>
    simp only [metricsDivisors, agreesOn_append, agreesOn_singleton] at agrees
    obtain ⟨⟨⟨⟨⟨⟨capital, years⟩, returns⟩, peaks⟩, sales⟩, holdings⟩, price⟩ := agrees
    have mdd : @computeMdd α (withDiv div) first rest = computeMdd first rest :=
      congrArg Prod.snd (mdd_withDiv peaks)
    obtain ⟨totalReturn, hTotal⟩ : ∃ totalReturn, totalReturn =
      (((first :: rest).getLast (List.cons_ne_nil first rest)).portfolioValue -
        ofInt initialCapital) / ofInt initialCapital := ⟨_, rfl⟩
    have annual : (if (decide ((first :: rest).length > 1) &&
          lt (literal (-1)) totalReturn) = true then
        (platform.pow (literal 1 + totalReturn)
          (div tradingDaysPerYear (ofInt (first :: rest).length)) - literal 1) * literal 100
        else literal 0) =
        if (decide ((first :: rest).length > 1) && lt (literal (-1)) totalReturn) = true then
          (platform.pow (literal 1 + totalReturn)
            (tradingDaysPerYear / ofInt (first :: rest).length) - literal 1) * literal 100
        else literal 0 := by
      split
      next long =>
        rw [← hTotal, if_pos long, agreesOn_singleton] at years
        rw [years]
      · rfl
    have baseline (x : α) : (if lt (literal 0) first.closePrice = true then
        (div x first.closePrice - literal 1) * literal 100 else literal 0) =
        if lt (literal 0) first.closePrice = true then
          (x / first.closePrice - literal 1) * literal 100 else literal 0 := by
      split
      next priced =>
        rw [if_pos priced, agreesOn_singleton] at price
        rw [price]
      · rfl
    symm
    rw [alphaComputeMetrics]
    simp only [← hTotal]
    rw [← annual, ← baseline, ← avgHoldingDays_withDiv holdings, ← winRate_withDiv sales,
      ← sharpe_withDiv platform returns, ← mdd, hTotal, ← capital]
    rfl

/-- The lists are complete: a run does not notice another division that agrees on them. -/
theorem run_withDiv {alloc : Allocations} {out result : BacktestResult α}
    (returned : inputs.run platform alloc out = some (.ok, some result))
    (agrees : AgreesOn div (inputs.divisors platform alloc)) :
    @Inputs.run σ α (withDiv div) inputs platform alloc out = some (.ok, some result) := by
  obtain ⟨accepted, allocated, metrics, computed, rfl⟩ := run_ok inputs platform returned
  obtain ⟨bars, measured⟩ := agreesOn_append.mp agrees
  have ledger : @Inputs.ledger σ α (withDiv div) inputs platform inputs.n =
      inputs.ledger platform inputs.n := by
    apply ledger_withDiv inputs platform
    intro i inside d member
    exact bars d (List.mem_flatMap.mpr ⟨i, List.mem_range.mpr inside, member⟩)
  obtain ⟨metrics', computed', returned'⟩ :=
    @alphaBacktestRun_metrics σ α (withDiv div) inputs platform alloc out accepted allocated
  rw [ledger, alphaComputeMetrics_withDiv platform measured, computed] at computed'
  refine returned'.trans ?_
  rw [ledger, Option.some.inj computed']

/-! ### Zero divisors -/

/-- What is known of the doubles that compare equal to zero. -/
structure ZeroLaws (isZero : α → Prop) : Prop where
  positive : ∀ x, lt (literal 0) x = true → ¬ isZero x
  notBelow : ∀ x, ¬ le x (literal 0) = true → ¬ isZero x
  ofInt : ∀ k : Int, isZero (ofInt k) ↔ k = 0
  hundred : ¬ isZero (literal 100)

/-- None of the divisors is zero. -/
def NoneZero (isZero : α → Prop) (divisors : List α) : Prop := ∀ d ∈ divisors, ¬ isZero d

variable {isZero : α → Prop}

omit [CDouble α] in
theorem noneZero_append {ds es : List α} :
    NoneZero isZero (ds ++ es) ↔ NoneZero isZero ds ∧ NoneZero isZero es := List.forall_mem_append

omit [CDouble α] in
theorem noneZero_singleton {d : α} : NoneZero isZero [d] ↔ ¬ isZero d := List.forall_mem_singleton

omit [CDouble α] in
/-- A divisor behind a check for it. -/
theorem noneZero_if {c : Prop} [Decidable c] {d : α} (checked : c → ¬ isZero d) :
    NoneZero isZero (if c then [d] else []) := by
  split
  next holds => exact noneZero_singleton.mpr (checked holds)
  · nofun

omit [CDouble α] in
theorem noneZero_unless {c : Prop} [Decidable c] {d : α} (checked : ¬ c → ¬ isZero d) :
    NoneZero isZero (if c then [] else [d]) := by
  split
  · nofun
  next fails => exact noneZero_singleton.mpr (checked fails)

variable (laws : ZeroLaws isZero)
include laws

/-- The bars check what they divide by. -/
theorem barDivisors_nonzero (i : Nat) : NoneZero isZero (inputs.barDivisors platform i) := by
  refine noneZero_append.mpr ⟨?_, noneZero_if (laws.positive _)⟩
  unfold Inputs.tradeDivisors
  split
  · exact noneZero_unless (laws.notBelow _)
  · nofun

theorem returnsDivisors_nonzero (alloc : Allocations) (snapshots : List (DailySnapshot α)) :
    NoneZero isZero (returnsDivisors platform alloc snapshots) := by
  unfold returnsDivisors
  split
  · refine noneZero_append.mpr ⟨?_, ?_⟩
    · intro d member
      obtain ⟨_, _, rfl⟩ := List.mem_map.mp member
      exact laws.hundred
    · unfold sharpeDivisors
      split
      · nofun
      next several =>
        refine noneZero_append.mpr ⟨?_, noneZero_unless (laws.notBelow _)⟩
        intro d member
        rcases List.mem_cons.mp member with rfl | last
        · rw [laws.ofInt]
          omega
        · rw [List.mem_singleton.mp last, laws.ofInt]
          omega
  · nofun

theorem holdingDivisors_nonzero (alloc : Allocations) (trades : List (TradeRecord α)) :
    NoneZero isZero (holdingDivisors alloc trades) := by
  have matched (queue : List (Option Int)) : NoneZero isZero (matchDivisors trades queue) := by
    unfold matchDivisors
    split
    · exact noneZero_if fun some => by rwa [laws.ofInt]
    · nofun
  unfold holdingDivisors
  split
  · nofun
  · split
    · exact matched _
    · split
      · exact matched _
      · nofun

/-- Of the metrics, only the capital and the peaks are divided by unchecked. -/
theorem metricsDivisors_nonzero_iff (alloc : Allocations) (first : DailySnapshot α)
    (rest : List (DailySnapshot α)) (trades : List (TradeRecord α)) (initialCapital : Int) :
    NoneZero isZero (metricsDivisors platform alloc (first :: rest) trades initialCapital) ↔
      initialCapital ≠ 0 ∧
        NoneZero isZero (mddDivisors (first.portfolioValue, literal 0) (first :: rest)) := by
  have years : NoneZero isZero (if ((first :: rest).length > 1 && lt (literal (-1))
      ((((first :: rest).getLast (List.cons_ne_nil first rest)).portfolioValue -
        ofInt initialCapital) / ofInt initialCapital)) then
      [ofInt (first :: rest).length] else []) := by
    refine noneZero_if fun _ => ?_
    rw [laws.ofInt, List.length_cons]
    omega
  have sales : NoneZero isZero (winDivisors trades) :=
    noneZero_if fun some => by rw [laws.ofInt]; omega
  have price : NoneZero isZero
      (if lt (literal 0) first.closePrice then [first.closePrice] else []) :=
    noneZero_if (laws.positive _)
  simp only [metricsDivisors, noneZero_append, noneZero_singleton, laws.ofInt, years,
    returnsDivisors_nonzero platform laws, sales, holdingDivisors_nonzero laws, price, and_true]

/-- A run divides by zero exactly where there are bars and the capital or a peak is zero. -/
theorem divisors_nonzero_iff (alloc : Allocations) :
    NoneZero isZero (inputs.divisors platform alloc) ↔
      inputs.n = 0 ∨ inputs.config.initialCapital ≠ 0 ∧ ∀ first rest,
        (inputs.ledger platform inputs.n).snapshots = first :: rest →
        NoneZero isZero (mddDivisors (first.portfolioValue, literal 0) (first :: rest)) := by
  have bars : NoneZero isZero
      ((List.range inputs.n).flatMap (inputs.barDivisors platform)) := by
    intro d member
    obtain ⟨i, _, inside⟩ := List.mem_flatMap.mp member
    exact barDivisors_nonzero inputs platform laws i d inside
  have count := (ledger_balanced inputs platform inputs.n).bars
  rw [Inputs.divisors, noneZero_append, and_iff_right bars]
  cases snapshots : (inputs.ledger platform inputs.n).snapshots with
  | nil =>
    rw [snapshots, List.length_nil] at count
    exact iff_of_true nofun (.inl count.symm)
  | cons first rest =>
    rw [snapshots, List.length_cons] at count
    rw [metricsDivisors_nonzero_iff platform laws, or_iff_right (by omega)]
    refine and_congr_right fun _ => ⟨?_, fun peaks => peaks first rest rfl⟩
    rintro peaks _ _ same
    obtain ⟨rfl, rfl⟩ := List.cons.inj same
    exact peaks

end

end AlphaPipeline.Backtest

import AlphaPipeline.Library.Drawdown
import AlphaPipeline.Backtest.Ledger

/-!
# Returns and drawdown

Doubles are read as exact rationals here. The engine measures each bar against the value before
it, the metrics measure the last bar against the capital: the first returns compound to the
second. The drawdown of the metrics is the deepest fall between any two bars.
-/
namespace AlphaPipeline.Backtest

open CDouble

section

variable {α : Type} [CDouble α]

/-- The total return of the metrics, before it is rounded. -/
def totalReturnOf (last : DailySnapshot α) (initialCapital : Int) : α :=
  (last.portfolioValue - ofInt initialCapital) / ofInt initialCapital

/-- The metrics compare the last value with the capital. -/
theorem alphaComputeMetrics_totalReturn {platform : Platform α} {alloc : Allocations}
    {snapshots : List (DailySnapshot α)} {trades : List (TradeRecord α)} {initialCapital : Int}
    {metrics : BacktestMetrics α} {last : DailySnapshot α}
    (computed : alphaComputeMetrics platform alloc snapshots trades initialCapital = some metrics)
    (final : snapshots.getLast? = some last) :
    metrics.totalReturnPct = roundDp (totalReturnOf last initialCapital * literal 100) 4 := by
  cases snapshots with
  | nil => cases final
  | cons first rest =>
    rw [List.getLast?_eq_getLast_of_ne_nil (List.cons_ne_nil first rest),
      Option.some.injEq] at final
    rw [alphaComputeMetrics] at computed
    obtain ⟨held, _, filled⟩ := Option.bind_eq_some_iff.mp computed
    rw [← Option.some.inj filled, ← final]
    rfl

end

variable {σ : Type} (inputs : Inputs σ ℚ) (platform : Platform ℚ)

/-- By how much a bar multiplies the portfolio value, from its daily return. -/
def DailySnapshot.factor (snapshot : DailySnapshot ℚ) : ℚ := 1 + snapshot.dailyReturnPct / 100

/-- A trade leaves the value of the bar before alone. -/
theorem afterTrade_prevPortfolioValue (ledger : Ledger σ ℚ) (i : Nat) :
    (inputs.afterTrade platform ledger i).1.prevPortfolioValue =
      ledger.state.prevPortfolioValue := by
  unfold Inputs.afterTrade
  split
  next state trade traded =>
    rcases trade_shapes inputs platform traded with ⟨_, _, quantity, _, bought⟩ | ⟨_, _, sold⟩
    · rw [(Prod.mk.inj bought).1]
    · rw [(Prod.mk.inj sold).1]
  · rfl

/-- Against a positive value, the factor of a snapshot is what the value is multiplied by. -/
theorem takeSnapshot_factor {state : EngineState ℚ} (date : Int) (closePrice : ℚ)
    (positive : 0 < state.prevPortfolioValue) :
    (takeSnapshot state date closePrice).2.factor =
      (takeSnapshot state date closePrice).2.portfolioValue / state.prevPortfolioValue := by
  have kept : lt (literal 0) state.prevPortfolioValue = true := decide_eq_true positive
  simp only [DailySnapshot.factor, takeSnapshot, kept, if_true]
  simp only [literal]
  field_simp
  ring

/-- The factors so far compound to the last value over the capital. -/
private theorem ledger_compounds (capital : 0 < inputs.config.initialCapital) (k : Nat)
    (positive : ∀ snapshot ∈ (inputs.ledger platform k).snapshots, 0 < snapshot.portfolioValue) :
    0 < (inputs.ledger platform k).state.prevPortfolioValue ∧
      ((inputs.ledger platform k).snapshots.map DailySnapshot.factor).prod =
        (inputs.ledger platform k).state.prevPortfolioValue / inputs.config.initialCapital := by
  have started : (0 : ℚ) < inputs.config.initialCapital := by exact_mod_cast capital
  induction k with
  | zero =>
    refine ⟨started, ?_⟩
    simp [Inputs.ledger, Inputs.start, CDouble.ofInt, started.ne']
  | succ k ih =>
    simp only [Inputs.ledger, Inputs.post, List.mem_append, List.mem_singleton, List.map_append,
      List.prod_append, List.map_cons, List.map_nil, List.prod_singleton] at positive ⊢
    obtain ⟨before, product⟩ := ih fun snapshot member => positive snapshot (.inl member)
    have now := positive _ (.inr rfl)
    have value := afterTrade_prevPortfolioValue inputs platform (inputs.ledger platform k) k
    refine ⟨now, ?_⟩
    rw [product, takeSnapshot_factor _ _ (by rw [value]; exact before), value]
    have moved : (takeSnapshot (inputs.afterTrade platform (inputs.ledger platform k) k).1
        (inputs.dates k) (inputs.prices k)).1.prevPortfolioValue =
      (takeSnapshot (inputs.afterTrade platform (inputs.ledger platform k) k).1
        (inputs.dates k) (inputs.prices k)).2.portfolioValue := rfl
    rw [moved]
    field_simp

/-- The daily returns of a run compound to its total return. -/
theorem daily_returns_compound {alloc : Allocations} {out result : BacktestResult ℚ}
    {snapshots : List (DailySnapshot ℚ)} {last : DailySnapshot ℚ}
    (returned : inputs.run platform alloc out = some (.ok, some result))
    (read : Slots.readFirst result.snapshots result.snapshotCount = some snapshots)
    (final : snapshots.getLast? = some last) (capital : 0 < inputs.config.initialCapital)
    (positive : ∀ snapshot ∈ snapshots, 0 < snapshot.portfolioValue) :
    (snapshots.map DailySnapshot.factor).prod =
        last.portfolioValue / inputs.config.initialCapital ∧
      (snapshots.map DailySnapshot.factor).prod =
        1 + totalReturnOf last inputs.config.initialCapital ∧
      result.metrics.totalReturnPct =
        alphaRoundDp (((snapshots.map DailySnapshot.factor).prod - 1) * 100) 4 := by
  obtain rfl := run_snapshots inputs platform returned read
  obtain ⟨_, _, metrics, computed, rfl⟩ := run_ok inputs platform returned
  obtain ⟨_, product⟩ := ledger_compounds inputs platform capital inputs.n positive
  -- the next bar would be measured against the value of the last snapshot
  have value : (inputs.ledger platform inputs.n).state.prevPortfolioValue =
      last.portfolioValue := by
    generalize inputs.n = n at final ⊢
    cases n with
    | zero => cases final
    | succ k =>
      rw [Inputs.ledger, Inputs.post, List.getLast?_concat] at final
      rw [← Option.some.inj final]
      rfl
  rw [value] at product
  have started : (inputs.config.initialCapital : ℚ) ≠ 0 := by exact_mod_cast capital.ne'
  have total : last.portfolioValue / inputs.config.initialCapital =
      1 + totalReturnOf last inputs.config.initialCapital := by
    simp only [totalReturnOf, CDouble.ofInt]
    field_simp
    ring
  refine ⟨product, product.trans total, ?_⟩
  rw [product, total, add_sub_cancel_left]
  exact alphaComputeMetrics_totalReturn computed final

theorem daily_returns_compound_one_lot :
    ∃ (result : BacktestResult ℚ) (snapshots : List (DailySnapshot ℚ)) (last : DailySnapshot ℚ),
      oneLot.run somePlatform ⟨true, true, true, true⟩ (clearedResult oneLot.config) =
        some (.ok, some result) ∧
      (snapshots.map DailySnapshot.factor).prod =
        last.portfolioValue / oneLot.config.initialCapital ∧
      (snapshots.map DailySnapshot.factor).prod =
        1 + totalReturnOf last oneLot.config.initialCapital ∧
      result.metrics.totalReturnPct =
        alphaRoundDp (((snapshots.map DailySnapshot.factor).prod - 1) * 100) 4 := by
  obtain ⟨metrics, _, returned⟩ := alphaBacktestRun_metrics oneLot somePlatform
    ⟨true, true, true, true⟩ (clearedResult oneLot.config) (by decide) (.inr ⟨rfl, rfl⟩)
  have read := Slots.readFirst_of_prefix 4
    (List.prefix_rfl : (oneLot.ledger somePlatform 4).snapshots <+: _)
  exact ⟨_, _, _, returned, daily_returns_compound oneLot somePlatform returned read
    List.getLast?_concat (by decide) (by decide +kernel)⟩

/-! ### Drawdown -/

/-- The loop of `compute_mdd` is the one pass over the portfolio values. -/
theorem mddStep_eq (curve : ℚ × ℚ) (snapshot : DailySnapshot ℚ) :
    mddStep curve snapshot = Drawdown.step curve snapshot.portfolioValue := by
  have peak : (if lt curve.1 snapshot.portfolioValue = true then snapshot.portfolioValue
      else curve.1) = max curve.1 snapshot.portfolioValue := by
    rw [max_def_lt]
    simp only [CDouble.lt, decide_eq_true_eq]
  have deepest (d : ℚ) : (if lt d curve.2 = true then d else curve.2) = min curve.2 d := by
    rw [min_comm, min_def_lt]
    simp only [CDouble.lt, decide_eq_true_eq]
  simp only [mddStep, peak, deepest, Drawdown.step, Drawdown.fall, literal]

theorem computeMdd_eq (first : DailySnapshot ℚ) (rest : List (DailySnapshot ℚ)) :
    computeMdd first rest = (((first :: rest).map DailySnapshot.portfolioValue).foldl
      Drawdown.step (first.portfolioValue, 0)).2 := by
  have same : (mddStep : ℚ × ℚ → DailySnapshot ℚ → ℚ × ℚ) =
      fun curve snapshot => Drawdown.step curve snapshot.portfolioValue := by
    funext curve snapshot
    exact mddStep_eq curve snapshot
  rw [computeMdd, same, List.foldl_map]
  rfl

private theorem computeMdd_least {first : DailySnapshot ℚ} {rest : List (DailySnapshot ℚ)}
    (positive : ∀ value ∈ (first :: rest).map DailySnapshot.portfolioValue, 0 < value) :
    IsLeast (Drawdown.falls ((first :: rest).map DailySnapshot.portfolioValue))
      (computeMdd first rest) := by
  rw [computeMdd_eq]
  exact Drawdown.deepest first.portfolioValue (rest.map DailySnapshot.portfolioValue) positive

/-- A value of the equity curve is that of a snapshot. -/
private theorem curve_entry {snapshots : List (DailySnapshot ℚ)} {i : Nat} {value : ℚ} :
    (snapshots.map DailySnapshot.portfolioValue)[i]? = some value ↔
      ∃ snapshot, snapshots[i]? = some snapshot ∧ snapshot.portfolioValue = value := by
  rw [List.getElem?_map, Option.map_eq_some_iff]

/-- The falls of the curve are those between two snapshots. -/
private theorem mem_falls_curve {snapshots : List (DailySnapshot ℚ)} {d : ℚ} :
    d ∈ Drawdown.falls (snapshots.map DailySnapshot.portfolioValue) ↔
      ∃ (i j : Nat) (earlier later : DailySnapshot ℚ), i ≤ j ∧
        snapshots[i]? = some earlier ∧ snapshots[j]? = some later ∧
        (later.portfolioValue - earlier.portfolioValue) / earlier.portfolioValue * 100 = d := by
  constructor
  · rintro ⟨i, j, _, _, order, atI, atJ, found⟩
    obtain ⟨earlier, first, rfl⟩ := curve_entry.mp atI
    obtain ⟨later, second, rfl⟩ := curve_entry.mp atJ
    exact ⟨i, j, earlier, later, order, first, second, found⟩
  · rintro ⟨i, j, earlier, later, order, first, second, found⟩
    exact ⟨i, j, _, _, order, curve_entry.mpr ⟨earlier, first, rfl⟩,
      curve_entry.mpr ⟨later, second, rfl⟩, found⟩

/-- Another unit of money leaves the drawdown as it is. -/
private theorem computeMdd_scaled {first scaled : DailySnapshot ℚ}
    {rest more : List (DailySnapshot ℚ)} {c : ℚ} (factor : 0 < c)
    (positive : ∀ value ∈ (first :: rest).map DailySnapshot.portfolioValue, 0 < value)
    (same : (scaled :: more).map DailySnapshot.portfolioValue =
      (first :: rest).map fun snapshot => c * snapshot.portfolioValue) :
    computeMdd scaled more = computeMdd first rest := by
  have stretched : (scaled :: more).map DailySnapshot.portfolioValue =
      ((first :: rest).map DailySnapshot.portfolioValue).map (c * ·) := by
    rw [same, List.map_map]
    rfl
  have least : IsLeast (Drawdown.falls ((scaled :: more).map DailySnapshot.portfolioValue))
      (computeMdd scaled more) := by
    apply computeMdd_least
    intro value member
    rw [stretched] at member
    obtain ⟨before, inside, rfl⟩ := List.mem_map.mp member
    exact mul_pos factor (positive before inside)
  rw [stretched, Drawdown.falls_scaled factor.ne'] at least
  exact least.unique (computeMdd_least positive)

/-- `compute_mdd` finds the deepest fall between two bars. -/
theorem compute_mdd_deepest (first : DailySnapshot ℚ) (rest : List (DailySnapshot ℚ))
    (positive : ∀ snapshot ∈ first :: rest, 0 < snapshot.portfolioValue) :
    IsLeast {d | ∃ (i j : Nat) (earlier later : DailySnapshot ℚ), i ≤ j ∧
        (first :: rest)[i]? = some earlier ∧ (first :: rest)[j]? = some later ∧
        (later.portfolioValue - earlier.portfolioValue) / earlier.portfolioValue * 100 = d}
      (computeMdd first rest) ∧
    (-100 < computeMdd first rest ∧ computeMdd first rest ≤ 0) ∧
    (computeMdd first rest = 0 ↔ ∀ (i j : Nat) (earlier later : DailySnapshot ℚ), i ≤ j →
      (first :: rest)[i]? = some earlier → (first :: rest)[j]? = some later →
      earlier.portfolioValue ≤ later.portfolioValue) ∧
    ∀ (c : ℚ) (scaled : DailySnapshot ℚ) (more : List (DailySnapshot ℚ)), 0 < c →
      (scaled :: more).map DailySnapshot.portfolioValue =
        (first :: rest).map (fun snapshot => c * snapshot.portfolioValue) →
      computeMdd scaled more = computeMdd first rest := by
  have values : ∀ value ∈ (first :: rest).map DailySnapshot.portfolioValue, 0 < value := by
    intro value member
    obtain ⟨snapshot, inside, rfl⟩ := List.mem_map.mp member
    exact positive snapshot inside
  have least := computeMdd_least values
  refine ⟨⟨mem_falls_curve.mp least.1, ?_⟩, Drawdown.deepest_bounds values least, ?_, ?_⟩
  · intro d fall
    exact least.2 (mem_falls_curve.mpr fall)
  · rw [Drawdown.deepest_eq_zero_iff values least]
    constructor
    · intro rises i j earlier later order atI atJ
      exact rises i j _ _ order (curve_entry.mpr ⟨earlier, atI, rfl⟩)
        (curve_entry.mpr ⟨later, atJ, rfl⟩)
    · intro rises i j a b order atI atJ
      obtain ⟨earlier, first, rfl⟩ := curve_entry.mp atI
      obtain ⟨later, second, rfl⟩ := curve_entry.mp atJ
      exact rises i j earlier later order first second
  · intro c scaled more factor same
    exact computeMdd_scaled factor values same

/-- The snapshots of a curve that only its portfolio values matter for. -/
def curveSnapshot (value : ℚ) : DailySnapshot ℚ := ⟨0, value, value, 0, 0, value, 0⟩

theorem compute_mdd_deepest_trough :
    IsLeast {d | ∃ (i j : Nat) (earlier later : DailySnapshot ℚ), i ≤ j ∧
        [curveSnapshot 100, curveSnapshot 120, curveSnapshot 90][i]? = some earlier ∧
        [curveSnapshot 100, curveSnapshot 120, curveSnapshot 90][j]? = some later ∧
        (later.portfolioValue - earlier.portfolioValue) / earlier.portfolioValue * 100 = d}
      (computeMdd (curveSnapshot 100) [curveSnapshot 120, curveSnapshot 90]) :=
  (compute_mdd_deepest (curveSnapshot 100) [curveSnapshot 120, curveSnapshot 90]
    (by simp [curveSnapshot])).1

example : computeMdd (curveSnapshot 100) [curveSnapshot 120, curveSnapshot 90] = -25 := by
  decide +kernel

end AlphaPipeline.Backtest

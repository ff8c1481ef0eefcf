import AlphaPipeline.Backtest.Solvency

/-!
# Conversions to 64 bits

`open_position` converts the quotient of cash and price to a 64-bit integer, which C leaves
undefined where it does not fit. Doubles are read as exact rationals. A run shows the outcome of
such a conversion in the position of its bar. Nothing bounds a price from below, so of a config
with capital no conversion is safe for all prices.
-/
namespace AlphaPipeline.Backtest

open CDouble

variable {σ : Type} (inputs : Inputs σ ℚ) (platform : Platform ℚ)

/-- The number that bar `i` converts to 64 bits, if it converts one. -/
def Inputs.conversion (before : Loop σ ℚ) (i : Nat) : Option ℚ :=
  if (inputs.signal before.ctx i before.state.positionQty).1 = .buy ∧
      before.state.positionQty = 0 then
    if effectivePrice inputs.cost (inputs.prices i) ≤ 0 then none
    else some (floor (before.state.cash / effectivePrice inputs.cost (inputs.prices i)))
  else none

/-- The number fits 64 bits. -/
def InInt64 (x : ℚ) : Prop := -2 ^ 63 ≤ x ∧ x ≤ 2 ^ 63 - 1

/-- Where what it converts fits, a bar trades alike on every platform: there is no other
conversion. -/
theorem trade_of_conversion {before : Loop σ ℚ} {i : Nat}
    (fits : ∀ x, inputs.conversion before i = some x → InInt64 x) (other : Platform ℚ) :
    inputs.trade platform before.state (inputs.signal before.ctx i before.state.positionQty).1 i =
      inputs.trade other before.state
        (inputs.signal before.ctx i before.state.positionQty).1 i := by
  unfold Inputs.conversion at fits
  unfold Inputs.trade
  split
  next flat =>
    rw [openPosition_eq, openPosition_eq]
    split
    · rfl
    next priced =>
      rw [if_pos flat, if_neg priced] at fits
      have range := fits _ rfl
      have sized (platform : Platform ℚ) :
          sizedQuantity platform inputs.cost before.state.cash (inputs.prices i) =
            (before.state.cash / effectivePrice inputs.cost (inputs.prices i)).floor := by
        apply sizedQuantity_eq
        unfold int64Max
        simp only [CDouble.floor] at range
        unfold InInt64 at range
        constructor
        · exact_mod_cast range.1
        · exact_mod_cast range.2
      rw [sized platform, sized other]
  · rfl

/-- The conversions of the first `k` bars fit 64 bits. -/
def Inputs.Converts (k : Nat) : Prop :=
  ∀ i < k, ∃ before, inputs.reached platform i = some before ∧
    ∀ x, inputs.conversion before i = some x → InInt64 x

/-- Bars whose conversions fit leave the same ledger on every platform. -/
theorem ledger_of_converts {k : Nat} (inside : k ≤ inputs.n) (fits : inputs.Converts platform k)
    (other : Platform ℚ) : inputs.ledger other k = inputs.ledger platform k := by
  induction k with
  | zero => rfl
  | succ k ih =>
    obtain ⟨before, reached, range⟩ := fits k (by omega)
    rw [reached_eq_ledger inputs platform k (by omega)] at reached
    obtain rfl := Option.some.inj reached
    have traded : inputs.afterTrade other (inputs.ledger platform k) k =
        inputs.afterTrade platform (inputs.ledger platform k) k := by
      have same : inputs.trade other (inputs.ledger platform k).state
          (Ledger.signal inputs (inputs.ledger platform k) k) k = _ :=
        (trade_of_conversion inputs platform range other).symm
      unfold Inputs.afterTrade
      rw [same]
      rfl
    simp only [Inputs.ledger, Inputs.post, ih (by omega) fun i before => fits i (by omega), traded]

/-- The platform, but with an outcome of its own for what C leaves undefined. -/
def converting (quantity : Int) : Platform ℚ :=
  { platform with undefinedInt64 := fun _ => quantity }

theorem sizedQuantity_converting {cost : CostModel ℚ} {cash price : ℚ} (quantity : Int)
    (unfit : ¬ InInt64 (floor (cash / effectivePrice cost price))) :
    sizedQuantity (converting platform quantity) cost cash price = quantity := by
  have range : ¬(-int64Max - 1 ≤ (cash / effectivePrice cost price).floor ∧
      (cash / effectivePrice cost price).floor ≤ int64Max) := by
    rintro ⟨low, high⟩
    unfold int64Max at low high
    refine unfit ⟨?_, ?_⟩ <;> simp only [CDouble.floor]
    · exact_mod_cast low
    · exact_mod_cast high
  rw [sizedQuantity]
  exact (toInt64_intCast _ _).trans (if_neg range)

/-- Where the conversion of a bar does not fit, what is undefined decides whether the bar buys. -/
theorem position_of_unfit {i : Nat} (inside : i < inputs.n) {x : ℚ}
    (fits : inputs.Converts platform i)
    (converted : inputs.conversion ((inputs.ledger platform i).loop inputs.n) i = some x)
    (unfit : ¬ InInt64 x) :
    (inputs.ledger (converting platform 0) (i + 1)).state.positionQty = 0 ∧
      0 < (inputs.ledger (converting platform 2) (i + 1)).state.positionQty := by
  unfold Inputs.conversion at converted
  split at converted
  next flat =>
    split at converted
    · cases converted
    next priced =>
      obtain rfl := Option.some.inj converted
      have traded (quantity : Int) :
          (inputs.ledger (converting platform quantity) (i + 1)).state.positionQty =
            (inputs.afterTrade (converting platform quantity)
              (inputs.ledger platform i) i).1.positionQty := by
        rw [← ledger_of_converts inputs platform inside.le fits (converting platform quantity)]
        rfl
      have opened (quantity : Int) : inputs.trade (converting platform quantity)
          (inputs.ledger platform i).state (Ledger.signal inputs (inputs.ledger platform i) i) i =
          openPosition (converting platform quantity) (inputs.ledger platform i).state inputs.cost
            inputs.config (inputs.dates i) (inputs.prices i) := if_pos flat
      have sized (quantity : Int) : sizedQuantity (converting platform quantity) inputs.cost
          (inputs.ledger platform i).state.cash (inputs.prices i) = quantity :=
        sizedQuantity_converting platform quantity unfit
      rw [traded, traded, Inputs.afterTrade, Inputs.afterTrade, opened, opened, openPosition_eq,
        openPosition_eq, sized, sized, if_neg priced, if_neg priced]
      refine ⟨flat.2, ?_⟩
      -- two shares, or the one that the guard leaves
      rw [if_neg (by decide : ¬(2 : Int) ≤ 0)]
      by_cases short : (inputs.ledger platform i).state.cash <
          totalOutlay inputs.cost (inputs.prices i) 2
      · rw [if_pos short, if_neg (by decide : ¬(2 - 1 : Int) ≤ 0)]
        exact (by decide : (0 : Int) < 2 - 1)
      · rw [if_neg short]
        exact (by decide : (0 : Int) < 2)
  · cases converted

/-- The quotient fits 64 bits where the cash is within 2^63 times the price. -/
theorem conversion_fits_iff (before : Loop σ ℚ) (i : Nat) :
    (∀ x, inputs.conversion before i = some x → InInt64 x) ↔
      (inputs.FlatBuy before i → 0 < effectivePrice inputs.cost (inputs.prices i) →
        -2 ^ 63 * effectivePrice inputs.cost (inputs.prices i) ≤ before.state.cash ∧
          before.state.cash < 2 ^ 63 * effectivePrice inputs.cost (inputs.prices i)) := by
  unfold Inputs.conversion Inputs.FlatBuy
  split
  next flat =>
    split
    next free =>
      exact ⟨fun _ _ priced => absurd priced (not_lt.mpr free), nofun⟩
    next priced =>
      have priced := not_le.mp priced
      rw [forall_prop_of_true flat, forall_prop_of_true priced]
      simp only [Option.some.injEq, forall_eq', InInt64, CDouble.floor]
      refine and_congr ?_ ?_
      · rw [← le_div_iff₀ priced, ← Int.cast_ofNat, ← Int.cast_pow, ← Int.cast_neg, Int.cast_le]
        exact Rat.le_floor_iff
      · rw [← div_lt_iff₀ priced, ← Int.cast_ofNat, ← Int.cast_pow, ← Rat.floor_lt_iff,
          ← Int.cast_one, ← Int.cast_sub, Int.cast_le]
        exact Int.le_sub_one_iff
  next busy => exact ⟨fun _ flat => absurd flat busy, nofun⟩

/-- Where the capital pays for no share at any price, it stays as it is. -/
theorem ledger_idle (nothing : ∀ price, 0 < effectivePrice inputs.cost price →
    sizedQuantity platform inputs.cost inputs.config.initialCapital price ≤ 0) (k : Nat) :
    (inputs.ledger platform k).state.cash = inputs.config.initialCapital ∧
      (inputs.ledger platform k).state.positionQty = 0 := by
  induction k with
  | zero => exact ⟨rfl, rfl⟩
  | succ k ih =>
    obtain ⟨kept, flat⟩ := ih
    have quiet : inputs.trade platform (inputs.ledger platform k).state
        (Ledger.signal inputs (inputs.ledger platform k) k) k = none := by
      unfold Inputs.trade
      split
      · rw [openPosition_eq, kept]
        split
        · rfl
        next priced => rw [if_pos (nothing _ (not_le.mp priced))]
      · rw [if_neg (by omega)]
    change (inputs.afterTrade platform (inputs.ledger platform k) k).1.cash = _ ∧
      (inputs.afterTrade platform (inputs.ledger platform k) k).1.positionQty = 0
    rw [Inputs.afterTrade, quiet]
    exact ⟨kept, flat⟩

theorem sizedQuantity_zero (cost : CostModel ℚ) (price : ℚ) :
    sizedQuantity platform cost 0 price = 0 := by
  have nothing : (0 / effectivePrice cost price).floor = 0 := by
    rw [zero_div]
    rfl
  rw [sizedQuantity_eq (by rw [nothing]; decide), nothing]

/-- One bar at a price that asks for 2^64 shares, of capital or of debt. -/
def overflowing (config : BacktestConfig ℚ) (cost : CostModel ℚ) : Inputs Unit ℚ where
  config
  prices := fun _ => |(config.initialCapital : ℚ)| /
    (2 ^ 64 * (1 + cost.commissionRate + cost.slippageRate))
  dates := fun i => i
  n := 1
  signalFn := fun ctx _ _ _ _ => (.buy, ctx)
  signalCtx := ()
  cost

/-- The cash is 2^64 times the price, or the debt is. -/
private theorem overflowing_unfit {config : BacktestConfig ℚ} {cost : CostModel ℚ}
    (capital : config.initialCapital ≠ 0) (commission : 0 ≤ cost.commissionRate)
    (slippage : 0 ≤ cost.slippageRate) :
    ¬ ∀ x, (overflowing config cost).conversion (overflowing config cost).start 0 = some x →
      InInt64 x := by
  intro fits
  have shares : 0 < 1 + cost.commissionRate + cost.slippageRate := by linarith
  have debt : 0 < |(config.initialCapital : ℚ)| := by
    rw [abs_pos]
    exact_mod_cast capital
  have price : effectivePrice cost ((overflowing config cost).prices 0) =
      |(config.initialCapital : ℚ)| / 2 ^ 64 := by
    rw [effectivePrice_eq, overflowing]
    field_simp
  have range := (conversion_fits_iff _ _ _).mp fits ⟨rfl, rfl⟩
  change 0 < effectivePrice cost ((overflowing config cost).prices 0) →
    -2 ^ 63 * effectivePrice cost ((overflowing config cost).prices 0) ≤
        (config.initialCapital : ℚ) ∧
      (config.initialCapital : ℚ) <
        2 ^ 63 * effectivePrice cost ((overflowing config cost).prices 0) at range
  rw [price] at range
  obtain ⟨low, high⟩ := range (by positivity)
  rcases abs_cases (config.initialCapital : ℚ) with ⟨same, _⟩ | ⟨opposite, _⟩ <;> linarith

/-- The metrics convert nothing. -/
theorem alphaComputeMetrics_converting (quantity : Int) (alloc : Allocations)
    (snapshots : List (DailySnapshot ℚ)) (trades : List (TradeRecord ℚ)) (initialCapital : Int) :
    alphaComputeMetrics (converting platform quantity) alloc snapshots trades initialCapital =
      alphaComputeMetrics platform alloc snapshots trades initialCapital := by
  cases snapshots with
  | nil => rfl
  | cons first rest => rfl

/-- The conversions of a run fit 64 bits exactly where it does not show what C leaves
undefined. -/
theorem converts_iff {alloc : Allocations} {out result : BacktestResult ℚ}
    (returned : inputs.run platform alloc out = some (.ok, some result)) :
    inputs.Converts platform inputs.n ↔ ∀ quantity,
      inputs.run (converting platform quantity) alloc out = some (.ok, some result) := by
  obtain ⟨accepted, allocated, metrics, computed, rfl⟩ := run_ok inputs platform returned
  constructor
  · intro fits quantity
    obtain ⟨metrics', computed', returned'⟩ := alphaBacktestRun_metrics inputs
      (converting platform quantity) alloc out accepted allocated
    have ledger := ledger_of_converts inputs platform le_rfl fits (converting platform quantity)
    rw [ledger, alphaComputeMetrics_converting, computed] at computed'
    rw [Inputs.run, returned', ledger, Option.some.inj computed']
  · intro same i inside
    -- on the first bar that does not fit, two outcomes leave two positions
    induction i using Nat.strong_induction_on with
    | _ i earlier =>
      have fits : inputs.Converts platform i :=
        fun j before => earlier j before (before.trans inside)
      refine ⟨_, reached_eq_ledger inputs platform i inside.le, fun x converted => ?_⟩
      by_contra unfit
      obtain ⟨none, some_⟩ := position_of_unfit inputs platform inside fits converted unfit
      have shown (quantity : Int) : (inputs.ledger (converting platform quantity)
          inputs.n).snapshots = (inputs.ledger platform inputs.n).snapshots := by
        refine run_snapshots inputs _ (same quantity) ?_
        have all := Slots.readFirst_of_prefix inputs.n
          (List.prefix_rfl : (inputs.ledger platform inputs.n).snapshots <+: _)
        rwa [(ledger_balanced inputs platform inputs.n).bars] at all
      obtain ⟨first, entry, _, _, _, quantity, _⟩ :=
        snapshot_of_bar inputs (converting platform 0) inside
      obtain ⟨second, entry', _, _, _, quantity', _⟩ :=
        snapshot_of_bar inputs (converting platform 2) inside
      rw [shown] at entry entry'
      obtain rfl := Option.some.inj (entry.symm.trans entry')
      omega

/-- No conversion of a run leaves 64 bits exactly where at every buy signal while flat the cash is
within 2^63 times a positive price, and exactly where the run does not show what C leaves
undefined; of a config this can be said for all prices only without capital. -/
theorem conversions_in_range_iff :
    (∀ (σ : Type) (inputs : Inputs σ ℚ) (alloc : Allocations) (out result : BacktestResult ℚ),
      inputs.run platform alloc out = some (.ok, some result) →
      ((∀ i < inputs.n, ∃ before, inputs.reached platform i = some before ∧
          ∀ x, inputs.conversion before i = some x → InInt64 x) ↔
        ∀ i < inputs.n, ∃ before, inputs.reached platform i = some before ∧
          (inputs.FlatBuy before i → 0 < effectivePrice inputs.cost (inputs.prices i) →
            -2 ^ 63 * effectivePrice inputs.cost (inputs.prices i) ≤ before.state.cash ∧
              before.state.cash < 2 ^ 63 * effectivePrice inputs.cost (inputs.prices i))) ∧
      ((∀ i < inputs.n, ∃ before, inputs.reached platform i = some before ∧
          ∀ x, inputs.conversion before i = some x → InInt64 x) ↔
        ∀ quantity, inputs.run (converting platform quantity) alloc out =
          some (.ok, some result))) ∧
    ∀ (config : BacktestConfig ℚ) (cost : CostModel ℚ), config.trainEnd < config.testStart →
      0 ≤ cost.commissionRate ∧ 0 ≤ cost.taxRate ∧ 0 ≤ cost.slippageRate →
      ((∀ (σ : Type) (inputs : Inputs σ ℚ) (alloc : Allocations) (out result : BacktestResult ℚ),
        inputs.config = config → inputs.cost = cost →
        inputs.run platform alloc out = some (.ok, some result) →
        ∀ i < inputs.n, ∃ before, inputs.reached platform i = some before ∧
          ∀ x, inputs.conversion before i = some x → InInt64 x) ↔ config.initialCapital = 0) := by
  refine ⟨?_, fun config cost accepted rates => ⟨?_, ?_⟩⟩
  · intro σ inputs alloc out result returned
    refine ⟨?_, converts_iff inputs platform returned⟩
    simp only [conversion_fits_iff]
  · intro always
    by_contra capital
    -- a price that asks for 2^64 shares of the capital, or of the debt
    obtain ⟨metrics, _, returned⟩ := alphaBacktestRun_metrics (overflowing config cost) platform
      ⟨true, true, true, true⟩ (clearedResult config) accepted (.inr ⟨rfl, rfl⟩)
    obtain ⟨before, reached, fits⟩ := always Unit (overflowing config cost) _ _ _ rfl rfl returned
      0 Nat.one_pos
    obtain rfl : (overflowing config cost).start = before := Option.some.inj reached
    exact overflowing_unfit capital rates.1 rates.2.2 fits
  -- without capital nothing is ever bought, so the cash stays 0
  · intro capital σ inputs alloc out result sameConfig sameCost _ i inside
    refine ⟨_, reached_eq_ledger inputs platform i inside.le, ?_⟩
    have nothing (price : ℚ) (_ : 0 < effectivePrice inputs.cost price) :
        sizedQuantity platform inputs.cost inputs.config.initialCapital price ≤ 0 := by
      rw [sameConfig, capital, Int.cast_zero, sizedQuantity_zero]
    obtain ⟨broke, _⟩ := ledger_idle inputs platform nothing i
    rw [sameConfig, capital, Int.cast_zero] at broke
    rw [conversion_fits_iff]
    intro _ priced
    simp only [Ledger.loop, broke]
    constructor <;> linarith

theorem conversions_in_range_one_lot :
    (∀ (σ : Type) (inputs : Inputs σ ℚ) (alloc : Allocations) (out result : BacktestResult ℚ),
      inputs.config = oneLot.config → inputs.cost = oneLot.cost →
      inputs.run somePlatform alloc out = some (.ok, some result) →
      ∀ i < inputs.n, ∃ before, inputs.reached somePlatform i = some before ∧
        ∀ x, inputs.conversion before i = some x → InInt64 x) ↔
      oneLot.config.initialCapital = 0 :=
  (conversions_in_range_iff somePlatform).2 oneLot.config oneLot.cost (by decide)
    ⟨by decide +kernel, by decide +kernel, by decide +kernel⟩

/-- The conversion of 2^64 shares does not fit. -/
theorem quarters_out_of_range :
    quarters.config.trainEnd < quarters.config.testStart ∧
      quarters.reached somePlatform 0 = some quarters.start ∧
      quarters.conversion quarters.start 0 = some (2 ^ 64) ∧ ¬ InInt64 (2 ^ 64) := by
  refine ⟨by decide, rfl, by decide +kernel, ?_⟩
  rintro ⟨_, high⟩
  norm_num at high

end AlphaPipeline.Backtest

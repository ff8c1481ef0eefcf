import AlphaPipeline.Backtest.Ledger

/-!
# Solvency and the size of a purchase

Doubles are read as exact rationals here. A purchase is sized by the cost of one share; costs are
proportional, so the whole quantity costs as many times as much and the cash suffices. The size is
a quotient converted to 64 bits; where it does not fit, the purchase is not the largest.
-/
namespace AlphaPipeline.Backtest

open CDouble

/-- Rates that take no more than the proceeds of a sale. -/
structure CostModel.Fair (cost : CostModel ℚ) : Prop where
  commission : 0 ≤ cost.commissionRate
  tax : 0 ≤ cost.taxRate
  slippage : 0 ≤ cost.slippageRate
  total : cost.commissionRate + cost.taxRate + cost.slippageRate ≤ 1

/-- What C leaves undefined still gives a 64-bit integer. -/
def Int64Valued (platform : Platform ℚ) : Prop :=
  ∀ x, -int64Max - 1 ≤ platform.undefinedInt64 x ∧ platform.undefinedInt64 x ≤ int64Max

/-- `effective_price`: the price of one share with its cost. -/
def effectivePrice (cost : CostModel ℚ) (price : ℚ) : ℚ :=
  price + (alphaCostCalculate cost .buy price 1).total

/-- `total_outlay`: the price of the shares with their cost. -/
def totalOutlay (cost : CostModel ℚ) (price : ℚ) (quantity : Int) : ℚ :=
  price * quantity + (alphaCostCalculate cost .buy price quantity).total

/-- The quantity that `open_position` converts from the quotient. -/
def sizedQuantity (platform : Platform ℚ) (cost : CostModel ℚ) (cash price : ℚ) : Int :=
  platform.toInt64 (floor (cash / effectivePrice cost price))

/-- The rounding guard gives up a share. -/
def GuardFires (platform : Platform ℚ) (cost : CostModel ℚ) (cash price : ℚ) : Prop :=
  0 < effectivePrice cost price ∧ 0 < sizedQuantity platform cost cash price ∧
    cash < totalOutlay cost price (sizedQuantity platform cost cash price)

/-! ### One purchase -/

theorem effectivePrice_eq (cost : CostModel ℚ) (price : ℚ) :
    effectivePrice cost price = price * (1 + cost.commissionRate + cost.slippageRate) := by
  simp [effectivePrice, alphaCostCalculate, CDouble.ofInt, literal]
  ring

/-- Costs are proportional. -/
theorem totalOutlay_eq (cost : CostModel ℚ) (price : ℚ) (quantity : Int) :
    totalOutlay cost price quantity = quantity * effectivePrice cost price := by
  simp [totalOutlay, effectivePrice, alphaCostCalculate, CDouble.ofInt, literal]
  ring

theorem truncate_intCast (k : Int) : truncate (k : ℚ) = k := by
  unfold truncate
  split <;> simp

/-- A whole number is converted as it is where it fits 64 bits. -/
theorem toInt64_intCast (platform : Platform ℚ) (k : Int) :
    platform.toInt64 (k : ℚ) =
      if -int64Max - 1 ≤ k ∧ k ≤ int64Max then k else platform.undefinedInt64 k := by
  unfold Platform.toInt64
  simp only [CDouble.toInt64, truncate_intCast]
  split <;> rfl

section

variable {platform : Platform ℚ} {cost : CostModel ℚ} {cash price : ℚ}

theorem sizedQuantity_eq (fits : -int64Max - 1 ≤ (cash / effectivePrice cost price).floor ∧
    (cash / effectivePrice cost price).floor ≤ int64Max) :
    sizedQuantity platform cost cash price = (cash / effectivePrice cost price).floor := by
  rw [sizedQuantity]
  exact (toInt64_intCast platform _).trans (if_pos fits)

theorem sizedQuantity_le (valued : Int64Valued platform) :
    sizedQuantity platform cost cash price ≤ int64Max := by
  rw [sizedQuantity]
  refine (toInt64_intCast platform _).trans_le ?_
  split
  next range => exact range.2
  · exact (valued _).2

/-- The sized quantity is never more than the cash can pay for. -/
theorem sizedQuantity_affordable (valued : Int64Valued platform) (funded : 0 ≤ cash)
    (priced : 0 < effectivePrice cost price) :
    sizedQuantity platform cost cash price * effectivePrice cost price ≤ cash := by
  rw [← le_div_iff₀ priced]
  have whole : (0 : ℚ) ≤ cash / effectivePrice cost price := div_nonneg funded priced.le
  have start : 0 ≤ (cash / effectivePrice cost price).floor := Rat.le_floor_iff.mpr (by simpa)
  have below := Rat.floor_le (cash / effectivePrice cost price)
  by_cases fits : (cash / effectivePrice cost price).floor ≤ int64Max
  · rw [sizedQuantity_eq ⟨by unfold int64Max; omega, fits⟩]
    exact below
  -- an undefined conversion gives a number below the quotient
  · have converted : sizedQuantity platform cost cash price ≤ int64Max := sizedQuantity_le valued
    have less : sizedQuantity platform cost cash price ≤
        (cash / effectivePrice cost price).floor := by omega
    exact le_trans (by exact_mod_cast less) below

/-- Where the quotient fits 64 bits, one share more is too many. -/
theorem sizedQuantity_largest (funded : 0 ≤ cash) (priced : 0 < effectivePrice cost price)
    (fits : cash < 2 ^ 63 * effectivePrice cost price) :
    cash < (sizedQuantity platform cost cash price + 1) * effectivePrice cost price := by
  have whole : (0 : ℚ) ≤ cash / effectivePrice cost price := div_nonneg funded priced.le
  have start : 0 ≤ (cash / effectivePrice cost price).floor := Rat.le_floor_iff.mpr (by simpa)
  have limit : (cash / effectivePrice cost price).floor < 2 ^ 63 := by
    rw [Rat.floor_lt_iff, div_lt_iff₀ priced]
    exact_mod_cast fits
  rw [← div_lt_iff₀ priced, sizedQuantity_eq ⟨by unfold int64Max; omega, by unfold int64Max; omega⟩]
  exact_mod_cast Rat.lt_floor_add_one _

/-- Where the quotient fits 64 bits, no share is bought exactly when one is too many. -/
theorem sizedQuantity_nonpos_iff (valued : Int64Valued platform) (funded : 0 ≤ cash)
    (priced : 0 < effectivePrice cost price) (fits : cash < 2 ^ 63 * effectivePrice cost price) :
    sizedQuantity platform cost cash price ≤ 0 ↔ cash < effectivePrice cost price := by
  constructor
  · intro none
    have none' : (sizedQuantity platform cost cash price : ℚ) ≤ 0 := by exact_mod_cast none
    calc cash < (sizedQuantity platform cost cash price + 1) * effectivePrice cost price :=
          sizedQuantity_largest funded priced fits
      _ ≤ 1 * effectivePrice cost price := mul_le_mul_of_nonneg_right (by linarith) priced.le
      _ = effectivePrice cost price := one_mul _
  · intro short
    by_contra some_
    have one : (1 : ℚ) ≤ sizedQuantity platform cost cash price := by
      exact_mod_cast (by omega : 1 ≤ sizedQuantity platform cost cash price)
    have affordable := sizedQuantity_affordable valued funded priced
    have unit := mul_le_mul_of_nonneg_right one priced.le
    linarith

/-- `open_position` in these terms. -/
theorem openPosition_eq (platform : Platform ℚ) (state : EngineState ℚ) (cost : CostModel ℚ)
    (config : BacktestConfig ℚ) (date : Int) (price : ℚ) :
    openPosition platform state cost config date price =
      if effectivePrice cost price ≤ 0 then none
      else if sizedQuantity platform cost state.cash price ≤ 0 then none
      else if state.cash <
          totalOutlay cost price (sizedQuantity platform cost state.cash price) then
        if sizedQuantity platform cost state.cash price - 1 ≤ 0 then none
        else some (buyShares state config date price
          (sizedQuantity platform cost state.cash price - 1) (alphaCostCalculate cost .buy price
            (sizedQuantity platform cost state.cash price - 1)))
      else some (buyShares state config date price
        (sizedQuantity platform cost state.cash price) (alphaCostCalculate cost .buy price
          (sizedQuantity platform cost state.cash price))) := by
  simp only [openPosition, CDouble.le, CDouble.lt, decide_eq_true_eq]
  rfl

/-- With cash at hand the guard never fires. -/
theorem guard_never_fires (valued : Int64Valued platform) (funded : 0 ≤ cash) :
    ¬ GuardFires platform cost cash price := by
  rintro ⟨priced, _, short⟩
  rw [totalOutlay_eq] at short
  exact absurd (sizedQuantity_affordable valued funded priced) (not_le.mpr short)

variable {state : EngineState ℚ}

/-- With cash at hand, the sized quantity is bought if it is positive. -/
theorem openPosition_sized (valued : Int64Valued platform) (funded : 0 ≤ state.cash)
    (priced : 0 < effectivePrice cost price) (config : BacktestConfig ℚ) (date : Int) :
    openPosition platform state cost config date price =
      if sizedQuantity platform cost state.cash price ≤ 0 then none
      else some (buyShares state config date price
        (sizedQuantity platform cost state.cash price) (alphaCostCalculate cost .buy price
          (sizedQuantity platform cost state.cash price))) := by
  rw [openPosition_eq, if_neg (not_le.mpr priced)]
  split
  · rfl
  next positive =>
    rw [if_neg fun short => guard_never_fires valued funded ⟨priced, by omega, short⟩]

/-- The rule for a purchase: the largest quantity the cash can pay for, without the guard, and
none exactly where there is no price or not the cash for one share. -/
structure MaximalBuy (platform : Platform ℚ) (cost : CostModel ℚ) (config : BacktestConfig ℚ)
    (date : Int) (price : ℚ) (state : EngineState ℚ) : Prop where
  unguarded : ¬ GuardFires platform cost state.cash price
  largest : ∀ after trade,
    openPosition platform state cost config date price = some (after, trade) →
    trade.quantity * effectivePrice cost price ≤ state.cash ∧
      state.cash < (trade.quantity + 1) * effectivePrice cost price
  refused : openPosition platform state cost config date price = none ↔
    effectivePrice cost price = 0 ∨ state.cash < effectivePrice cost price

/-- Without a price nothing is bought, as the rule says. -/
private theorem maximalBuy_of_free (valued : Int64Valued platform) (funded : 0 ≤ state.cash)
    (free : effectivePrice cost price = 0) (config : BacktestConfig ℚ) (date : Int) :
    MaximalBuy platform cost config date price state := by
  have refused : openPosition platform state cost config date price = none := by
    rw [openPosition_eq, if_pos free.le]
  refine ⟨guard_never_fires valued funded, ?_, ⟨fun _ => .inl free, fun _ => refused⟩⟩
  intro after trade bought
  rw [refused] at bought
  cases bought

private theorem maximalBuy_of_fits (valued : Int64Valued platform) (funded : 0 ≤ state.cash)
    (priced : 0 < effectivePrice cost price)
    (fits : state.cash < 2 ^ 63 * effectivePrice cost price) (config : BacktestConfig ℚ)
    (date : Int) : MaximalBuy platform cost config date price state := by
  have opened := openPosition_sized valued funded priced config date
  refine ⟨guard_never_fires valued funded, ?_, ?_⟩
  · intro after trade bought
    rw [opened] at bought
    split at bought
    · cases bought
    · obtain ⟨_, rfl⟩ := Prod.mk.inj (Option.some.inj bought)
      exact ⟨sizedQuantity_affordable valued funded priced,
        sizedQuantity_largest funded priced fits⟩
  · rw [opened, ← sizedQuantity_nonpos_iff valued funded priced fits]
    simp [priced.ne']

/-- Where the quotient is too large, no 64-bit quantity is the largest. -/
private theorem fits_of_maximalBuy (valued : Int64Valued platform) (funded : 0 ≤ state.cash)
    (priced : 0 < effectivePrice cost price) {config : BacktestConfig ℚ} {date : Int}
    (rule : MaximalBuy platform cost config date price state) :
    state.cash < 2 ^ 63 * effectivePrice cost price := by
  have opened := openPosition_sized valued funded priced config date
  by_contra large
  by_cases none : sizedQuantity platform cost state.cash price ≤ 0
  · rw [if_pos none] at opened
    rcases rule.refused.mp opened with free | short
    · exact priced.ne' free
    · have one : 1 * effectivePrice cost price ≤ 2 ^ 63 * effectivePrice cost price :=
        mul_le_mul_of_nonneg_right (by norm_num) priced.le
      linarith
  · rw [if_neg none] at opened
    have more : state.cash <
        (sizedQuantity platform cost state.cash price + 1) * effectivePrice cost price :=
      (rule.largest _ _ opened).2
    have bound : (sizedQuantity platform cost state.cash price : ℚ) + 1 ≤ 2 ^ 63 := by
      have next : sizedQuantity platform cost state.cash price + 1 ≤ 2 ^ 63 := by
        have most : sizedQuantity platform cost state.cash price ≤ int64Max :=
          sizedQuantity_le valued
        unfold int64Max at most
        omega
      exact_mod_cast next
    have limit := mul_le_mul_of_nonneg_right bound priced.le
    linarith

/-- The rule holds exactly where the quotient fits 64 bits. -/
theorem maximalBuy_iff (valued : Int64Valued platform) (funded : 0 ≤ state.cash)
    (priced : 0 ≤ effectivePrice cost price) (config : BacktestConfig ℚ) (date : Int) :
    MaximalBuy platform cost config date price state ↔
      (0 < effectivePrice cost price → state.cash < 2 ^ 63 * effectivePrice cost price) := by
  constructor
  · intro rule priced
    exact fits_of_maximalBuy valued funded priced rule
  · intro fits
    rcases priced.eq_or_lt with free | priced
    · exact maximalBuy_of_free valued funded free.symm config date
    · exact maximalBuy_of_fits valued funded priced (fits priced) config date

end

/-! ### Whole runs -/

variable {σ : Type} (inputs : Inputs σ ℚ) (platform : Platform ℚ)

/-- What a run keeps of its cash and shares. -/
def EngineState.Funded (state : EngineState ℚ) : Prop := 0 ≤ state.cash ∧ 0 ≤ state.positionQty

/-- Bar `i` opens a position if it can: it is a buy signal while flat. -/
def Inputs.FlatBuy (before : Loop σ ℚ) (i : Nat) : Prop :=
  (inputs.signal before.ctx i before.state.positionQty).1 = .buy ∧ before.state.positionQty = 0

/-- A sale brings in cash, since its costs are at most the proceeds. -/
theorem closePosition_funded {state : EngineState ℚ} {cost : CostModel ℚ} {price : ℚ}
    (fair : cost.Fair) (funded : state.Funded) (priced : 0 ≤ price) (config : BacktestConfig ℚ)
    (date : Int) : (closePosition state cost config date price).1.Funded := by
  obtain ⟨cash, shares⟩ := funded
  have shares' : (0 : ℚ) ≤ state.positionQty := by exact_mod_cast shares
  have notional : 0 ≤ price * state.positionQty := mul_nonneg priced shares'
  have costs := mul_le_mul_of_nonneg_left fair.total notional
  refine ⟨?_, le_rfl⟩
  simp only [closePosition, alphaCostCalculate, CDouble.ofInt, if_true]
  linarith

/-- What is bought has a price, and the cash can pay for it. -/
theorem openPosition_bought {state : EngineState ℚ} {cost : CostModel ℚ} {price : ℚ}
    {config : BacktestConfig ℚ} {date : Int} {taken : EngineState ℚ × TradeRecord ℚ}
    (valued : Int64Valued platform) (funded : 0 ≤ state.cash)
    (opened : openPosition platform state cost config date price = some taken) :
    0 < effectivePrice cost price ∧ 0 < taken.1.positionQty ∧
      taken.1.cash = state.cash - taken.1.positionQty * effectivePrice cost price ∧
      0 ≤ taken.1.cash := by
  have priced : 0 < effectivePrice cost price := by
    by_contra free
    rw [openPosition_eq, if_pos (not_lt.mp free)] at opened
    cases opened
  rw [openPosition_sized valued funded priced] at opened
  split at opened
  · cases opened
  next positive =>
    obtain rfl := Option.some.inj opened
    have left : (buyShares state config date price (sizedQuantity platform cost state.cash price)
        (alphaCostCalculate cost .buy price
          (sizedQuantity platform cost state.cash price))).1.cash =
      state.cash - sizedQuantity platform cost state.cash price * effectivePrice cost price := by
      rw [← totalOutlay_eq]
      rfl
    refine ⟨priced, by simp only [buyShares]; omega, left, ?_⟩
    rw [left]
    exact sub_nonneg.mpr (sizedQuantity_affordable valued funded priced)

theorem trade_funded (valued : Int64Valued platform) (fair : inputs.cost.Fair)
    {state : EngineState ℚ} (funded : state.Funded) {i : Nat} (priced : 0 ≤ inputs.prices i)
    {signal : AlphaSignal} {taken : EngineState ℚ × TradeRecord ℚ}
    (traded : inputs.trade platform state signal i = some taken) : taken.1.Funded := by
  unfold Inputs.trade at traded
  split at traded
  · obtain ⟨_, shares, _, cash⟩ := openPosition_bought platform valued funded.1 traded
    exact ⟨cash, shares.le⟩
  · split at traded
    · rw [← Option.some.inj traded]
      exact closePosition_funded fair funded priced inputs.config (inputs.dates i)
    · cases traded

/-- Every bar leaves cash and shares that are not negative. -/
theorem ledger_funded (valued : Int64Valued platform) (fair : inputs.cost.Fair)
    (capital : 0 ≤ inputs.config.initialCapital) {k : Nat}
    (prices : ∀ i < k, 0 ≤ inputs.prices i) : (inputs.ledger platform k).state.Funded := by
  induction k with
  | zero =>
    refine ⟨?_, le_rfl⟩
    change (0 : ℚ) ≤ inputs.config.initialCapital
    exact_mod_cast capital
  | succ k ih =>
    have funded := ih fun i inside => prices i (by omega)
    -- the snapshot leaves cash and shares as the trade leaves them
    change (inputs.afterTrade platform (inputs.ledger platform k) k).1.Funded
    unfold Inputs.afterTrade
    split
    next state trade traded =>
      exact trade_funded inputs platform valued fair funded (prices k (by omega)) traded
    · exact funded

/-- Bar `i` of a run, between the loop before and after it: the cash and the value that its
snapshot shows are not negative; a purchase it enters in the result is the largest the cash can pay
for; and on a buy signal while flat the guard does not fire, and no purchase is entered exactly
where there is no price or not the cash for one share. -/
structure SolventBar (result : BacktestResult ℚ) (i : Nat) (before after : Loop σ ℚ) : Prop where
  snapshot : ∃ snapshot, Slots.read result.snapshots i = some snapshot ∧
    0 ≤ snapshot.cash ∧ 0 ≤ snapshot.portfolioValue
  largest : ∀ k trade, FilledBetween before after result k trade → trade.side = .buy →
    trade.quantity * effectivePrice inputs.cost (inputs.prices i) ≤ before.state.cash ∧
      before.state.cash < (trade.quantity + 1) * effectivePrice inputs.cost (inputs.prices i)
  unguarded : inputs.FlatBuy before i →
    ¬ GuardFires platform inputs.cost before.state.cash (inputs.prices i)
  refused : inputs.FlatBuy before i →
    ((∀ k trade, FilledBetween before after result k trade → trade.side ≠ .buy) ↔
      effectivePrice inputs.cost (inputs.prices i) = 0 ∨
        before.state.cash < effectivePrice inputs.cost (inputs.prices i))

/-- A bar enters what `open_position` settles on, so it is solvent where that follows the rule. -/
theorem solventBar_iff {result : BacktestResult ℚ} {i : Nat} (inside : i < inputs.n)
    (trades : result.trades = Slots.holding inputs.n (inputs.ledger platform inputs.n).trades)
    (snapshot : ∃ snapshot, Slots.read result.snapshots i = some snapshot ∧
      0 ≤ snapshot.cash ∧ 0 ≤ snapshot.portfolioValue) :
    SolventBar inputs platform result i ((inputs.ledger platform i).loop inputs.n)
        ((inputs.ledger platform (i + 1)).loop inputs.n) ↔
      (inputs.FlatBuy ((inputs.ledger platform i).loop inputs.n) i →
        MaximalBuy platform inputs.cost inputs.config (inputs.dates i) (inputs.prices i)
          (inputs.ledger platform i).state) := by
  have filled := filled_traded inputs platform inside trades
  -- what a flat bar with a buy signal enters is what `open_position` gives
  have opened (flat : inputs.FlatBuy ((inputs.ledger platform i).loop inputs.n) i) :
      inputs.trade platform (inputs.ledger platform i).state
          ((inputs.ledger platform i).signal inputs i) i =
        openPosition platform (inputs.ledger platform i).state inputs.cost inputs.config
          (inputs.dates i) (inputs.prices i) := if_pos flat
  have none_iff (flat : inputs.FlatBuy ((inputs.ledger platform i).loop inputs.n) i) :
      (∀ k trade, FilledBetween ((inputs.ledger platform i).loop inputs.n)
          ((inputs.ledger platform (i + 1)).loop inputs.n) result k trade → trade.side ≠ .buy) ↔
        openPosition platform (inputs.ledger platform i).state inputs.cost inputs.config
          (inputs.dates i) (inputs.prices i) = none := by
    simp only [filled, opened flat]
    constructor
    · intro never
      by_contra bought
      obtain ⟨taken, found⟩ := Option.ne_none_iff_exists'.mp bought
      obtain ⟨quantity, _, rfl⟩ := openPosition_buys platform found
      exact never _ _ ⟨rfl, _, found⟩ rfl
    · rintro refused k trade ⟨_, after, found⟩
      rw [refused] at found
      cases found
  constructor
  · intro bar flat
    refine ⟨bar.unguarded flat, fun after trade bought => ?_, ?_⟩
    · obtain ⟨quantity, _, same⟩ := openPosition_buys platform bought
      exact bar.largest _ trade ((filled _ trade).mpr ⟨rfl, after, (opened flat).trans bought⟩)
        (congrArg (fun taken => taken.2.side) same)
    · exact (none_iff flat).symm.trans (bar.refused flat)
  · intro rule
    refine ⟨snapshot, fun k trade entered bought => ?_, fun flat => (rule flat).unguarded,
      fun flat => (none_iff flat).trans (rule flat).refused⟩
    obtain ⟨_, after, traded⟩ := (filled k trade).mp entered
    rcases (trade_cases inputs platform traded).2 with ⟨_, signal, flat⟩ | ⟨sold, _⟩
    · exact (rule ⟨signal, flat⟩).largest after trade ((opened ⟨signal, flat⟩).symm.trans traded)
    · rw [bought] at sold
      cases sold

/-- Cash and portfolio value are never negative, whatever an undefined conversion gives. -/
theorem run_solvent {alloc : Allocations} {out result : BacktestResult ℚ}
    (returned : inputs.run platform alloc out = some (.ok, some result))
    (valued : Int64Valued platform) (fair : inputs.cost.Fair)
    (capital : 0 ≤ inputs.config.initialCapital) (prices : ∀ i < inputs.n, 0 ≤ inputs.prices i)
    {i : Nat} (inside : i < inputs.n) :
    ∃ snapshot, Slots.read result.snapshots i = some snapshot ∧
      0 ≤ snapshot.cash ∧ 0 ≤ snapshot.portfolioValue := by
  obtain ⟨_, _, metrics, _, rfl⟩ := run_ok inputs platform returned
  obtain ⟨cash, shares⟩ := ledger_funded inputs platform valued fair capital fun j before =>
    prices j (before.trans_le (Nat.succ_le_of_lt inside))
  obtain ⟨snapshot, entry, _, _, shown, held, value⟩ := snapshot_of_bar inputs platform inside
  have shares' : (0 : ℚ) ≤ (inputs.ledger platform (i + 1)).state.positionQty := by
    exact_mod_cast shares
  refine ⟨snapshot, by rw [Slots.read_holding, entry], by rw [shown]; exact cash, ?_⟩
  rw [value]
  exact add_nonneg cash (mul_nonneg shares' (prices i inside))

/-- A run is solvent and its purchases are the largest the cash can pay for exactly where the
quotients of cash and price fit 64 bits. -/
theorem solvent_maximal_iff {alloc : Allocations} {out result : BacktestResult ℚ}
    (returned : inputs.run platform alloc out = some (.ok, some result))
    (valued : Int64Valued platform) (fair : inputs.cost.Fair)
    (capital : 0 ≤ inputs.config.initialCapital) (prices : ∀ i < inputs.n, 0 ≤ inputs.prices i) :
    (∀ i < inputs.n, ∃ before after, inputs.reached platform i = some before ∧
      inputs.reached platform (i + 1) = some after ∧
      SolventBar inputs platform result i before after) ↔
    ∀ i < inputs.n, ∃ before, inputs.reached platform i = some before ∧
      (inputs.FlatBuy before i → 0 < effectivePrice inputs.cost (inputs.prices i) →
        before.state.cash < 2 ^ 63 * effectivePrice inputs.cost (inputs.prices i)) := by
  have trades : result.trades =
      Slots.holding inputs.n (inputs.ledger platform inputs.n).trades := by
    obtain ⟨_, _, metrics, _, rfl⟩ := run_ok inputs platform returned
    rfl
  refine forall₂_congr fun i inside => ?_
  rw [reached_eq_ledger inputs platform i inside.le, reached_eq_ledger inputs platform _ inside]
  simp only [Option.some.injEq, exists_eq_left', exists_and_left]
  have snapshot := run_solvent inputs platform returned valued fair capital prices inside
  rw [solventBar_iff inputs platform inside trades snapshot]
  have funded := ledger_funded inputs platform valued fair capital fun j before =>
    prices j (before.trans inside)
  have priced : 0 ≤ effectivePrice inputs.cost (inputs.prices i) := by
    have rates : 0 ≤ 1 + inputs.cost.commissionRate + inputs.cost.slippageRate := by
      linarith [fair.commission, fair.slippage]
    rw [effectivePrice_eq]
    exact mul_nonneg (prices i inside) rates
  exact imp_congr_right fun _ => maximalBuy_iff valued funded.1 priced _ _

theorem somePlatform_valued : Int64Valued somePlatform := by
  intro x
  have lowest : -int64Max - 1 ≤ int64Max := by decide
  exact ⟨le_rfl, lowest⟩

/-- Four bars, on the first of which 204 shares are bought. -/
theorem solvent_maximal_one_lot :
    ∃ result, oneLot.run somePlatform ⟨true, true, true, true⟩ (clearedResult oneLot.config) =
        some (.ok, some result) ∧
      (Slots.read result.trades 0).map (fun trade => (trade.side, trade.quantity)) =
        some (.buy, 204) ∧
      ∀ i < oneLot.n, ∃ before after, oneLot.reached somePlatform i = some before ∧
        oneLot.reached somePlatform (i + 1) = some after ∧
        SolventBar oneLot somePlatform result i before after := by
  obtain ⟨metrics, _, returned⟩ := alphaBacktestRun_metrics oneLot somePlatform
    ⟨true, true, true, true⟩ (clearedResult oneLot.config) (by decide) (.inr ⟨rfl, rfl⟩)
  have first : (Slots.read (Slots.holding oneLot.n (oneLot.ledger somePlatform oneLot.n).trades)
      0).map (fun trade => (trade.side, trade.quantity)) = some (.buy, 204) := by decide +kernel
  refine ⟨_, returned, first, (solvent_maximal_iff oneLot somePlatform returned
    somePlatform_valued ?_ (by decide) ?_).mpr ?_⟩
  · exact ⟨by decide +kernel, by decide +kernel, by decide +kernel, by decide +kernel⟩
  · intro i _
    exact (by positivity : (0 : ℚ) ≤ 48800 + 100 * i)
  · intro i inside
    have fits : ∀ i < 4, (oneLot.ledger somePlatform i).state.cash <
        2 ^ 63 * effectivePrice oneLot.cost (oneLot.prices i) := by decide +kernel
    exact ⟨_, reached_eq_ledger oneLot somePlatform i (le_of_lt inside), fun _ _ => fits i inside⟩

/-- Two bars of a share at a quarter, with more capital than 64 bits of such shares cost. -/
def quarters : Inputs Unit ℚ where
  config := { oneLot.config with initialCapital := 2 ^ 62 }
  prices := fun _ => 1 / 4
  dates := fun i => i
  n := 2
  signalFn := fun ctx _ _ _ _ => (.buy, ctx)
  signalCtx := ()
  cost := ⟨0, 0, 0⟩

/-- The first bar asks for 2^64 shares: whatever the conversion gives, the trades of the run do not
hold the largest purchase that the cash can pay for. -/
theorem quarters_not_maximal :
    quarters.cost.Fair ∧ ∀ platform, Int64Valued platform →
      ∃ result after, quarters.run platform ⟨true, true, true, true⟩
          (clearedResult quarters.config) = some (.ok, some result) ∧
        quarters.reached platform 0 = some quarters.start ∧
        quarters.reached platform 1 = some after ∧ quarters.FlatBuy quarters.start 0 ∧
        ¬ SolventBar quarters platform result 0 quarters.start after := by
  refine ⟨⟨le_rfl, le_rfl, le_rfl, by decide +kernel⟩, fun platform valued => ?_⟩
  obtain ⟨metrics, _, returned⟩ := alphaBacktestRun_metrics quarters platform
    ⟨true, true, true, true⟩ (clearedResult quarters.config) (by decide) (.inr ⟨rfl, rfl⟩)
  refine ⟨_, _, returned, rfl, reached_eq_ledger quarters platform 1 (by decide), ⟨rfl, rfl⟩, ?_⟩
  intro bar
  have price : effectivePrice quarters.cost (quarters.prices 0) = 1 / 4 := by decide +kernel
  have cash : (quarters.ledger platform 0).state.cash = 2 ^ 62 := by
    change quarters.start.state.cash = 2 ^ 62
    decide +kernel
  have start : (quarters.ledger platform 0).loop quarters.n = quarters.start := by
    have reached := reached_eq_ledger quarters platform 0 (Nat.zero_le _)
    exact (Option.some.inj reached).symm
  rw [← start] at bar
  have rule := (solventBar_iff quarters platform (by decide) rfl bar.snapshot).mp bar ⟨rfl, rfl⟩
  have fits := (maximalBuy_iff valued (by rw [cash]; norm_num) (by rw [price]; norm_num) _ _).mp
    rule (by rw [price]; norm_num)
  rw [price, cash] at fits
  norm_num at fits

end AlphaPipeline.Backtest

import AlphaPipeline.Numeric.Double

/-!
# Trade costs

The Korean-market cost model: commission and slippage on both sides of a trade, the
transaction tax on the sale only.
-/
namespace AlphaPipeline.Backtest

open CDouble

/-- `alpha_signal_t`. -/
inductive AlphaSignal where
  | buy
  | sell
  | hold
  | close
  deriving DecidableEq, Repr

/-- `alpha_side_t`. -/
inductive AlphaSide where
  | buy
  | sell
  deriving DecidableEq, Repr

/-- `alpha_cost_model_t`; the rates are ratios. -/
structure CostModel (α : Type) where
  commissionRate : α
  taxRate : α
  slippageRate : α

/-- `alpha_trade_cost_t`. -/
structure TradeCost (α : Type) where
  commission : α
  tax : α
  slippageCost : α
  total : α

variable {α : Type} [CDouble α]

/-- `alpha_cost_model_make`. -/
def alphaCostModelMake (commissionRatePct taxRatePct : α) (slippageBps : Int) : CostModel α where
  commissionRate := commissionRatePct / literal 100
  taxRate := taxRatePct / literal 100
  slippageRate := ofInt slippageBps / literal 10000

/-- `alpha_cost_model_default`, from the constants of `constants.h`. -/
def alphaCostModelDefault : CostModel α :=
  alphaCostModelMake (literal (15 / 1000)) (literal (18 / 100)) 3

/-- `alpha_cost_calculate`. -/
def alphaCostCalculate (model : CostModel α) (side : AlphaSide) (price : α) (quantity : Int) :
    TradeCost α :=
  let notional := price * ofInt quantity
  let commission := notional * model.commissionRate
  let tax := if side = .sell then notional * model.taxRate else literal 0
  let slippageCost := notional * model.slippageRate
  ⟨commission, tax, slippageCost, commission + tax + slippageCost⟩

end AlphaPipeline.Backtest

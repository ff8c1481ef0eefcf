import AlphaPipeline.Risk.Gates

/-!
# Position sizing

The max-position gate: a BUY is allowed if the position it leads to stays within a share of
the portfolio. In real mode the buy counts towards the portfolio as well.
-/
namespace AlphaPipeline.Portfolio

section Model

variable {α : Type} [CDouble α]

/-- `alpha_max_position_denominator` -/
def alphaMaxPositionDenominator (isPaper : Bool)
    (totalValue paperSeedCapital intendedBuyValue : α) : α :=
  if isPaper then
    let denom := if CDouble.lt totalValue paperSeedCapital then paperSeedCapital else totalValue
    if CDouble.lt denom (CDouble.literal 1) then CDouble.literal 1 else denom
  else
    let denom := totalValue + intendedBuyValue
    if CDouble.lt (CDouble.literal 1) denom then denom else CDouble.literal 1

/-- What the gate answers, and what it writes to `next_weight_pct_out`. -/
structure PositionCheck (α : Type) where
  allowed : Bool
  nextWeightPct : α

/-- `alpha_max_position_allows_buy` -/
def alphaMaxPositionAllowsBuy (config : Risk.RiskConfig)
    (existingPositionValue intendedBuyValue denominator : α) : PositionCheck α :=
  let nextValue := existingPositionValue + intendedBuyValue
  let nextWeightPct := nextValue / denominator * CDouble.literal 100
  ⟨CDouble.le nextWeightPct (CDouble.ofInt config.maxPositionPct), nextWeightPct⟩

/-- The gate with the denominator of its own buy. -/
def allowsBuy (config : Risk.RiskConfig) (isPaper : Bool) (totalValue paperSeedCapital : α)
    (existingPositionValue intendedBuyValue : α) : Bool :=
  (alphaMaxPositionAllowsBuy config existingPositionValue intendedBuyValue
    (alphaMaxPositionDenominator isPaper totalValue paperSeedCapital intendedBuyValue)).allowed

end Model

theorem denominator_paper (totalValue paperSeedCapital intendedBuyValue : ℚ) :
    alphaMaxPositionDenominator true totalValue paperSeedCapital intendedBuyValue =
      max (max totalValue paperSeedCapital) 1 := by
  simp only [alphaMaxPositionDenominator, CDouble.lt, CDouble.literal, decide_eq_true_eq, if_true,
    max_def_lt]

theorem denominator_real (totalValue paperSeedCapital intendedBuyValue : ℚ) :
    alphaMaxPositionDenominator false totalValue paperSeedCapital intendedBuyValue =
      max 1 (totalValue + intendedBuyValue) := by
  simp only [alphaMaxPositionDenominator, CDouble.lt, CDouble.literal, decide_eq_true_eq,
    Bool.false_eq_true, if_false, max_def_lt]

theorem one_le_denominator (isPaper : Bool) (totalValue paperSeedCapital intendedBuyValue : ℚ) :
    1 ≤ alphaMaxPositionDenominator isPaper totalValue paperSeedCapital intendedBuyValue := by
  cases isPaper with
  | false => exact denominator_real _ paperSeedCapital _ ▸ le_max_left _ _
  | true => exact denominator_paper _ _ intendedBuyValue ▸ le_max_right _ _

/-- In real mode a larger buy raises the denominator by no more than the buy is larger. -/
private theorem denominator_growth (totalValue : ℚ) {smaller larger : ℚ} (le : smaller ≤ larger) :
    max 1 (totalValue + larger) ≤ max 1 (totalValue + smaller) + (larger - smaller) := by
  apply max_le
  · have least := le_max_left 1 (totalValue + smaller)
    linarith
  · have least := le_max_right 1 (totalValue + smaller)
    linarith

/-- A smaller buy leads to a smaller weight. In real mode the denominator falls with the buy, but
it covers the position before and after it. -/
theorem weight_mono (isPaper : Bool) {totalValue paperSeedCapital existing smaller larger : ℚ}
    (held : 0 ≤ existing) (within : existing ≤ totalValue) (buys : 0 ≤ smaller)
    (le : smaller ≤ larger) :
    (existing + smaller) /
        alphaMaxPositionDenominator isPaper totalValue paperSeedCapital smaller ≤
      (existing + larger) /
        alphaMaxPositionDenominator isPaper totalValue paperSeedCapital larger := by
  cases isPaper with
  | true =>
    have positive := one_le_denominator true totalValue paperSeedCapital larger
    rw [denominator_paper] at positive
    rw [denominator_paper, denominator_paper]
    exact div_le_div_of_nonneg_right (by linarith) (by linarith)
  | false =>
    rw [denominator_real, denominator_real]
    have growth := denominator_growth totalValue le
    have covers : existing + smaller ≤ max 1 (totalValue + smaller) :=
      (add_le_add_left within smaller).trans (le_max_right _ _)
    have least : 1 ≤ max 1 (totalValue + smaller) := le_max_left _ _
    have most : 1 ≤ max 1 (totalValue + larger) := le_max_left _ _
    generalize max 1 (totalValue + smaller) = before at *
    generalize max 1 (totalValue + larger) = after at *
    rw [div_le_div_iff₀ (by linarith) (by linarith)]
    calc (existing + smaller) * after
        ≤ (existing + smaller) * (before + (larger - smaller)) :=
          mul_le_mul_of_nonneg_left growth (by linarith)
      _ = (existing + smaller) * before + (existing + smaller) * (larger - smaller) := by ring
      _ ≤ (existing + smaller) * before + before * (larger - smaller) := by
          have share := mul_le_mul_of_nonneg_right covers (sub_nonneg.mpr le)
          linarith
      _ = (existing + larger) * before := by ring

theorem allowsBuy_iff (config : Risk.RiskConfig) (isPaper : Bool)
    (totalValue paperSeedCapital existing buy : ℚ) :
    allowsBuy config isPaper totalValue paperSeedCapital existing buy = true ↔
      (existing + buy) / alphaMaxPositionDenominator isPaper totalValue paperSeedCapital buy * 100 ≤
        config.maxPositionPct := by
  simp only [allowsBuy, alphaMaxPositionAllowsBuy, CDouble.le, CDouble.literal, CDouble.ofInt,
    decide_eq_true_eq]

/-- `alpha_max_position_allows_buy` with its own denominator: with a buy it allows every smaller
one, and the same buy for every smaller existing value; the denominator is at least 1. -/
theorem alphaMaxPositionAllowsBuy_downward (config : Risk.RiskConfig) (isPaper : Bool)
    (totalValue paperSeedCapital : ℚ) :
    (∀ buy, 1 ≤ alphaMaxPositionDenominator isPaper totalValue paperSeedCapital buy) ∧
      ∀ existing buy, 0 ≤ existing → existing ≤ totalValue → 0 ≤ buy →
        allowsBuy config isPaper totalValue paperSeedCapital existing buy = true →
        (∀ smaller, 0 ≤ smaller → smaller ≤ buy →
          allowsBuy config isPaper totalValue paperSeedCapital existing smaller = true) ∧
        ∀ less ≤ existing,
          allowsBuy config isPaper totalValue paperSeedCapital less buy = true := by
  refine ⟨one_le_denominator isPaper totalValue paperSeedCapital, ?_⟩
  intro existing buy held within _ allowed
  rw [allowsBuy_iff] at allowed
  constructor
  · intro smaller buys le
    rw [allowsBuy_iff]
    refine le_trans ?_ allowed
    exact mul_le_mul_of_nonneg_right (weight_mono isPaper held within buys le) (by norm_num)
  · intro less le
    have positive := one_le_denominator isPaper totalValue paperSeedCapital buy
    rw [allowsBuy_iff]
    refine le_trans ?_ allowed
    apply mul_le_mul_of_nonneg_right _ (by norm_num)
    exact div_le_div_of_nonneg_right (by linarith) (by linarith)

/-- A fifth of the portfolio and the buy together is still allowed, so any smaller buy is. -/
theorem alphaMaxPositionAllowsBuy_downward_default :
    allowsBuy Risk.alphaRiskConfigDefault false 1000 (0 : ℚ) 100 125 = true ∧
      allowsBuy Risk.alphaRiskConfigDefault false 1000 (0 : ℚ) 100 50 = true := by
  have allowed : allowsBuy Risk.alphaRiskConfigDefault false 1000 (0 : ℚ) 100 125 = true := by
    rw [allowsBuy_iff, denominator_real]
    norm_num [Risk.alphaRiskConfigDefault]
  exact ⟨allowed, ((alphaMaxPositionAllowsBuy_downward _ _ _ _).2 100 125 (by norm_num)
    (by norm_num) (by norm_num) allowed).1 50 (by norm_num) (by norm_num)⟩

end AlphaPipeline.Portfolio

import AlphaPipeline.Portfolio.Blending

/-!
# Laws of the blend

Two runs of `alpha_blend_signals` compared: what changes of the inputs leave the result as it
is, turn it around or move it one way only; and `alpha_blend_ab` as a blend of two legs.
-/
namespace AlphaPipeline.Portfolio

open Backtest (AlphaSignal)

/-! ### Symmetries -/

theorem abs_weightedScore_le_one (inputs : List (BlendInput ℚ)) :
    |(blendSums inputs).weightedScore| ≤ 1 := by
  by_cases nonempty : inputs = []
  · subst nonempty
    simp [blendSums, CDouble.literal]
  · exact (abs_weightedScore_le inputs).trans (weightedConfidence_le_one nonempty)

theorem blendSums_perm {inputs others : List (BlendInput ℚ)} (perm : inputs.Perm others) :
    blendSums inputs = blendSums others := by
  rw [blendSums_eq, blendSums_eq, WeightedMean.mean_perm perm, WeightedMean.mean_perm perm,
    perm.any_eq, perm.any_eq]

/-- The input with its weight multiplied. -/
def BlendInput.scaled (c : ℚ) (input : BlendInput ℚ) : BlendInput ℚ :=
  { input with weight := c * input.weight }

theorem blendSums_scaled {c : ℚ} (positive : 0 < c) (inputs : List (BlendInput ℚ)) :
    blendSums (inputs.map (BlendInput.scaled c)) = blendSums inputs := by
  rw [blendSums_eq, blendSums_eq, WeightedMean.mean_map, WeightedMean.mean_map, List.any_map,
    List.any_map]
  simp only [BlendInput.scaled, BlendInput.score, BlendInput.clampedConfidence, Function.comp_def,
    WeightedMean.mean_scale positive]
  rfl

/-- BUY and SELL exchanged. -/
def exchanged : AlphaSignal → AlphaSignal
  | .buy => .sell
  | .sell => .buy
  | .hold => .hold
  | .close => .close

def BlendInput.exchanged (input : BlendInput ℚ) : BlendInput ℚ :=
  { input with signal := Portfolio.exchanged input.signal }

def BlendResult.exchanged (result : BlendResult ℚ) : BlendResult ℚ :=
  { result with
    signal := Portfolio.exchanged result.signal
    weightedScore := -result.weightedScore }

theorem score_exchanged (input : BlendInput ℚ) : input.exchanged.score = -input.score := by
  have scores : (signalScore (exchanged input.signal) : ℚ) = -signalScore input.signal := by
    cases input.signal <;> simp [exchanged, signalScore, CDouble.literal]
  rw [BlendInput.score, BlendInput.exchanged, scores, neg_mul, BlendInput.score]

theorem blendSums_exchanged (inputs : List (BlendInput ℚ)) :
    blendSums (inputs.map BlendInput.exchanged) =
      { weightedScore := -(blendSums inputs).weightedScore
        weightedConfidence := (blendSums inputs).weightedConfidence
        hasBuy := (blendSums inputs).hasSell
        hasSell := (blendSums inputs).hasBuy } := by
  have buys (input : BlendInput ℚ) : input.exchanged.signal = .buy ↔ input.signal = .sell := by
    rw [BlendInput.exchanged]
    cases input.signal <;> simp [exchanged]
  have sells (input : BlendInput ℚ) : input.exchanged.signal = .sell ↔ input.signal = .buy := by
    rw [BlendInput.exchanged]
    cases input.signal <;> simp [exchanged]
  rw [blendSums_eq, blendSums_eq, WeightedMean.mean_map, WeightedMean.mean_map, List.any_map,
    List.any_map]
  simp only [score_exchanged, WeightedMean.mean_neg, Function.comp_def, buys, sells]
  rfl

theorem blendDecision_neg (score : ℚ) :
    blendDecision (-score) = exchanged (blendDecision score) := by
  rw [blendDecision_eq, blendDecision_eq]
  by_cases buys : 15 / 100 < score
  · rw [if_pos buys, if_neg (show ¬ 15 / 100 < -score by linarith),
      if_pos (show -score < -(15 / 100) by linarith)]
    rfl
  · rw [if_neg buys, if_neg (show ¬ -score < -(15 / 100) by linarith)]
    by_cases sells : score < -(15 / 100)
    · rw [if_pos sells, if_pos (show 15 / 100 < -score by linarith)]
      rfl
    · rw [if_neg sells, if_neg (show ¬ 15 / 100 < -score by linarith)]
      rfl

/-- Symmetries of `alpha_blend_signals`: the order of the inputs and the scale of the weights do
not matter, BUY and SELL are treated alike, and an input without weight does not count if others
have some. -/
theorem alphaBlendSignals_symmetric (inputs : List (BlendInput ℚ)) :
    (∀ others, inputs.Perm others → alphaBlendSignals others = alphaBlendSignals inputs) ∧
      (∀ c : ℚ, 0 < c →
        alphaBlendSignals (inputs.map (BlendInput.scaled c)) = alphaBlendSignals inputs) ∧
      alphaBlendSignals (inputs.map BlendInput.exchanged) =
        (alphaBlendSignals inputs).exchanged ∧
      ∀ before after input, inputs = before ++ after → input.weight ≤ 0 → 0 < totalWeight inputs →
        (alphaBlendSignals (before ++ input :: after)).signal = (alphaBlendSignals inputs).signal ∧
        (alphaBlendSignals (before ++ input :: after)).confidence =
          (alphaBlendSignals inputs).confidence ∧
        (alphaBlendSignals (before ++ input :: after)).weightedScore =
          (alphaBlendSignals inputs).weightedScore := by
  refine ⟨?_, ?_, ?_, ?_⟩
  · intro others perm
    rw [alphaBlendSignals_eq, alphaBlendSignals_eq, blendSums_perm perm]
  · intro c positive
    rw [alphaBlendSignals_eq, alphaBlendSignals_eq, blendSums_scaled positive]
  · have negated : alphaRoundDp (-(blendSums inputs).weightedScore) 6 =
        -alphaRoundDp (blendSums inputs).weightedScore 6 :=
      alphaRoundDp_neg (show 6 ≤ 60 by decide) (abs_weightedScore_le_one inputs)
    rw [alphaBlendSignals_eq, alphaBlendSignals_eq, blendSums_exchanged, blendDecision_neg,
      negated, Bool.and_comm]
    rfl
  · rintro before after input rfl none some_
    rw [totalWeight_eq] at some_
    rw [alphaBlendSignals_eq, alphaBlendSignals_eq, blendSums_eq, blendSums_eq,
      WeightedMean.mean_skip none some_, WeightedMean.mean_skip none some_]
    exact ⟨rfl, rfl, rfl⟩

/-! ### Monotonicity -/

/-- SELL below HOLD and CLOSE, which are equal, below BUY. -/
def signalRank : AlphaSignal → Nat
  | .sell => 0
  | .hold | .close => 1
  | .buy => 2

/-- The second input is the first with a higher signal, or as a bolder BUY or a milder SELL. -/
inductive Raised : BlendInput ℚ → BlendInput ℚ → Prop
  | signal (input : BlendInput ℚ) (higher : AlphaSignal)
      (le : signalRank input.signal ≤ signalRank higher) :
    Raised input { input with signal := higher }
  | bolderBuy (input : BlendInput ℚ) (confidence : ℚ) (buys : input.signal = .buy)
      (le : input.confidence ≤ confidence) :
    Raised input { input with confidence := confidence }
  | milderSell (input : BlendInput ℚ) (confidence : ℚ) (sells : input.signal = .sell)
      (le : confidence ≤ input.confidence) :
    Raised input { input with confidence := confidence }

theorem signalScore_eq (signal : AlphaSignal) :
    (signalScore signal : ℚ) = signalRank signal - 1 := by
  cases signal <;> norm_num [signalScore, signalRank, CDouble.literal]

theorem Raised.weight_eq {x y : BlendInput ℚ} (raised : Raised x y) : x.weight = y.weight := by
  cases raised <;> rfl

theorem Raised.score_le {x y : BlendInput ℚ} (raised : Raised x y) : x.score ≤ y.score := by
  cases raised with
  | signal higher le =>
    have ranks : (signalRank x.signal : ℚ) ≤ signalRank higher := by exact_mod_cast le
    rw [BlendInput.score, BlendInput.score, signalScore_eq, signalScore_eq]
    exact mul_le_mul_of_nonneg_right (by linarith) (clamp01_nonneg x.confidence)
  | bolderBuy confidence buys le =>
    rw [BlendInput.score, BlendInput.score, buys, signalScore_eq]
    exact mul_le_mul_of_nonneg_left (clamp01_mono le) (by norm_num [signalRank])
  | milderSell confidence sells le =>
    rw [BlendInput.score, BlendInput.score, sells, signalScore_eq]
    exact mul_le_mul_of_nonpos_left (clamp01_mono le) (by norm_num [signalRank])

theorem blendDecision_mono {score higher : ℚ} (le : score ≤ higher) :
    signalRank (blendDecision score) ≤ signalRank (blendDecision higher) := by
  rw [blendDecision_eq, blendDecision_eq]
  by_cases buys : 15 / 100 < higher
  · rw [if_pos buys]
    generalize (if 15 / 100 < score then AlphaSignal.buy
      else if score < -(15 / 100) then .sell else .hold) = decision
    cases decision <;> decide
  · rw [if_neg (show ¬ 15 / 100 < score by linarith), if_neg buys]
    by_cases sells : score < -(15 / 100)
    · rw [if_pos sells]
      exact Nat.zero_le _
    · rw [if_neg sells, if_neg (show ¬ higher < -(15 / 100) by linarith)]

/-- Raising one input of `alpha_blend_signals` lowers neither the score, before or after it is
rounded, nor the decision. -/
theorem alphaBlendSignals_mono {x y : BlendInput ℚ} (raised : Raised x y)
    (before after : List (BlendInput ℚ)) :
    (blendSums (before ++ x :: after)).weightedScore ≤
        (blendSums (before ++ y :: after)).weightedScore ∧
      (alphaBlendSignals (before ++ x :: after)).weightedScore ≤
        (alphaBlendSignals (before ++ y :: after)).weightedScore ∧
      signalRank (alphaBlendSignals (before ++ x :: after)).signal ≤
        signalRank (alphaBlendSignals (before ++ y :: after)).signal := by
  have scores : (blendSums (before ++ x :: after)).weightedScore ≤
      (blendSums (before ++ y :: after)).weightedScore := by
    rw [blendSums_eq, blendSums_eq]
    exact WeightedMean.mean_replace_le raised.weight_eq raised.score_le
  refine ⟨scores, ?_, ?_⟩
  · rw [alphaBlendSignals_eq, alphaBlendSignals_eq]
    exact alphaRoundDp_mono (show 6 ≤ 60 by decide) (abs_weightedScore_le_one _)
      (abs_weightedScore_le_one _) scores
  · rw [alphaBlendSignals_eq, alphaBlendSignals_eq]
    exact blendDecision_mono scores

/-- A SELL that becomes a HOLD next to a BUY. -/
theorem alphaBlendSignals_mono_hold :
    signalRank (alphaBlendSignals [⟨.buy, 1 / 2, 1⟩, (⟨.sell, 1, 1⟩ : BlendInput ℚ)]).signal ≤
      signalRank (alphaBlendSignals [⟨.buy, 1 / 2, 1⟩, (⟨.hold, 1, 1⟩ : BlendInput ℚ)]).signal :=
  (alphaBlendSignals_mono (Raised.signal ⟨.sell, 1, 1⟩ .hold (by decide))
    [⟨.buy, 1 / 2, 1⟩] []).2.2

/-! ### Two legs -/

theorem clamp01_one_sub (x : ℚ) : clamp01 (1 - x) = 1 - clamp01 x := by
  rw [clamp01_eq, clamp01_eq]
  rcases le_total x 0 with low | high
  · rw [min_eq_right (by linarith), max_eq_right (by norm_num), min_eq_left (by linarith),
      max_eq_left low, sub_zero]
  · rcases le_total x 1 with below | above
    · rw [min_eq_left (by linarith), max_eq_right (by linarith), min_eq_left below,
        max_eq_right high]
    · rw [min_eq_left (by linarith), max_eq_left (by linarith), min_eq_right above,
        max_eq_right zero_le_one, sub_self]

theorem blendSums_singleton (signal : AlphaSignal) (confidence weight : ℚ) :
    blendSums [⟨signal, confidence, weight⟩] = blendSums [⟨signal, confidence, 1⟩] := by
  rw [blendSums_eq, blendSums_eq, WeightedMean.mean_singleton, WeightedMean.mean_singleton,
    WeightedMean.mean_singleton, WeightedMean.mean_singleton]
  rfl

/-- Two weights that make up one are the shares. -/
theorem mean_two {a b : BlendInput ℚ} (value : BlendInput ℚ → ℚ) (first : 0 ≤ a.weight)
    (second : 0 ≤ b.weight) (whole : a.weight + b.weight = 1) :
    WeightedMean.mean BlendInput.weight value [a, b] =
      a.weight * value a + b.weight * value b := by
  have total : WeightedMean.total BlendInput.weight [a, b] = 1 := by
    simp [WeightedMean.total, max_eq_left first, max_eq_left second, whole]
  simp [WeightedMean.mean, WeightedMean.share, total, max_eq_left first, max_eq_left second]

theorem blendSums_two_legs (aSignal bSignal : AlphaSignal) (aConfidence bConfidence ratio : ℚ) :
    blendSums (blendAbInputs true aSignal aConfidence true bSignal bConfidence ratio) =
      { weightedScore := (1 - clamp01 ratio) * (signalScore aSignal * clamp01 aConfidence) +
          clamp01 ratio * (signalScore bSignal * clamp01 bConfidence)
        weightedConfidence :=
          (1 - clamp01 ratio) * clamp01 aConfidence + clamp01 ratio * clamp01 bConfidence
        hasBuy := decide (aSignal = .buy) || decide (bSignal = .buy)
        hasSell := decide (aSignal = .sell) || decide (bSignal = .sell) } := by
  have low := clamp01_nonneg ratio
  have high := clamp01_le_one ratio
  have both : blendAbInputs true aSignal aConfidence true bSignal bConfidence ratio =
      [⟨aSignal, aConfidence, 1 - clamp01 ratio⟩, ⟨bSignal, bConfidence, clamp01 ratio⟩] := rfl
  rw [both, blendSums_eq, BlendSums.mk.injEq]
  refine ⟨?_, ?_, ?_, ?_⟩
  · exact mean_two BlendInput.score (by linarith) low (by ring)
  · exact mean_two BlendInput.clampedConfidence (by linarith) low (by ring)
  · simp only [List.any_cons, List.any_nil, Bool.or_false]
  · simp only [List.any_cons, List.any_nil, Bool.or_false]

/-- `alpha_blend_ab`: a leg alone is blended as if it had weight 1; two legs are combined with the
weights `1 - clamp(ratio)` and `clamp(ratio)`, and the result is the decision on the combined
score, with both combinations rounded; and the legs may be exchanged with the ratio. -/
theorem alphaBlendAb_laws (aSignal bSignal : AlphaSignal) (aConfidence bConfidence ratio : ℚ) :
    alphaBlendAb true aSignal aConfidence false bSignal bConfidence ratio =
        alphaBlendSignals [⟨aSignal, aConfidence, 1⟩] ∧
      alphaBlendAb false aSignal aConfidence true bSignal bConfidence ratio =
        alphaBlendSignals [⟨bSignal, bConfidence, 1⟩] ∧
      (let sums := blendSums (blendAbInputs true aSignal aConfidence true bSignal bConfidence ratio)
      sums.weightedScore =
          (1 - clamp01 ratio) * (signalScore aSignal * clamp01 aConfidence) +
            clamp01 ratio * (signalScore bSignal * clamp01 bConfidence) ∧
        sums.weightedConfidence =
          (1 - clamp01 ratio) * clamp01 aConfidence + clamp01 ratio * clamp01 bConfidence ∧
        alphaBlendAb true aSignal aConfidence true bSignal bConfidence ratio =
          { signal := blendDecision sums.weightedScore
            confidence := alphaRoundDp sums.weightedConfidence 4
            weightedScore := alphaRoundDp sums.weightedScore 6
            conflict := (aSignal = .buy ∧ bSignal = .sell) ∨ (aSignal = .sell ∧ bSignal = .buy) }) ∧
      ∀ hasA hasB, alphaBlendAb hasA aSignal aConfidence hasB bSignal bConfidence ratio =
        alphaBlendAb hasB bSignal bConfidence hasA aSignal aConfidence (1 - ratio) := by
  refine ⟨?_, ?_, ?_, ?_⟩
  -- the only weight is the whole, whatever it is
  · rw [alphaBlendAb, alphaBlendSignals_eq, alphaBlendSignals_eq, ← blendSums_singleton]
    rfl
  · rw [alphaBlendAb, alphaBlendSignals_eq, alphaBlendSignals_eq, ← blendSums_singleton]
    rfl
  · rw [alphaBlendAb, alphaBlendSignals_eq, blendSums_two_legs]
    refine ⟨rfl, rfl, ?_⟩
    congr 1
    cases aSignal <;> cases bSignal <;> rfl
  -- with the ratio turned around the same inputs come in the other order
  · intro hasA hasB
    have perm : (blendAbInputs hasA aSignal aConfidence hasB bSignal bConfidence ratio).Perm
        (blendAbInputs hasB bSignal bConfidence hasA aSignal aConfidence (1 - ratio)) := by
      simp only [blendAbInputs, clamp01_one_sub, CDouble.literal, sub_sub_cancel]
      exact List.perm_append_comm
    rw [alphaBlendAb, alphaBlendAb, alphaBlendSignals_eq, alphaBlendSignals_eq,
      blendSums_perm perm]

end AlphaPipeline.Portfolio

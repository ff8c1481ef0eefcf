import AlphaPipeline.Backtest.CostModel
import AlphaPipeline.Library.WeightedMean

/-!
# Signal blending

`alpha_blend_signals` totals the weights in a first pass and, in a second, adds up scores and
confidences with normalised weights. With doubles read as exact numbers both sums are weighted
means, whose bounds and symmetries become those of the blend.
-/
namespace AlphaPipeline.Portfolio

open Backtest (AlphaSignal)

/-- `alpha_blend_input_t`. -/
structure BlendInput (α : Type) where
  signal : AlphaSignal
  confidence : α
  weight : α

/-- `alpha_blend_result_t`. -/
@[ext]
structure BlendResult (α : Type) where
  signal : AlphaSignal
  confidence : α
  weightedScore : α
  conflict : Bool

section Model

variable {α : Type} [CDouble α]

def clamp01 (value : α) : α :=
  if CDouble.lt value (CDouble.literal 0) then CDouble.literal 0
  else if CDouble.lt (CDouble.literal 1) value then CDouble.literal 1
  else value

def signalScore : AlphaSignal → α
  | .buy => CDouble.literal 1
  | .sell => CDouble.literal (-1)
  | .hold | .close => CDouble.literal 0

/-- The weight, none if it is negative. -/
def BlendInput.rawWeight (input : BlendInput α) : α :=
  if CDouble.lt (CDouble.literal 0) input.weight then input.weight else CDouble.literal 0

/-- The first pass. -/
def totalWeight (inputs : List (BlendInput α)) : α :=
  inputs.foldl (fun total input => total + input.rawWeight) (CDouble.literal 0)

def normFactor (inputs : List (BlendInput α)) : α :=
  if CDouble.lt (CDouble.literal 0) (totalWeight inputs) then totalWeight inputs
  else CDouble.literal 1

def equalWeight (inputs : List (BlendInput α)) : α :=
  if CDouble.le (totalWeight inputs) (CDouble.literal 0) then
    CDouble.literal 1 / CDouble.ofInt inputs.length
  else CDouble.literal 0

/-- The weight that the second pass applies to an input. -/
def effectiveWeight (inputs : List (BlendInput α)) (input : BlendInput α) : α :=
  if CDouble.lt (CDouble.literal 0) (totalWeight inputs) then input.rawWeight / normFactor inputs
  else equalWeight inputs

/-- What the second pass adds up. -/
structure BlendSums (α : Type) where
  weightedScore : α
  weightedConfidence : α
  hasBuy : Bool
  hasSell : Bool

/-- The body of the second pass. -/
def BlendSums.add (inputs : List (BlendInput α)) (sums : BlendSums α) (input : BlendInput α) :
    BlendSums α :=
  let confidence := clamp01 input.confidence
  let weight := effectiveWeight inputs input
  { weightedScore := sums.weightedScore + signalScore input.signal * weight * confidence
    weightedConfidence := sums.weightedConfidence + confidence * weight
    hasBuy := if input.signal = .buy then true else sums.hasBuy
    hasSell := if input.signal = .buy then sums.hasSell
      else if input.signal = .sell then true else sums.hasSell }

def blendSums (inputs : List (BlendInput α)) : BlendSums α :=
  inputs.foldl (BlendSums.add inputs) ⟨CDouble.literal 0, CDouble.literal 0, false, false⟩

/-- `ALPHA_BLEND_THRESHOLD` -/
def alphaBlendThreshold : ℚ := 15 / 100

/-- The decision that a score leads to. -/
def blendDecision (weightedScore : α) : AlphaSignal :=
  if CDouble.lt (CDouble.literal alphaBlendThreshold) weightedScore then .buy
  else if CDouble.lt weightedScore (CDouble.literal (-alphaBlendThreshold)) then .sell
  else .hold

/-- `alpha_blend_signals`; an absent array is the empty list. -/
def alphaBlendSignals (inputs : List (BlendInput α)) : BlendResult α :=
  if inputs.isEmpty then ⟨.hold, CDouble.literal 0, CDouble.literal 0, false⟩
  else
    let sums := blendSums inputs
    { signal := blendDecision sums.weightedScore
      confidence := CDouble.roundDp (clamp01 sums.weightedConfidence) 4
      weightedScore := CDouble.roundDp sums.weightedScore 6
      conflict := sums.hasBuy && sums.hasSell }

/-- The inputs that `alpha_blend_ab` builds of the legs that are present. -/
def blendAbInputs (hasA : Bool) (aSignal : AlphaSignal) (aConfidence : α) (hasB : Bool)
    (bSignal : AlphaSignal) (bConfidence blendRatio : α) : List (BlendInput α) :=
  let ratio := clamp01 blendRatio
  (if hasA then [⟨aSignal, aConfidence, CDouble.literal 1 - ratio⟩] else []) ++
    (if hasB then [⟨bSignal, bConfidence, ratio⟩] else [])

/-- `alpha_blend_ab` -/
def alphaBlendAb (hasA : Bool) (aSignal : AlphaSignal) (aConfidence : α) (hasB : Bool)
    (bSignal : AlphaSignal) (bConfidence blendRatio : α) : BlendResult α :=
  alphaBlendSignals
    (blendAbInputs hasA aSignal aConfidence hasB bSignal bConfidence blendRatio)

end Model

/-! ### The sums as weighted means -/

theorem clamp01_eq (x : ℚ) : clamp01 x = max 0 (min x 1) := by
  simp only [clamp01, CDouble.lt, CDouble.literal, decide_eq_true_eq]
  split
  next negative => rw [min_eq_left (by linarith), max_eq_left negative.le]
  next positive =>
    split
    next above => rw [min_eq_right above.le, max_eq_right zero_le_one]
    next below => rw [min_eq_left (not_lt.mp below), max_eq_right (not_lt.mp positive)]

theorem clamp01_nonneg (x : ℚ) : 0 ≤ clamp01 x := clamp01_eq x ▸ le_max_left _ _

theorem clamp01_le_one (x : ℚ) : clamp01 x ≤ 1 :=
  clamp01_eq x ▸ max_le zero_le_one (min_le_right _ _)

theorem clamp01_of_mem {x : ℚ} (low : 0 ≤ x) (high : x ≤ 1) : clamp01 x = x := by
  rw [clamp01_eq, min_eq_left high, max_eq_right low]

theorem clamp01_mono {x y : ℚ} (le : x ≤ y) : clamp01 x ≤ clamp01 y := by
  rw [clamp01_eq, clamp01_eq]
  exact max_le_max_left 0 (min_le_min_right 1 le)

/-- What an input adds to the score, before it is weighted. -/
def BlendInput.score (input : BlendInput ℚ) : ℚ :=
  signalScore input.signal * clamp01 input.confidence

def BlendInput.clampedConfidence (input : BlendInput ℚ) : ℚ := clamp01 input.confidence

variable {inputs : List (BlendInput ℚ)}

theorem rawWeight_eq (input : BlendInput ℚ) : input.rawWeight = max input.weight 0 := by
  rw [max_comm, max_def_lt]
  simp only [BlendInput.rawWeight, CDouble.lt, CDouble.literal, decide_eq_true_eq]

theorem totalWeight_eq (inputs : List (BlendInput ℚ)) :
    totalWeight inputs = WeightedMean.total BlendInput.weight inputs := by
  rw [WeightedMean.total, List.sum_eq_foldl, List.foldl_map]
  simp only [totalWeight, rawWeight_eq, CDouble.literal]

theorem effectiveWeight_eq (inputs : List (BlendInput ℚ)) :
    effectiveWeight inputs = WeightedMean.share BlendInput.weight inputs := by
  funext input
  simp only [effectiveWeight, normFactor, equalWeight, rawWeight_eq, totalWeight_eq, CDouble.lt,
    CDouble.le, CDouble.literal, CDouble.ofInt, decide_eq_true_eq, WeightedMean.share]
  split
  · rfl
  next none => rw [if_pos (not_lt.mp none), Int.cast_natCast]

theorem foldl_add (inputs rest : List (BlendInput ℚ)) (sums : BlendSums ℚ) :
    rest.foldl (BlendSums.add inputs) sums =
      { weightedScore := sums.weightedScore +
          (rest.map fun input => effectiveWeight inputs input * input.score).sum
        weightedConfidence := sums.weightedConfidence +
          (rest.map fun input => effectiveWeight inputs input * input.clampedConfidence).sum
        hasBuy := sums.hasBuy || rest.any (·.signal = .buy)
        hasSell := sums.hasSell || rest.any (·.signal = .sell) } := by
  induction rest generalizing sums with
  | nil => simp
  | cons input rest ih =>
    rw [List.foldl_cons, ih, List.map_cons, List.map_cons, List.sum_cons, List.sum_cons,
      List.any_cons, List.any_cons, BlendSums.mk.injEq]
    simp only [BlendSums.add, BlendInput.score, BlendInput.clampedConfidence]
    refine ⟨by ring, by ring, ?_, ?_⟩
    · cases input.signal <;> simp
    · cases input.signal <;> simp

/-- Both sums are means of what the inputs add, by weight. -/
theorem blendSums_eq (inputs : List (BlendInput ℚ)) :
    blendSums inputs =
      { weightedScore := WeightedMean.mean BlendInput.weight BlendInput.score inputs
        weightedConfidence :=
          WeightedMean.mean BlendInput.weight BlendInput.clampedConfidence inputs
        hasBuy := inputs.any (·.signal = .buy)
        hasSell := inputs.any (·.signal = .sell) } := by
  rw [blendSums, foldl_add, effectiveWeight_eq]
  simp only [CDouble.literal, zero_add, Bool.false_or, WeightedMean.mean]

/-! ### Bounds -/

theorem abs_score_le (input : BlendInput ℚ) : |input.score| ≤ input.clampedConfidence := by
  have nonneg := clamp01_nonneg input.confidence
  rw [BlendInput.score, BlendInput.clampedConfidence]
  cases input.signal with
  | buy => simp only [signalScore, CDouble.literal, one_mul, abs_of_nonneg nonneg, le_refl]
  | sell => simp only [signalScore, CDouble.literal, neg_one_mul, abs_neg, abs_of_nonneg nonneg,
      le_refl]
  | hold => simpa only [signalScore, CDouble.literal, zero_mul, abs_zero] using nonneg
  | close => simpa only [signalScore, CDouble.literal, zero_mul, abs_zero] using nonneg

theorem abs_weightedScore_le (inputs : List (BlendInput ℚ)) :
    |(blendSums inputs).weightedScore| ≤ (blendSums inputs).weightedConfidence := by
  rw [blendSums_eq]
  exact WeightedMean.abs_mean_le fun input _ => abs_score_le input

theorem le_weightedConfidence (nonempty : inputs ≠ []) {low : ℚ}
    (least : ∀ input ∈ inputs, low ≤ clamp01 input.confidence) :
    low ≤ (blendSums inputs).weightedConfidence := by
  rw [blendSums_eq]
  exact (WeightedMean.mean_const nonempty low).ge.trans (WeightedMean.mean_mono least)

theorem weightedConfidence_le (nonempty : inputs ≠ []) {high : ℚ}
    (most : ∀ input ∈ inputs, clamp01 input.confidence ≤ high) :
    (blendSums inputs).weightedConfidence ≤ high := by
  rw [blendSums_eq]
  exact (WeightedMean.mean_mono most).trans (WeightedMean.mean_const nonempty high).le

theorem weightedConfidence_le_one (nonempty : inputs ≠ []) :
    (blendSums inputs).weightedConfidence ≤ 1 :=
  weightedConfidence_le nonempty fun input _ => clamp01_le_one input.confidence

/-- The last clamp changes nothing. -/
theorem clamp01_weightedConfidence (nonempty : inputs ≠ []) :
    clamp01 (blendSums inputs).weightedConfidence = (blendSums inputs).weightedConfidence :=
  clamp01_of_mem (le_weightedConfidence nonempty fun input _ => clamp01_nonneg input.confidence)
    (weightedConfidence_le_one nonempty)

theorem blendDecision_eq (score : ℚ) :
    blendDecision score =
      if 15 / 100 < score then .buy else if score < -(15 / 100) then .sell else .hold := by
  simp only [blendDecision, CDouble.lt, CDouble.literal, decide_eq_true_eq]
  rfl

/-- The blend reads nothing of its inputs but the sums; without inputs they are zero. -/
theorem alphaBlendSignals_eq (inputs : List (BlendInput ℚ)) :
    alphaBlendSignals inputs =
      { signal := blendDecision (blendSums inputs).weightedScore
        confidence := alphaRoundDp (blendSums inputs).weightedConfidence 4
        weightedScore := alphaRoundDp (blendSums inputs).weightedScore 6
        conflict := (blendSums inputs).hasBuy && (blendSums inputs).hasSell } := by
  by_cases empty : inputs = []
  · subst empty
    have sums : blendSums ([] : List (BlendInput ℚ)) = ⟨0, 0, false, false⟩ := rfl
    have hold : blendDecision (0 : ℚ) = .hold := by rw [blendDecision_eq]; norm_num
    rw [sums, hold]
    ext
    · rfl
    · exact (alphaRoundDp_zero (show 4 ≤ 60 by decide)).symm
    · exact (alphaRoundDp_zero (show 6 ≤ 60 by decide)).symm
    · rfl
  · rw [alphaBlendSignals, if_neg (by simpa using empty)]
    dsimp only
    rw [clamp01_weightedConfidence empty]
    rfl

theorem blendDecision_ne_sell {score : ℚ} (nonneg : 0 ≤ score) : blendDecision score ≠ .sell := by
  rw [blendDecision_eq, if_neg (show ¬ score < -(15 / 100) by linarith)]
  split <;> nofun

theorem blendDecision_ne_buy {score : ℚ} (nonpos : score ≤ 0) : blendDecision score ≠ .buy := by
  rw [blendDecision_eq, if_neg (show ¬ 15 / 100 < score by linarith)]
  split <;> nofun

theorem weightedScore_of_all_buy (same : ∀ input ∈ inputs, input.signal = .buy) :
    (blendSums inputs).weightedScore = (blendSums inputs).weightedConfidence := by
  rw [blendSums_eq]
  apply WeightedMean.mean_congr
  intro input member
  rw [BlendInput.score, same input member]
  exact one_mul _

theorem weightedScore_of_all_sell (same : ∀ input ∈ inputs, input.signal = .sell) :
    (blendSums inputs).weightedScore = -(blendSums inputs).weightedConfidence := by
  rw [blendSums_eq, ← WeightedMean.mean_neg]
  apply WeightedMean.mean_congr
  intro input member
  rw [BlendInput.score, same input member]
  exact neg_one_mul _

/-- The effective weights of `alpha_blend_signals` are a partition of 1, so the confidence is
between those of the inputs, the score within the confidence, and inputs that agree are not
contradicted. The result is the decision on the score and the two sums, rounded but not clamped. -/
theorem alphaBlendSignals_bounded (inputs : List (BlendInput ℚ)) (nonempty : inputs ≠ []) :
    alphaBlendSignals inputs =
        { signal := blendDecision (blendSums inputs).weightedScore
          confidence := alphaRoundDp (blendSums inputs).weightedConfidence 4
          weightedScore := alphaRoundDp (blendSums inputs).weightedScore 6
          conflict := inputs.any (·.signal = .buy) && inputs.any (·.signal = .sell) } ∧
      (∀ input ∈ inputs, 0 ≤ effectiveWeight inputs input) ∧
      (inputs.map (effectiveWeight inputs)).sum = 1 ∧
      (∃ least ∈ inputs, ∃ largest ∈ inputs,
        (∀ input ∈ inputs, clamp01 least.confidence ≤ clamp01 input.confidence ∧
          clamp01 input.confidence ≤ clamp01 largest.confidence) ∧
        clamp01 least.confidence ≤ (blendSums inputs).weightedConfidence ∧
        (blendSums inputs).weightedConfidence ≤ clamp01 largest.confidence) ∧
      clamp01 (blendSums inputs).weightedConfidence = (blendSums inputs).weightedConfidence ∧
      |(blendSums inputs).weightedScore| ≤ (blendSums inputs).weightedConfidence ∧
      (blendSums inputs).weightedConfidence ≤ 1 ∧
      ((∀ input ∈ inputs, input.signal = .buy) →
        (blendSums inputs).weightedScore = (blendSums inputs).weightedConfidence ∧
          (alphaBlendSignals inputs).signal ≠ .sell) ∧
      ((∀ input ∈ inputs, input.signal = .sell) →
        (blendSums inputs).weightedScore = -(blendSums inputs).weightedConfidence ∧
          (alphaBlendSignals inputs).signal ≠ .buy) := by
  have nonneg : 0 ≤ (blendSums inputs).weightedConfidence :=
    le_weightedConfidence nonempty fun input _ => clamp01_nonneg input.confidence
  refine ⟨?_, ?_, ?_, ?_, clamp01_weightedConfidence nonempty, abs_weightedScore_le inputs,
    weightedConfidence_le_one nonempty, ?_, ?_⟩
  · rw [alphaBlendSignals_eq, blendSums_eq]
  · intro input _
    rw [effectiveWeight_eq]
    exact WeightedMean.share_nonneg input
  · rw [effectiveWeight_eq]
    exact WeightedMean.sum_share nonempty
  -- the mean lies between the extremes, which inputs have
  · have counted : (inputs : Multiset (BlendInput ℚ)) ≠ 0 := mt (Multiset.coe_eq_zero _).mp nonempty
    obtain ⟨least, leastMem, lowest⟩ :=
      Multiset.exists_min_image (fun input => clamp01 input.confidence) counted
    obtain ⟨largest, largestMem, highest⟩ :=
      Multiset.exists_max_image (fun input => clamp01 input.confidence) counted
    exact ⟨least, leastMem, largest, largestMem,
      fun input member => ⟨lowest input member, highest input member⟩,
      le_weightedConfidence nonempty lowest, weightedConfidence_le nonempty highest⟩
  · intro same
    have agree := weightedScore_of_all_buy same
    refine ⟨agree, ?_⟩
    rw [alphaBlendSignals_eq, agree]
    exact blendDecision_ne_sell nonneg
  · intro same
    have agree := weightedScore_of_all_sell same
    refine ⟨agree, ?_⟩
    rw [alphaBlendSignals_eq, agree]
    exact blendDecision_ne_buy (neg_nonpos.mpr nonneg)

/-- Two buys without a positive weight, one with a confidence above one: both count half. -/
theorem alphaBlendSignals_bounded_equal :
    effectiveWeight [⟨.buy, 3 / 2, -1⟩, ⟨.buy, 1 / 4, 0⟩] (⟨.buy, 1 / 4, 0⟩ : BlendInput ℚ) =
        1 / 2 ∧
      (alphaBlendSignals [⟨.buy, 3 / 2, -1⟩, (⟨.buy, 1 / 4, 0⟩ : BlendInput ℚ)]).signal ≠
        .sell := by
  have bounded := alphaBlendSignals_bounded
    [⟨.buy, 3 / 2, -1⟩, (⟨.buy, 1 / 4, 0⟩ : BlendInput ℚ)] (List.cons_ne_nil _ _)
  refine ⟨by decide +kernel, (bounded.2.2.2.2.2.2.2.1 ?_).2⟩
  simp

end AlphaPipeline.Portfolio

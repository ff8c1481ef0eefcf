import AlphaPipeline.Library.Ranking
import AlphaPipeline.Numeric.Double

/-!
# Risk gates

The exit rules of a position, the drawdown gate of the portfolio and the daily-loss breaker.
The drawdown gate sells the two weakest positions; it reads the positions once and keeps two
slots, where the reference sorts all of them.
-/
namespace AlphaPipeline.Risk

/-- `alpha_risk_config_t`. -/
structure RiskConfig where
  maxPositionPct : Int
  dailyLossLimitPct : Int
  individualStopLossPct : Int
  takeProfitPct : Int
  portfolioDrawdownLimitPct : Int

/-- `alpha_risk_config_default` -/
def alphaRiskConfigDefault : RiskConfig where
  maxPositionPct := 20
  dailyLossLimitPct := 3
  individualStopLossPct := 7
  takeProfitPct := 5
  portfolioDrawdownLimitPct := 8

/-- `alpha_position_t`, without its ticker. -/
structure Position (α : Type) where
  quantity : Int
  avgFillPrice : α
  currentPrice : α

/-- `alpha_exit_kind_t`. -/
inductive ExitKind where
  | none
  | takeProfit
  | stopLoss
  deriving DecidableEq

section Model

variable {α : Type} [CDouble α]

/-- The position is held and both its prices are positive, as the gates test it. -/
def Position.resolved (position : Position α) : Bool :=
  !(decide (position.quantity ≤ 0) || CDouble.le position.avgFillPrice (CDouble.literal 0) ||
    CDouble.le position.currentPrice (CDouble.literal 0))

def Position.pnlPct (position : Position α) : α :=
  (position.currentPrice - position.avgFillPrice) / position.avgFillPrice * CDouble.literal 100

/-- The negated limit: an `int` is a double exactly, so it may be negated on either side. -/
def negated (limitPct : Int) : α := CDouble.ofInt (-limitPct)

/-- `alpha_check_rule_based_exit`, with what it writes to `pnl_pct_out`. -/
def alphaCheckRuleBasedExit (position : Position α) (config : RiskConfig) : ExitKind × Option α :=
  if !position.resolved then (.none, none)
  else if CDouble.le (CDouble.ofInt config.takeProfitPct) position.pnlPct then
    (.takeProfit, some position.pnlPct)
  else if CDouble.le position.pnlPct (negated config.individualStopLossPct) then
    (.stopLoss, some position.pnlPct)
  else (.none, none)

/-- `alpha_check_rule_based_exits`: the indices and kinds it writes. -/
def alphaCheckRuleBasedExits (positions : List (Position α)) (config : RiskConfig) :
    List (Fin positions.length × ExitKind) :=
  (List.finRange positions.length).foldl (fun fired i =>
    let kind := (alphaCheckRuleBasedExit (positions.get i) config).1
    if kind ≠ .none then fired ++ [(i, kind)] else fired) []

/-- The scan writes the exits in input order, each with the kind of its own check. -/
theorem alphaCheckRuleBasedExits_eq (positions : List (Position α)) (config : RiskConfig) :
    alphaCheckRuleBasedExits positions config =
      ((List.finRange positions.length).map fun i =>
        (i, (alphaCheckRuleBasedExit (positions.get i) config).1)).filter fun exit =>
          exit.2 ≠ .none := by
  have scan (xs : List (Fin positions.length)) (fired : List (Fin positions.length × ExitKind)) :
      xs.foldl (fun fired i =>
          let kind := (alphaCheckRuleBasedExit (positions.get i) config).1
          if kind ≠ .none then fired ++ [(i, kind)] else fired) fired =
        fired ++ (xs.map fun i => (i, (alphaCheckRuleBasedExit (positions.get i) config).1)).filter
          fun exit => exit.2 ≠ .none := by
    induction xs generalizing fired with
    | nil => exact (List.append_nil fired).symm
    | cons i xs ih =>
      rw [List.foldl_cons, ih, List.map_cons, List.filter_cons]
      by_cases fires : (alphaCheckRuleBasedExit (positions.get i) config).1 = .none
      · simp [fires, -List.get_eq_getElem]
      · simp [fires, -List.get_eq_getElem]
  exact scan _ []

/-- `alpha_is_daily_loss_blocked` -/
def alphaIsDailyLossBlocked (dailyRealizedPnlPct : α) (config : RiskConfig) : Bool :=
  CDouble.le dailyRealizedPnlPct (negated config.dailyLossLimitPct)

/-- The two slots; an index is absent where the source has -1. -/
structure Weakest (α : Type) (count : Nat) where
  first : Option (Fin count)
  second : Option (Fin count)
  firstPnl : α
  secondPnl : α

variable (positions : List (Position α))

/-- The loop body. -/
def considerPosition (slots : Weakest α positions.length) (i : Fin positions.length) :
    Weakest α positions.length :=
  if !(positions.get i).resolved then slots
  else
    let pnlPct := (positions.get i).pnlPct
    if slots.first.isNone || CDouble.lt pnlPct slots.firstPnl then
      ⟨some i, slots.first, pnlPct, slots.firstPnl⟩
    else if slots.second.isNone || CDouble.lt pnlPct slots.secondPnl then
      { slots with second := some i, secondPnl := pnlPct }
    else slots

/-- The two slots after the loop. -/
def weakestTwo : Weakest α positions.length :=
  (List.finRange positions.length).foldl (considerPosition positions)
    ⟨none, none, CDouble.literal 0, CDouble.literal 0⟩

/-- What the drawdown gate answers: the drawdown where it is written, and the indices. -/
structure DrawdownCheck (α : Type) (count : Nat) where
  ddPct : Option α
  selected : List (Fin count)
  deriving DecidableEq

def drawdownPct (currentEquity baselineEquity : α) : α :=
  (currentEquity - baselineEquity) / baselineEquity * CDouble.literal 100

/-- `alpha_check_portfolio_drawdown` -/
def alphaCheckPortfolioDrawdown (currentEquity baselineEquity : α) (config : RiskConfig) :
    DrawdownCheck α positions.length :=
  if CDouble.le currentEquity (CDouble.literal 0) || CDouble.le baselineEquity (CDouble.literal 0)
  then ⟨none, []⟩
  else
    let ddPct := drawdownPct currentEquity baselineEquity
    if CDouble.lt (negated config.portfolioDrawdownLimitPct) ddPct then ⟨some ddPct, []⟩
    else
      let slots := weakestTwo positions
      ⟨some ddPct, slots.first.toList ++ slots.second.toList⟩

end Model

variable (positions : List (Position ℚ))

/-- `risk_l2` of the Python reference. -/
def riskL2 (currentEquity baselineEquity : ℚ) (config : RiskConfig) :
    DrawdownCheck ℚ positions.length :=
  if currentEquity ≤ 0 ∨ baselineEquity ≤ 0 then ⟨none, []⟩
  else
    let dd := (currentEquity - baselineEquity) / baselineEquity * 100
    if dd > -(config.portfolioDrawdownLimitPct : ℚ) then ⟨some dd, []⟩
    else
      let candidates := (List.finRange positions.length).filterMap fun i =>
        let position := positions.get i
        if position.quantity ≤ 0 then none
        else if position.avgFillPrice ≤ 0 ∨ position.currentPrice ≤ 0 then none
        else some ((position.currentPrice - position.avgFillPrice) / position.avgFillPrice * 100, i)
      ⟨some dd, ((candidates.insertionSort fun a b => a.1 ≤ b.1).take 2).map Prod.snd⟩

/-- Quantity, average fill and current price are positive. -/
def Eligible (i : Fin positions.length) : Prop :=
  0 < (positions.get i).quantity ∧ 0 < (positions.get i).avgFillPrice ∧
    0 < (positions.get i).currentPrice

instance : DecidablePred (Eligible positions) := fun _ => inferInstanceAs (Decidable (_ ∧ _))

/-- The position did not do better than the other. -/
def Weaker (i j : Fin positions.length) : Prop :=
  (positions.get i).pnlPct ≤ (positions.get j).pnlPct

instance : DecidableRel (Weaker positions) := fun _ _ => inferInstanceAs (Decidable (_ ≤ _))

instance : IsTrans (Fin positions.length) (Weaker positions) := ⟨fun _ _ _ => le_trans⟩

instance : Std.Total (Weaker positions) := ⟨fun _ _ => le_total _ _⟩

/-- The eligible positions in input order. -/
def eligible : List (Fin positions.length) :=
  (List.finRange positions.length).filter fun i => Eligible positions i

/-- The eligible positions by ascending profit, in input order where it is equal. -/
def weakestFirst : List (Fin positions.length) :=
  (eligible positions).insertionSort (Weaker positions)

theorem resolved_iff (i : Fin positions.length) :
    (positions.get i).resolved = true ↔ Eligible positions i := by
  simp only [Position.resolved, Eligible, CDouble.le, CDouble.literal, Bool.not_or,
    Bool.and_eq_true, ← decide_not, decide_eq_true_eq, not_le, and_assoc]

/-- The slots hold the list's members, in order, each with its profit. -/
inductive Keeps : Weakest ℚ positions.length → List (Fin positions.length) → Prop
  | none (x y : ℚ) : Keeps ⟨none, none, x, y⟩ []
  | one (a : Fin positions.length) (y : ℚ) : Keeps ⟨some a, none, (positions.get a).pnlPct, y⟩ [a]
  | two (a b : Fin positions.length) :
    Keeps ⟨some a, some b, (positions.get a).pnlPct, (positions.get b).pnlPct⟩ [a, b]

variable {positions}

theorem Keeps.selected {slots : Weakest ℚ positions.length} {best : List (Fin positions.length)}
    (keeps : Keeps positions slots best) : slots.first.toList ++ slots.second.toList = best := by
  cases keeps <;> rfl

/-- The loop body on the slots is one more element for the two weakest. -/
theorem Keeps.consider {slots : Weakest ℚ positions.length} {best : List (Fin positions.length)}
    (keeps : Keeps positions slots best) {i : Fin positions.length} (fit : Eligible positions i) :
    Keeps positions (considerPosition positions slots i)
      (Ranking.keep (Weaker positions) 2 best i) := by
  have resolved := (resolved_iff positions i).mpr fit
  cases keeps with
  | none x y =>
    simp only [considerPosition, resolved, Ranking.keep, Ranking.insertLast]
    exact Keeps.one i x
  | one a y =>
    by_cases weaker : Weaker positions a i
    · have kept : CDouble.lt (positions.get i).pnlPct (positions.get a).pnlPct = false :=
        decide_eq_false (not_lt.mpr weaker)
      simp only [considerPosition, resolved, kept, Ranking.keep, Ranking.insertLast, if_pos weaker]
      exact Keeps.two a i
    · have displaced : CDouble.lt (positions.get i).pnlPct (positions.get a).pnlPct = true :=
        decide_eq_true (not_le.mp weaker)
      simp only [considerPosition, resolved, displaced, Ranking.keep, Ranking.insertLast,
        if_neg weaker]
      exact Keeps.two i a
  | two a b =>
    by_cases weaker : Weaker positions a i
    · have kept : CDouble.lt (positions.get i).pnlPct (positions.get a).pnlPct = false :=
        decide_eq_false (not_lt.mpr weaker)
      by_cases weaker' : Weaker positions b i
      · have kept' : CDouble.lt (positions.get i).pnlPct (positions.get b).pnlPct = false :=
          decide_eq_false (not_lt.mpr weaker')
        simp only [considerPosition, resolved, kept, kept', Ranking.keep, Ranking.insertLast,
          if_pos weaker, if_pos weaker']
        exact Keeps.two a b
      · have displaced : CDouble.lt (positions.get i).pnlPct (positions.get b).pnlPct = true :=
          decide_eq_true (not_le.mp weaker')
        simp only [considerPosition, resolved, kept, displaced, Ranking.keep, Ranking.insertLast,
          if_pos weaker, if_neg weaker']
        exact Keeps.two a i
    · have displaced : CDouble.lt (positions.get i).pnlPct (positions.get a).pnlPct = true :=
        decide_eq_true (not_le.mp weaker)
      simp only [considerPosition, resolved, displaced, Ranking.keep, Ranking.insertLast,
        if_neg weaker]
      exact Keeps.two i a

theorem considerPosition_skip {slots : Weakest ℚ positions.length} {i : Fin positions.length}
    (unfit : ¬ Eligible positions i) : considerPosition positions slots i = slots := by
  have unresolved : (positions.get i).resolved = false :=
    Bool.eq_false_iff.mpr fun resolved => unfit ((resolved_iff positions i).mp resolved)
  rw [considerPosition, unresolved]
  rfl

variable (positions)

/-- The slots after any part of the list hold the two weakest of it. -/
theorem keeps_foldl (xs : List (Fin positions.length)) {slots : Weakest ℚ positions.length}
    {best : List (Fin positions.length)} (keeps : Keeps positions slots best) :
    Keeps positions (xs.foldl (considerPosition positions) slots)
      ((xs.filter fun i => Eligible positions i).foldl (Ranking.keep (Weaker positions) 2)
        best) := by
  induction xs generalizing slots best with
  | nil => exact keeps
  | cons i xs ih =>
    by_cases fit : Eligible positions i
    · rw [List.foldl_cons, List.filter_cons, if_pos (decide_eq_true fit), List.foldl_cons]
      exact ih (keeps.consider fit)
    · rw [List.foldl_cons, considerPosition_skip fit, List.filter_cons,
        if_neg (mt of_decide_eq_true fit)]
      exact ih keeps

theorem weakestTwo_eq :
    (weakestTwo positions).first.toList ++ (weakestTwo positions).second.toList =
      (weakestFirst positions).take 2 := by
  have slots := keeps_foldl positions (List.finRange positions.length) (Keeps.none 0 0)
  exact slots.selected.trans (Ranking.foldl_keep (Weaker positions) 2 (eligible positions))

/-- The gate is passed on to the positions: both equities are positive and the drawdown is
at the limit or beyond it. -/
def Breached (currentEquity baselineEquity : ℚ) (config : RiskConfig) : Prop :=
  0 < currentEquity ∧ 0 < baselineEquity ∧
    (currentEquity - baselineEquity) / baselineEquity * 100 ≤ -config.portfolioDrawdownLimitPct

instance (currentEquity baselineEquity : ℚ) (config : RiskConfig) :
    Decidable (Breached currentEquity baselineEquity config) :=
  inferInstanceAs (Decidable (_ ∧ _))

variable (currentEquity baselineEquity : ℚ) (config : RiskConfig)

/-- A day that is blocked stays blocked as it loses more, and under a tighter limit. -/
theorem alphaIsDailyLossBlocked_mono {pnlPct lowerPct : ℚ} {tighter : RiskConfig}
    (blocked : alphaIsDailyLossBlocked pnlPct config) (loses : lowerPct ≤ pnlPct)
    (limit : tighter.dailyLossLimitPct ≤ config.dailyLossLimitPct) :
    alphaIsDailyLossBlocked lowerPct tighter := by
  simp only [alphaIsDailyLossBlocked, negated, CDouble.le, CDouble.ofInt, Int.cast_neg,
    decide_eq_true_eq] at blocked ⊢
  have limit' : (tighter.dailyLossLimitPct : ℚ) ≤ config.dailyLossLimitPct := mod_cast limit
  linarith

/-- The gate over the rationals, with the slots read as the start of the ranking. -/
theorem alphaCheckPortfolioDrawdown_eq :
    alphaCheckPortfolioDrawdown positions currentEquity baselineEquity config =
      if currentEquity ≤ 0 ∨ baselineEquity ≤ 0 then ⟨none, []⟩
      else
        let dd := (currentEquity - baselineEquity) / baselineEquity * 100
        if dd > -(config.portfolioDrawdownLimitPct : ℚ) then ⟨some dd, []⟩
        else ⟨some dd, (weakestFirst positions).take 2⟩ := by
  simp only [alphaCheckPortfolioDrawdown, weakestTwo_eq, drawdownPct, negated, CDouble.le,
    CDouble.lt, CDouble.literal, CDouble.ofInt, Bool.or_eq_true, decide_eq_true_eq, Int.cast_neg,
    gt_iff_lt]

/-- The candidates of the reference are the eligible positions, each with its profit. -/
theorem riskL2_candidates :
    ((List.finRange positions.length).filterMap fun i =>
        let position := positions.get i
        if position.quantity ≤ 0 then none
        else if position.avgFillPrice ≤ 0 ∨ position.currentPrice ≤ 0 then none
        else some ((position.currentPrice - position.avgFillPrice) / position.avgFillPrice * 100,
          i)) =
      (eligible positions).map fun i => ((positions.get i).pnlPct, i) := by
  rw [← List.filterMap_eq_map, eligible, List.filterMap_filter]
  apply List.filterMap_congr
  intro i _
  by_cases fit : Eligible positions i
  · rw [if_pos (decide_eq_true fit)]
    obtain ⟨held, bought, priced⟩ := fit
    simp only [if_neg (not_le.mpr held), if_neg (not_or.mpr ⟨not_le.mpr bought, not_le.mpr priced⟩)]
    rfl
  · rw [if_neg (mt of_decide_eq_true fit)]
    dsimp only
    split
    · rfl
    next held =>
      split
      · rfl
      next priced =>
        obtain ⟨bought, priced⟩ := not_or.mp priced
        exact absurd ⟨not_le.mp held, not_le.mp bought, not_le.mp priced⟩ fit

theorem riskL2_eq :
    riskL2 positions currentEquity baselineEquity config =
      alphaCheckPortfolioDrawdown positions currentEquity baselineEquity config := by
  have sorted :
      ((eligible positions).map fun i => ((positions.get i).pnlPct, i)).insertionSort
        (fun a b => a.1 ≤ b.1) =
      (weakestFirst positions).map fun i => ((positions.get i).pnlPct, i) :=
    (List.map_insertionSort (Weaker positions) (fun a b => a.1 ≤ b.1)
      (fun i => ((positions.get i).pnlPct, i)) _ fun _ _ _ _ => Iff.rfl).symm
  rw [alphaCheckPortfolioDrawdown_eq, riskL2, riskL2_candidates]
  simp only [sorted, ← List.map_take, List.map_map, Function.comp_def, List.map_id']

theorem weakestFirst_perm : (weakestFirst positions).Perm (eligible positions) :=
  List.perm_insertionSort _ _

theorem weakestFirst_pairwise :
    (weakestFirst positions).Pairwise fun i j =>
      (positions.get i).pnlPct < (positions.get j).pnlPct ∨
        (positions.get i).pnlPct = (positions.get j).pnlPct ∧ i < j := by
  have input : (eligible positions).Pairwise (· < ·) :=
    (List.pairwise_lt_finRange positions.length).filter _
  exact Ranking.pairwise_insertionSort_key (Weaker positions) (fun _ _ => Iff.rfl) input

/-- `alpha_check_portfolio_drawdown` picks nothing unless the drawdown limit is breached, and
then the first two eligible positions by ascending profit, ties in input order, as `risk_l2`. -/
theorem alphaCheckPortfolioDrawdown_weakest :
    alphaCheckPortfolioDrawdown positions currentEquity baselineEquity config =
        riskL2 positions currentEquity baselineEquity config ∧
      (alphaCheckPortfolioDrawdown positions currentEquity baselineEquity config).selected =
        (if Breached currentEquity baselineEquity config then (weakestFirst positions).take 2
        else []) ∧
      (weakestFirst positions).Perm (eligible positions) ∧
      (weakestFirst positions).Pairwise fun i j =>
        (positions.get i).pnlPct < (positions.get j).pnlPct ∨
          (positions.get i).pnlPct = (positions.get j).pnlPct ∧ i < j := by
  refine ⟨(riskL2_eq positions _ _ config).symm, ?_, weakestFirst_perm positions,
    weakestFirst_pairwise positions⟩
  rw [alphaCheckPortfolioDrawdown_eq]
  by_cases unfunded : currentEquity ≤ 0 ∨ baselineEquity ≤ 0
  · have kept : ¬ Breached currentEquity baselineEquity config := by
      rintro ⟨current, baseline, -⟩
      exact unfunded.elim (not_le.mpr current) (not_le.mpr baseline)
    rw [if_pos unfunded, if_neg kept]
  · obtain ⟨current, baseline⟩ := not_or.mp unfunded
    rw [if_neg unfunded]
    simp only [Breached, not_le.mp current, not_le.mp baseline, true_and, gt_iff_lt]
    split
    next above => rw [if_neg (not_le.mpr above)]
    next within => rw [if_pos (not_lt.mp within)]

end AlphaPipeline.Risk

import AlphaPipeline.Library.Ranking

/-!
# Screener selection

`alpha_screener_select` picks the best candidate left, round after round, and compares each
candidate with those already written. The reference sorts the passing candidates by score and
cuts the list.
-/
namespace AlphaPipeline.Screener

/-- `alpha_screener_score_t`. -/
structure ScreenerScore (α : Type) where
  passes : Bool
  score : α

section Model

variable {α : Type} [LT α] [DecidableLT α] (candidates : List (ScreenerScore α))

/-- The loop body of a round, for a candidate; `best` is absent where the source has -1. -/
def considerCandidate (outIndices : List (Fin candidates.length))
    (best : Option (Fin candidates.length)) (i : Fin candidates.length) :
    Option (Fin candidates.length) :=
  if !(candidates.get i).passes then best
  else if i ∈ outIndices then best
  else
    match best with
    | none => some i
    | some b => if (candidates.get i).score > (candidates.get b).score then some i else some b

/-- One round: the candidate that is best of those not yet chosen. -/
def bestLeft (outIndices : List (Fin candidates.length)) : Option (Fin candidates.length) :=
  (List.finRange candidates.length).foldl (considerCandidate candidates outIndices) none

/-- The rounds, with how many may still be chosen. -/
def selectRounds : Nat → List (Fin candidates.length) → List (Fin candidates.length)
  | 0, outIndices => outIndices
  | left + 1, outIndices =>
    match bestLeft candidates outIndices with
    | none => outIndices
    | some best => selectRounds left (outIndices ++ [best])

/-- `alpha_screener_select`: the indices it writes, in order. -/
def alphaScreenerSelect (cap : Nat) : List (Fin candidates.length) := selectRounds candidates cap []

end Model

variable {α : Type} [LinearOrder α] (candidates : List (ScreenerScore α))

/-- `screener_select` of the Python reference. -/
def screenerSelect (cap : Nat) : List (Fin candidates.length) :=
  let passed := ((List.finRange candidates.length).filter fun i => (candidates.get i).passes).map
    fun i => (i, (candidates.get i).score)
  ((passed.insertionSort fun a b => b.2 ≤ a.2).take cap).map Prod.fst

/-- The candidate comes before the other if its score is not lower. -/
def Ahead (i j : Fin candidates.length) : Prop :=
  (candidates.get j).score ≤ (candidates.get i).score

instance : DecidableRel (Ahead candidates) := fun _ _ => inferInstanceAs (Decidable (_ ≤ _))

instance : IsTrans (Fin candidates.length) (Ahead candidates) :=
  ⟨fun _ _ _ first second => le_trans second first⟩

instance : Std.Total (Ahead candidates) := ⟨fun _ _ => le_total _ _⟩

/-- The passing candidates in input order. -/
def passing : List (Fin candidates.length) :=
  (List.finRange candidates.length).filter fun i => (candidates.get i).passes

/-- The passing candidates by descending score, in input order where scores are equal. -/
def ranking : List (Fin candidates.length) := (passing candidates).insertionSort (Ahead candidates)

omit [LinearOrder α] in
theorem passing_nodup : (passing candidates).Nodup := (List.nodup_finRange _).filter _

/-- The reference cuts the ranking. -/
theorem screenerSelect_eq (cap : Nat) :
    screenerSelect candidates cap = (ranking candidates).take cap := by
  have sorted : ((passing candidates).map fun i => (i, (candidates.get i).score)).insertionSort
      (fun a b => b.2 ≤ a.2) = (ranking candidates).map fun i => (i, (candidates.get i).score) :=
    (List.map_insertionSort (Ahead candidates) (fun a b => b.2 ≤ a.2)
      (fun i => (i, (candidates.get i).score)) _ fun _ _ _ _ => Iff.rfl).symm
  rw [screenerSelect, ← passing, sorted, ← List.map_take, List.map_map]
  exact List.map_id _

/-- One candidate more: the round keeps the first of the ranking. -/
theorem considerCandidate_keep (outIndices : List (Fin candidates.length))
    (best : Option (Fin candidates.length)) (i : Fin candidates.length) :
    (considerCandidate candidates outIndices best i).toList =
      if (candidates.get i).passes ∧ i ∉ outIndices then
        Ranking.keep (Ahead candidates) 1 best.toList i
      else best.toList := by
  unfold considerCandidate
  cases passes : (candidates.get i).passes with
  | false => simp
  | true =>
    by_cases chosen : i ∈ outIndices
    · simp [chosen]
    · cases best with
      | none => simp [chosen, Ranking.keep, Ranking.insertLast]
      | some b =>
        by_cases higher : (candidates.get b).score < (candidates.get i).score
        · have lower := not_le.mpr higher
          simp [chosen, Ranking.keep, Ranking.insertLast, Ahead, -List.get_eq_getElem, higher,
            lower]
        · have lower := not_lt.mp higher
          simp [chosen, Ranking.keep, Ranking.insertLast, Ahead, -List.get_eq_getElem, higher,
            lower]

/-- A round reads the candidates that are left and keeps the first of their ranking. -/
theorem bestLeft_eq (outIndices : List (Fin candidates.length)) :
    bestLeft candidates outIndices =
      (((passing candidates).filter fun i => i ∉ outIndices).insertionSort
        (Ahead candidates)).head? := by
  have pass (xs : List (Fin candidates.length)) (best : Option (Fin candidates.length)) :
      (xs.foldl (considerCandidate candidates outIndices) best).toList =
        ((xs.filter fun i => (candidates.get i).passes).filter fun i => i ∉ outIndices).foldl
          (Ranking.keep (Ahead candidates) 1) best.toList := by
    induction xs generalizing best with
    | nil => rfl
    | cons i xs ih =>
      rw [List.foldl_cons, ih, considerCandidate_keep]
      by_cases passes : (candidates.get i).passes
      · by_cases chosen : i ∈ outIndices
        · simp [passes, chosen, -List.get_eq_getElem]
        · simp [passes, chosen, -List.get_eq_getElem]
      · simp [passes, -List.get_eq_getElem]
  have first : (bestLeft candidates outIndices).toList = _ :=
    (pass (List.finRange candidates.length) none).trans (Ranking.foldl_keep _ 1 _)
  rw [← @Option.head?_toList _ (bestLeft candidates outIndices), first, List.head?_take]
  rfl

theorem bestLeft_ranking (k : Nat) :
    bestLeft candidates ((ranking candidates).take k) = (ranking candidates)[k]? := by
  rw [bestLeft_eq, ranking, Ranking.insertionSort_rest _ (passing_nodup candidates),
    List.head?_drop]

/-- The rounds write the ranking, one candidate after the other. -/
theorem selectRounds_ranking (left k : Nat) :
    selectRounds candidates left ((ranking candidates).take k) =
      (ranking candidates).take (k + left) := by
  induction left generalizing k with
  | zero => rfl
  | succ left ih =>
    rw [selectRounds, bestLeft_ranking]
    cases next : (ranking candidates)[k]? with
    | none =>
      have all := List.getElem?_eq_none_iff.mp next
      exact (List.take_of_length_le all).trans (List.take_of_length_le (by omega)).symm
    | some best =>
      have longer : (ranking candidates).take k ++ [best] = (ranking candidates).take (k + 1) := by
        rw [List.take_add_one, next]
        rfl
      change selectRounds candidates left ((ranking candidates).take k ++ [best]) = _
      rw [longer, ih, Nat.add_right_comm, Nat.add_assoc]

theorem alphaScreenerSelect_eq (cap : Nat) :
    alphaScreenerSelect candidates cap = (ranking candidates).take cap := by
  have rounds := selectRounds_ranking candidates cap 0
  rw [List.take_zero, Nat.zero_add] at rounds
  exact rounds

theorem ranking_perm : (ranking candidates).Perm (passing candidates) :=
  List.perm_insertionSort _ _

theorem ranking_pairwise :
    (ranking candidates).Pairwise fun i j =>
      (candidates.get j).score < (candidates.get i).score ∨
        (candidates.get i).score = (candidates.get j).score ∧ i < j := by
  have input : (passing candidates).Pairwise (· < ·) :=
    (List.pairwise_lt_finRange candidates.length).filter _
  -- a higher score is a lower key
  exact Ranking.pairwise_insertionSort_key (Ahead candidates)
    (fun _ _ => OrderDual.toDual_le_toDual.symm) input

/-- `alpha_screener_select` writes the first indices of the passing candidates by descending
score, ties in input order, as `screener_select` does. -/
theorem alphaScreenerSelect_stable (cap : Nat) :
    alphaScreenerSelect candidates cap = screenerSelect candidates cap ∧
      alphaScreenerSelect candidates cap = (ranking candidates).take cap ∧
      (ranking candidates).Perm (passing candidates) ∧
      ((ranking candidates).Pairwise fun i j =>
        (candidates.get j).score < (candidates.get i).score ∨
          (candidates.get i).score = (candidates.get j).score ∧ i < j) ∧
      (alphaScreenerSelect candidates cap).length = min cap (passing candidates).length ∧
      (alphaScreenerSelect candidates cap).Nodup ∧
      ∀ i ∈ alphaScreenerSelect candidates cap, (candidates.get i).passes := by
  have perm := ranking_perm candidates
  rw [screenerSelect_eq, alphaScreenerSelect_eq]
  refine ⟨rfl, rfl, perm, ranking_pairwise candidates, ?_, ?_, ?_⟩
  · rw [List.length_take, perm.length_eq]
  · exact (perm.nodup_iff.mpr (passing_nodup candidates)).sublist (List.take_sublist _ _)
  · intro i chosen
    have passed := perm.mem_iff.mp (List.mem_of_mem_take chosen)
    exact (List.mem_filter.mp passed).2

end AlphaPipeline.Screener

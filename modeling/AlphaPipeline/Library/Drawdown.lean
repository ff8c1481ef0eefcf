import Mathlib.Algebra.Order.Field.Basic
import Mathlib.Order.Bounds.Basic
import Mathlib.Tactic

/-!
# Drawdown

The deepest relative fall of a sequence of positive values, from any value to any later one. One
pass that keeps the highest value so far and the deepest fall so far finds it: of all earlier
values the highest gives the deepest fall.
-/
namespace Drawdown

variable {K : Type} [Field K] [LinearOrder K]

/-- The fall from one value to another, in percent of the first. -/
def fall (high low : K) : K := (low - high) / high * 100

/-- The falls from the values to themselves and to later ones. -/
def falls (values : List K) : Set K :=
  {d | ∃ (i j : Nat) (a b : K), i ≤ j ∧ values[i]? = some a ∧ values[j]? = some b ∧ fall a b = d}

/-- One more value, against the highest value and the deepest fall so far. -/
def step (curve : K × K) (value : K) : K × K :=
  (max curve.1 value, min curve.2 (fall (max curve.1 value) value))

omit [LinearOrder K] in
theorem mem_falls_snoc {seen : List K} {value d : K} :
    d ∈ falls (seen ++ [value]) ↔ d ∈ falls seen ∨ ∃ a ∈ seen ++ [value], fall a value = d := by
  constructor
  · rintro ⟨i, j, a, b, order, atI, atJ, rfl⟩
    have bound := (List.getElem?_eq_some_iff.mp atJ).1
    rw [List.length_append, List.length_singleton] at bound
    by_cases inside : j < seen.length
    · rw [List.getElem?_append_left (by omega)] at atI atJ
      exact .inl ⟨i, j, a, b, order, atI, atJ, rfl⟩
    · obtain rfl : j = seen.length := by omega
      rw [List.getElem?_concat_length, Option.some.injEq] at atJ
      exact .inr ⟨a, List.mem_of_getElem? atI, by rw [atJ]⟩
  · rintro (⟨i, j, a, b, order, atI, atJ, rfl⟩ | ⟨a, member, rfl⟩)
    · have bound := (List.getElem?_eq_some_iff.mp atJ).1
      refine ⟨i, j, a, b, order, ?_, ?_, rfl⟩
      · rwa [List.getElem?_append_left (by omega)]
      · rwa [List.getElem?_append_left bound]
    · obtain ⟨i, atI⟩ := List.getElem?_of_mem member
      have bound := (List.getElem?_eq_some_iff.mp atI).1
      rw [List.length_append, List.length_singleton] at bound
      exact ⟨i, seen.length, a, value, by omega, atI, List.getElem?_concat_length, rfl⟩

section Ordered

variable [IsStrictOrderedRing K]

/-- From a higher value the fall to a positive value is deeper. -/
theorem fall_anti {a b value : K} (positive : 0 < a) (higher : a ≤ b) (reached : 0 ≤ value) :
    fall b value ≤ fall a value := by
  have later : 0 < b := positive.trans_le higher
  have ratio : value / b ≤ value / a := div_le_div_of_nonneg_left reached positive higher
  unfold fall
  rw [sub_div, sub_div, div_self positive.ne', div_self later.ne']
  linarith

theorem fall_neg_iff {a b : K} (positive : 0 < a) : fall a b < 0 ↔ b < a := by
  unfold fall
  constructor
  · intro negative
    by_contra higher
    exact absurd negative (not_lt.mpr
      (mul_nonneg (div_nonneg (sub_nonneg.mpr (not_lt.mp higher)) positive.le) (by norm_num)))
  · intro lower
    exact mul_neg_of_neg_of_pos (div_neg_of_neg_of_pos (sub_neg.mpr lower) positive) (by norm_num)

theorem neg_hundred_lt_fall {a b : K} (positive : 0 < a) (reached : 0 < b) : -100 < fall a b := by
  have ratio : 0 < b / a := div_pos reached positive
  unfold fall
  rw [sub_div, div_self positive.ne']
  linarith

/-- What the pass knows of the values it has seen. -/
structure Tracks (seen : List K) (curve : K × K) : Prop where
  peak : IsGreatest {a | a ∈ seen} curve.1
  worst : IsLeast (falls seen) curve.2

theorem Tracks.step {seen : List K} {curve : K × K} {value : K} (tracks : Tracks seen curve)
    (positive : ∀ a ∈ seen ++ [value], 0 < a) :
    Tracks (seen ++ [value]) (Drawdown.step curve value) := by
  obtain ⟨⟨inside, highest⟩, least, lowest⟩ := tracks
  have reached : 0 < value := positive value (by simp)
  have peak : IsGreatest {a | a ∈ seen ++ [value]} (max curve.1 value) := by
    constructor
    · rcases max_choice curve.1 value with old | new
      · rw [old]
        exact List.mem_append_left _ inside
      · rw [new]
        exact List.mem_append_right _ List.mem_cons_self
    · intro a member
      rcases List.mem_append.mp member with earlier | last
      · exact (highest earlier).trans (le_max_left _ _)
      · rw [List.mem_singleton.mp last]
        exact le_max_right _ _
  refine ⟨peak, ?_, ?_⟩
  · rw [mem_falls_snoc, Drawdown.step]
    rcases min_choice curve.2 (fall (max curve.1 value) value) with old | new
    · rw [old]
      exact .inl least
    · rw [new]
      exact .inr ⟨_, peak.1, rfl⟩
  · intro d member
    rcases mem_falls_snoc.mp member with earlier | ⟨a, among, rfl⟩
    · exact (min_le_left _ _).trans (lowest earlier)
    -- the highest value gives the deepest fall to this one
    · exact (min_le_right _ _).trans (fall_anti (positive a among) (peak.2 among) reached.le)

/-- The pass over more values. -/
theorem Tracks.fold {seen : List K} {curve : K × K} (tracks : Tracks seen curve) (more : List K)
    (positive : ∀ a ∈ seen ++ more, 0 < a) :
    Tracks (seen ++ more) (more.foldl Drawdown.step curve) := by
  induction more generalizing seen curve with
  | nil => simpa using tracks
  | cons value more ih =>
    have once : Tracks (seen ++ [value]) (Drawdown.step curve value) := by
      apply tracks.step
      intro a member
      apply positive
      simp only [List.mem_append, List.mem_cons, List.not_mem_nil, or_false] at member ⊢
      tauto
    have whole := ih once (by simpa using positive)
    simpa using whole

/-- One pass finds the deepest fall. -/
theorem deepest (first : K) (rest : List K) (positive : ∀ a ∈ first :: rest, 0 < a) :
    IsLeast (falls (first :: rest)) ((first :: rest).foldl step (first, 0)).2 := by
  have nonzero : first ≠ 0 := (positive first List.mem_cons_self).ne'
  have still : fall first first = 0 := by simp [fall]
  have start : Tracks [first] (step (first, 0) first) := by
    refine ⟨⟨by simp [step], by simp [step, upperBounds]⟩, ?_, ?_⟩
    · exact ⟨0, 0, first, first, le_rfl, rfl, rfl, by simp [step, still]⟩
    · intro d member
      rw [← List.nil_append [first], mem_falls_snoc] at member
      rcases member with ⟨i, j, a, b, _, atI, _⟩ | ⟨a, among, rfl⟩
      · cases atI
      · rw [List.mem_singleton.mp among]
        simp [step, still]
  exact (start.fold rest positive).worst

/-! ### What the deepest fall says -/

variable {values : List K} {d : K}

theorem deepest_bounds (positive : ∀ a ∈ values, 0 < a) (least : IsLeast (falls values) d) :
    -100 < d ∧ d ≤ 0 := by
  obtain ⟨⟨i, j, a, b, order, atI, atJ, rfl⟩, lowest⟩ := least
  have start := positive a (List.mem_of_getElem? atI)
  refine ⟨neg_hundred_lt_fall start (positive b (List.mem_of_getElem? atJ)), ?_⟩
  exact lowest ⟨i, i, a, a, le_rfl, atI, atI, by simp [fall]⟩

/-- There is no fall exactly where no value is below an earlier one. -/
theorem deepest_eq_zero_iff (positive : ∀ a ∈ values, 0 < a) (least : IsLeast (falls values) d) :
    d = 0 ↔ ∀ (i j : Nat) (a b : K), i ≤ j → values[i]? = some a → values[j]? = some b → a ≤ b := by
  constructor
  · rintro rfl i j a b order atI atJ
    have above := least.2 ⟨i, j, a, b, order, atI, atJ, rfl⟩
    by_contra lower
    exact absurd ((fall_neg_iff (positive a (List.mem_of_getElem? atI))).mpr (not_le.mp lower))
      (not_lt.mpr above)
  · intro rises
    obtain ⟨⟨i, j, a, b, order, atI, atJ, found⟩, _⟩ := id least
    have flat := deepest_bounds positive least
    refine le_antisymm flat.2 (not_lt.mp fun negative => ?_)
    rw [← found, fall_neg_iff (positive a (List.mem_of_getElem? atI))] at negative
    exact absurd (rises i j a b order atI atJ) (not_le.mpr negative)

omit [LinearOrder K] [IsStrictOrderedRing K] in
/-- Scaling all values changes no fall. -/
theorem falls_scaled {c : K} (nonzero : c ≠ 0) (values : List K) :
    falls (values.map (c * ·)) = falls values := by
  have scaled (a b : K) : fall (c * a) (c * b) = fall a b := by
    rw [fall, ← mul_sub, mul_div_mul_left _ _ nonzero, fall]
  ext d
  constructor
  · rintro ⟨i, j, _, _, order, atI, atJ, rfl⟩
    rw [List.getElem?_map, Option.map_eq_some_iff] at atI atJ
    obtain ⟨a, atI, rfl⟩ := atI
    obtain ⟨b, atJ, rfl⟩ := atJ
    exact ⟨i, j, a, b, order, atI, atJ, (scaled a b).symm⟩
  · rintro ⟨i, j, a, b, order, atI, atJ, rfl⟩
    exact ⟨i, j, c * a, c * b, order, by rw [List.getElem?_map, atI, Option.map_some],
      by rw [List.getElem?_map, atJ, Option.map_some], scaled a b⟩

end Ordered

end Drawdown

import Mathlib.Algebra.Order.BigOperators.Group.List
import Mathlib.Algebra.Order.Field.Basic
import Mathlib.Tactic

/-!
# Weighted means

The mean of a list's values, each with its share of the weights. A negative weight counts as
none, and where no weight is positive all items have the same share.
-/
namespace WeightedMean

variable {ι K : Type} [Field K] [LinearOrder K]

/-- The sum of the weights that count. -/
def total (weight : ι → K) (items : List ι) : K := (items.map fun i => max (weight i) 0).sum

/-- The part of the whole that an item has. -/
def share (weight : ι → K) (items : List ι) (i : ι) : K :=
  if 0 < total weight items then max (weight i) 0 / total weight items else 1 / items.length

def mean (weight value : ι → K) (items : List ι) : K :=
  (items.map fun i => share weight items i * value i).sum

variable {weight value bound : ι → K} {items : List ι}

/-! ### What the mean depends on -/

theorem mean_congr (same : ∀ i ∈ items, value i = bound i) :
    mean weight value items = mean weight bound items :=
  congrArg List.sum (List.map_congr_left fun i member => by rw [same i member])

theorem total_perm {others : List ι} (perm : items.Perm others) :
    total weight items = total weight others :=
  (perm.map _).sum_eq

theorem share_perm {others : List ι} (perm : items.Perm others) :
    share weight items = share weight others := by
  funext i
  rw [share, share, total_perm perm, perm.length_eq]

theorem mean_perm {others : List ι} (perm : items.Perm others) :
    mean weight value items = mean weight value others := by
  rw [mean, share_perm perm]
  exact (perm.map _).sum_eq

theorem share_map {κ : Type} (f : κ → ι) (others : List κ) (k : κ) :
    share weight (others.map f) (f k) = share (fun k => weight (f k)) others k := by
  rw [share, share, total, List.map_map, List.length_map]
  rfl

theorem mean_map {κ : Type} (f : κ → ι) (others : List κ) :
    mean weight value (others.map f) =
      mean (fun k => weight (f k)) (fun k => value (f k)) others := by
  rw [mean, List.map_map, mean]
  exact congrArg List.sum (List.map_congr_left fun k _ => by
    rw [Function.comp_apply, share_map])

theorem mean_neg : mean weight (fun i => -value i) items = -mean weight value items := by
  have negated : (fun i => share weight items i * -value i) =
      fun i => -1 * (share weight items i * value i) := by
    funext i
    ring
  rw [mean, negated, List.sum_map_mul_left, mean, neg_one_mul]

theorem total_cons (x : ι) : total weight (x :: items) = max (weight x) 0 + total weight items := by
  rw [total, List.map_cons, List.sum_cons, total]

theorem share_replace {x y : ι} (same : weight x = weight y) :
    share weight (x :: items) = share weight (y :: items) := by
  funext i
  rw [share, share, total_cons, total_cons, same, List.length_cons, List.length_cons]

/-- An item without weight does not count, if others have some. -/
theorem mean_skip {before after : List ι} {x : ι} (none : weight x ≤ 0)
    (some_ : 0 < total weight (before ++ after)) :
    mean weight value (before ++ x :: after) = mean weight value (before ++ after) := by
  have nothing : max (weight x) 0 = 0 := max_eq_right none
  have shares : share weight (x :: (before ++ after)) = share weight (before ++ after) := by
    funext i
    rw [share, share, total_cons, nothing, zero_add, if_pos some_, if_pos some_]
  have part : share weight (before ++ after) x = 0 := by
    rw [share, if_pos some_, nothing, zero_div]
  rw [mean_perm List.perm_middle, mean, shares, List.map_cons, List.sum_cons, part, zero_mul,
    zero_add, mean]

/-! ### Shares -/

variable [IsStrictOrderedRing K]

theorem total_nonneg : 0 ≤ total weight items := by
  apply List.sum_nonneg
  intro x member
  obtain ⟨i, _, rfl⟩ := List.mem_map.mp member
  exact le_max_right _ _

theorem share_nonneg (i : ι) : 0 ≤ share weight items i := by
  rw [share]
  split
  · exact div_nonneg (le_max_right _ _) total_nonneg
  · exact div_nonneg zero_le_one (Nat.cast_nonneg _)

theorem sum_share (nonempty : items ≠ []) : (items.map (share weight items)).sum = 1 := by
  by_cases some_ : 0 < total weight items
  · have shares : share weight items = fun i => max (weight i) 0 * (total weight items)⁻¹ := by
      funext i
      rw [share, if_pos some_, div_eq_mul_inv]
    rw [shares, List.sum_map_mul_right]
    exact mul_inv_cancel₀ some_.ne'
  · have shares : share weight items = fun _ => 1 / (items.length : K) := by
      funext i
      rw [share, if_neg some_]
    have counted : (items.length : K) ≠ 0 := by
      exact_mod_cast mt List.eq_nil_of_length_eq_zero nonempty
    rw [shares, List.map_const', List.sum_replicate, nsmul_eq_mul, mul_one_div_cancel counted]

/-- An item alone has everything, whatever its weight. -/
theorem mean_singleton (i : ι) : mean weight value [i] = value i := by
  have whole : ([i].map (share weight [i])).sum = 1 := sum_share (List.cons_ne_nil i [])
  rw [List.map_singleton, List.sum_singleton] at whole
  rw [mean, List.map_singleton, List.sum_singleton, whole, one_mul]

/-- Only the proportions of the weights count. -/
theorem share_scale {c : K} (positive : 0 < c) :
    share (fun i => c * weight i) items = share weight items := by
  have scaled (i : ι) : max (c * weight i) 0 = c * max (weight i) 0 := by
    rw [mul_max_of_nonneg _ _ positive.le, mul_zero]
  have totals : total (fun i => c * weight i) items = c * total weight items := by
    rw [total, total, ← List.sum_map_mul_left]
    exact congrArg List.sum (List.map_congr_left fun i _ => scaled i)
  funext i
  rw [share, share, totals, scaled]
  by_cases some_ : 0 < total weight items
  · rw [if_pos (mul_pos positive some_), if_pos some_, mul_div_mul_left _ _ positive.ne']
  · rw [if_neg (mt (pos_of_mul_pos_right · positive.le) some_), if_neg some_]

theorem mean_scale {c : K} (positive : 0 < c) :
    mean (fun i => c * weight i) value items = mean weight value items := by
  rw [mean, mean, share_scale positive]

/-! ### Bounds -/

theorem mean_mono (le : ∀ i ∈ items, value i ≤ bound i) :
    mean weight value items ≤ mean weight bound items :=
  List.sum_le_sum fun i member => mul_le_mul_of_nonneg_left (le i member) (share_nonneg i)

theorem mean_const (nonempty : items ≠ []) (c : K) : mean weight (fun _ => c) items = c := by
  rw [mean, List.sum_map_mul_right]
  exact (congrArg (· * c) (sum_share nonempty)).trans (one_mul c)

theorem abs_mean_le (le : ∀ i ∈ items, |value i| ≤ bound i) :
    |mean weight value items| ≤ mean weight bound items := by
  rw [abs_le]
  constructor
  · rw [← mean_neg]
    exact mean_mono fun i member => (abs_le.mp (le i member)).1
  · exact mean_mono fun i member => (abs_le.mp (le i member)).2

/-- A higher value of one item raises the mean. -/
theorem mean_replace_le {before after : List ι} {x y : ι} (same : weight x = weight y)
    (le : value x ≤ value y) :
    mean weight value (before ++ x :: after) ≤ mean weight value (before ++ y :: after) := by
  have part :
      share weight (y :: (before ++ after)) x = share weight (y :: (before ++ after)) y := by
    rw [share, share, same]
  have nonneg : 0 ≤ share weight (y :: (before ++ after)) y := share_nonneg y
  rw [mean_perm List.perm_middle, mean_perm List.perm_middle, mean, mean, share_replace same,
    List.map_cons, List.map_cons, List.sum_cons, List.sum_cons, part]
  exact add_le_add_left (mul_le_mul_of_nonneg_left le nonneg) _

end WeightedMean

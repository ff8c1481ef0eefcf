import Mathlib.Algebra.Order.Floor.Ring
import Mathlib.Data.List.GetD
import Mathlib.Data.List.Sort
import Mathlib.Tactic

/-!
# Order statistics

Sorting two samples carries a pointwise comparison of them over to their ranks. Between the ranks
a sample is read by linear interpolation, which grows with the rank when the sample is sorted.
-/
namespace OrderStatistics

/-! ### Sorted samples -/

section Sorting

variable {α : Type} [LinearOrder α]

/-- Inserting keeps one sorted list below the other. -/
theorem orderedInsert_le {x y : α} {xs ys : List α} (first : x ≤ y)
    (below : List.Forall₂ (· ≤ ·) xs ys) (sortedX : xs.Pairwise (· ≤ ·))
    (sortedY : ys.Pairwise (· ≤ ·)) :
    List.Forall₂ (· ≤ ·) (xs.orderedInsert (· ≤ ·) x) (ys.orderedInsert (· ≤ ·) y) := by
  induction below generalizing x y with
  | nil => exact .cons first .nil
  | @cons a b xs ys head tail ih =>
    have restX := sortedX.of_cons
    have restY := sortedY.of_cons
    -- A head that is passed is inserted again in its own tail, where it comes first.
    have again {c : α} {cs : List α} (sorted : (c :: cs).Pairwise (· ≤ ·)) :
        cs.orderedInsert (· ≤ ·) c = c :: cs := by
      cases cs with
      | nil => rfl
      | cons d ds => exact List.orderedInsert_cons_of_le _ _ (List.rel_of_pairwise_cons sorted
          List.mem_cons_self)
    rw [List.orderedInsert_cons, List.orderedInsert_cons]
    split
    next low =>
      split
      next => exact .cons first (.cons head tail)
      next high =>
        refine .cons (low.trans head) ?_
        rw [← again sortedX]
        exact ih (head.trans (le_of_not_ge high)) restX restY
    next low =>
      split
      next high =>
        refine .cons ((le_of_not_ge low).trans first) ?_
        rw [← again sortedY]
        exact ih (first.trans high) restX restY
      next => exact .cons head (ih first restX restY)

/-- A sample below another one is below it at every rank. -/
theorem insertionSort_le {xs ys : List α} (below : List.Forall₂ (· ≤ ·) xs ys) :
    List.Forall₂ (· ≤ ·) (xs.insertionSort (· ≤ ·)) (ys.insertionSort (· ≤ ·)) := by
  induction below with
  | nil => exact .nil
  | cons first _ ih =>
    exact orderedInsert_le first ih (List.pairwise_insertionSort _ _)
      (List.pairwise_insertionSort _ _)

end Sorting

/-! ### Entries -/

section Entries

variable {K : Type} [Zero K]

/-- The entry at an index; beyond the ends it is the first or the last one. -/
def entry (values : List K) (i : ℤ) : K := values.getD (min i.toNat (values.length - 1)) 0

theorem entry_eq_getElem {values : List K} {i : ℤ} (inside : i.toNat < values.length) :
    entry values i = values[i.toNat] := by
  have within : min i.toNat (values.length - 1) = i.toNat := by omega
  rw [entry, within, List.getD_eq_getElem _ _ inside]

theorem entry_mem {values : List K} (nonempty : values ≠ []) (i : ℤ) : entry values i ∈ values := by
  have size := List.length_pos_of_ne_nil nonempty
  have inside : min i.toNat (values.length - 1) < values.length := by omega
  rw [entry, List.getD_eq_getElem _ _ inside]
  exact List.getElem_mem inside

theorem entry_mono [LinearOrder K] {values : List K} (sorted : values.Pairwise (· ≤ ·)) :
    Monotone (entry values) := by
  intro i j order
  by_cases nonempty : values = []
  · rw [nonempty]
    exact le_refl _
  have size := List.length_pos_of_ne_nil nonempty
  have insideI : min i.toNat (values.length - 1) < values.length := by omega
  have insideJ : min j.toNat (values.length - 1) < values.length := by omega
  rw [entry, entry, List.getD_eq_getElem _ _ insideI, List.getD_eq_getElem _ _ insideJ]
  exact sorted.rel_get_of_le (Fin.mk_le_mk.mpr (by omega : min i.toNat _ ≤ min j.toNat _))

theorem entry_le [LinearOrder K] {xs ys : List K} (below : List.Forall₂ (· ≤ ·) xs ys) (i : ℤ) :
    entry xs i ≤ entry ys i := by
  have size : xs.length = ys.length := below.length_eq
  rw [entry, entry, size]
  by_cases inside : min i.toNat (ys.length - 1) < ys.length
  · rw [List.getD_eq_getElem _ _ inside, List.getD_eq_getElem _ _ (size ▸ inside)]
    exact below.get _ _
  · have outside := not_lt.mp inside
    rw [List.getD_eq_default _ _ outside, List.getD_eq_default _ _ (size.le.trans outside)]

theorem entry_map {values : List K} {f : K → K} (zero : f 0 = 0) (i : ℤ) :
    entry (values.map f) i = f (entry values i) := by
  rw [entry, entry, List.length_map]
  nth_rewrite 1 [← zero]
  exact List.getD_map _ _ _

end Entries

/-! ### Between the ranks -/

section Interpolation

variable {K : Type} [Field K] [LinearOrder K] [FloorRing K]

/-- The value at a rank between two indices. -/
def interpolate (f : ℤ → K) (rank : K) : K :=
  f ⌊rank⌋ + (f ⌈rank⌉ - f ⌊rank⌋) * (rank - ⌊rank⌋)

theorem interpolate_mul (k : K) (f : ℤ → K) (rank : K) :
    interpolate (fun i => k * f i) rank = k * interpolate f rank := by
  unfold interpolate
  ring

variable [IsStrictOrderedRing K]

/-- A sample below another one at every index is below it in between. -/
theorem interpolate_le {f g : ℤ → K} (below : ∀ i, f i ≤ g i) (rank : K) :
    interpolate f rank ≤ interpolate g rank := by
  have rest : 0 ≤ 1 - Int.fract rank := sub_nonneg.mpr (Int.fract_lt_one rank).le
  have weighted (f : ℤ → K) : interpolate f rank =
      (1 - Int.fract rank) * f ⌊rank⌋ + Int.fract rank * f ⌈rank⌉ := by
    rw [interpolate, ← Int.self_sub_floor]
    ring
  rw [weighted, weighted]
  exact add_le_add (mul_le_mul_of_nonneg_left (below _) rest)
    (mul_le_mul_of_nonneg_left (below _) (Int.fract_nonneg rank))

variable {f : ℤ → K} (mono : Monotone f)

include mono

theorem floor_le_interpolate (rank : K) : f ⌊rank⌋ ≤ interpolate f rank := by
  have step := mono (Int.floor_le_ceil rank)
  have part : 0 ≤ rank - ⌊rank⌋ := sub_nonneg.mpr (Int.floor_le rank)
  exact le_add_of_nonneg_right (mul_nonneg (sub_nonneg.mpr step) part)

theorem interpolate_le_ceil (rank : K) : interpolate f rank ≤ f ⌈rank⌉ := by
  have step := mono (Int.floor_le_ceil rank)
  have part : rank - ⌊rank⌋ ≤ 1 := by linarith [Int.lt_floor_add_one rank]
  have share := mul_le_of_le_one_right (sub_nonneg.mpr step) part
  unfold interpolate
  linarith

/-- A sorted sample grows between its ranks. -/
theorem interpolate_mono : Monotone (interpolate f) := by
  intro low high order
  have floors := Int.floor_mono order
  have lowCeil := Int.ceil_le_floor_add_one low
  have highCeil := Int.ceil_le_floor_add_one high
  have ceils := Int.ceil_mono order
  by_cases apart : ⌈low⌉ ≤ ⌊high⌋
  · calc interpolate f low ≤ f ⌈low⌉ := interpolate_le_ceil mono low
      _ ≤ f ⌊high⌋ := mono apart
      _ ≤ interpolate f high := floor_le_interpolate mono high
  · -- Both lie between the same two indices.
    have sameFloor : ⌊low⌋ = ⌊high⌋ := by omega
    have sameCeil : ⌈low⌉ = ⌈high⌉ := by omega
    have step := mono (Int.floor_le_ceil high)
    unfold interpolate
    rw [sameFloor, sameCeil]
    have share := mul_le_mul_of_nonneg_left (sub_le_sub_right order (⌊high⌋ : K))
      (sub_nonneg.mpr step)
    linarith

end Interpolation

end OrderStatistics

import AlphaPipeline.Library.Fallible
import AlphaPipeline.Library.PyJson

/-!
# The statistics of the benchmark

`percentile` as both scripts define it, and the parts of Python's `statistics` they use, over
samples read as exact numbers.
-/
namespace AlphaPipeline.Bench

open PyJson Fallible

/-- `sorted`. -/
def sorted (values : List ℚ) : List ℚ := values.insertionSort (· ≤ ·)

/-- `values[i]`, where a negative index counts from the end. -/
def indexed (values : List ℚ) (i : Int) : Except PyError ℚ :=
  let i := if i < 0 then i + values.length else i
  if i < 0 then .error .indexError
  else match values[i.toNat]? with
    | some value => .ok value
    | none => .error .indexError

/-- `percentile`. -/
def percentile (values : List ℚ) (q : ℚ) : Except PyError ℚ := do
  let ordered := sorted values
  let rank := ((ordered.length : ℚ) - 1) * q
  let lo := rank.floor
  let hi := rank.ceil
  if lo = hi then indexed ordered lo
  else do
    let low ← indexed ordered lo
    let high ← indexed ordered hi
    .ok (low + (high - low) * (rank - lo))

/-- `statistics.median`. -/
def median (values : List ℚ) : Except PyError ℚ :=
  let data := sorted values
  let n := data.length
  if n = 0 then .error .statisticsError
  else if n % 2 = 1 then indexed data (n / 2 : Nat)
  else do
    let low ← indexed data (n / 2 - 1 : Nat)
    let high ← indexed data (n / 2 : Nat)
    .ok ((low + high) / 2)

/-- `a / b`. -/
def divide (a b : ℚ) : Except PyError ℚ :=
  if b = 0 then .error .zeroDivisionError else .ok (a / b)

/-- The value of a number, which arithmetic and comparisons need. -/
def number (value : Json) : Except PyError ℚ :=
  match value.number? with
  | some x => .ok x
  | none => .error .typeError

/-- `max` of a list of numbers. -/
def maximum : List ℚ → Except PyError ℚ
  | [] => .error (.valueError "max() arg is an empty sequence")
  | x :: xs => .ok (xs.foldl max x)

/-- `min` of a list of numbers. -/
def minimum : List ℚ → Except PyError ℚ
  | [] => .error (.valueError "min() arg is an empty sequence")
  | x :: xs => .ok (xs.foldl min x)

theorem indexed_ok {values : List ℚ} {i : Int} (low : 0 ≤ i) (high : i < values.length) :
    ∃ value ∈ values, indexed values i = .ok value := by
  have inside : i.toNat < values.length := by omega
  refine ⟨values[i.toNat], List.getElem_mem inside, ?_⟩
  have forward : ¬i < 0 := by omega
  simp only [indexed, if_neg forward, List.getElem?_eq_getElem inside]

theorem length_sorted (values : List ℚ) : (sorted values).length = values.length :=
  List.length_insertionSort _ _

theorem mem_sorted {values : List ℚ} {x : ℚ} : x ∈ sorted values ↔ x ∈ values :=
  List.mem_insertionSort _

/-- A percentile of a non-empty list is defined. -/
theorem percentile_ok {values : List ℚ} {q : ℚ} (nonempty : values ≠ []) (low : 0 ≤ q)
    (high : q ≤ 1) : ∃ value, percentile values q = .ok value := by
  have size : (1 : ℚ) ≤ (sorted values).length := by
    rw [length_sorted]
    exact_mod_cast List.length_pos_of_ne_nil nonempty
  set rank := (((sorted values).length : ℚ) - 1) * q with rankEq
  -- the rank lies between the first and the last index, and so do its neighbours
  have first : 0 ≤ rank := mul_nonneg (by linarith) low
  have last : rank ≤ (((sorted values).length : Int) - 1 : Int) := by
    push_cast
    exact mul_le_of_le_one_right (by linarith) high
  have floorLow : 0 ≤ rank.floor := Rat.le_floor_iff.mpr (by exact_mod_cast first)
  have ceilHigh : rank.ceil ≤ ((sorted values).length : Int) - 1 := Rat.ceil_le_iff.mpr last
  have order : rank.floor ≤ rank.ceil := by
    exact_mod_cast (Rat.floor_le rank).trans Rat.le_ceil
  obtain ⟨lo, _, foundLo⟩ := indexed_ok floorLow (by omega : rank.floor < (sorted values).length)
  obtain ⟨hi, _, foundHi⟩ :=
    indexed_ok (by omega : 0 ≤ rank.ceil) (by omega : rank.ceil < (sorted values).length)
  simp only [percentile, ← rankEq]
  split
  · exact ⟨lo, foundLo⟩
  · exact ⟨_, by rw [foundLo, foundHi]; rfl⟩

/-- The median of a non-empty list is defined, and positive when its values are. -/
theorem median_ok {values : List ℚ} (nonempty : values ≠ []) :
    ∃ m, median values = .ok m ∧ ((∀ x ∈ values, 0 < x) → 0 < m) := by
  have size : 0 < (sorted values).length := by
    rw [length_sorted]
    exact List.length_pos_of_ne_nil nonempty
  have entry {i : Nat} (inside : i < (sorted values).length) :
      ∃ value ∈ values, indexed (sorted values) i = .ok value := by
    obtain ⟨value, member, found⟩ := indexed_ok (Int.natCast_nonneg i) (by exact_mod_cast inside)
    exact ⟨value, mem_sorted.mp member, found⟩
  simp only [median]
  rw [if_neg (by omega)]
  split
  · obtain ⟨value, member, found⟩ := entry (i := (sorted values).length / 2) (by omega)
    exact ⟨value, found, fun positive => positive value member⟩
  · obtain ⟨lo, memberLo, foundLo⟩ := entry (i := (sorted values).length / 2 - 1) (by omega)
    obtain ⟨hi, memberHi, foundHi⟩ := entry (i := (sorted values).length / 2) (by omega)
    refine ⟨(lo + hi) / 2, by rw [foundLo, foundHi]; rfl, fun positive => ?_⟩
    linarith [positive lo memberLo, positive hi memberHi]

theorem maximum_ok {values : List ℚ} (nonempty : values ≠ []) :
    ∃ value, maximum values = .ok value := by
  cases values with
  | nil => exact absurd rfl nonempty
  | cons x xs => exact ⟨_, rfl⟩

theorem minimum_ok {values : List ℚ} (nonempty : values ≠ []) :
    ∃ value, minimum values = .ok value := by
  cases values with
  | nil => exact absurd rfl nonempty
  | cons x xs => exact ⟨_, rfl⟩

theorem divide_ok {b : ℚ} (nonzero : b ≠ 0) (a : ℚ) : divide a b = .ok (a / b) := by
  rw [divide, if_neg nonzero]

end AlphaPipeline.Bench

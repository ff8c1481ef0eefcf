import AlphaPipeline.Bench.Agreement
import AlphaPipeline.Library.OrderStatistics

/-!
# What the trials say of the decision

The interval of `bootstrap_speedup` is made of ratios of medians of resampled trials, and the draws
are arbitrary here. A bound on the ratio of every single trial is a bound on each of its figures, so
that the gate cannot decide against all the trials of a cell. Floats are exact numbers here: the
rounding of a median may hide a difference between the trials.
-/
namespace AlphaPipeline.Bench

open PyJson PyJson.Json Fallible OrderStatistics

/-! ### Percentiles -/

theorem pairwise_sorted (values : List ℚ) : (sorted values).Pairwise (· ≤ ·) :=
  List.pairwise_insertionSort _ _

theorem indexed_eq {values : List ℚ} {i : ℤ} (low : 0 ≤ i) (high : i < values.length) :
    indexed values i = .ok (entry values i) := by
  have inside : i.toNat < values.length := by omega
  simp only [indexed, if_neg (not_lt.mpr low), List.getElem?_eq_getElem inside,
    entry_eq_getElem inside]

theorem ceil_eq (rank : ℚ) : rank.ceil = ⌈rank⌉ :=
  eq_of_forall_ge_iff fun _ => Rat.ceil_le_iff.trans Int.ceil_le.symm

/-- The sorted values read at the rank of a quantile. -/
def quantile (values : List ℚ) (q : ℚ) : ℚ :=
  interpolate (entry (sorted values)) ((values.length - 1) * q)

theorem percentile_eq {values : List ℚ} {q : ℚ} (nonempty : values ≠ []) (low : 0 ≤ q)
    (high : q ≤ 1) : percentile values q = .ok (quantile values q) := by
  have size : (1 : ℚ) ≤ values.length := by exact_mod_cast List.length_pos_of_ne_nil nonempty
  rw [quantile]
  set rank := ((values.length : ℚ) - 1) * q with rankEq
  have first : 0 ≤ rank := mul_nonneg (by linarith) low
  have last : rank ≤ ((values.length : ℤ) - 1 : ℤ) := by
    push_cast
    exact mul_le_of_le_one_right (by linarith) high
  have floorLow : 0 ≤ ⌊rank⌋ := Int.floor_nonneg.mpr first
  have ceilHigh : ⌈rank⌉ ≤ (values.length : ℤ) - 1 := Int.ceil_le.mpr last
  have order := Int.floor_le_ceil rank
  have foundLo : indexed (sorted values) ⌊rank⌋ = .ok (entry (sorted values) ⌊rank⌋) :=
    indexed_eq floorLow (by rw [length_sorted]; omega)
  have foundHi : indexed (sorted values) ⌈rank⌉ = .ok (entry (sorted values) ⌈rank⌉) :=
    indexed_eq (by omega) (by rw [length_sorted]; omega)
  have floorEq : rank.floor = ⌊rank⌋ := rfl
  simp only [percentile, length_sorted, ← rankEq, ceil_eq, floorEq]
  split
  next same =>
    rw [foundLo, interpolate, ← same, sub_self, zero_mul, add_zero]
  next =>
    rw [foundLo, foundHi]
    rfl

/-- The median is the fiftieth percentile. -/
theorem median_eq {values : List ℚ} (nonempty : values ≠ []) :
    median values = .ok (quantile values (1 / 2)) := by
  have size := List.length_pos_of_ne_nil nonempty
  have at_ {i : Nat} (inside : i < values.length) :
      indexed (sorted values) i = .ok (entry (sorted values) i) :=
    indexed_eq (Int.natCast_nonneg i) (by rw [length_sorted]; exact_mod_cast inside)
  simp only [median, length_sorted]
  rw [if_neg (by omega), quantile]
  rcases Nat.even_or_odd' values.length with ⟨m, even | odd⟩
  · -- The rank lies in the middle of two indices.
    have positive : 1 ≤ m := by omega
    have rank : ((values.length : ℚ) - 1) * (1 / 2) = ((m - 1 : Nat) : ℚ) + 1 / 2 := by
      rw [even]
      push_cast [positive]
      ring
    have floorEq : ⌊((m - 1 : Nat) : ℚ) + 1 / 2⌋ = ((m - 1 : Nat) : ℤ) := by
      rw [Int.floor_eq_iff]
      constructor <;> push_cast <;> linarith
    have ceilEq : ⌈((m - 1 : Nat) : ℚ) + 1 / 2⌉ = (m : ℤ) := by
      rw [Int.ceil_eq_iff]
      constructor <;> push_cast [positive] <;> linarith
    rw [if_neg (by omega), show values.length / 2 = m by omega, at_ (by omega), at_ (by omega),
      rank, interpolate, floorEq, ceilEq]
    simp only [bind_ok, Except.ok.injEq]
    push_cast
    ring
  · have rank : ((values.length : ℚ) - 1) * (1 / 2) = (m : ℚ) := by
      rw [odd]
      push_cast
      ring
    rw [if_pos (by omega), show values.length / 2 = m by omega, at_ (by omega), rank, interpolate,
      Int.floor_natCast, Int.ceil_natCast, sub_self, zero_mul, add_zero]

theorem quantile_le {xs ys : List ℚ} (below : List.Forall₂ (· ≤ ·) xs ys) (q : ℚ) :
    quantile xs q ≤ quantile ys q := by
  rw [quantile, quantile, below.length_eq]
  exact interpolate_le (entry_le (insertionSort_le below)) _

theorem quantile_mul {k : ℚ} (positive : 0 < k) (values : List ℚ) (q : ℚ) :
    quantile (values.map (k * ·)) q = k * quantile values q := by
  have ordered : sorted (values.map (k * ·)) = (sorted values).map (k * ·) := by
    refine (List.map_insertionSort (· ≤ ·) (· ≤ ·) (k * ·) values fun a _ b _ => ?_).symm
    exact (mul_le_mul_iff_right₀ positive).symm
  have scaled : entry (sorted (values.map (k * ·))) = fun i => k * entry (sorted values) i := by
    funext i
    rw [ordered]
    exact entry_map (mul_zero k) i
  rw [quantile, quantile, List.length_map, scaled, interpolate_mul]

section Bounds

variable {values : List ℚ} (nonempty : values ≠ [])

include nonempty

private theorem entry_sorted_mem (i : ℤ) : entry (sorted values) i ∈ values := by
  refine mem_sorted.mp (entry_mem ?_ i)
  rw [← List.length_pos_iff, length_sorted]
  exact List.length_pos_of_ne_nil nonempty

/-- A quantile lies between two of the values. -/
theorem quantile_between (q : ℚ) : ∃ low ∈ values, ∃ high ∈ values,
    low ≤ quantile values q ∧ quantile values q ≤ high :=
  ⟨_, entry_sorted_mem nonempty _, _, entry_sorted_mem nonempty _,
    floor_le_interpolate (entry_mono (pairwise_sorted values)) _,
    interpolate_le_ceil (entry_mono (pairwise_sorted values)) _⟩

theorem quantile_mono : Monotone (quantile values) := by
  intro p q order
  have size : (1 : ℚ) ≤ values.length := by exact_mod_cast List.length_pos_of_ne_nil nonempty
  exact interpolate_mono (entry_mono (pairwise_sorted values))
    (mul_le_mul_of_nonneg_left order (by linarith))

theorem le_quantile {k : ℚ} (low : ∀ x ∈ values, k ≤ x) (q : ℚ) : k ≤ quantile values q := by
  obtain ⟨x, member, -, -, below, -⟩ := quantile_between nonempty q
  exact (low x member).trans below

theorem quantile_le_of_forall {k : ℚ} (high : ∀ x ∈ values, x ≤ k) (q : ℚ) :
    quantile values q ≤ k := by
  obtain ⟨-, -, x, member, -, above⟩ := quantile_between nonempty q
  exact above.trans (high x member)

theorem quantile_pos (positive : ∀ x ∈ values, 0 < x) (q : ℚ) : 0 < quantile values q := by
  obtain ⟨x, member, -, -, below, -⟩ := quantile_between nonempty q
  exact (positive x member).trans_le below

end Bounds

/-! ### The interval -/

/-- The ratio of two medians of paired samples. -/
def medianRatio (python candidate : List ℚ) : ℚ :=
  quantile python (1 / 2) / quantile candidate (1 / 2)

section Ratio

variable {python candidate : List ℚ} (nonempty : candidate ≠ [])
  (positive : ∀ c ∈ candidate, 0 < c) {k : ℚ} (factor : 0 < k)

include nonempty positive factor

/-- A factor by which every sample is faster is one by which the median is. -/
theorem le_medianRatio (faster : List.Forall₂ (fun p c => k * c ≤ p) python candidate) :
    k ≤ medianRatio python candidate := by
  have below : List.Forall₂ (· ≤ ·) (candidate.map (k * ·)) python :=
    List.forall₂_map_left_iff.mpr faster.flip
  rw [medianRatio, le_div_iff₀ (quantile_pos nonempty positive _), ← quantile_mul factor]
  exact quantile_le below _

theorem medianRatio_le (slower : List.Forall₂ (fun p c => p ≤ k * c) python candidate) :
    medianRatio python candidate ≤ k := by
  have above : List.Forall₂ (· ≤ ·) python (candidate.map (k * ·)) :=
    List.forall₂_map_right_iff.mpr slower
  rw [medianRatio, div_le_iff₀ (quantile_pos nonempty positive _), ← quantile_mul factor]
  exact quantile_le above _

end Ratio

theorem getElem_of_indexed {values : List ℚ} {i : Nat} {x : ℚ} (found : indexed values i = .ok x) :
    ∃ inside : i < values.length, values[i] = x := by
  simp only [indexed, if_neg (not_lt.mpr (Int.natCast_nonneg i)), Int.toNat_natCast] at found
  split at found
  next value there =>
    obtain rfl := Except.ok.inj found
    exact List.getElem?_eq_some_iff.mp there
  · cases found

/-- What holds of all pairs holds of the pairs that are drawn. -/
theorem resample_pairs {draws : Draws} {round : Nat} {python candidate xs ys : List ℚ}
    {R : ℚ → ℚ → Prop} (pairs : List.Forall₂ R python candidate)
    (drawsPython : resample draws python round = .ok xs)
    (drawsCandidate : resample draws candidate round = .ok ys) : List.Forall₂ R xs ys := by
  refine mapM_ok_pairs (fun position x y foundX foundY => ?_) drawsPython drawsCandidate
  obtain ⟨insideX, rfl⟩ := getElem_of_indexed foundX
  obtain ⟨insideY, rfl⟩ := getElem_of_indexed foundY
  exact pairs.get insideX insideY

theorem resample_all {draws : Draws} {round : Nat} {samples xs : List ℚ} {P : ℚ → Prop}
    (all : ∀ x ∈ samples, P x) (drawn : resample draws samples round = .ok xs) :
    xs ≠ [] ∧ ∀ x ∈ xs, P x := by
  have each : List.Forall₂ (fun _ => P) xs xs :=
    resample_pairs (List.forall₂_same.mpr all) drawn drawn
  refine ⟨?_, List.forall₂_same.mp each⟩
  have size := (mapM_ok_iff.mp drawn).length_eq
  rintro rfl
  cases size

theorem eq_of_divide {a b ratio : ℚ} (divided : divide a b = .ok ratio) : ratio = a / b := by
  unfold divide at divided
  split at divided
  · cases divided
  · exact (Except.ok.inj divided).symm

theorem estimate_ok {draws : Draws} {round : Nat} {python candidate : List ℚ} {ratio : ℚ}
    (estimated : estimate draws python candidate round = .ok ratio) :
    ∃ xs ys, resample draws python round = .ok xs ∧ resample draws candidate round = .ok ys ∧
      ratio = medianRatio xs ys := by
  simp only [estimate, bind_eq_ok] at estimated
  obtain ⟨a, ⟨xs, drawnX, medianX⟩, b, ⟨ys, drawnY, medianY⟩, divided⟩ := estimated
  have nonemptyX := (resample_all (P := fun _ => True) (fun _ _ => trivial) drawnX).1
  have nonemptyY := (resample_all (P := fun _ => True) (fun _ _ => trivial) drawnY).1
  rw [median_eq nonemptyX, Except.ok.injEq] at medianX
  rw [median_eq nonemptyY, Except.ok.injEq] at medianY
  subst medianX medianY
  exact ⟨xs, ys, drawnX, drawnY, eq_of_divide divided⟩

/-- `bootstrap_speedup` on samples it does not refuse. -/
structure Bootstrapped (draws : Draws) (python candidate : List Json) (ps cs ratios : List ℚ)
    (ci : Speedup) : Prop where
  python : python.mapM number = .ok ps
  candidate : candidate.mapM number = .ok cs
  sizes : ps.length = 30 ∧ cs.length = 30
  positive : ∀ c ∈ cs, 0 < c
  estimates : (List.range 10000).mapM (estimate draws ps cs) = .ok ratios
  many : ratios ≠ []
  speedup : ci.speedup = medianRatio ps cs
  low : ci.ci95Low = quantile ratios (25 / 1000)
  high : ci.ci95High = quantile ratios (975 / 1000)

theorem bootstrapSpeedup_shape {draws : Draws} {python candidate : List Json} {ci : Speedup}
    (ok : bootstrapSpeedup draws python candidate = .ok ci) :
    ∃ ps cs ratios, Bootstrapped draws python candidate ps cs ratios ci := by
  simp only [bootstrapSpeedup, bind_eq_ok, raiseIf_eq_ok, Except.ok.injEq] at ok
  obtain ⟨_, sizes, _, positive, ps, foundP, cs, foundC, ratios, estimated, a, medianA, b, medianB,
    point, divided, low, foundLow, high, foundHigh, rfl⟩ := ok
  have lengthP := (mapM_ok_iff.mp foundP).length_eq
  have lengthC := (mapM_ok_iff.mp foundC).length_eq
  have thirty : ps.length = 30 ∧ cs.length = 30 := by
    simp only [requiredTrials, Bool.or_eq_false_iff, bne_eq_false_iff_eq] at sizes
    omega
  have nonempty {xs : List ℚ} (size : xs.length = 30) : xs ≠ [] := by
    rintro rfl
    cases size
  have many : ratios ≠ [] := by
    have size := (mapM_ok_iff.mp estimated).length_eq
    rintro rfl
    rw [List.length_range] at size
    cases size
  rw [median_eq (nonempty thirty.1), Except.ok.injEq] at medianA
  rw [median_eq (nonempty thirty.2), Except.ok.injEq] at medianB
  rw [percentile_eq many (by norm_num) (by norm_num), Except.ok.injEq] at foundLow foundHigh
  subst medianA medianB foundLow foundHigh
  refine ⟨ps, cs, ratios, foundP, foundC, thirty, ?_, estimated, many, eq_of_divide divided, rfl,
    rfl⟩
  intro c member
  obtain ⟨value, there, found⟩ := mapM_ok_result foundC c member
  have number : positiveNumber value = true := by
    simpa using List.any_eq_false.mp positive value (List.mem_append_right _ there)
  obtain ⟨x, same, above⟩ := positiveNumber_iff number
  rw [found, Except.ok.injEq] at same
  exact same ▸ above

namespace Bootstrapped

variable {draws : Draws} {python candidate : List Json} {ps cs ratios : List ℚ} {ci : Speedup}
  (run : Bootstrapped draws python candidate ps cs ratios ci)

include run

theorem ordered : ci.ci95Low ≤ ci.ci95High := by
  rw [run.low, run.high]
  exact quantile_mono run.many (by norm_num)

theorem nonempty : cs ≠ [] := by
  intro none
  have size := run.sizes.2
  rw [none] at size
  cases size

/-- What holds of the medians of any trials drawn holds of the estimates. -/
private theorem ratios_all {R : ℚ → ℚ → Prop} {P : ℚ → Prop} (pairs : List.Forall₂ R ps cs)
    (each : ∀ xs ys, ys ≠ [] → (∀ y ∈ ys, 0 < y) → List.Forall₂ R xs ys → P (medianRatio xs ys)) :
    ∀ ratio ∈ ratios, P ratio := by
  intro ratio member
  obtain ⟨round, -, estimated⟩ := mapM_ok_result run.estimates ratio member
  obtain ⟨xs, ys, drawnX, drawnY, rfl⟩ := estimate_ok estimated
  obtain ⟨nonempty, positive⟩ := resample_all run.positive drawnY
  exact each xs ys nonempty positive (resample_pairs pairs drawnX drawnY)

variable {k : ℚ} (factor : 0 < k)

include factor

theorem faster (pairs : List.Forall₂ (fun p c => k * c ≤ p) ps cs) :
    k ≤ ci.speedup ∧ k ≤ ci.ci95Low := by
  rw [run.speedup, run.low]
  refine ⟨le_medianRatio run.nonempty run.positive factor pairs, le_quantile run.many ?_ _⟩
  exact run.ratios_all pairs fun xs ys nonempty positive drawn =>
    le_medianRatio nonempty positive factor drawn

theorem slower (pairs : List.Forall₂ (fun p c => p ≤ k * c) ps cs) :
    ci.speedup ≤ k ∧ ci.ci95High ≤ k := by
  rw [run.speedup, run.high]
  refine ⟨medianRatio_le run.nonempty run.positive factor pairs,
    quantile_le_of_forall run.many ?_ _⟩
  exact run.ratios_all (P := (· ≤ k)) pairs fun xs ys nonempty positive drawn =>
    medianRatio_le nonempty positive factor drawn

end Bootstrapped

/-! ### The cells -/

/-- The document of a cell. -/
def cellDoc (files : List (String × Json)) (benchCase : BenchCase) (concurrency : Nat)
    (variant : String) : Json :=
  let inCell (doc : Json) : Bool :=
    match keyOf doc with
    | .ok key => key.eq (.str benchCase.name, .int concurrency, .str variant)
    | .error _ => false
  ((files.map Prod.snd).find? inCell).getD .null

/-- The times of a document. -/
def samplesOf (doc : Json) : List ℚ := ((doc.field "samples_ms").items?.getD []).filterMap number?

/-- The trials of a cell: the time of Python and that of the candidate. -/
def trialPairs (files : List (String × Json)) (candidate : String) (benchCase : BenchCase)
    (concurrency : Nat) : List (ℚ × ℚ) :=
  (samplesOf (cellDoc files benchCase concurrency "python")).zip
    (samplesOf (cellDoc files benchCase concurrency candidate))

private theorem filterMap_number {values : List Json} {numbers : List ℚ}
    (read : values.mapM number = .ok numbers) : values.filterMap number? = numbers := by
  have pairs := mapM_ok_iff.mp read
  clear read
  induction pairs with
  | nil => rfl
  | @cons value x _ _ first _ ih =>
    have found : value.number? = some x := by
      unfold number at first
      split at first
      next y same =>
        obtain rfl := Except.ok.inj first
        exact same
      · cases first
    rw [List.filterMap_cons_some found, ih]

private theorem loaded_eq {files : List (String × Json)} {docs : List Json}
    (loaded : files.mapM load = .ok docs) : docs = files.map Prod.snd := by
  have pairs := mapM_ok_iff.mp loaded
  clear loaded
  induction pairs with
  | nil => rfl
  | @cons file doc _ _ first _ ih =>
    simp only [load, bind_eq_ok, Except.ok.injEq] at first
    obtain ⟨_, _, rfl⟩ := first
    rw [ih, List.map_cons]

private theorem docAt_eq {files : List (String × Json)} {keys : List Key} {benchCase : BenchCase}
    {concurrency : Nat} {variant : String} {doc : Json}
    (keyed : (files.map Prod.snd).mapM keyOf = .ok keys)
    (found : docAt (keys.zip (files.map Prod.snd)) benchCase concurrency (.str variant) = .ok doc) :
    cellDoc files benchCase concurrency variant = doc := by
  have pairs := mapM_ok_iff.mp keyed
  clear keyed
  unfold cellDoc
  unfold docAt at found
  generalize files.map Prod.snd = docs at pairs found ⊢
  induction pairs with
  | nil => cases found
  | @cons head key docs keys first _ ih =>
    rw [List.zip_cons_cons] at found
    dsimp only at found ih ⊢
    cases same : key.eq (.str benchCase.name, .int concurrency, .str variant) with
    | true =>
      rw [List.find?_cons_of_pos (by exact same)] at found
      rw [List.find?_cons_of_pos (by rw [first]; exact same)]
      exact Except.ok.inj found
    | false =>
      rw [List.find?_cons_of_neg (by simp [same])] at found
      rw [List.find?_cons_of_neg (by rw [first]; simp [same])]
      exact ih found

/-- A comparison is of the two documents of its cell. -/
structure Compared (limits : Limits) (files : List (String × Json)) (comparison : Comparison) :
    Prop where
  listed : comparison.benchCase ∈ cases ∧ comparison.concurrency ∈ concurrencies
  bootstrapped : ∃ ps cs ratios, Bootstrapped limits.draws
    (((cellDoc files comparison.benchCase comparison.concurrency "python").field
      "samples_ms").items?.getD [])
    (((cellDoc files comparison.benchCase comparison.concurrency limits.candidate).field
      "samples_ms").items?.getD []) ps cs ratios comparison.ci
  go : comparison.go = true ↔ 1 < comparison.ci.ci95Low ∧
    comparison.rssRatio ≤ limits.maxRssRatio ∧ comparison.cpuRatio ≤ limits.maxCpuRatio

private theorem compareCell_compared {limits : Limits} {files : List (String × Json)}
    {keys : List Key} {latency : List (Key × Latency)} {benchCase : BenchCase} {concurrency : Nat}
    {comparison : Comparison} (keyed : (files.map Prod.snd).mapM keyOf = .ok keys)
    (known : benchCase ∈ cases) (listed : concurrency ∈ concurrencies)
    (compared : compareCell limits (keys.zip (files.map Prod.snd)) latency benchCase concurrency =
      .ok comparison) :
    Compared limits files comparison ∧ comparison.benchCase = benchCase ∧
      comparison.concurrency = concurrency := by
  simp only [compareCell, bind_eq_ok, Except.ok.injEq] at compared
  obtain ⟨py, foundPy, other, foundOther, _, _, ci, bootstrap, _, _, _, _, _, _, _, _, rfl⟩ :=
    compared
  refine ⟨⟨⟨known, listed⟩, ?_, ?_⟩, rfl, rfl⟩
  · rw [docAt_eq keyed foundPy, docAt_eq keyed foundOther]
    exact bootstrapSpeedup_shape bootstrap
  · simp [and_assoc]

/-- The comparisons of a report are those of all cells. -/
theorem evaluate_compared {limits : Limits} {files : List (String × Json)} {report : Report}
    (decided : evaluate limits files = .ok report) :
    (∀ comparison ∈ report.comparisons, Compared limits files comparison) ∧
      (∀ benchCase ∈ cases, ∀ concurrency ∈ concurrencies, ∃ comparison ∈ report.comparisons,
        comparison.benchCase = benchCase ∧ comparison.concurrency = concurrency) ∧
      (report.decision = "GO" ↔ ∀ comparison ∈ report.comparisons, comparison.go = true) := by
  simp only [evaluate, bind_eq_ok, Except.ok.injEq] at decided
  obtain ⟨_, _, _, _, docs, loaded, keys, keyed, _, _, latency, _, _, _, _, _, _, _, comparisons,
    compared, rfl⟩ := decided
  obtain rfl := loaded_eq loaded
  have each {benchCase : BenchCase} (known : benchCase ∈ cases) {ofCase : List Comparison}
      (made : compareCase limits (keys.zip (files.map Prod.snd)) (keys.zip latency)
        (supplied keys) benchCase = .ok ofCase) :
      concurrencies.mapM (compareCell limits (keys.zip (files.map Prod.snd)) (keys.zip latency)
        benchCase) = .ok ofCase := by
    simp only [compareCase, bind_eq_ok] at made
    obtain ⟨_, _, _, _, _, _, made⟩ := made
    exact made
  refine ⟨fun comparison member => ?_, fun benchCase known concurrency listed => ?_, ?_⟩
  · obtain ⟨ofCase, here, inCase⟩ := List.mem_flatten.mp member
    obtain ⟨benchCase, known, made⟩ := mapM_ok_result compared ofCase here
    obtain ⟨concurrency, listed, cell⟩ := mapM_ok_result (each known made) comparison inCase
    exact (compareCell_compared keyed known listed cell).1
  · obtain ⟨ofCase, here, made⟩ := mapM_ok_element compared benchCase known
    obtain ⟨comparison, inCase, cell⟩ := mapM_ok_element (each known made) concurrency listed
    exact ⟨comparison, List.mem_flatten.mpr ⟨ofCase, here, inCase⟩,
      (compareCell_compared keyed known listed cell).2⟩
  · by_cases all : comparisons.flatten.all (·.go) = true
    · exact ⟨fun _ => List.all_eq_true.mp all, fun _ => if_pos all⟩
    · refine ⟨fun go => ?_, fun each => absurd (List.all_eq_true.mpr each) all⟩
      rw [if_neg all] at go
      exact absurd (show "NO-GO" = "GO" from go) (by decide)

/-! ### Decisions -/

namespace Compared

variable {limits : Limits} {files : List (String × Json)} {comparison : Comparison}
  (compared : Compared limits files comparison)

include compared

/-- The trials of a comparison, and the bounds they give. -/
theorem bounds :
    let trials := trialPairs files limits.candidate comparison.benchCase comparison.concurrency
    trials.length = 30 ∧ (∀ t ∈ trials, 0 < t.2) ∧
      comparison.ci.ci95Low ≤ comparison.ci.ci95High ∧
      ∀ k, 0 < k →
        ((∀ t ∈ trials, k * t.2 ≤ t.1) →
          k ≤ comparison.ci.speedup ∧ k ≤ comparison.ci.ci95Low) ∧
        ((∀ t ∈ trials, t.1 ≤ k * t.2) →
          comparison.ci.speedup ≤ k ∧ comparison.ci.ci95High ≤ k) := by
  obtain ⟨ps, cs, ratios, run⟩ := compared.bootstrapped
  have sizes := run.sizes
  rw [trialPairs, samplesOf, samplesOf, filterMap_number run.python, filterMap_number run.candidate]
  refine ⟨by rw [List.length_zip]; omega, fun t member => ?_, run.ordered, fun k factor => ⟨?_, ?_⟩⟩
  · exact run.positive t.2 (List.of_mem_zip member).2
  · intro each
    exact run.faster factor (List.forall₂_iff_zip.mpr ⟨by omega, fun pair => each _ pair⟩)
  · intro each
    exact run.slower factor (List.forall₂_iff_zip.mpr ⟨by omega, fun pair => each _ pair⟩)

end Compared

/-- Trials that are all faster are so by one factor. -/
private theorem exists_factor {trials : List (ℚ × ℚ)} (positive : ∀ t ∈ trials, 0 < t.2)
    (faster : ∀ t ∈ trials, t.2 < t.1) : ∃ k > 1, ∀ t ∈ trials, k * t.2 ≤ t.1 := by
  induction trials with
  | nil => exact ⟨2, by norm_num, nofun⟩
  | cons t trials ih =>
    rw [List.forall_mem_cons] at positive faster
    obtain ⟨k, above, each⟩ := ih positive.2 faster.2
    refine ⟨min k (t.1 / t.2), lt_min above ((one_lt_div positive.1).mpr faster.1), ?_⟩
    rw [List.forall_mem_cons]
    refine ⟨(le_div_iff₀ positive.1).mp (min_le_right _ _), fun other member => ?_⟩
    exact (mul_le_mul_of_nonneg_right (min_le_left _ _) (positive.2 other member).le).trans
      (each other member)

/-- Whatever the draws of the bootstrap, a factor by which the candidate is faster in every trial of
a cell bounds the speedup and its interval from below, one by which it is at most faster bounds them
from above, and the interval is not inverted. So the gate never says GO when in some cell the
candidate is faster in no trial, and it says GO when the candidate is faster in all trials and
within the limits of the resources. Floats are read as exact numbers. -/
theorem gate_follows_trials {limits : Limits} {files : List (String × Json)} {report : Report}
    (decided : evaluate limits files = .ok report) :
    (∀ comparison ∈ report.comparisons,
      let trials := trialPairs files limits.candidate comparison.benchCase comparison.concurrency
      trials.length = 30 ∧ (∀ t ∈ trials, 0 < t.2) ∧
        comparison.ci.ci95Low ≤ comparison.ci.ci95High ∧
        ∀ k, 0 < k →
          ((∀ t ∈ trials, k * t.2 ≤ t.1) →
            k ≤ comparison.ci.speedup ∧ k ≤ comparison.ci.ci95Low) ∧
          ((∀ t ∈ trials, t.1 ≤ k * t.2) →
            comparison.ci.speedup ≤ k ∧ comparison.ci.ci95High ≤ k)) ∧
      (report.decision = "GO" → ∀ benchCase ∈ cases, ∀ concurrency ∈ concurrencies,
        ∃ t ∈ trialPairs files limits.candidate benchCase concurrency, t.2 < t.1) ∧
      ((∀ benchCase ∈ cases, ∀ concurrency ∈ concurrencies,
          ∀ t ∈ trialPairs files limits.candidate benchCase concurrency, t.2 < t.1) →
        (∀ comparison ∈ report.comparisons, comparison.rssRatio ≤ limits.maxRssRatio ∧
          comparison.cpuRatio ≤ limits.maxCpuRatio) →
        report.decision = "GO") := by
  obtain ⟨compared, covered, decision⟩ := evaluate_compared decided
  refine ⟨fun comparison member => (compared comparison member).bounds,
    fun go benchCase known concurrency listed => ?_, fun faster within => ?_⟩
  · obtain ⟨comparison, member, rfl, rfl⟩ := covered benchCase known concurrency listed
    obtain ⟨-, -, ordered, bounds⟩ := (compared comparison member).bounds
    by_contra none
    push Not at none
    -- Without a faster trial the interval lies below 1.
    have high := ((bounds 1 one_pos).2 (by simpa using none)).2
    have low := ((compared comparison member).go.mp (decision.mp go comparison member)).1
    linarith
  · refine decision.mpr fun comparison member => (compared comparison member).go.mpr ?_
    have listed := (compared comparison member).listed
    obtain ⟨-, positive, -, bounds⟩ := (compared comparison member).bounds
    obtain ⟨k, above, each⟩ := exists_factor positive (faster _ listed.1 _ listed.2)
    have low := ((bounds k (by linarith)).1 each).2
    exact ⟨by linarith, within comparison member⟩

/-- The gate decides on the documents of a small run. -/
theorem gate_follows_small_trials : ∃ files report,
    evaluate ⟨fun _ _ => ⟨0, by decide⟩, "c", 1, 1⟩ files = .ok report ∧
      ∀ comparison ∈ report.comparisons, comparison.ci.ci95Low ≤ comparison.ci.ci95High := by
  obtain ⟨records, executed, printed⟩ :=
    smallRun_ok smallHost fun variant _ => caseDependency variant .redisHotPath
  obtain ⟨docs, -, decides⟩ := evaluate_executed (fun _ _ => ⟨0, by decide⟩) executed
    (smallOutput_emitted printed) smallAttestations_real
  obtain ⟨report, decided⟩ := (decides "c" (by decide)).mpr (smallRun_one_build printed)
  exact ⟨_, report, decided, fun comparison member =>
    ((gate_follows_trials decided).1 comparison member).2.2.1⟩

end AlphaPipeline.Bench

import AlphaPipeline.Bench.Driver
import AlphaPipeline.Library.Decimal
import AlphaPipeline.Library.Interleaving
import Mathlib.Data.String.Basic

/-!
# The workers of the adapters

The Rust and the Python adapter cut the iterations of a case into ranges, one for each worker.
What the server answers is given for every operation. The Rust workers keep their completions to
themselves until they end; the Python workers append to one list in any order. Both sort the
completions by their tokens in the end, whose order is that of their code points.
-/
namespace AlphaPipeline.Bench

/-! ### The code -/

/-- How an operation ends: with the expected answer or another one, after so many nanoseconds, or
with an error. -/
inductive Answer where
  | expected (elapsed : Nat)
  | unexpected (elapsed : Nat)
  | failed

/-- The answers of the server, by iteration and place of the operation. -/
abbrev Answers := Nat → Nat → Answer

/-- A token and the latency of its operation. -/
abbrev Completion := String × Nat

/-- What a case returns of its workers. -/
structure CaseRun where
  tokens : List String
  latencies : List Nat
  errors : Nat
  deriving DecidableEq

/-- `distribute`, of both adapters. -/
def distribute (total workers : Nat) : List Nat :=
  let quotient := total / workers
  let remainder := total % workers
  (List.range workers).map fun index => quotient + if index < remainder then 1 else 0

/-- `redis_iteration` and `db_iteration` of the Rust adapter: an operation that does not end as
expected ends the iteration without completions. -/
def rustIteration (iteration : Nat) (answers : Nat → Answer) (operations : List String) :
    Option (List Completion) :=
  operations.zipIdx.mapM fun operation =>
    match answers operation.2 with
    | .expected elapsed => some (token iteration operation.1, max elapsed 1)
    | .unexpected _ | .failed => none

/-- The body of a Rust task: its completions and how often it counts an error. -/
def rustTask (operations : List String) (answers : Answers) (range : Nat × Nat) :
    List Completion × Nat :=
  (List.range' range.1 range.2).foldl (fun done iteration =>
    match rustIteration iteration (answers iteration) operations with
    | some values => (done.1 ++ values, done.2)
    | none => (done.1, done.2 + 1)) ([], 0)

/-- The ranges of the Rust tasks, with the running `first`. -/
def rustRanges (counts : List Nat) : List (Nat × Nat) :=
  (counts.foldl (fun (tasks, first) iterations =>
    (tasks ++ [(first, iterations)], first + iterations)) ([], 0)).1

/-- What the Rust adapter makes of its workers' completions. -/
def rustCollect (outs : List (List Completion × Nat)) : CaseRun :=
  let completed := (outs.flatMap Prod.fst).insertionSort fun left right => left.1 ≤ right.1
  ⟨completed.map Prod.fst, completed.map Prod.snd, (outs.map Prod.snd).sum⟩

/-- `redis_case` and `db_case` of the Rust adapter, as far as their completions go. -/
def rustCase (config : CaseConfig) (concurrency : Nat) (answers : Answers) : CaseRun :=
  rustCollect ((rustRanges (distribute config.repeats.toNat concurrency)).map
    (rustTask config.operations answers))

/-- An iteration of a Python worker, from an operation on: an exception leaves out the operations
that follow, and an unexpected answer is counted and completed. -/
def pythonIteration (iteration : Nat) (answers : Nat → Answer) :
    List (String × Nat) → List Completion × Nat
  | [] => ([], 0)
  | operation :: rest =>
    let later := pythonIteration iteration answers rest
    match answers operation.2 with
    | .expected elapsed => ((token iteration operation.1, elapsed) :: later.1, later.2)
    | .unexpected elapsed => ((token iteration operation.1, elapsed) :: later.1, later.2 + 1)
    | .failed => ([], 1)

/-- `worker` of the Python adapter: what it appends, and how often it counts an error. -/
def pythonWorker (operations : List String) (answers : Answers) (range : Nat × Nat) :
    List Completion × Nat :=
  (List.range' range.1 range.2).foldl (fun done iteration =>
    let values := pythonIteration iteration (answers iteration) operations.zipIdx
    (done.1 ++ values.1, done.2 + values.2)) ([], 0)

/-- The ranges of the Python workers: `zip(starts, counts)`. -/
def pythonRanges (counts : List Nat) (concurrency : Nat) : List (Nat × Nat) :=
  ((List.range concurrency).map fun index => (counts.take index).sum).zip counts

/-- The order of Python's tuples. -/
def tupleLe (left right : Completion) : Prop :=
  left.1 < right.1 ∨ left.1 = right.1 ∧ left.2 ≤ right.2

instance : DecidableRel tupleLe := fun _ _ => inferInstanceAs (Decidable (_ ∨ _))

/-- What the Python adapter makes of its workers' completions, which they append in some order;
without result if it does not let every worker end. -/
def pythonCollect (appends : List Nat) (outs : List (List Completion × Nat)) : Option CaseRun := do
  let completions ← Interleaving.interleave appends (outs.map Prod.fst)
  let completions := completions.insertionSort tupleLe
  some ⟨completions.map Prod.fst, completions.map Prod.snd, (outs.map Prod.snd).sum⟩

/-- `redis_case` and `db_case` of the Python adapter, under a schedule of their appends. -/
def pythonCase (config : CaseConfig) (concurrency : Nat) (answers : Answers)
    (schedule : List Nat) : Option CaseRun :=
  pythonCollect schedule
    ((pythonRanges (distribute config.repeats.toNat concurrency) concurrency).map
      (pythonWorker config.operations answers))

/-! ### Ranges -/

/-- The ranges that follow each other from a number on. -/
def rangesFrom (first : Nat) : List Nat → List (Nat × Nat)
  | [] => []
  | count :: counts => (first, count) :: rangesFrom (first + count) counts

theorem rustRanges_eq (counts : List Nat) : rustRanges counts = rangesFrom 0 counts := by
  have loop (counts : List Nat) (tasks : List (Nat × Nat)) (first : Nat) :
      (counts.foldl (fun (tasks, first) iterations =>
        (tasks ++ [(first, iterations)], first + iterations)) (tasks, first)).1 =
        tasks ++ rangesFrom first counts := by
    induction counts generalizing tasks first with
    | nil => exact (List.append_nil tasks).symm
    | cons count counts ih =>
      rw [List.foldl_cons, ih, rangesFrom, List.append_assoc]
      rfl
  exact loop counts [] 0

theorem pythonRanges_eq (counts : List Nat) :
    pythonRanges counts counts.length = rangesFrom 0 counts := by
  have starts (counts : List Nat) (first : Nat) :
      ((List.range counts.length).map fun index => first + (counts.take index).sum).zip counts =
        rangesFrom first counts := by
    induction counts generalizing first with
    | nil => rfl
    | cons count counts ih =>
      rw [List.length_cons, List.range_succ_eq_map, List.map_cons, List.map_map, List.zip_cons_cons,
        rangesFrom, ← ih]
      simp [Function.comp_def, Nat.add_assoc]
  have whole := starts counts 0
  simp only [Nat.zero_add] at whole
  exact whole

theorem flatMap_rangesFrom (counts : List Nat) (first : Nat) :
    (rangesFrom first counts).flatMap (fun range => List.range' range.1 range.2) =
      List.range' first counts.sum := by
  induction counts generalizing first with
  | nil => rfl
  | cons count counts ih =>
    rw [rangesFrom, List.flatMap_cons, ih, List.sum_cons, List.range'_append_1]

theorem length_distribute (total workers : Nat) : (distribute total workers).length = workers := by
  rw [distribute, List.length_map, List.length_range]

/-- The counts add up to the total. -/
theorem sum_distribute {total workers : Nat} (some : 0 < workers) :
    (distribute total workers).sum = total := by
  -- the first counts, up to the remainder, have one more
  have first (k : Nat) : ((List.range k).map fun index =>
      total / workers + if index < total % workers then 1 else 0).sum =
        k * (total / workers) + min k (total % workers) := by
    induction k with
    | zero => simp
    | succ k ih =>
      rw [List.range_succ, List.map_append, List.sum_append, ih, List.map_singleton,
        List.sum_singleton, Nat.succ_mul]
      split <;> omega
  rw [distribute, first, Nat.min_eq_right (Nat.mod_lt total some).le, Nat.div_add_mod total workers]

theorem distribute_even {total workers a b : Nat} (first : a ∈ distribute total workers)
    (second : b ∈ distribute total workers) : a ≤ b + 1 := by
  obtain ⟨i, -, rfl⟩ := List.mem_map.mp first
  obtain ⟨j, -, rfl⟩ := List.mem_map.mp second
  split <;> split <;> omega

/-- The ranges of both adapters are the iterations, each once. -/
theorem ranges_partition (total : Nat) {workers : Nat} (some : 0 < workers) :
    pythonRanges (distribute total workers) workers = rustRanges (distribute total workers) ∧
      (rustRanges (distribute total workers)).flatMap (fun range => List.range' range.1 range.2) =
        List.range total := by
  have python := pythonRanges_eq (distribute total workers)
  rw [length_distribute] at python
  rw [python, rustRanges_eq, flatMap_rangesFrom, sum_distribute some, List.range_eq_range']
  exact ⟨rfl, rfl⟩

/-! ### Tokens -/

theorem token_toList {iteration : Nat} (short : iteration < 1000000) (id : String) :
    (token iteration id).toList = Decimal.fixedDecimal 6 iteration ++ ':' :: id.toList := by
  have digits := Decimal.fixedDecimal_padded (by decide : 0 < 6) short
  rw [token, String.toList_append, String.toList_append, String.toList_ofList, digits,
    List.append_assoc]
  rfl

/-- Tokens are ordered by their iterations, and then by their ids. -/
theorem token_lt_iff {i j : Nat} (short : i < 1000000) (short' : j < 1000000) (a b : String) :
    token i a < token j b ↔ i < j ∨ i = j ∧ a < b := by
  have length : (Decimal.fixedDecimal 6 i).length = (Decimal.fixedDecimal 6 j).length := by
    rw [Decimal.length_fixedDecimal, Decimal.length_fixedDecimal]
  rw [String.lt_iff_toList_lt, String.lt_iff_toList_lt, token_toList short, token_toList short',
    Decimal.append_lt_append_iff length, Decimal.fixedDecimal_lt_iff short short',
    Decimal.fixedDecimal_inj short short', List.cons_lt_cons_iff]
  simp

/-- The tokens of some iterations, in their order. -/
def tokensOf (operations : List String) (iterations : List Nat) : List String :=
  iterations.flatMap fun iteration => operations.map (token iteration)

theorem tokensOf_pairwise {operations : List String} (ascending : operations.Pairwise (· < ·))
    {total : Nat} (bound : total ≤ 1000000) :
    (tokensOf operations (List.range total)).Pairwise (· < ·) := by
  rw [tokensOf, List.pairwise_flatMap]
  refine ⟨fun i member => ?_, ?_⟩
  · have short : i < 1000000 := lt_of_lt_of_le (List.mem_range.mp member) bound
    exact List.pairwise_map.mpr (ascending.imp fun {a b} less =>
      (token_lt_iff short short a b).mpr (Or.inr ⟨rfl, less⟩))
  · refine (List.pairwise_lt_range.imp_of_mem fun {i j} first second less => ?_)
    intro x left y right
    obtain ⟨a, -, rfl⟩ := List.mem_map.mp left
    obtain ⟨b, -, rfl⟩ := List.mem_map.mp right
    exact (token_lt_iff (lt_of_lt_of_le (List.mem_range.mp first) bound)
      (lt_of_lt_of_le (List.mem_range.mp second) bound) a b).mpr (Or.inl less)

/-! ### Workers -/

/-- A worker that gathers, for each iteration of its range, completions and a number of errors. -/
def gather (values : Nat → List Completion × Nat) (range : Nat × Nat) : List Completion × Nat :=
  ((List.range' range.1 range.2).flatMap fun iteration => (values iteration).1,
    ((List.range' range.1 range.2).map fun iteration => (values iteration).2).sum)

theorem foldl_gather (values : Nat → List Completion × Nat) (range : Nat × Nat) :
    (List.range' range.1 range.2).foldl (fun done iteration =>
      (done.1 ++ (values iteration).1, done.2 + (values iteration).2)) ([], 0) =
        gather values range := by
  have loop (iterations : List Nat) (done : List Completion × Nat) :
      iterations.foldl (fun done iteration =>
        (done.1 ++ (values iteration).1, done.2 + (values iteration).2)) done =
        (done.1 ++ iterations.flatMap fun iteration => (values iteration).1,
          done.2 + (iterations.map fun iteration => (values iteration).2).sum) := by
    induction iterations generalizing done with
    | nil => simp
    | cons iteration iterations ih =>
      rw [List.foldl_cons, ih]
      simp [Nat.add_assoc]
  rw [loop, List.nil_append, Nat.zero_add]
  rfl

/-- What a Rust task makes of an iteration. -/
def rustValues (operations : List String) (answers : Answers) (iteration : Nat) :
    List Completion × Nat :=
  match rustIteration iteration (answers iteration) operations with
  | some values => (values, 0)
  | none => ([], 1)

/-- What a Python worker makes of an iteration. -/
def pythonValues (operations : List String) (answers : Answers) (iteration : Nat) :
    List Completion × Nat :=
  pythonIteration iteration (answers iteration) operations.zipIdx

theorem rustTask_eq (operations : List String) (answers : Answers) (range : Nat × Nat) :
    rustTask operations answers range = gather (rustValues operations answers) range := by
  rw [← foldl_gather, rustTask]
  congr 1
  funext done iteration
  rw [rustValues]
  cases rustIteration iteration (answers iteration) operations <;> simp

theorem pythonWorker_eq (operations : List String) (answers : Answers) (range : Nat × Nat) :
    pythonWorker operations answers range = gather (pythonValues operations answers) range := by
  rw [← foldl_gather]
  rfl

theorem map_of_mapM {α β γ : Type} {f : α → Option β} {g : β → γ} {h : α → γ}
    (same : ∀ x y, f x = some y → g y = h x) {xs : List α} {ys : List β}
    (all : xs.mapM f = some ys) : ys.map g = xs.map h := by
  induction xs generalizing ys with
  | nil =>
    obtain rfl := Option.some.inj all
    rfl
  | cons x xs ih =>
    rw [List.mapM_cons] at all
    obtain ⟨y, first, rest⟩ := Option.bind_eq_some_iff.mp all
    obtain ⟨later, found, result⟩ := Option.bind_eq_some_iff.mp rest
    obtain rfl := Option.some.inj result
    rw [List.map_cons, List.map_cons, same x y first, ih found]

/-- A Rust iteration without error completes all its operations. -/
theorem rustValues_tokens {operations : List String} {answers : Answers} {iteration : Nat}
    (none : (rustValues operations answers iteration).2 = 0) :
    (rustValues operations answers iteration).1.map Prod.fst =
      operations.map (token iteration) := by
  rw [rustValues] at none ⊢
  cases values : rustIteration iteration (answers iteration) operations with
  | none => rw [values] at none; cases none
  | some completions =>
    have tokens := map_of_mapM (g := Prod.fst) (h := fun operation => token iteration operation.1)
      (fun operation completion => ?_) values
    · rw [← List.zipIdx_map_fst 0 operations, List.map_map]
      exact tokens
    · split
      next elapsed _ =>
        rintro ⟨⟩
        rfl
      · nofun
      · nofun

theorem pythonValues_tokens {operations : List String} {answers : Answers} {iteration : Nat}
    (none : (pythonValues operations answers iteration).2 = 0) :
    (pythonValues operations answers iteration).1.map Prod.fst =
      operations.map (token iteration) := by
  have steps (operations : List (String × Nat))
      (none : (pythonIteration iteration (answers iteration) operations).2 = 0) :
      (pythonIteration iteration (answers iteration) operations).1.map Prod.fst =
        (operations.map Prod.fst).map (token iteration) := by
    induction operations with
    | nil => rfl
    | cons operation rest ih =>
      rw [pythonIteration] at none ⊢
      cases answer : answers iteration operation.2 with
      | expected elapsed =>
        rw [answer] at none
        simp only [List.map_cons, ih none]
      | unexpected elapsed => rw [answer] at none; cases none
      | failed => rw [answer] at none; cases none
  have whole := steps operations.zipIdx none
  rwa [List.zipIdx_map_fst] at whole

/-- If no worker counts an error, all iterations are complete. -/
theorem gather_tokens {values : Nat → List Completion × Nat} {operations : List String}
    (complete : ∀ iteration, (values iteration).2 = 0 →
      (values iteration).1.map Prod.fst = operations.map (token iteration))
    {ranges : List (Nat × Nat)} {iterations : List Nat}
    (cover : ranges.flatMap (fun range => List.range' range.1 range.2) = iterations)
    (none : ((ranges.map (gather values)).map Prod.snd).sum = 0) :
    ((ranges.map (gather values)).flatMap Prod.fst).map Prod.fst =
      tokensOf operations iterations := by
  subst cover
  induction ranges with
  | nil => rfl
  | cons range ranges ih =>
    rw [List.map_cons, List.map_cons, List.sum_cons, Nat.add_eq_zero_iff] at none
    have first : (gather values range).1.map Prod.fst =
        tokensOf operations (List.range' range.1 range.2) := by
      rw [gather, tokensOf, List.map_flatMap]
      refine List.flatMap_congr fun iteration member => complete iteration ?_
      exact List.sum_eq_zero_iff.mp none.1 _ (List.mem_map.mpr ⟨iteration, member, rfl⟩)
    rw [List.map_cons, List.flatMap_cons, List.map_append, ih none.2, first, List.flatMap_cons,
      tokensOf, tokensOf, tokensOf, List.flatMap_append]

/-! ### Answers as expected -/

/-- The server answers the operations of the iterations as expected. -/
def AllExpected (answers : Answers) (iterations places : Nat) : Prop :=
  ∀ i < iterations, ∀ k < places, ∃ elapsed, answers i k = .expected elapsed

section Expected

variable {operations : List String} {answers : Answers} {iteration : Nat}
  (expected : ∀ k < operations.length, ∃ elapsed, answers iteration k = .expected elapsed)

include expected

theorem rustValues_errors : (rustValues operations answers iteration).2 = 0 := by
  have steps (operations : List (String × Nat))
      (expected : ∀ operation ∈ operations,
        ∃ elapsed, answers iteration operation.2 = .expected elapsed) :
      ∃ values, operations.mapM (fun operation =>
        match answers iteration operation.2 with
        | .expected elapsed => some (token iteration operation.1, max elapsed 1)
        | .unexpected _ | .failed => none) = some values := by
    induction operations with
    | nil => exact ⟨[], rfl⟩
    | cons operation rest ih =>
      obtain ⟨elapsed, answer⟩ := expected operation List.mem_cons_self
      obtain ⟨values, later⟩ := ih fun other member =>
        expected other (List.mem_cons_of_mem _ member)
      exact ⟨_, by rw [List.mapM_cons, answer, later]; rfl⟩
  obtain ⟨values, all⟩ := steps operations.zipIdx fun operation member =>
    expected operation.2 (List.snd_lt_of_mem_zipIdx member)
  have complete : rustIteration iteration (answers iteration) operations = some values := all
  rw [rustValues, complete]

theorem pythonValues_errors : (pythonValues operations answers iteration).2 = 0 := by
  have steps (operations : List (String × Nat))
      (expected : ∀ operation ∈ operations,
        ∃ elapsed, answers iteration operation.2 = .expected elapsed) :
      (pythonIteration iteration (answers iteration) operations).2 = 0 := by
    induction operations with
    | nil => rfl
    | cons operation rest ih =>
      obtain ⟨elapsed, answer⟩ := expected operation List.mem_cons_self
      rw [pythonIteration, answer]
      exact ih fun other member => expected other (List.mem_cons_of_mem _ member)
  exact steps operations.zipIdx fun operation member =>
    expected operation.2 (List.snd_lt_of_mem_zipIdx member)

end Expected

/-- Workers that count no error in any iteration count none. -/
theorem gather_errors {values : Nat → List Completion × Nat} {ranges : List (Nat × Nat)}
    {total : Nat} (cover : ranges.flatMap (fun range => List.range' range.1 range.2) =
      List.range total) (none : ∀ i < total, (values i).2 = 0) :
    ((ranges.map (gather values)).map Prod.snd).sum = 0 := by
  refine List.sum_eq_zero fun errors member => ?_
  obtain ⟨out, report, rfl⟩ := List.mem_map.mp member
  obtain ⟨range, inside, rfl⟩ := List.mem_map.mp report
  refine List.sum_eq_zero fun errors member => ?_
  obtain ⟨iteration, within, rfl⟩ := List.mem_map.mp member
  refine none iteration (List.mem_range.mp ?_)
  rw [← cover]
  exact List.mem_flatMap.mpr ⟨range, inside, within⟩

/-! ### Cases -/

instance : Std.Total tupleLe := ⟨fun left right => by
  rcases lt_trichotomy left.1 right.1 with less | same | greater
  · exact Or.inl (Or.inl less)
  · rcases Nat.le_total left.2 right.2 with le | ge
    · exact Or.inl (Or.inr ⟨same, le⟩)
    · exact Or.inr (Or.inr ⟨same.symm, ge⟩)
  · exact Or.inr (Or.inl greater)⟩

instance : IsTrans Completion tupleLe := ⟨fun left middle right first second => by
  rcases first with less | ⟨same, le⟩
  · rcases second with less' | ⟨same', _⟩
    · exact Or.inl (less.trans less')
    · exact Or.inl (same' ▸ less)
  · rcases second with less' | ⟨same', le'⟩
    · exact Or.inl (same ▸ less')
    · exact Or.inr ⟨same.trans same', le.trans le'⟩⟩

instance : Std.Total fun left right : Completion => left.1 ≤ right.1 :=
  ⟨fun left right => le_total left.1 right.1⟩

instance : IsTrans Completion fun left right => left.1 ≤ right.1 :=
  ⟨fun _ _ _ first second => le_trans first second⟩

section Collecting

variable {total : Nat} {operations : List String} {outs : List (List Completion × Nat)}
  (bound : total ≤ 1000000) (ascending : operations.Pairwise (· < ·))
  (all : (outs.flatMap Prod.fst).map Prod.fst = tokensOf operations (List.range total))

include bound ascending all

theorem rustCollect_tokens : (rustCollect outs).tokens = tokensOf operations (List.range total) :=
  Interleaving.map_insertionSort_eq _ (fun _ _ => id) (List.Perm.of_eq all)
    (tokensOf_pairwise ascending bound)

theorem pythonCollect_tokens {appends : List Nat} {out : CaseRun}
    (collected : pythonCollect appends outs = some out) :
    out.tokens = tokensOf operations (List.range total) := by
  obtain ⟨completions, written, result⟩ := Option.bind_eq_some_iff.mp collected
  obtain rfl := Option.some.inj result
  have perm := (Interleaving.interleave_perm written).map Prod.fst
  rw [← List.flatMap_def, all] at perm
  refine Interleaving.map_insertionSort_eq tupleLe (fun left right ordered => ?_) perm
    (tokensOf_pairwise ascending bound)
  rcases ordered with less | ⟨same, _⟩
  · exact less.le
  · exact same.le

end Collecting

theorem pythonCollect_errors {appends : List Nat} {outs : List (List Completion × Nat)}
    {out : CaseRun} (collected : pythonCollect appends outs = some out) :
    out.errors = (outs.map Prod.snd).sum := by
  obtain ⟨completions, -, result⟩ := Option.bind_eq_some_iff.mp collected
  obtain rfl := Option.some.inj result
  rfl

section Cases

variable {config : CaseConfig} {total concurrency : Nat} (repeats : config.repeats = total)
  (bound : total ≤ 1000000) (workers : 1 ≤ concurrency)
  (ascending : config.operations.Pairwise (· < ·))

include repeats bound workers ascending

theorem rustCase_tokens {answers : Answers}
    (errors : (rustCase config concurrency answers).errors = 0) :
    (rustCase config concurrency answers).tokens = expectedTokens config := by
  obtain ⟨-, cover⟩ := ranges_partition total workers
  rw [rustCase, funext (rustTask_eq config.operations answers), repeats, Int.toNat_natCast]
    at errors ⊢
  rw [expectedTokens, repeats, Int.toNat_natCast]
  exact rustCollect_tokens bound ascending
    (gather_tokens (fun _ => rustValues_tokens) cover errors)

theorem pythonCase_tokens {answers : Answers} {schedule : List Nat} {out : CaseRun}
    (complete : pythonCase config concurrency answers schedule = some out)
    (errors : out.errors = 0) : out.tokens = expectedTokens config := by
  obtain ⟨same, cover⟩ := ranges_partition total workers
  rw [pythonCase, funext (pythonWorker_eq config.operations answers), repeats, Int.toNat_natCast,
    same] at complete
  rw [pythonCollect_errors complete] at errors
  rw [expectedTokens, repeats, Int.toNat_natCast]
  exact pythonCollect_tokens bound ascending
    (gather_tokens (fun _ => pythonValues_tokens) cover errors) complete

omit bound ascending in
theorem rustCase_errors {answers : Answers}
    (expected : AllExpected answers total config.operations.length) :
    (rustCase config concurrency answers).errors = 0 := by
  obtain ⟨-, cover⟩ := ranges_partition total workers
  rw [rustCase, funext (rustTask_eq config.operations answers), repeats, Int.toNat_natCast]
  exact gather_errors cover fun i inside => rustValues_errors (expected i inside)

omit bound ascending in
theorem pythonCase_errors {answers : Answers} {schedule : List Nat} {out : CaseRun}
    (expected : AllExpected answers total config.operations.length)
    (complete : pythonCase config concurrency answers schedule = some out) : out.errors = 0 := by
  obtain ⟨same, cover⟩ := ranges_partition total workers
  rw [pythonCase, funext (pythonWorker_eq config.operations answers), repeats, Int.toNat_natCast,
    same] at complete
  rw [pythonCollect_errors complete]
  exact gather_errors cover fun i inside => pythonValues_errors (expected i inside)

/-- For any repeat count up to a million, any number of workers and any interleaving, where the
server answers as expected both adapters count no error and return the expected tokens; without a
counted error the tokens are the expected ones. The ranges of the workers partition the iterations,
in sizes that differ by one at most, and tokens are ordered by iteration and then by operation. -/
theorem adapters_complete_expected_tokens :
    pythonRanges (distribute total concurrency) concurrency =
        rustRanges (distribute total concurrency) ∧
      (rustRanges (distribute total concurrency)).flatMap
        (fun range => List.range' range.1 range.2) = List.range total ∧
      (∀ a ∈ distribute total concurrency, ∀ b ∈ distribute total concurrency, a ≤ b + 1) ∧
      (∀ i < total, ∀ j < total, ∀ a b,
        token i a < token j b ↔ i < j ∨ i = j ∧ a < b) ∧
      (∀ answers,
        (AllExpected answers total config.operations.length →
          (rustCase config concurrency answers).errors = 0 ∧
            (rustCase config concurrency answers).tokens = expectedTokens config) ∧
        ((rustCase config concurrency answers).errors = 0 →
          (rustCase config concurrency answers).tokens = expectedTokens config)) ∧
      ∀ answers schedule out, pythonCase config concurrency answers schedule = some out →
        (AllExpected answers total config.operations.length →
          out.errors = 0 ∧ out.tokens = expectedTokens config) ∧
        (out.errors = 0 → out.tokens = expectedTokens config) := by
  obtain ⟨same, cover⟩ := ranges_partition total workers
  refine ⟨same, cover, fun a first b second => distribute_even first second, ?_, ?_, ?_⟩
  · intro i below j below' a b
    exact token_lt_iff (lt_of_lt_of_le below bound) (lt_of_lt_of_le below' bound) a b
  · intro answers
    have tokens : (rustCase config concurrency answers).errors = 0 →
        (rustCase config concurrency answers).tokens = expectedTokens config :=
      rustCase_tokens repeats bound workers ascending
    refine ⟨fun expected => ?_, tokens⟩
    have errors := rustCase_errors repeats workers expected
    exact ⟨errors, tokens errors⟩
  · intro answers schedule out complete
    have tokens := pythonCase_tokens repeats bound workers ascending complete
    refine ⟨fun expected => ?_, tokens⟩
    have errors := pythonCase_errors repeats workers expected complete
    exact ⟨errors, tokens errors⟩

end Cases

/-- Two workers on three iterations: of the Rust adapter, and of the Python adapter with the second
worker ending first. -/
theorem adapters_complete_two_workers :
    let config : CaseConfig := ⟨["r001", "r002"], 3, .int 1, .int 1000, .null, .null⟩
    let answers : Answers := fun i k => .expected (10 * i + k)
    (rustCase config 2 answers).errors = 0 ∧
      (rustCase config 2 answers).tokens = expectedTokens config ∧
      ∃ out, pythonCase config 2 answers [1, 1, 0, 0, 0, 0] = some out ∧ out.errors = 0 ∧
        out.tokens = expectedTokens config := by
  intro config answers
  have ends : (pythonCase config 2 answers [1, 1, 0, 0, 0, 0]).isSome = true := by decide
  have repeats : config.repeats = ((3 : Nat) : Int) := rfl
  have ascending : config.operations.Pairwise (· < ·) := by decide
  have expected : AllExpected answers 3 config.operations.length := fun _ _ _ _ => ⟨_, rfl⟩
  obtain ⟨out, complete⟩ := Option.isSome_iff_exists.mp ends
  obtain ⟨-, -, -, -, rust, python⟩ :=
    adapters_complete_expected_tokens repeats (by decide) (by decide : 1 ≤ 2) ascending
  obtain ⟨errors, tokens⟩ := (rust answers).1 expected
  exact ⟨errors, tokens, out, complete, (python _ _ _ complete).1 expected⟩

end AlphaPipeline.Bench

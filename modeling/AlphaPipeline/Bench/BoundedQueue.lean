import AlphaPipeline.Bench.HotPath
import AlphaPipeline.Library.Permits

/-!
# The bounded queue of the Rust adapter

The tasks of the Rust `redis_case` start together at a `Barrier`. Before each operation a task
acquires a permit of a `Semaphore`, which is dropped at the end of the operation or with its error.
No more commands than the semaphore has permits are on their way at any time, and the tasks are
those whose commands the server takes in any order.

Of tokio it is assumed that a barrier for `n` tasks lets all of them through once `n` have come,
that a semaphore gives a permit it has to any task that waits for one, whichever it is, and that a
task whose wait is over can go on. Nothing is assumed of the order in which tasks move.
-/
namespace AlphaPipeline.Bench.HotPath

open Interaction (Prog Task Tasks Phase together)
open Redis (Reply Store)

section Tasks

variable {Cmd Rep : Type}

/-- `redis_iteration` with its permits, from an operation on. -/
def permittedIteration (perform : Nat → Prog Cmd Rep Answer) (iteration : Nat) :
    List (String × Nat) → Task Cmd Rep (Option (List Completion))
  | [] => pure (some [])
  | operation :: rest => do
    match ← Task.permitted (perform operation.2) with
    | .expected elapsed =>
      let later ← permittedIteration perform iteration rest
      pure (later.map ((token iteration operation.1, max elapsed 1) :: ·))
    | .unexpected _ | .failed => pure none

/-- The body of the loop of a task: an iteration that fails counts one error. -/
def permittedValues (perform : Nat → Nat → Prog Cmd Rep Answer) (operations : List String)
    (iteration : Nat) : Task Cmd Rep (List Completion × Nat) := do
  match ← permittedIteration (perform iteration) iteration operations.zipIdx with
  | some values => pure (values, 0)
  | none => pure ([], 1)

/-- The loop of a task over its iterations. -/
def permittedWorker (values : Nat → Task Cmd Rep (List Completion × Nat)) :
    List Nat → Task Cmd Rep (List Completion × Nat)
  | [] => pure ([], 0)
  | iteration :: rest => do
    let done ← values iteration
    let later ← permittedWorker values rest
    pure (done.1 ++ later.1, done.2 + later.2)

/-! ### What the tasks are without permits -/

theorem bare_permittedIteration (perform : Nat → Prog Cmd Rep Answer) (iteration : Nat)
    (operations : List (String × Nat)) :
    (permittedIteration perform iteration operations).bare =
      rustIterationOn perform iteration operations := by
  induction operations with
  | nil => rfl
  | cons operation rest ih =>
    rw [permittedIteration, rustIterationOn, Task.bare_bind, Task.bare_permitted]
    refine congrArg (perform operation.2 >>= ·) (funext fun answer => ?_)
    cases answer with
    | expected elapsed =>
      dsimp only
      rw [Task.bare_bind, ih]
      rfl
    | unexpected elapsed => rfl
    | failed => rfl

theorem bare_permittedValues (perform : Nat → Nat → Prog Cmd Rep Answer) (operations : List String)
    (iteration : Nat) :
    (permittedValues perform operations iteration).bare =
      rustValuesOn perform operations iteration := by
  rw [permittedValues, rustValuesOn, Task.bare_bind, bare_permittedIteration]
  refine congrArg (rustIterationOn _ _ _ >>= ·) (funext fun values => ?_)
  cases values <;> rfl

theorem bare_permittedWorker (values : Nat → Task Cmd Rep (List Completion × Nat))
    (iterations : List Nat) :
    (permittedWorker values iterations).bare =
      workerOn (fun iteration => (values iteration).bare) iterations := by
  induction iterations with
  | nil => rfl
  | cons iteration rest ih =>
    rw [permittedWorker, workerOn, Task.bare_bind]
    refine congrArg ((values iteration).bare >>= ·) (funext fun done => ?_)
    rw [Task.bare_bind, ih]
    rfl

/-! ### Permits are taken and dropped in turn -/

theorem bracketed_permittedIteration (perform : Nat → Prog Cmd Rep Answer) (iteration : Nat)
    (operations : List (String × Nat)) :
    (permittedIteration perform iteration operations).Bracketed false := by
  induction operations with
  | nil => rfl
  | cons operation rest ih =>
    refine (Task.bracketed_permitted _).bind fun answer => ?_
    cases answer with
    | expected elapsed => exact ih.bind fun _ => rfl
    | unexpected elapsed => rfl
    | failed => rfl

theorem bracketed_permittedWorker (perform : Nat → Nat → Prog Cmd Rep Answer)
    (operations : List String) (iterations : List Nat) :
    (permittedWorker (permittedValues perform operations) iterations).Bracketed false := by
  have values (iteration : Nat) :
      (permittedValues perform operations iteration).Bracketed false := by
    refine (bracketed_permittedIteration _ iteration _).bind fun values => ?_
    cases values <;> rfl
  induction iterations with
  | nil => rfl
  | cons iteration rest ih => exact (values iteration).bind fun _ => ih.bind fun _ => rfl

/-! ### How many moves a task makes -/

/-- An operation of one command at most takes five moves. -/
theorem within_permittedIteration {perform : Nat → Prog Cmd Rep Answer}
    (one : ∀ place, (Task.ofProg (perform place)).Within 3) (iteration : Nat)
    (operations : List (String × Nat)) :
    (permittedIteration perform iteration operations).Within (5 * operations.length) := by
  induction operations with
  | nil => trivial
  | cons operation rest ih =>
    rw [List.length_cons, Nat.mul_succ, Nat.add_comm]
    refine (Task.within_permitted (one operation.2)).bind fun answer => ?_
    cases answer with
    | expected elapsed => exact ih.bind (m := 0) fun _ => trivial
    | unexpected elapsed => trivial
    | failed => trivial

theorem within_permittedWorker {perform : Nat → Nat → Prog Cmd Rep Answer}
    (one : ∀ iteration place, (Task.ofProg (perform iteration place)).Within 3)
    (operations : List String) (iterations : List Nat) :
    (permittedWorker (permittedValues perform operations) iterations).Within
      (5 * operations.length * iterations.length) := by
  have values (iteration : Nat) :
      (permittedValues perform operations iteration).Within (5 * operations.length) := by
    have body := within_permittedIteration (one iteration) iteration operations.zipIdx
    rw [List.length_zipIdx] at body
    refine body.bind (m := 0) fun values => ?_
    cases values <;> trivial
  induction iterations with
  | nil => trivial
  | cons iteration rest ih =>
    rw [List.length_cons, Nat.mul_succ, Nat.add_comm]
    exact (values iteration).bind fun _ => ih.bind (m := 0) fun _ => trivial

end Tasks

/-! ### The tasks of a case -/

/-- The tasks of the Rust `redis_case` before the barrier, with `depth` permits. -/
def rustTasks (case : Case) (concurrency depth : Nat) (keys : Keys) (timer : Nat → Nat → Nat)
    (store : Store) : Tasks Command (Option Reply) (List Completion × Nat) Store :=
  .start depth
    ((rustRanges (distribute case.config.repeats.toNat concurrency)).map fun range =>
      permittedWorker
        (permittedValues (case.performs (fun _ => .failed) keys timer) case.config.operations)
        (List.range' range.1 range.2))
    store

variable (case : Case) (keys : Keys) (timer : Nat → Nat → Nat) (store : Store)

theorem performs_within (iteration place : Nat) :
    (Task.ofProg (case.performs (fun _ => .failed) keys timer iteration place)).Within 3 := by
  rw [Case.performs]
  split
  next op _ =>
    cases op with
    | setLatestTick value => exact ⟨0, rfl, fun _ => trivial⟩
    | getLatestTick expected => exact ⟨0, rfl, fun _ => trivial⟩
    | breakerCheck expected => exact ⟨0, rfl, fun _ => trivial⟩
    | other => trivial
  · trivial

/-- The tasks without their permits are the workers. -/
theorem bare_rustTasks (concurrency depth : Nat) :
    (rustTasks case concurrency depth keys timer store).phases.map Phase.bare =
      workersOn
        (rustValuesOn (case.performs (fun _ => .failed) keys timer) case.config.operations)
        (rustRanges (distribute case.config.repeats.toNat concurrency)) := by
  rw [rustTasks, Tasks.start, workersOn, List.map_map, List.map_map]
  refine List.map_congr_left fun range _ => ?_
  refine (bare_permittedWorker _ _).trans ?_
  exact congrArg (workerOn · _) (funext fun iteration => bare_permittedValues _ _ iteration)

theorem counts_rustRanges (counts : List Nat) : (rustRanges counts).map Prod.snd = counts := by
  have tail (first : Nat) : (rangesFrom first counts).map Prod.snd = counts := by
    induction counts generalizing first with
    | nil => rfl
    | cons count counts ih => rw [rangesFrom, List.map_cons, ih]
  rw [rustRanges_eq, tail]

theorem length_rustTasks (concurrency depth : Nat) :
    (rustTasks case concurrency depth keys timer store).phases.length = concurrency := by
  have counts := congrArg List.length
    (counts_rustRanges (distribute case.config.repeats.toNat concurrency))
  rw [List.length_map, length_distribute] at counts
  rw [rustTasks, Tasks.start, List.length_map, List.length_map, counts]

private theorem sum_moves (each : Nat) (counts : List Nat) :
    (counts.map fun count => each * count + 2).sum = 2 * counts.length + each * counts.sum := by
  induction counts with
  | nil => rfl
  | cons count counts ih =>
    rw [List.map_cons, List.sum_cons, ih, List.length_cons, List.sum_cons, Nat.mul_add each]
    omega

/-- A task comes to the barrier, passes it and goes through its iterations. -/
theorem rustTasks_within {concurrency : Nat} (workers : 1 ≤ concurrency) (depth : Nat) :
    (rustTasks case concurrency depth keys timer store).Within
      (2 * concurrency + 5 * case.config.operations.length * case.config.repeats.toNat) := by
  have counts := counts_rustRanges (distribute case.config.repeats.toNat concurrency)
  refine ⟨(rustRanges (distribute case.config.repeats.toNat concurrency)).map fun range =>
    5 * case.config.operations.length * range.2 + 2, ?_, ?_⟩
  · rw [rustTasks, Tasks.start, List.map_map, List.forall₂_map_left_iff,
      List.forall₂_map_right_iff, List.forall₂_same]
    intro range _
    have worker := within_permittedWorker (performs_within case keys timer)
      case.config.operations (List.range' range.1 range.2)
    rw [List.length_range'] at worker
    exact ⟨_, rfl, worker⟩
  · have moves := sum_moves (5 * case.config.operations.length)
      (distribute case.config.repeats.toNat concurrency)
    rw [length_distribute, sum_distribute workers] at moves
    rw [← moves]
    nth_rewrite 2 [← counts]
    rw [List.map_map]
    rfl

/-- In every run of the tasks, in whichever order they move: no more commands are on their way than
the semaphore has permits, and none before all tasks have come to the barrier. The tasks are never
stuck, and after a bounded number of moves all have ended. What they return then is what workers
return whose commands the server takes one at a time. -/
theorem tasks_share_the_queue {concurrency depth : Nat} (workers : 1 ≤ concurrency)
    (permits : 0 < depth) {events : List (Nat × Redis.Turn)}
    {w : Tasks Command (Option Reply) (List Completion × Nat) Store}
    (ran : (rustTasks case concurrency depth keys timer store).run concurrency meet events =
      some w) :
    w.inFlight ≤ depth ∧
      (0 < w.inFlight → ∀ phase ∈ w.phases, phase.isSpawned = false) ∧
      events.length ≤
        2 * concurrency + 5 * case.config.operations.length * case.config.repeats.toNat ∧
      (∀ turn, ∃ more last, (∀ event ∈ more, event.2 = turn) ∧
        w.run concurrency meet more = some last ∧ last.Finished) ∧
      ∀ outs, w.phases.mapM Phase.result = some outs →
        together meet ((rustTasks case concurrency depth keys timer store).served concurrency meet
            events)
          (workersOn
            (rustValuesOn (case.performs (fun _ => .failed) keys timer) case.config.operations)
            (rustRanges (distribute case.config.repeats.toNat concurrency))) store =
          some (outs, w.server) := by
  have inv := (Tasks.inv_start concurrency depth store (by
    intro task member
    obtain ⟨range, _, rfl⟩ := List.mem_map.mp member
    exact bracketed_permittedWorker _ _ _)).run ran
  obtain ⟨left, moves, ends⟩ := (rustTasks_within case keys timer store workers depth).run ran
  have length := (Tasks.length_run ran).trans
    (length_rustTasks case keys timer store concurrency depth)
  rw [← length] at inv
  refine ⟨inv.inFlight_le, inv.all_arrived, by omega, fun turn => ?_, fun outs ended => ?_⟩
  · obtain ⟨more, last, same, on, finished⟩ := inv.can_finish meet permits ends turn
    exact ⟨more, last, same, length ▸ on, finished⟩
  · rw [← bare_rustTasks case keys timer store concurrency depth]
    exact Tasks.together_of_run ran ended

/-- Two tasks of which the first has a command on its way. -/
def firstSends : List (Nat × Redis.Turn) :=
  [(0, servedAt 0), (1, servedAt 0), (0, servedAt 0), (1, servedAt 0), (0, servedAt 0),
    (0, servedAt 0)]

/-- The second one can not send another one, but both come to their ends. -/
theorem tasks_share_one_permit :
    ∃ w, (rustTasks (fixtureCase 2) 2 1 (keysOf "0a1b2c3d".toList) (fun _ _ => 5)
        fun _ => none).run 2 meet firstSends = some w ∧ w.inFlight = 1 ∧
      w.advance 2 meet (1, servedAt 1) = none ∧
      ∃ more last, (∀ event ∈ more, event.2 = servedAt 2) ∧
        w.run 2 meet more = some last ∧ last.Finished := by
  have ran : (rustTasks (fixtureCase 2) 2 1 (keysOf "0a1b2c3d".toList) (fun _ _ => 5)
      fun _ => none).run 2 meet firstSends = some _ := rfl
  obtain ⟨-, -, -, ends, -⟩ := tasks_share_the_queue _ _ _ _ (by decide) (by decide) ran
  exact ⟨_, ran, rfl, rfl, ends (servedAt 2)⟩

end AlphaPipeline.Bench.HotPath

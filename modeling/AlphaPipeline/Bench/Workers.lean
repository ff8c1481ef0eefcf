import AlphaPipeline.Bench.Adapters
import AlphaPipeline.Library.SharedServer

/-!
# The workers at one server

The workers of the Rust and of the Python adapter as programs that talk to one server, for any way
of performing an operation. If the operations of a worker withstand those of the others, a worker
counts an error for each command of its own that fails, and no other.
-/
namespace AlphaPipeline.Bench

open Interaction (Prog together tracked)

variable {Cmd Rep : Type}

/-! ### The code -/

/-- How an operation ends: an error, or whether it read what was expected. -/
def settle (elapsed : Nat) : Option Bool → Answer
  | none => .failed
  | some true => .expected elapsed
  | some false => .unexpected elapsed

/-- An iteration of the Python adapter's `worker`, from an operation on. -/
def pythonIterationOn (perform : Nat → Prog Cmd Rep Answer) (iteration : Nat) :
    List (String × Nat) → Prog Cmd Rep (List Completion × Nat)
  | [] => pure ([], 0)
  | operation :: rest => do
    match ← perform operation.2 with
    | .expected elapsed =>
      let later ← pythonIterationOn perform iteration rest
      pure ((token iteration operation.1, elapsed) :: later.1, later.2)
    | .unexpected elapsed =>
      let later ← pythonIterationOn perform iteration rest
      pure ((token iteration operation.1, elapsed) :: later.1, later.2 + 1)
    | .failed => pure ([], 1)

/-- `redis_iteration` and `db_iteration` of the Rust adapter, from an operation on. -/
def rustIterationOn (perform : Nat → Prog Cmd Rep Answer) (iteration : Nat) :
    List (String × Nat) → Prog Cmd Rep (Option (List Completion))
  | [] => pure (some [])
  | operation :: rest => do
    match ← perform operation.2 with
    | .expected elapsed =>
      let later ← rustIterationOn perform iteration rest
      pure (later.map ((token iteration operation.1, max elapsed 1) :: ·))
    | .unexpected _ | .failed => pure none

/-- The loop of a worker over its iterations: what it completes, and how many errors it counts. -/
def workerOn (values : Nat → Prog Cmd Rep (List Completion × Nat)) :
    List Nat → Prog Cmd Rep (List Completion × Nat)
  | [] => pure ([], 0)
  | iteration :: rest => do
    let done ← values iteration
    let later ← workerOn values rest
    pure (done.1 ++ later.1, done.2 + later.2)

/-- What an adapter does in an iteration, by the ids of its operations and how it performs them. -/
abbrev Iterating (Cmd Rep : Type) :=
  (Nat → Nat → Prog Cmd Rep Answer) → List String → Nat → Prog Cmd Rep (List Completion × Nat)

def pythonValuesOn : Iterating Cmd Rep := fun perform operations iteration =>
  pythonIterationOn (perform iteration) iteration operations.zipIdx

/-- An iteration that fails counts one error and completes nothing. -/
def rustValuesOn : Iterating Cmd Rep := fun perform operations iteration => do
  match ← rustIterationOn (perform iteration) iteration operations.zipIdx with
  | some values => pure (values, 0)
  | none => pure ([], 1)

/-- The workers of a case, by the ranges of their iterations. -/
def workersOn (values : Nat → Prog Cmd Rep (List Completion × Nat)) (ranges : List (Nat × Nat)) :
    List (Prog Cmd Rep (List Completion × Nat)) :=
  ranges.map fun range => workerOn values (List.range' range.1 range.2)

/-! ### Operations answered in advance -/

section Answered

variable (answers : Answers) (operations : List String)

theorem rustValuesOn_answered (iteration : Nat) :
    (rustValuesOn (fun i k => pure (answers i k)) operations iteration :
      Prog Cmd Rep (List Completion × Nat)) = pure (rustValues operations answers iteration) := by
  have steps (operations : List (String × Nat)) :
      (rustIterationOn (fun k => pure (answers iteration k)) iteration operations :
        Prog Cmd Rep (Option (List Completion))) = pure (operations.mapM fun operation =>
          match answers iteration operation.2 with
          | .expected elapsed => some (token iteration operation.1, max elapsed 1)
          | .unexpected _ | .failed => none) := by
    induction operations with
    | nil => rfl
    | cons operation rest ih =>
      rw [rustIterationOn, List.mapM_cons, ih]
      cases answers iteration operation.2 with
      | expected elapsed => exact congrArg Prog.done (Option.map_eq_bind ..)
      | unexpected elapsed => rfl
      | failed => rfl
  have whole : (rustIterationOn (fun k => pure (answers iteration k)) iteration operations.zipIdx :
      Prog Cmd Rep (Option (List Completion))) =
        pure (rustIteration iteration (answers iteration) operations) := steps _
  rw [rustValuesOn, whole, rustValues]
  cases rustIteration iteration (answers iteration) operations <;> rfl

theorem pythonValuesOn_answered (iteration : Nat) :
    (pythonValuesOn (fun i k => pure (answers i k)) operations iteration :
      Prog Cmd Rep (List Completion × Nat)) =
        pure (pythonValues operations answers iteration) := by
  have steps (operations : List (String × Nat)) :
      (pythonIterationOn (fun k => pure (answers iteration k)) iteration operations :
        Prog Cmd Rep (List Completion × Nat)) =
          pure (pythonIteration iteration (answers iteration) operations) := by
    induction operations with
    | nil => rfl
    | cons operation rest ih =>
      rw [pythonIterationOn, pythonIteration, ih]
      cases answers iteration operation.2 <;> rfl
  exact steps _

/-- A worker whose iterations need no server gathers what they make. -/
theorem workersOn_pure (values : Nat → List Completion × Nat) (ranges : List (Nat × Nat)) :
    workersOn (fun iteration => (pure (values iteration) : Prog Cmd Rep _)) ranges =
      ranges.map fun range => pure (gather values range) := by
  have loop (iterations : List Nat) :
      workerOn (fun iteration => (pure (values iteration) : Prog Cmd Rep _)) iterations =
        pure (iterations.flatMap fun iteration => (values iteration).1,
          (iterations.map fun iteration => (values iteration).2).sum) := by
    induction iterations with
    | nil => rfl
    | cons iteration rest ih =>
      rw [workerOn, ih]
      rfl
  rw [workersOn]
  exact List.map_congr_left fun range _ => loop _

/-- Where the operations are answered in advance, the programs of the workers are the workers that
the answers alone determine. -/
theorem workersOn_answered (ranges : List (Nat × Nat)) :
    (workersOn (rustValuesOn (fun i k => pure (answers i k)) operations) ranges :
        List (Prog Cmd Rep (List Completion × Nat))) =
        ranges.map (fun range => pure (rustTask operations answers range)) ∧
      (workersOn (pythonValuesOn (fun i k => pure (answers i k)) operations) ranges :
        List (Prog Cmd Rep (List Completion × Nat))) =
        ranges.map (fun range => pure (pythonWorker operations answers range)) := by
  rw [funext (rustValuesOn_answered answers operations),
    funext (pythonValuesOn_answered answers operations), workersOn_pure, workersOn_pure]
  simp only [rustTask_eq, pythonWorker_eq, and_self]

end Answered

/-! ### Operations that withstand each other -/

variable {σ Env : Type} (handle : Env → Cmd → σ → Rep × σ) (may : Env → Prop) (fails : Env → Bool)

/-- Facts that a change of the state keeps. -/
def Keeps (facts : Nat → σ → Prop) (s later : σ) : Prop :=
  ∀ place, facts place s → facts place later

theorem Keeps.refl {facts : Nat → σ → Prop} (s : σ) : Keeps facts s s := fun _ => id

theorem Keeps.trans {facts : Nat → σ → Prop} (a b c : σ) (first : Keeps facts a b)
    (second : Keeps facts b c) : Keeps facts a c :=
  fun place holds => second place (first place holds)

def countFailure (e : Env) (count : Nat) : Nat := if fails e then count + 1 else count

/-- How an operation may end, after so many errors and at a place: as expected, with the facts of
the next place, or with a command of its own that failed. -/
def Ends (facts : Nat → σ → Prop) (place errors : Nat) (answer : Answer) (s : σ) (errors' : Nat) :
    Prop :=
  (∃ elapsed, answer = .expected elapsed ∧ errors' = errors ∧ facts (place + 1) s) ∨
    answer = .failed ∧ errors' = errors + 1 ∧ facts 0 s

/-- The facts that hold before each operation of an iteration, and after the last one. No operation,
of whichever worker, breaks a fact. -/
structure Serves (facts : Nat → σ → Prop) (perform : Nat → Nat → Prog Cmd Rep Answer)
    (count : Nat) : Prop where
  base : ∀ place s, facts place s → facts 0 s
  performs : ∀ iteration place s errors, place < count → facts place s →
    (perform iteration place).Withstands handle may (Keeps facts) (countFailure fails)
      (Ends facts place errors) s errors

/-- What is known when a worker, or an iteration of it, is done. -/
structure Reported (facts : Nat → σ → Prop) (tokens : List String) (reached : σ → Prop)
    (errors : Nat) (out : List Completion × Nat) (s : σ) (errors' : Nat) : Prop where
  counted : errors' = errors + out.2
  complete : out.2 = 0 → out.1.map Prod.fst = tokens ∧ reached s
  base : facts 0 s

variable {handle may fails} {facts : Nat → σ → Prop}
  {perform : Nat → Nat → Prog Cmd Rep Answer}

/-- A result that is there, whatever the others still do. -/
private theorem withstands_pure {α : Type} {post : α → σ → Nat → Prop} {a : α} {s : σ}
    {errors : Nat} (holds : ∀ later, Keeps facts s later → post a later errors) :
    (pure a : Prog Cmd Rep α).Withstands handle may (Keeps facts) (countFailure fails) post s
      errors := holds

/-- An operation of one command fails with it, and ends as expected if it is served. -/
theorem withstands_ask {c : Cmd} {judge : Rep → Option Bool} {elapsed place errors : Nat} {s : σ}
    (here : facts place s) (base : ∀ s, facts place s → facts 0 s)
    (keeps : ∀ e s, may e → Keeps facts s (handle e c s).2)
    (failing : ∀ e s, fails e = true → judge (handle e c s).1 = none)
    (serving : ∀ e s, may e → fails e = false → facts place s →
      judge (handle e c s).1 = some true ∧ facts (place + 1) (handle e c s).2) :
    (do
      let reply ← Prog.ask c
      pure (settle elapsed (judge reply)) : Prog Cmd Rep Answer).Withstands handle may (Keeps facts)
        (countFailure fails) (Ends facts place errors) s errors := by
  intro later kept e allowed
  refine ⟨keeps e later allowed, fun final still => ?_⟩
  have before := kept place here
  cases failed : fails e with
  | true =>
    refine Or.inr ⟨?_, ?_, still 0 (keeps e later allowed 0 (base later before))⟩
    · rw [failing e later failed]
      rfl
    · rw [countFailure, if_pos failed]
  | false =>
    obtain ⟨expected, next⟩ := serving e later allowed failed before
    refine Or.inl ⟨elapsed, ?_, ?_, still _ next⟩
    · rw [expected]
      rfl
    · rw [countFailure, if_neg (by rw [failed]; nofun)]

section Iterations

variable {count : Nat} (serves : Serves handle may fails facts perform count)

include serves

/-- From an operation on, an iteration of a Python worker completes all operations, or counts the
one that failed. -/
theorem Serves.pythonIteration (iteration : Nat) (operations : List String) (place : Nat)
    (whole : place + operations.length = count) {s : σ} (here : facts place s) (errors : Nat) :
    (pythonIterationOn (perform iteration) iteration (operations.zipIdx place)).Withstands handle
      may (Keeps facts) (countFailure fails)
      (Reported facts (operations.map (token iteration)) (facts count) errors) s errors := by
  induction operations generalizing place s errors with
  | nil =>
    refine withstands_pure fun later kept => ⟨rfl, fun _ => ⟨rfl, ?_⟩, ?_⟩
    · obtain rfl : place = count := whole
      exact kept place here
    · exact kept 0 (serves.base place s here)
  | cons operation operations ih =>
    rw [List.length_cons] at whole
    rw [List.zipIdx_cons, pythonIterationOn]
    refine Prog.Withstands.bind Keeps.refl ?_
    refine (serves.performs iteration place s errors (by omega) here).mono ?_
    rintro answer s' errors' (⟨elapsed, rfl, rfl, next⟩ | ⟨rfl, rfl, base⟩)
    · refine Prog.Withstands.bind Keeps.refl ?_
      refine (ih (place + 1) (by omega) next errors').mono fun out s' errors'' done => ?_
      refine withstands_pure fun later kept => ⟨done.counted, fun none => ?_, kept 0 done.base⟩
      obtain ⟨tokens, reached⟩ := done.complete none
      exact ⟨congrArg (token iteration operation :: ·) tokens, kept count reached⟩
    · exact withstands_pure fun later kept => ⟨rfl, nofun, kept 0 base⟩

theorem Serves.rustIteration (iteration : Nat) (operations : List String) (place : Nat)
    (whole : place + operations.length = count) {s : σ} (here : facts place s) (errors : Nat) :
    (rustIterationOn (perform iteration) iteration (operations.zipIdx place)).Withstands handle
      may (Keeps facts) (countFailure fails)
      (fun out => Reported facts (operations.map (token iteration)) (facts count) errors
        ((out.map fun values => (values, 0)).getD ([], 1))) s errors := by
  induction operations generalizing place s errors with
  | nil =>
    refine withstands_pure fun later kept => ⟨rfl, fun _ => ⟨rfl, ?_⟩, ?_⟩
    · obtain rfl : place = count := whole
      exact kept place here
    · exact kept 0 (serves.base place s here)
  | cons operation operations ih =>
    rw [List.length_cons] at whole
    rw [List.zipIdx_cons, rustIterationOn]
    refine Prog.Withstands.bind Keeps.refl ?_
    refine (serves.performs iteration place s errors (by omega) here).mono ?_
    rintro answer s' errors' (⟨elapsed, rfl, rfl, next⟩ | ⟨rfl, rfl, base⟩)
    · refine Prog.Withstands.bind Keeps.refl ?_
      refine (ih (place + 1) (by omega) next errors').mono fun out s' errors'' done => ?_
      refine withstands_pure fun later kept => ?_
      cases out with
      | none => exact ⟨done.counted, nofun, kept 0 done.base⟩
      | some values =>
        refine ⟨done.counted, fun none => ?_, kept 0 done.base⟩
        obtain ⟨tokens, reached⟩ := done.complete none
        exact ⟨congrArg (token iteration operation :: ·) tokens, kept count reached⟩
    · exact withstands_pure fun later kept => ⟨rfl, nofun, kept 0 base⟩

end Iterations

/-- An adapter whose iterations report what they meet. -/
def Reports (values : Nat → Prog Cmd Rep (List Completion × Nat)) (operations : List String)
    (handle : Env → Cmd → σ → Rep × σ) (may : Env → Prop) (fails : Env → Bool)
    (facts : Nat → σ → Prop) : Prop :=
  ∀ iteration s errors, facts 0 s →
    (values iteration).Withstands handle may (Keeps facts) (countFailure fails)
      (Reported facts (operations.map (token iteration)) (facts operations.length) errors) s errors

theorem Serves.python {operations : List String}
    (serves : Serves handle may fails facts perform operations.length) :
    Reports (pythonValuesOn perform operations) operations handle may fails facts :=
  fun iteration _ errors here =>
    serves.pythonIteration iteration operations 0 (Nat.zero_add _) here errors

theorem Serves.rust {operations : List String}
    (serves : Serves handle may fails facts perform operations.length) :
    Reports (rustValuesOn perform operations) operations handle may fails facts := by
  intro iteration s errors here
  refine Prog.Withstands.bind Keeps.refl ?_
  refine (serves.rustIteration iteration operations 0 (Nat.zero_add _) here errors).mono ?_
  intro out s' errors' done
  cases out with
  | none =>
    exact withstands_pure fun later kept => ⟨done.counted, nofun, kept 0 done.base⟩
  | some values =>
    refine withstands_pure fun later kept => ⟨done.counted, fun none => ?_, kept 0 done.base⟩
    obtain ⟨tokens, reached⟩ := done.complete none
    exact ⟨tokens, kept _ reached⟩

variable {operations : List String} {values : Nat → Prog Cmd Rep (List Completion × Nat)}

theorem Reports.worker (reports : Reports values operations handle may fails facts)
    (iterations : List Nat) {s : σ} (here : facts 0 s) (errors : Nat) :
    (workerOn values iterations).Withstands handle may (Keeps facts) (countFailure fails)
      (Reported facts (tokensOf operations iterations)
        (fun s => iterations ≠ [] → facts operations.length s) errors) s errors := by
  induction iterations generalizing s errors with
  | nil =>
    exact withstands_pure fun later kept => ⟨rfl, fun _ => ⟨rfl, fun some => absurd rfl some⟩,
      kept 0 here⟩
  | cons iteration iterations ih =>
    rw [workerOn]
    refine Prog.Withstands.bind Keeps.refl ?_
    refine (reports iteration s errors here).mono fun done s' errors' first => ?_
    refine Prog.Withstands.bind Keeps.refl ?_
    refine ((ih first.base errors').within Keeps.trans).mono fun out s'' errors'' rest => ?_
    refine withstands_pure fun later kept => ⟨?_, fun none => ?_, kept 0 rest.1.base⟩
    · rw [rest.1.counted, first.counted, Nat.add_assoc]
    · obtain ⟨none, none'⟩ := Nat.add_eq_zero_iff.mp none
      obtain ⟨tokens, reached⟩ := first.complete none
      obtain ⟨tokens', -⟩ := rest.1.complete none'
      refine ⟨?_, fun _ => kept _ (rest.2 _ reached)⟩
      rw [List.map_append, tokens, tokens']
      rfl

/-! ### All workers -/

/-- The reports of all workers, which have their ranges in the same order. -/
private theorem Reports.each (reports : Reports values operations handle may fails facts)
    {ranges : List (Nat × Nat)} {schedule : List (Nat × Env)} {s last : σ}
    {outs : List (List Completion × Nat)}
    (run : together handle schedule (workersOn values ranges) s = some (outs, last))
    (allowed : ∀ entry ∈ schedule, may entry.2) (here : facts 0 s) :
    Keeps facts s last ∧ outs.length = ranges.length ∧
      ∀ i range out, ranges[i]? = some range → outs[i]? = some out →
        Reported facts (tokensOf operations (List.range' range.1 range.2))
          (fun s => List.range' range.1 range.2 ≠ [] → facts operations.length s) 0 out last
          (tracked (countFailure fails) schedule i 0) := by
  have each (i : Nat) (p : Prog Cmd Rep (List Completion × Nat))
      (worker : (workersOn values ranges)[i]? = some p) :
      p.Withstands handle may (Keeps facts) (countFailure fails) (fun out s errors =>
        ∀ range, ranges[i]? = some range →
          Reported facts (tokensOf operations (List.range' range.1 range.2))
            (fun s => List.range' range.1 range.2 ≠ [] → facts operations.length s) 0 out s errors)
        s 0 := by
    rw [workersOn, List.getElem?_map, Option.map_eq_some_iff] at worker
    obtain ⟨range, place, rfl⟩ := worker
    refine (reports.worker _ here 0).mono fun out s errors done other there => ?_
    obtain rfl := Option.some.inj (place.symm.trans there)
    exact done
  obtain ⟨kept, length, ends⟩ :=
    Interaction.together_withstands Keeps.refl Keeps.trans run allowed each
  refine ⟨kept, length.trans (List.length_map ..), ?_⟩
  exact fun i range out place there => ends i out there range place

/-- However the commands of the workers come to the server, an error is counted for each that fails,
and for nothing else. Without one, the completions are all that is expected. -/
theorem Reports.workers (reports : Reports values operations handle may fails facts)
    {ranges : List (Nat × Nat)} {total : Nat}
    (cover : ranges.flatMap (fun range => List.range' range.1 range.2) = List.range total)
    {schedule : List (Nat × Env)} {s last : σ} {outs : List (List Completion × Nat)}
    (run : together handle schedule (workersOn values ranges) s = some (outs, last))
    (allowed : ∀ entry ∈ schedule, may entry.2) (here : facts 0 s) :
    (outs.map Prod.snd).sum = schedule.countP (fun entry => fails entry.2) ∧
      facts 0 last ∧
      ((outs.map Prod.snd).sum = 0 →
        (outs.flatMap Prod.fst).map Prod.fst = tokensOf operations (List.range total) ∧
          (0 < total → facts operations.length last)) := by
  obtain ⟨kept, length, each⟩ := reports.each run allowed here
  have places := Interaction.together_places run
  rw [workersOn, List.length_map] at places
  have report (i : Nat) (inside : i < ranges.length) (inside' : i < outs.length) :
      Reported facts (tokensOf operations (List.range' ranges[i].1 ranges[i].2))
        (fun s => List.range' ranges[i].1 ranges[i].2 ≠ [] → facts operations.length s) 0
        outs[i] last (tracked (countFailure fails) schedule i 0) :=
    each i _ _ (List.getElem?_eq_getElem inside) (List.getElem?_eq_getElem inside')
  have counts : outs.map Prod.snd = (List.range ranges.length).map fun i =>
      tracked (countFailure fails) schedule i 0 := by
    refine List.ext_getElem (by simp [length]) fun i inside inside' => ?_
    rw [List.length_map] at inside
    rw [List.getElem_map, List.getElem_map, List.getElem_range,
      (report i (length ▸ inside) inside).counted, Nat.zero_add]
  refine ⟨?_, kept 0 here, fun none => ?_⟩
  · rw [counts]
    exact Interaction.sum_tracked_count fails places
  · have done (i : Nat) (inside : i < ranges.length) (inside' : i < outs.length) :=
      (report i inside inside').complete (List.sum_eq_zero_iff.mp none _
        (List.mem_map.mpr ⟨_, List.getElem_mem inside', rfl⟩))
    constructor
    · have tokens : outs.map (fun out => out.1.map Prod.fst) =
          ranges.map fun range => tokensOf operations (List.range' range.1 range.2) := by
        refine List.ext_getElem (by simp [length]) fun i inside inside' => ?_
        rw [List.length_map] at inside inside'
        rw [List.getElem_map, List.getElem_map]
        exact (done i inside' inside).1
      rw [List.map_flatMap, List.flatMap_def, tokens, ← List.flatMap_def, ← cover, tokensOf,
        List.flatMap_assoc]
      rfl
    · intro some
      have first : 0 ∈ ranges.flatMap fun range => List.range' range.1 range.2 := by
        rw [cover]
        exact List.mem_range.mpr some
      obtain ⟨range, member, within⟩ := List.mem_flatMap.mp first
      obtain ⟨i, inside, rfl⟩ := List.getElem_of_mem member
      exact (done i inside (length.symm ▸ inside)).2 (List.ne_nil_of_mem within)

end AlphaPipeline.Bench

import Mathlib.Tactic

/-!
# Loops that leave

A loop takes one turn after another until a turn leaves it with a result. `Leaves` says that
it does, after some number of turns: a result it leaves with is the value of every function
that satisfies the loop's equation.
-/
namespace Loops

variable {State Result : Type}

/-- One turn of a loop. -/
inductive Turn (State Result : Type) where
  | again (next : State)
  | leave (result : Result)

/-- The loop for a number of turns at most. -/
def turns (body : State → Turn State Result) : Nat → State → Option Result
  | 0, _ => none
  | budget + 1, s =>
    match body s with
    | .again next => turns body budget next
    | .leave result => some result

/-- The loop is left with a result. -/
def Leaves (body : State → Turn State Result) (s : State) (result : Result) : Prop :=
  ∃ budget, turns body budget s = some result

variable {body : State → Turn State Result} {s : State} {result : Result}

theorem Leaves.now (leaves : body s = .leave result) : Leaves body s result :=
  ⟨1, by rw [turns, leaves]⟩

theorem Leaves.later {next : State} (goes : body s = .again next)
    (leaves : Leaves body next result) : Leaves body s result := by
  obtain ⟨budget, left⟩ := leaves
  exact ⟨budget + 1, by rw [turns, goes]; exact left⟩

/-- A function that unrolls as the loop does has the value the loop is left with. -/
theorem Leaves.value (f : State → Result)
    (unrolls : ∀ s, f s = match body s with
      | .again next => f next
      | .leave result => result)
    (leaves : Leaves body s result) : f s = result := by
  obtain ⟨budget, left⟩ := leaves
  induction budget generalizing s with
  | zero => cases left
  | succ budget ih =>
    rw [turns] at left
    rw [unrolls]
    cases turn : body s with
    | again next =>
      rw [turn] at left
      exact ih left
    | leave found =>
      rw [turn] at left
      exact Option.some.inj left

/-- A loop that counts up leaves at the first number that makes it. -/
theorem leaves_of_search {body : Int → Turn Int Result} (start stop : Int) (reached : start ≤ stop)
    (goes : ∀ x, start ≤ x → x < stop → body x = .again (x + 1))
    (leaves : body stop = .leave result) : Leaves body start result := by
  -- downwards from where the loop is left to where it starts
  induction start, reached using Int.leInductionDown with
  | base => exact .now leaves
  | pred start below ih =>
    refine .later (goes (start - 1) le_rfl (by omega)) ?_
    rw [sub_add_cancel]
    exact ih fun x low high => goes x (by omega) high

/-- A counted loop: what each turn carries to the next number holds after the last turn. -/
theorem foldl_holds {n : Nat} (holds : Nat → State → Prop) (turn : State → Fin n → State)
    {init : State} (start : holds 0 init)
    (step : ∀ (i : Fin n) s, holds i s → holds (i + 1) (turn s i)) :
    holds n (Fin.foldl n turn init) := by
  have upTo (k : Nat) (le : k ≤ n) :
      holds k (Fin.foldl k (fun s i => turn s (i.castLE le)) init) := by
    induction k with
    | zero =>
      rw [Fin.foldl_zero]
      exact start
    | succ k ih =>
      rw [Fin.foldl_succ_last]
      exact step ⟨k, le⟩ _ (ih (Nat.le_of_succ_le le))
  exact upTo n le_rfl

/-- A loop that collects into an array with room for all it may collect leaves nothing out. -/
theorem foldl_push_of_room {α β : Type} (capacity : Nat) (wanted : α → Prop)
    [DecidablePred wanted] (entry : α → β) (xs : List α) (collected : List β)
    (room : collected.length + xs.length ≤ capacity) :
    xs.foldl (fun entries x =>
        if entries.length < capacity ∧ wanted x then entries ++ [entry x] else entries) collected =
      collected ++ (xs.filter (fun x => decide (wanted x))).map entry := by
  induction xs generalizing collected with
  | nil => simp
  | cons x xs ih =>
    rw [List.length_cons] at room
    rw [List.foldl_cons]
    by_cases want : wanted x
    · have fits : collected.length < capacity := by omega
      rw [if_pos ⟨fits, want⟩, ih _ (by rw [List.length_append, List.length_singleton]; omega),
        List.filter_cons_of_pos (by simpa using want), List.map_cons, List.append_assoc,
        List.singleton_append]
    · rw [if_neg (fun both => want both.2), ih _ (by omega),
        List.filter_cons_of_neg (by simpa using want)]

end Loops

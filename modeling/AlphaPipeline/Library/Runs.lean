import Mathlib.Tactic

/-!
# Runs of a machine

A machine takes one event at a time. A condition on single steps holds along a run when
every step of the run meets it; an invariant that such steps preserve holds at the end.
A monitor reads the trace a run leaves, entry by entry, and may reject it.
-/
namespace Runs

variable {State Event : Type}

/-- The state after a list of events. -/
def run (step : State → Event → State) (s : State) (events : List Event) : State :=
  events.foldl step s

/-- Every step of the run meets the condition in the state it starts from. -/
def Along (step : State → Event → State) (condition : State → Event → Prop) :
    State → List Event → Prop
  | _, [] => True
  | s, event :: rest => condition s event ∧ Along step condition (step s event) rest

instance Along.decidable (step : State → Event → State) (condition : State → Event → Prop)
    [∀ s event, Decidable (condition s event)] :
    (s : State) → (events : List Event) → Decidable (Along step condition s events)
  | _, [] => .isTrue trivial
  | s, event :: rest =>
    have := Along.decidable step condition (step s event) rest
    inferInstanceAs (Decidable (condition s event ∧ Along step condition (step s event) rest))

variable (step : State → Event → State)

@[simp] theorem run_nil (s : State) : run step s [] = s := rfl

@[simp] theorem run_cons (s : State) (event : Event) (rest : List Event) :
    run step s (event :: rest) = run step (step s event) rest := rfl

theorem run_append (s : State) (first second : List Event) :
    run step s (first ++ second) = run step (run step s first) second :=
  List.foldl_append

/-- What every step of a run preserves holds after the run. -/
theorem run_invariant (condition : State → Event → Prop) (inv : State → Prop)
    (preserves : ∀ s event, inv s → condition s event → inv (step s event))
    (s : State) (events : List Event) (holds : inv s) (along : Along step condition s events) :
    inv (run step s events) := by
  induction events generalizing s with
  | nil => exact holds
  | cons event rest ih => exact ih _ (preserves s event holds along.1) along.2

/-- A condition on the events alone. -/
theorem along_of_forall (allowed : Event → Prop) (s : State) (events : List Event)
    (all : ∀ event ∈ events, allowed event) : Along step (fun _ => allowed) s events := by
  induction events generalizing s with
  | nil => trivial
  | cons event rest ih =>
    exact ⟨all event List.mem_cons_self, ih _ fun later h => all later (List.mem_cons_of_mem _ h)⟩

/-- What every step preserves, whatever the event, holds after every run. -/
theorem run_preserves (inv : State → Prop) (preserves : ∀ s event, inv s → inv (step s event))
    (s : State) (events : List Event) (holds : inv s) : inv (run step s events) := by
  induction events generalizing s with
  | nil => exact holds
  | cons event rest ih => exact ih _ (preserves s event holds)

section Monitor

variable {Entry γ : Type} (monitor : γ → Entry → Option γ)

/-- What a monitor knows after a trace, if it accepts it. -/
def watch (start : γ) (trace : List Entry) : Option γ := trace.foldlM monitor start

@[simp] theorem watch_nil (start : γ) : watch monitor start [] = some start := rfl

/-- A trace is accepted when its last entry is accepted after the others. -/
theorem watch_append_singleton {start after : γ} {trace : List Entry} {entry : Entry} :
    watch monitor start (trace ++ [entry]) = some after ↔
      ∃ before, watch monitor start trace = some before ∧ monitor before entry = some after := by
  rw [watch, List.foldlM_append]
  simp only [List.foldlM_cons, List.foldlM_nil, bind_pure]
  exact Option.bind_eq_some_iff

/-- A trace is accepted when its second part is, after the first. -/
theorem watch_append {start after : γ} {first second : List Entry} :
    watch monitor start (first ++ second) = some after ↔
      ∃ known, watch monitor start first = some known ∧
        watch monitor known second = some after := by
  rw [watch, List.foldlM_append]
  exact Option.bind_eq_some_iff

/-- What every entry keeps holds at the end. -/
theorem watch_keeps (holds : γ → Prop)
    (keeps : ∀ before entry after, monitor before entry = some after → holds before → holds after)
    {start after : γ} {trace : List Entry} (begins : holds start)
    (accepted : watch monitor start trace = some after) : holds after := by
  induction trace using List.reverseRecOn generalizing after with
  | nil =>
    obtain rfl := Option.some.inj accepted
    exact begins
  | append_singleton trace entry ih =>
    obtain ⟨before, earlier, last⟩ := (watch_append_singleton monitor).mp accepted
    exact keeps before entry after last (ih earlier)

/-- An output that every entry adds to is the output of the whole trace. -/
theorem watch_output {δ : Type} (output : γ → List δ) (emits : Entry → List δ)
    (adds : ∀ before entry after, monitor before entry = some after →
      output after = output before ++ emits entry)
    {start after : γ} {trace : List Entry} (accepted : watch monitor start trace = some after) :
    output after = output start ++ trace.flatMap emits := by
  induction trace using List.reverseRecOn generalizing after with
  | nil =>
    obtain rfl := Option.some.inj accepted
    rw [List.flatMap_nil, List.append_nil]
  | append_singleton trace entry ih =>
    obtain ⟨before, earlier, last⟩ := (watch_append_singleton monitor).mp accepted
    rw [adds before entry after last, ih earlier, List.flatMap_append, List.flatMap_singleton,
      List.append_assoc]

end Monitor

end Runs

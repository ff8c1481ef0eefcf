import AlphaPipeline.Library.SharedServer

/-!
# Tasks that share permits

Tasks wait for each other at a barrier. Then each takes a permit before it sends a command and gives
it back later. A command is sent, taken by the server and answered in separate moves, so the
commands of several tasks may be on their way at once, but no more than there are permits. If the
tasks take and return their permits in turn, they never wait for each other forever, and the results
are those of programs without permits.
-/
namespace Interaction

variable {Cmd Rep α β σ Env : Type}

/-- A program that also takes and returns permits. -/
inductive Task (Cmd Rep α : Type) where
  | done (result : α)
  | acquire (next : Task Cmd Rep α)
  | release (next : Task Cmd Rep α)
  | send (cmd : Cmd) (next : Rep → Task Cmd Rep α)

/-! ### Tasks -/

namespace Task

def bind : Task Cmd Rep α → (α → Task Cmd Rep β) → Task Cmd Rep β
  | done a, f => f a
  | acquire next, f => acquire (next.bind f)
  | release next, f => release (next.bind f)
  | send c next, f => send c fun reply => (next reply).bind f

instance : Monad (Task Cmd Rep) where
  pure := done
  bind := bind

/-- A program as a task that takes no permit. -/
def ofProg : Prog Cmd Rep α → Task Cmd Rep α
  | .done a => done a
  | .call c next => send c fun reply => ofProg (next reply)

/-- A program under a permit. -/
def permitted (p : Prog Cmd Rep α) : Task Cmd Rep α :=
  acquire ((ofProg p).bind fun a => release (done a))

/-- What is left of a task without its permits. -/
def bare : Task Cmd Rep α → Prog Cmd Rep α
  | done a => .done a
  | acquire next => next.bare
  | release next => next.bare
  | send c next => .call c fun reply => (next reply).bare

/-- A permit is taken before a command and returned before the next is taken. -/
def Bracketed : Task Cmd Rep α → Bool → Prop
  | done _, held => held = false
  | acquire next, held => held = false ∧ next.Bracketed true
  | release next, held => held = true ∧ next.Bracketed false
  | send _ next, held => held = true ∧ ∀ reply, (next reply).Bracketed true

/-- The task ends in so many moves, of which a command takes three. -/
def Within : Task Cmd Rep α → Nat → Prop
  | done _, _ => True
  | acquire next, n => ∃ m, n = m + 1 ∧ next.Within m
  | release next, n => ∃ m, n = m + 1 ∧ next.Within m
  | send _ next, n => ∃ m, n = m + 3 ∧ ∀ reply, (next reply).Within m

theorem bare_bind (p : Task Cmd Rep α) (f : α → Task Cmd Rep β) :
    (p >>= f).bare = p.bare >>= fun a => (f a).bare := by
  change (p.bind f).bare = p.bare.bind fun a => (f a).bare
  induction p with
  | done a => rfl
  | acquire next ih => exact ih
  | release next ih => exact ih
  | send c next ih => exact congrArg (Prog.call c) (funext ih)

theorem bare_permitted (p : Prog Cmd Rep α) : (permitted p).bare = p := by
  change ((ofProg p).bind fun a => release (done a)).bare = p
  induction p with
  | done a => rfl
  | call c next ih => exact congrArg (Prog.call c) (funext ih)

/-- A task goes on with the permit that the one before it left it with. -/
theorem Bracketed.bind {p : Task Cmd Rep α} {f : α → Task Cmd Rep β} {held : Bool}
    (first : p.Bracketed held) (later : ∀ a, (f a).Bracketed false) :
    (p >>= f).Bracketed held := by
  change (p.bind f).Bracketed held
  induction p generalizing held with
  | done a =>
    obtain rfl : held = false := first
    exact later a
  | acquire next ih => exact ⟨first.1, ih first.2⟩
  | release next ih => exact ⟨first.1, ih first.2⟩
  | send c next ih => exact ⟨first.1, fun reply => ih reply (first.2 reply)⟩

theorem bracketed_permitted (p : Prog Cmd Rep α) : (permitted p).Bracketed false := by
  refine ⟨rfl, ?_⟩
  induction p with
  | done a => exact ⟨rfl, rfl⟩
  | call c next ih => exact ⟨rfl, ih⟩

theorem Within.mono {p : Task Cmd Rep α} {n m : Nat} (ends : p.Within n) (le : n ≤ m) :
    p.Within m := by
  induction p generalizing n m with
  | done a => trivial
  | acquire next ih =>
    obtain ⟨k, rfl, rest⟩ := ends
    exact ⟨m - 1, by omega, ih rest (by omega)⟩
  | release next ih =>
    obtain ⟨k, rfl, rest⟩ := ends
    exact ⟨m - 1, by omega, ih rest (by omega)⟩
  | send c next ih =>
    obtain ⟨k, rfl, rest⟩ := ends
    exact ⟨m - 3, by omega, fun reply => ih reply (rest reply) (by omega)⟩

theorem Within.bind {p : Task Cmd Rep α} {f : α → Task Cmd Rep β} {n m : Nat}
    (first : p.Within n) (later : ∀ a, (f a).Within m) : (p >>= f).Within (n + m) := by
  change (p.bind f).Within (n + m)
  induction p generalizing n with
  | done a => exact (later a).mono (Nat.le_add_left m n)
  | acquire next ih =>
    obtain ⟨k, rfl, rest⟩ := first
    exact ⟨k + m, by omega, ih rest⟩
  | release next ih =>
    obtain ⟨k, rfl, rest⟩ := first
    exact ⟨k + m, by omega, ih rest⟩
  | send c next ih =>
    obtain ⟨k, rfl, rest⟩ := first
    exact ⟨k + m, by omega, fun reply => ih reply (rest reply)⟩

theorem within_permitted {p : Prog Cmd Rep α} {n : Nat} (ends : (ofProg p).Within n) :
    (permitted p).Within (n + 2) :=
  ⟨n + 1, rfl, ends.bind fun _ => ⟨0, rfl, trivial⟩⟩

end Task

/-! ### Tasks beside each other -/

/-- Where a task stands. The flag says whether it holds a permit. -/
inductive Phase (Cmd Rep α : Type) where
  | spawned (task : Task Cmd Rep α)
  | arrived (task : Task Cmd Rep α)
  | running (held : Bool) (task : Task Cmd Rep α)
  | sent (held : Bool) (cmd : Cmd) (next : Rep → Task Cmd Rep α)
  | answered (held : Bool) (reply : Rep) (next : Rep → Task Cmd Rep α)

namespace Phase

def holds : Phase Cmd Rep α → Bool
  | spawned _ | arrived _ => false
  | running held _ | sent held _ _ | answered held _ _ => held

/-- A command is on its way to the server or its answer on the way back. -/
def inFlight : Phase Cmd Rep α → Bool
  | sent _ _ _ | answered _ _ _ => true
  | _ => false

def isSpawned : Phase Cmd Rep α → Bool
  | spawned _ => true
  | _ => false

def isPassed : Phase Cmd Rep α → Bool
  | spawned _ | arrived _ => false
  | _ => true

def result : Phase Cmd Rep α → Option α
  | running _ (.done a) => some a
  | _ => none

def bare : Phase Cmd Rep α → Prog Cmd Rep α
  | spawned task | arrived task | running _ task => task.bare
  | sent _ c next => .call c fun reply => (next reply).bare
  | answered _ reply next => (next reply).bare

def Bracketed : Phase Cmd Rep α → Prop
  | spawned task | arrived task => task.Bracketed false
  | running held task => task.Bracketed held
  | sent held _ next => held = true ∧ ∀ reply, (next reply).Bracketed true
  | answered held reply next => held = true ∧ (next reply).Bracketed true

def Within : Phase Cmd Rep α → Nat → Prop
  | spawned task, n => ∃ m, n = m + 2 ∧ task.Within m
  | arrived task, n => ∃ m, n = m + 1 ∧ task.Within m
  | running _ task, n => task.Within n
  | sent _ _ next, n => ∃ m, n = m + 2 ∧ ∀ reply, (next reply).Within m
  | answered _ reply next, n => ∃ m, n = m + 1 ∧ (next reply).Within m

end Phase

/-- The tasks, the permits that are left, how many have come to the barrier, and the server. -/
structure Tasks (Cmd Rep α σ : Type) where
  permits : Nat
  arrivals : Nat
  phases : List (Phase Cmd Rep α)
  server : σ

namespace Tasks

/-- All tasks before the barrier. -/
def start (depth : Nat) (tasks : List (Task Cmd Rep α)) (server : σ) : Tasks Cmd Rep α σ :=
  ⟨depth, 0, tasks.map .spawned, server⟩

variable (size : Nat) (handle : Env → Cmd → σ → Rep × σ)

/-- The next move of the task at a place, if it can make one. The barrier opens for all when as many
have come as it is for, and a permit that is left goes to whichever task moves first: a runtime that
keeps its tasks in a queue makes some of these moves. -/
def advance (event : Nat × Env) (w : Tasks Cmd Rep α σ) : Option (Tasks Cmd Rep α σ) :=
  let move (phase : Phase Cmd Rep α) := w.phases.set event.1 phase
  match w.phases[event.1]? with
  | some (.spawned task) =>
    some { w with arrivals := w.arrivals + 1, phases := move (.arrived task) }
  | some (.arrived task) =>
    if size ≤ w.arrivals then some { w with phases := move (.running false task) } else none
  | some (.running _ (.acquire next)) =>
    if 0 < w.permits then
      some { w with permits := w.permits - 1, phases := move (.running true next) }
    else none
  | some (.running _ (.release next)) =>
    some { w with permits := w.permits + 1, phases := move (.running false next) }
  | some (.running held (.send c next)) => some { w with phases := move (.sent held c next) }
  | some (.sent held c next) =>
    let (reply, server) := handle event.2 c w.server
    some { w with phases := move (.answered held reply next), server }
  | some (.answered held reply next) =>
    some { w with phases := move (.running held (next reply)) }
  | some (.running _ (.done _)) | none => none

def run : List (Nat × Env) → Tasks Cmd Rep α σ → Option (Tasks Cmd Rep α σ)
  | [], w => some w
  | event :: events, w => do
    let w ← advance size handle event w
    run events w

/-- The server takes a command in this move. -/
def takes (w : Tasks Cmd Rep α σ) (event : Nat × Env) : Bool :=
  match w.phases[event.1]? with
  | some (.sent _ _ _) => true
  | _ => false

/-- The moves in which the server takes a command. -/
def served : List (Nat × Env) → Tasks Cmd Rep α σ → List (Nat × Env)
  | [], _ => []
  | event :: events, w =>
    match advance size handle event w with
    | none => []
    | some w' => if w.takes event then event :: served events w' else served events w'

/-- Every task has ended. -/
def Finished (w : Tasks Cmd Rep α σ) : Prop := ∀ phase ∈ w.phases, phase.result.isSome

def inFlight (w : Tasks Cmd Rep α σ) : Nat := w.phases.countP Phase.inFlight

/-! ### Permits and the barrier -/

/-- No permit is lost, and none passes the barrier before all have come. -/
structure Inv (depth : Nat) (w : Tasks Cmd Rep α σ) : Prop where
  permits : w.permits + w.phases.countP Phase.holds = depth
  bracketed : ∀ phase ∈ w.phases, phase.Bracketed
  arrivals : w.arrivals + w.phases.countP Phase.isSpawned = w.phases.length
  passed : ∀ phase ∈ w.phases, phase.isPassed = true → size ≤ w.arrivals

theorem inv_start (depth : Nat) {tasks : List (Task Cmd Rep α)} (server : σ)
    (bracketed : ∀ task ∈ tasks, task.Bracketed false) :
    (start depth tasks server).Inv size depth where
  permits := by
    have none : (tasks.map Phase.spawned).countP Phase.holds = 0 := by
      simp [List.countP_eq_zero, Phase.holds]
    rw [start, none, Nat.add_zero]
  bracketed := by simpa [start, Phase.Bracketed] using bracketed
  arrivals := by
    have all : (tasks.map Phase.spawned).countP Phase.isSpawned =
        (tasks.map Phase.spawned).length := by
      simp [List.countP_eq_length, Phase.isSpawned]
    rw [start, all, Nat.zero_add]
  passed := by simp [start, Phase.isPassed]

variable {size handle}

private theorem countP_set_add {γ : Type} (p : γ → Bool) {xs : List γ} {i : Nat} {old : γ} (new : γ)
    (here : xs[i]? = some old) :
    (xs.set i new).countP p + (p old).toNat = xs.countP p + (p new).toNat := by
  induction xs generalizing i with
  | nil => cases here
  | cons x xs ih =>
    cases i with
    | zero =>
      obtain rfl : x = old := by simpa using here
      rw [List.set_cons_zero, List.countP_cons, List.countP_cons]
      cases p x <;> cases p new <;> simp
    | succ i =>
      rw [List.set_cons_succ, List.countP_cons, List.countP_cons]
      have rest := ih (by simpa using here)
      omega

/-- One task moves from a phase to another. -/
theorem Inv.move {depth : Nat} {w w' : Tasks Cmd Rep α σ} {i : Nat} {old new : Phase Cmd Rep α}
    (inv : w.Inv size depth) (here : w.phases[i]? = some old) (set : w'.phases = w.phases.set i new)
    (permits : w'.permits + new.holds.toNat = w.permits + old.holds.toNat)
    (bracketed : new.Bracketed)
    (arrivals : w'.arrivals + new.isSpawned.toNat = w.arrivals + old.isSpawned.toNat)
    (more : w.arrivals ≤ w'.arrivals) (passed : new.isPassed = true → size ≤ w'.arrivals) :
    w'.Inv size depth where
  permits := by
    have counted := countP_set_add Phase.holds new here
    have before := inv.permits
    rw [set]
    omega
  bracketed := by
    intro phase member
    rw [set] at member
    rcases List.mem_or_eq_of_mem_set member with old | rfl
    · exact inv.bracketed phase old
    · exact bracketed
  arrivals := by
    have counted := countP_set_add Phase.isSpawned new here
    have before := inv.arrivals
    rw [set, List.length_set]
    omega
  passed := by
    intro phase member beyond
    rw [set] at member
    rcases List.mem_or_eq_of_mem_set member with old | rfl
    · exact (inv.passed phase old beyond).trans more
    · exact passed beyond

theorem Inv.advance {depth : Nat} {w w' : Tasks Cmd Rep α σ} {event : Nat × Env}
    (inv : w.Inv size depth) (moved : w.advance size handle event = some w') :
    w'.Inv size depth := by
  unfold Tasks.advance at moved
  dsimp only at moved
  split at moved
  next task here =>
    have bracketed := inv.bracketed _ (List.mem_of_getElem? here)
    obtain rfl := Option.some.inj moved
    exact inv.move here rfl rfl bracketed rfl (Nat.le_succ _) nofun
  next task here =>
    have bracketed := inv.bracketed _ (List.mem_of_getElem? here)
    split at moved
    next opened =>
      obtain rfl := Option.some.inj moved
      exact inv.move here rfl rfl bracketed rfl le_rfl fun _ => opened
    · cases moved
  next held next here =>
    obtain ⟨free, rest⟩ := inv.bracketed _ (List.mem_of_getElem? here)
    split at moved
    next left =>
      obtain rfl := Option.some.inj moved
      refine inv.move here rfl ?_ rest rfl le_rfl fun _ =>
        inv.passed _ (List.mem_of_getElem? here) rfl
      change w.permits - 1 + 1 = w.permits + held.toNat
      rw [free]
      exact Nat.sub_add_cancel left
    · cases moved
  next held next here =>
    obtain ⟨taken, rest⟩ := inv.bracketed _ (List.mem_of_getElem? here)
    obtain rfl := Option.some.inj moved
    refine inv.move here rfl ?_ rest rfl le_rfl fun _ =>
      inv.passed _ (List.mem_of_getElem? here) rfl
    change w.permits + 1 + 0 = w.permits + held.toNat
    rw [taken]
    rfl
  next held c next here =>
    have bracketed := inv.bracketed _ (List.mem_of_getElem? here)
    obtain rfl := Option.some.inj moved
    exact inv.move here rfl rfl bracketed rfl le_rfl fun _ =>
      inv.passed _ (List.mem_of_getElem? here) rfl
  next held c next here =>
    obtain ⟨taken, rest⟩ := inv.bracketed _ (List.mem_of_getElem? here)
    obtain rfl := Option.some.inj moved
    exact inv.move here rfl rfl ⟨taken, rest _⟩ rfl le_rfl fun _ =>
      inv.passed _ (List.mem_of_getElem? here) rfl
  next held reply next here =>
    obtain ⟨taken, rest⟩ := inv.bracketed _ (List.mem_of_getElem? here)
    obtain rfl := Option.some.inj moved
    refine inv.move here rfl rfl ?_ rfl le_rfl fun _ =>
      inv.passed _ (List.mem_of_getElem? here) rfl
    rw [taken]
    exact rest
  · cases moved
  · cases moved

theorem Inv.run {depth : Nat} {w w' : Tasks Cmd Rep α σ} {events : List (Nat × Env)}
    (inv : w.Inv size depth) (ran : w.run size handle events = some w') : w'.Inv size depth := by
  induction events generalizing w with
  | nil => exact Option.some.inj ran ▸ inv
  | cons event events ih =>
    obtain ⟨w₁, moved, rest⟩ := Option.bind_eq_some_iff.mp ran
    exact ih (inv.advance moved) rest

/-- A command that is on its way has a permit. -/
theorem Inv.inFlight_le {depth : Nat} {w : Tasks Cmd Rep α σ} (inv : w.Inv size depth) :
    w.inFlight ≤ depth := by
  have held : w.inFlight ≤ w.phases.countP Phase.holds := by
    refine List.countP_mono_left fun phase member flying => ?_
    have bracketed := inv.bracketed phase member
    cases phase with
    | sent held c next => exact bracketed.1
    | answered held reply next => exact bracketed.1
    | spawned task => cases flying
    | arrived task => cases flying
    | running held task => cases flying
  have permits := inv.permits
  omega

/-- Nothing is sent before all tasks have come to the barrier. -/
theorem Inv.all_arrived {depth : Nat} {w : Tasks Cmd Rep α σ} (inv : w.Inv w.phases.length depth)
    (flying : 0 < w.inFlight) : ∀ phase ∈ w.phases, phase.isSpawned = false := by
  obtain ⟨phase, member, sent⟩ := List.countP_pos_iff.mp flying
  have beyond : phase.isPassed = true := by
    cases phase with
    | spawned task => cases sent
    | arrived task => cases sent
    | running held task => rfl
    | sent held c next => rfl
    | answered held reply next => rfl
  have all := inv.passed phase member beyond
  have arrivals := inv.arrivals
  have none : w.phases.countP Phase.isSpawned = 0 := by omega
  intro other here
  exact Bool.eq_false_iff.mpr (List.countP_eq_zero.mp none other here)

/-! ### Every run ends -/

variable (handle) in
/-- Tasks that have not all ended can move, if there are permits and the barrier is for as many as
there are tasks. -/
theorem Inv.can_advance {depth : Nat} {w : Tasks Cmd Rep α σ} (inv : w.Inv w.phases.length depth)
    (positive : 0 < depth) (left : ¬ w.Finished) :
    ∃ i, ∀ e : Env, (w.advance w.phases.length handle (i, e)).isSome := by
  -- whoever has not come to the barrier can come
  by_cases early : ∃ task, Phase.spawned task ∈ w.phases
  · obtain ⟨task, member⟩ := early
    obtain ⟨i, here⟩ := List.mem_iff_getElem?.mp member
    refine ⟨i, fun e => ?_⟩
    rw [Tasks.advance]
    dsimp only
    rw [here]
    rfl
  have opened : w.phases.length ≤ w.arrivals := by
    have none : w.phases.countP Phase.isSpawned = 0 := by
      refine List.countP_eq_zero.mpr fun phase member is => ?_
      cases phase with
      | spawned task => exact early ⟨task, member⟩
      | _ => cases is
    have arrivals := inv.arrivals
    omega
  -- then, whoever holds a permit or has something on its way can go on
  by_cases holding : ∃ phase ∈ w.phases, phase.holds = true
  · obtain ⟨phase, member, holds⟩ := holding
    obtain ⟨i, here⟩ := List.mem_iff_getElem?.mp member
    have bracketed := inv.bracketed phase member
    refine ⟨i, fun e => ?_⟩
    rw [Tasks.advance]
    dsimp only
    rw [here]
    cases phase with
    | spawned task => cases holds
    | arrived task => cases holds
    | sent held c next => rfl
    | answered held reply next => rfl
    | running held task =>
      obtain rfl : held = true := holds
      cases task with
      | done a => cases (bracketed : true = false)
      | acquire next => cases (bracketed.1 : true = false)
      | release next => rfl
      | send c next => rfl
  -- otherwise all permits are left
  have permits : 0 < w.permits := by
    have none : w.phases.countP Phase.holds = 0 :=
      List.countP_eq_zero.mpr fun phase member holds => holding ⟨phase, member, holds⟩
    have permits := inv.permits
    omega
  obtain ⟨phase, member, unfinished⟩ : ∃ phase ∈ w.phases, ¬ phase.result.isSome := by
    simpa [Finished] using left
  obtain ⟨i, here⟩ := List.mem_iff_getElem?.mp member
  have bracketed := inv.bracketed phase member
  refine ⟨i, fun e => ?_⟩
  rw [Tasks.advance]
  dsimp only
  rw [here]
  cases phase with
  | spawned task => exact absurd ⟨task, member⟩ early
  | arrived task =>
    dsimp only
    rw [if_pos opened]
    rfl
  | sent held c next => exact absurd ⟨_, member, bracketed.1⟩ holding
  | answered held reply next => exact absurd ⟨_, member, bracketed.1⟩ holding
  | running held task =>
    cases task with
    | done a => exact absurd rfl unfinished
    | acquire next =>
      dsimp only
      rw [if_pos permits]
      rfl
    | release next => rfl
    | send c next => rfl

/-- The tasks together end in so many moves. -/
def Within (w : Tasks Cmd Rep α σ) (n : Nat) : Prop :=
  ∃ bounds : List Nat, List.Forall₂ Phase.Within w.phases bounds ∧ bounds.sum = n

private theorem forall₂_lower {γ : Type} {R : γ → Nat → Prop} {xs : List γ} {bounds : List Nat}
    {i : Nat} {old new : γ} (related : List.Forall₂ R xs bounds) (here : xs[i]? = some old)
    (lower : ∀ n, R old n → ∃ m, n = m + 1 ∧ R new m) :
    ∃ bounds', List.Forall₂ R (xs.set i new) bounds' ∧ bounds.sum = bounds'.sum + 1 := by
  induction related generalizing i with
  | nil => cases here
  | @cons x n xs bounds first rest ih =>
    cases i with
    | zero =>
      obtain rfl : x = old := by simpa using here
      obtain ⟨m, rfl, holds⟩ := lower n first
      exact ⟨m :: bounds, .cons holds rest, by simp only [List.sum_cons]; omega⟩
    | succ i =>
      obtain ⟨bounds', related', sum⟩ := ih (by simpa using here)
      exact ⟨n :: bounds', .cons first related', by simp only [List.sum_cons]; omega⟩

theorem Within.advance {w w' : Tasks Cmd Rep α σ} {event : Nat × Env} {n : Nat}
    (ends : w.Within n) (moved : w.advance size handle event = some w') :
    ∃ m, n = m + 1 ∧ w'.Within m := by
  obtain ⟨bounds, related, rfl⟩ := ends
  -- the move sets one phase, to one that ends a move earlier
  suffices lowered : ∃ old new, w.phases[event.1]? = some old ∧
      w'.phases = w.phases.set event.1 new ∧ ∀ n, old.Within n → ∃ m, n = m + 1 ∧ new.Within m by
    obtain ⟨old, new, here, set, lower⟩ := lowered
    obtain ⟨bounds', related', sum⟩ := forall₂_lower related here lower
    exact ⟨bounds'.sum, sum, bounds', set ▸ related', rfl⟩
  unfold Tasks.advance at moved
  dsimp only at moved
  split at moved
  next task here =>
    obtain rfl := Option.some.inj moved
    refine ⟨_, _, here, rfl, ?_⟩
    rintro n ⟨m, rfl, rest⟩
    exact ⟨m + 1, rfl, m, rfl, rest⟩
  next task here =>
    split at moved
    · obtain rfl := Option.some.inj moved
      exact ⟨_, _, here, rfl, fun n bound => bound⟩
    · cases moved
  next held next here =>
    split at moved
    · obtain rfl := Option.some.inj moved
      exact ⟨_, _, here, rfl, fun n bound => bound⟩
    · cases moved
  next held next here =>
    obtain rfl := Option.some.inj moved
    exact ⟨_, _, here, rfl, fun n bound => bound⟩
  next held c next here =>
    obtain rfl := Option.some.inj moved
    refine ⟨_, _, here, rfl, ?_⟩
    rintro n ⟨m, rfl, rest⟩
    exact ⟨m + 2, rfl, m, rfl, rest⟩
  next held c next here =>
    obtain rfl := Option.some.inj moved
    refine ⟨_, _, here, rfl, ?_⟩
    rintro n ⟨m, rfl, rest⟩
    exact ⟨m + 1, rfl, m, rfl, rest _⟩
  next held reply next here =>
    obtain rfl := Option.some.inj moved
    exact ⟨_, _, here, rfl, fun n bound => bound⟩
  · cases moved
  · cases moved

/-- No run has more moves. -/
theorem Within.run {w w' : Tasks Cmd Rep α σ} {events : List (Nat × Env)} {n : Nat}
    (ends : w.Within n) (ran : w.run size handle events = some w') :
    ∃ m, n = m + events.length ∧ w'.Within m := by
  induction events generalizing w n with
  | nil => exact ⟨n, rfl, Option.some.inj ran ▸ ends⟩
  | cons event events ih =>
    obtain ⟨w₁, moved, rest⟩ := Option.bind_eq_some_iff.mp ran
    obtain ⟨k, rfl, later⟩ := ends.advance moved
    obtain ⟨m, rfl, last⟩ := ih later rest
    exact ⟨m, rfl, last⟩

theorem length_advance {w w' : Tasks Cmd Rep α σ} {event : Nat × Env}
    (moved : w.advance size handle event = some w') : w'.phases.length = w.phases.length := by
  unfold advance at moved
  dsimp only at moved
  repeat' split at moved
  all_goals cases moved
  all_goals exact List.length_set

theorem length_run {w w' : Tasks Cmd Rep α σ} {events : List (Nat × Env)}
    (ran : w.run size handle events = some w') : w'.phases.length = w.phases.length := by
  induction events generalizing w with
  | nil => exact Option.some.inj ran ▸ rfl
  | cons event events ih =>
    obtain ⟨w₁, moved, rest⟩ := Option.bind_eq_some_iff.mp ran
    exact (ih rest).trans (length_advance moved)

variable (handle) in
/-- Wherever the tasks stand, they can all end, whatever each command meets. -/
theorem Inv.can_finish {depth : Nat} {w : Tasks Cmd Rep α σ} {n : Nat}
    (inv : w.Inv w.phases.length depth) (positive : 0 < depth) (ends : w.Within n) (e : Env) :
    ∃ events w', (∀ event ∈ events, event.2 = e) ∧
      w.run w.phases.length handle events = some w' ∧ w'.Finished := by
  induction n generalizing w with
  | zero =>
    by_cases finished : w.Finished
    · exact ⟨[], w, nofun, rfl, finished⟩
    · obtain ⟨i, moves⟩ := inv.can_advance handle positive finished
      obtain ⟨w', moved⟩ := Option.isSome_iff_exists.mp (moves e)
      obtain ⟨m, impossible, _⟩ := ends.advance moved
      cases impossible
  | succ n ih =>
    by_cases finished : w.Finished
    · exact ⟨[], w, nofun, rfl, finished⟩
    · obtain ⟨i, moves⟩ := inv.can_advance handle positive finished
      obtain ⟨w', moved⟩ := Option.isSome_iff_exists.mp (moves e)
      obtain ⟨m, eq, later⟩ := ends.advance moved
      obtain rfl : n = m := by omega
      have length := length_advance moved
      obtain ⟨events, last, same, ran, finished⟩ := ih (length ▸ inv.advance moved) later
      rw [length] at ran
      exact ⟨(i, e) :: events, last, List.forall_mem_cons.mpr ⟨rfl, same⟩,
        by rw [Tasks.run, moved]; exact ran, finished⟩

/-! ### Without permits -/

/-- A move serves the next command of a program or leaves the programs as they are. -/
theorem bare_advance {w w' : Tasks Cmd Rep α σ} {event : Nat × Env}
    (moved : w.advance size handle event = some w') :
    (w.takes event = false ∧ w'.phases.map Phase.bare = w.phases.map Phase.bare ∧
        w'.server = w.server) ∨
      (w.takes event = true ∧ ∃ c next,
        (w.phases.map Phase.bare)[event.1]? = some (.call c next) ∧
        w'.phases.map Phase.bare =
          (w.phases.map Phase.bare).set event.1 (next (handle event.2 c w.server).1) ∧
        w'.server = (handle event.2 c w.server).2) := by
  have same {old new : Phase Cmd Rep α} (here : w.phases[event.1]? = some old)
      (bare : new.bare = old.bare) :
      (w.phases.set event.1 new).map Phase.bare = w.phases.map Phase.bare := by
    rw [List.map_set, bare]
    obtain ⟨inside, rfl⟩ := List.getElem?_eq_some_iff.mp here
    have inside' : event.1 < (w.phases.map Phase.bare).length := by rwa [List.length_map]
    exact (congrArg _ (List.getElem_map Phase.bare).symm).trans (List.set_getElem_self inside')
  unfold advance at moved
  dsimp only at moved
  rw [takes]
  split at moved
  next task here =>
    obtain rfl := Option.some.inj moved
    exact .inl ⟨by rw [here], same here rfl, rfl⟩
  next task here =>
    split at moved
    · obtain rfl := Option.some.inj moved
      exact .inl ⟨by rw [here], same here rfl, rfl⟩
    · cases moved
  next held next here =>
    split at moved
    · obtain rfl := Option.some.inj moved
      exact .inl ⟨by rw [here], same here rfl, rfl⟩
    · cases moved
  next held next here =>
    obtain rfl := Option.some.inj moved
    exact .inl ⟨by rw [here], same here rfl, rfl⟩
  next held c next here =>
    obtain rfl := Option.some.inj moved
    exact .inl ⟨by rw [here], same here rfl, rfl⟩
  next held c next here =>
    obtain rfl := Option.some.inj moved
    refine .inr ⟨by rw [here], c, fun reply => (next reply).bare, ?_, ?_, rfl⟩
    · rw [List.getElem?_map, here]
      rfl
    · exact List.map_set
  next held reply next here =>
    obtain rfl := Option.some.inj moved
    exact .inl ⟨by rw [here], same here rfl, rfl⟩
  · cases moved
  · cases moved

theorem mapM_bare {phases : List (Phase Cmd Rep α)} {results : List α}
    (ended : phases.mapM Phase.result = some results) :
    (phases.map Phase.bare).mapM Prog.result = some results := by
  induction phases generalizing results with
  | nil => exact ended
  | cons phase phases ih =>
    rw [List.mapM_cons] at ended
    obtain ⟨first, is, rest⟩ := Option.bind_eq_some_iff.mp ended
    obtain ⟨others, found, eq⟩ := Option.bind_eq_some_iff.mp rest
    obtain rfl := Option.some.inj eq
    have bare : phase.bare.result = some first := by
      unfold Phase.result at is
      split at is
      · exact is
      · cases is
    rw [List.map_cons, List.mapM_cons, bare, ih found]
    rfl

/-- The results are those of the programs without permits, whose commands the server takes in the
same order. -/
theorem together_of_run {w w' : Tasks Cmd Rep α σ} {events : List (Nat × Env)} {results : List α}
    (ran : w.run size handle events = some w')
    (ended : w'.phases.mapM Phase.result = some results) :
    together handle (w.served size handle events) (w.phases.map Phase.bare) w.server =
      some (results, w'.server) := by
  induction events generalizing w with
  | nil =>
    obtain rfl := Option.some.inj ran
    rw [served, together, Option.map_eq_some_iff]
    exact ⟨results, mapM_bare ended, rfl⟩
  | cons event events ih =>
    obtain ⟨w₁, moved, rest⟩ := Option.bind_eq_some_iff.mp ran
    rw [served, moved]
    dsimp only
    rcases bare_advance moved with ⟨quiet, same, server⟩ | ⟨takes, c, next, here, set, server⟩
    · rw [quiet, if_neg (by decide), ← same, ← server]
      exact ih rest
    · rw [takes, if_pos rfl, together, here]
      dsimp only
      rw [← set, ← server]
      exact ih rest

end Tasks

end Interaction

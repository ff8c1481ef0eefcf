import Mathlib.Tactic

/-!
# Programs that talk to a server

A program is a finite tree of commands, each followed by one branch for every
possible reply. The same tree can be run against a stateful server, against an
arbitrary sequence of replies, or one command at a time beside other programs. What a
program guarantees in every environment is stated by its weakest precondition, with a
ghost value that each command and reply may change.
-/
namespace Interaction

variable {Cmd Rep α β σ : Type}

/-- A program that issues commands and ends in a result. -/
inductive Prog (Cmd Rep α : Type) where
  | done (result : α)
  | call (cmd : Cmd) (next : Rep → Prog Cmd Rep α)

namespace Prog

def bind : Prog Cmd Rep α → (α → Prog Cmd Rep β) → Prog Cmd Rep β
  | done a, f => f a
  | call c next, f => call c fun reply => (next reply).bind f

instance : Monad (Prog Cmd Rep) where
  pure := done
  bind := bind

/-- Issue one command and return its reply. -/
def ask (c : Cmd) : Prog Cmd Rep Rep := call c done

/-- The command a program starts with, if it sends any. -/
def first : Prog Cmd Rep α → Option Cmd
  | done _ => none
  | call c _ => some c

/-- Run to the end against a server that answers each command and changes state. -/
def run (handle : Cmd → σ → Rep × σ) : Prog Cmd Rep α → σ → α × σ
  | done a, s => (a, s)
  | call c next, s => (next (handle c s).1).run handle (handle c s).2

variable (handle : Cmd → σ → Rep × σ)

@[simp] theorem run_pure (a : α) (s : σ) :
    run handle (pure a : Prog Cmd Rep α) s = (a, s) := rfl

@[simp] theorem run_ask (c : Cmd) (s : σ) : run handle (ask c) s = handle c s := rfl

@[simp] theorem run_bind (p : Prog Cmd Rep α) (f : α → Prog Cmd Rep β) (s : σ) :
    run handle (p >>= f) s = run handle (f (run handle p s).1) (run handle p s).2 := by
  change run handle (p.bind f) s = _
  induction p generalizing s with
  | done a => rfl
  | call c next ih => exact ih _ _

/-- Issue a command and go on with what is read of its reply, if it can be read. -/
def reading (read : Rep → Option β) (c : Cmd) (next : β → Prog Cmd Rep (Option α)) :
    Prog Cmd Rep (Option α) :=
  call c fun reply =>
    match read reply with
    | none => done none
    | some x => next x

/-- A program that comes to a result has read its first reply. -/
theorem run_reading_some {read : Rep → Option β} {c : Cmd} {next : β → Prog Cmd Rep (Option α)}
    {s : σ} {a : α} (result : ((reading read c next).run handle s).1 = some a) :
    ∃ x, read (handle c s).1 = some x ∧
      (reading read c next).run handle s = (next x).run handle (handle c s).2 := by
  rw [reading, run] at result ⊢
  split at result
  next => cases result
  next x got => exact ⟨x, got, rfl⟩

/-- Replies from a table: the one to the `n`-th command sent, whatever the server's state. -/
def scripted (replies : Nat → Cmd → Rep) (c : Cmd) (n : Nat) : Rep × Nat := (replies n c, n + 1)

@[simp] theorem scripted_eq (replies : Nat → Cmd → Rep) (c : Cmd) (n : Nat) :
    scripted replies c n = (replies n c, n + 1) := rfl

section WeakestPrecondition

variable {Ghost : Type} (may : Cmd → Prop) (track : Cmd → Rep → Ghost → Ghost)

/-- Whatever the replies: every command sent is allowed, and the result and the final ghost
value satisfy the postcondition. -/
def wp (post : α → Ghost → Prop) : Prog Cmd Rep α → Ghost → Prop
  | done a, ghost => post a ghost
  | call c next, ghost => may c ∧ ∀ reply, (next reply).wp post (track c reply ghost)

@[simp] theorem wp_pure (post : α → Ghost → Prop) (a : α) (ghost : Ghost) :
    wp may track post (pure a : Prog Cmd Rep α) ghost ↔ post a ghost := Iff.rfl

@[simp] theorem wp_ask (post : Rep → Ghost → Prop) (c : Cmd) (ghost : Ghost) :
    wp may track post (ask c) ghost ↔ may c ∧ ∀ reply, post reply (track c reply ghost) := Iff.rfl

@[simp] theorem wp_bind (post : β → Ghost → Prop) (p : Prog Cmd Rep α)
    (f : α → Prog Cmd Rep β) (ghost : Ghost) :
    wp may track post (p >>= f) ghost ↔
      wp may track (fun a g => wp may track post (f a) g) p ghost := by
  change wp may track post (p.bind f) ghost ↔ _
  induction p generalizing ghost with
  | done a => exact Iff.rfl
  | call c next ih => exact and_congr_right fun _ => forall_congr' fun reply => ih reply _

/-- A stronger postcondition has a stronger weakest precondition. -/
theorem wp_mono {post post' : α → Ghost → Prop} (weaker : ∀ a g, post a g → post' a g)
    (p : Prog Cmd Rep α) (ghost : Ghost) (holds : wp may track post p ghost) :
    wp may track post' p ghost := by
  induction p generalizing ghost with
  | done a => exact weaker a ghost holds
  | call c next ih => exact ⟨holds.1, fun reply => ih reply _ (holds.2 reply)⟩

end WeakestPrecondition

end Prog

end Interaction

import Mathlib.Tactic
import Mathlib.Data.List.Sort

/-!
# Interleavings

Threads write to one list. A schedule says which thread writes next; it is complete if every
thread has written all it has in the end. Whatever the schedule, the list has the same entries,
so a list sorted by keys that are all different does not depend on it.
-/
namespace Interleaving

variable {α β : Type}

/-- What the threads write under a schedule, if it is complete. -/
def interleave : List Nat → List (List α) → Option (List α)
  | [], threads => if threads.all List.isEmpty then some [] else none
  | i :: schedule, threads =>
    match threads[i]? with
    | some (x :: rest) => (interleave schedule (threads.set i rest)).map (x :: ·)
    | _ => none

/-- A write takes one entry from the threads. -/
theorem flatten_perm_set {threads : List (List α)} {i : Nat} {x : α} {rest : List α}
    (next : threads[i]? = some (x :: rest)) :
    threads.flatten.Perm (x :: (threads.set i rest).flatten) := by
  obtain ⟨inside, head⟩ := List.getElem?_eq_some_iff.mp next
  have whole : threads = threads.take i ++ (x :: rest) :: threads.drop (i + 1) := by
    rw [← head, List.getElem_cons_drop, List.take_append_drop]
  rw [List.set_eq_take_append_cons_drop, if_pos inside]
  nth_rewrite 1 [whole]
  rw [List.flatten_append, List.flatten_append, List.flatten_cons, List.flatten_cons,
    List.cons_append]
  exact List.perm_middle

/-- Nothing is lost and nothing is written twice. -/
theorem interleave_perm {schedule : List Nat} {threads : List (List α)} {written : List α}
    (complete : interleave schedule threads = some written) : written.Perm threads.flatten := by
  induction schedule generalizing threads written with
  | nil =>
    rw [interleave] at complete
    split at complete
    next done =>
      obtain rfl := Option.some.inj complete
      have empty : threads.flatten = [] := by
        rw [List.flatten_eq_nil_iff]
        intro thread member
        exact List.isEmpty_iff.mp (List.all_eq_true.mp done thread member)
      rw [empty]
    · cases complete
  | cons i schedule ih =>
    rw [interleave] at complete
    split at complete
    next x rest next =>
      obtain ⟨later, finished, rfl⟩ := Option.map_eq_some_iff.mp complete
      exact ((ih finished).cons x).trans (flatten_perm_set next).symm
    · cases complete

/-- A list sorted by a key is the one list with these keys in strict order. -/
theorem map_insertionSort_eq [LinearOrder β] (r : α → α → Prop) [DecidableRel r]
    [Std.Total r] [IsTrans α r] {key : α → β} (ordered : ∀ a b, r a b → key a ≤ key b)
    {entries : List α} {keys : List β} (same : (entries.map key).Perm keys)
    (strict : keys.Pairwise (· < ·)) : (entries.insertionSort r).map key = keys := by
  have sorted : ((entries.insertionSort r).map key).Pairwise (· ≤ ·) :=
    List.pairwise_map.mpr ((List.pairwise_insertionSort r entries).imp fun {a b} => ordered a b)
  have perm : ((entries.insertionSort r).map key).Perm keys :=
    ((List.perm_insertionSort r entries).map key).trans same
  exact perm.eq_of_pairwise (fun a b _ _ => le_antisymm) sorted (strict.imp le_of_lt)

end Interleaving

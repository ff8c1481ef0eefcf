import Mathlib.Tactic

/-!
# Ring buffers

A fixed array of slots with a head index and a count. The queue it holds starts at the head
and wraps around at the end of the array. Adding writes the slot after the last one in use;
removing moves the head.
-/
namespace RingBuffer

variable {α : Type} [Inhabited α]

/-- The queue from the head on. -/
def contents (slots : List α) (head count : Nat) : List α :=
  (List.range count).map fun i => slots.getD ((head + i) % slots.length) default

@[simp] theorem contents_zero (slots : List α) (head : Nat) : contents slots head 0 = [] := rfl

/-- Two places of the queue lie in different slots. -/
private theorem index_ne (head i j length : Nat) (left : i < length) (right : j < length)
    (distinct : i ≠ j) : (head + i) % length ≠ (head + j) % length := by
  intro same
  have congruent : i ≡ j [MOD length] := Nat.ModEq.add_left_cancel' head same
  exact distinct (Nat.ModEq.eq_of_lt_of_lt congruent left right)

/-- Writing the slot after the last one appends to the queue. -/
theorem contents_push (slots : List α) (head count : Nat) (x : α) (room : count < slots.length) :
    contents (slots.set ((head + count) % slots.length) x) head (count + 1) =
      contents slots head count ++ [x] := by
  have positive : 0 < slots.length := by omega
  have last : (head + count) % slots.length < slots.length := Nat.mod_lt _ positive
  simp only [contents, List.length_set, List.range_succ, List.map_append, List.map_cons,
    List.map_nil]
  congr 1
  · apply List.map_congr_left
    intro i member
    have before : i < count := List.mem_range.mp member
    have other := index_ne head i count slots.length (by omega) room (by omega)
    simp [List.getD_eq_getElem?_getD, List.getElem?_set_ne (Ne.symm other)]
  · simp [List.getD_eq_getElem?_getD, last]

/-- Moving the head drops the first element of the queue. -/
theorem contents_pop (slots : List α) (head count : Nat) (inRange : head < slots.length) :
    contents slots head (count + 1) =
      slots.getD head default :: contents slots ((head + 1) % slots.length) count := by
  simp only [contents, List.range_succ_eq_map, List.map_cons, List.map_map, Nat.add_zero,
    Nat.mod_eq_of_lt inRange]
  congr 1
  apply List.map_congr_left
  intro i _
  simp only [Function.comp_apply, Nat.mod_add_mod]
  congr 2
  omega

end RingBuffer

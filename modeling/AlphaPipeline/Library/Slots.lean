import Mathlib.Tactic

/-!
# Arrays whose slots start unwritten

A freshly allocated array holds nothing that may be read. A write outside it, and a read of
a slot that was never written, has no result. An array filled from the front is one value:
what was written, in order, followed by unwritten slots.
-/
namespace Slots

variable {α : Type}

/-- The array just after its allocation. -/
def fresh (capacity : Nat) : List (Option α) := List.replicate capacity none

def write (slots : List (Option α)) (i : Nat) (value : α) : Option (List (Option α)) :=
  if i < slots.length then some (slots.set i (some value)) else none

def read (slots : List (Option α)) (i : Nat) : Option α := slots[i]?.join

/-- The first `count` slots, all of which must have been written. -/
def readFirst (slots : List (Option α)) : Nat → Option (List α)
  | 0 => some []
  | count + 1 => do
    let values ← readFirst slots count
    let value ← read slots count
    some (values ++ [value])

/-- The array after a change of its size: its first slots, and unwritten ones. -/
def resize (slots : List (Option α)) (size : Nat) : List (Option α) :=
  slots.take size ++ List.replicate (size - slots.length) none

/-- Values written one after the other from an offset. -/
def copy (slots : List (Option α)) (offset : Nat) (values : List α) :
    Option (List (Option α)) :=
  if offset + values.length ≤ slots.length then
    some (slots.take offset ++ values.map some ++ slots.drop (offset + values.length))
  else none

/-- Two arrays written in step, a slot of each for every item. It stops at an item of which a value
cannot be read; the flag tells whether there was none. -/
def fill {β γ : Type} (first : α → Option β) (second : α → Option γ) (i : Nat)
    (firsts : List (Option β)) (seconds : List (Option γ)) :
    List α → Option (Bool × List (Option β) × List (Option γ))
  | [] => some (true, firsts, seconds)
  | item :: rest =>
    match first item with
    | none => some (false, firsts, seconds)
    | some value => do
      let firsts ← write firsts i value
      match second item with
      | none => some (false, firsts, seconds)
      | some value => do
        let seconds ← write seconds i value
        fill first second (i + 1) firsts seconds rest

/-- An array of `capacity` slots with these values written at its front. -/
def holding (capacity : Nat) (values : List α) : List (Option α) :=
  values.map some ++ List.replicate (capacity - values.length) none

theorem fresh_eq_holding (capacity : Nat) : fresh (α := α) capacity = holding capacity [] := by
  simp [fresh, holding]

theorem length_holding {capacity : Nat} {values : List α} (fits : values.length ≤ capacity) :
    (holding capacity values).length = capacity := by
  simp only [holding, List.length_append, List.length_map, List.length_replicate]
  omega

/-- Writing the slot after the last value adds the value. -/
theorem write_holding {capacity : Nat} {values : List α} (room : values.length < capacity)
    (value : α) :
    write (holding capacity values) values.length value =
      some (holding capacity (values ++ [value])) := by
  have inside : values.length < (holding capacity values).length := by
    rw [length_holding (by omega)]
    exact room
  obtain ⟨rest, split⟩ : ∃ rest, capacity - values.length = rest + 1 :=
    ⟨capacity - values.length - 1, by omega⟩
  have left : capacity - (values ++ [value]).length = rest := by
    rw [List.length_append, List.length_singleton]
    omega
  -- the slot after the last value is the first of the unwritten ones
  rw [write, if_pos inside, holding, holding, left, split, List.replicate_succ,
    List.set_append_right _ _ (by simp)]
  simp

/-- Adding a value changes no slot but the one after the last value. -/
theorem getElem?_holding_snoc {capacity : Nat} {values : List α} (room : values.length < capacity)
    (value : α) {i : Nat} (other : i ≠ values.length) :
    (holding capacity (values ++ [value]))[i]? = (holding capacity values)[i]? := by
  have written := write_holding room value
  rw [write] at written
  split at written
  · rw [← Option.some.inj written, List.getElem?_set_ne other.symm]
  · cases written

@[simp] theorem read_holding (capacity : Nat) (values : List α) (i : Nat) :
    read (holding capacity values) i = values[i]? := by
  rw [read, holding]
  by_cases inside : i < values.length
  · rw [List.getElem?_append_left (by simpa using inside)]
    simp [inside]
  · rw [List.getElem?_append_right (by simpa using inside)]
    simp only [List.length_map, List.getElem?_replicate,
      List.getElem?_eq_none (by omega : values.length ≤ i)]
    split <;> rfl

/-- The values of an array filled from the front are read back in order. -/
theorem readFirst_holding (capacity : Nat) (values : List α) (count : Nat)
    (written : count ≤ values.length) :
    readFirst (holding capacity values) count = some (values.take count) := by
  induction count with
  | zero => rfl
  | succ count ih =>
    have inside : count < values.length := by omega
    rw [readFirst, ih (by omega), read_holding, List.getElem?_eq_getElem inside,
      List.take_succ_eq_append_getElem inside]
    rfl

/-- An array that continues some values has them at its front. -/
theorem readFirst_of_prefix (capacity : Nat) {values more : List α} (kept : values <+: more) :
    readFirst (holding capacity more) values.length = some values := by
  rw [readFirst_holding _ _ _ kept.length_le, ← List.prefix_iff_eq_take.mp kept]

/-- Values are added to an array of some values and at most one more slot: the array is resized
for them and a last value, they are copied behind the first ones, and the last one is written. -/
theorem write_copy_resize {slots : List (Option α)} {stored : List α} (more : List α) (last : α)
    (front : slots.take stored.length = stored.map some)
    (short : slots.length ≤ stored.length + 1) :
    ((copy (resize slots (stored.length + more.length + 1)) stored.length more).bind fun next =>
      write next (stored.length + more.length) last) =
        some ((stored ++ more ++ [last]).map some) := by
  have room : stored.length ≤ slots.length := by
    have length := congrArg List.length front
    rw [List.length_take, List.length_map] at length
    omega
  have length : (resize slots (stored.length + more.length + 1)).length =
      stored.length + more.length + 1 := by
    rw [resize, List.length_append, List.length_take, List.length_replicate]
    omega
  have kept : (resize slots (stored.length + more.length + 1)).take stored.length =
      stored.map some := by
    rw [resize, List.take_append_of_le_length (by rw [List.length_take]; omega), List.take_take,
      Nat.min_eq_left (by omega), front]
  -- one slot is left behind what was copied
  obtain ⟨slot, rest⟩ : ∃ slot, (resize slots (stored.length + more.length + 1)).drop
      (stored.length + more.length) = [slot] :=
    List.length_eq_one_iff.mp (by rw [List.length_drop, length]; omega)
  rw [copy, if_pos (by omega), kept, rest, Option.bind_some, ← List.map_append, write, if_pos,
    List.set_append_right, List.map_append]
  · simp
  · simp
  · simp

theorem write_append (front rest : List (Option α)) (slot : Option α) (value : α) :
    write (front ++ slot :: rest) front.length value = some (front ++ some value :: rest) := by
  rw [write, if_pos (by simp), List.set_append_right _ _ le_rfl, Nat.sub_self, List.set_cons_zero]

section Fill

variable {β γ : Type} (first : α → Option β) (second : α → Option γ)

/-- Filling stays inside arrays that have a slot for every item. It writes all of them if all
values can be read, and stops otherwise. -/
private theorem fill_append (front : List (Option β)) (front' : List (Option γ))
    (level : front'.length = front.length) (items : List α) :
    ∃ all firsts seconds,
      fill first second front.length (front ++ fresh items.length) (front' ++ fresh items.length)
        items = some (all, firsts, seconds) ∧
      (all = true ↔ ∀ item ∈ items, (first item).isSome ∧ (second item).isSome) ∧
      (all = true → firsts = front ++ items.map first ∧ seconds = front' ++ items.map second) := by
  induction items generalizing front front' with
  | nil => exact ⟨true, _, _, rfl, by simp, fun _ => ⟨rfl, rfl⟩⟩
  | cons item items ih =>
    have unread (missing : first item = none ∨ second item = none) :
        false = true ↔ ∀ x ∈ item :: items, (first x).isSome ∧ (second x).isSome := by
      refine ⟨nofun, fun read => ?_⟩
      obtain ⟨one, two⟩ := read item (List.mem_cons_self ..)
      rcases missing with none | none
      · rw [none] at one
        cases one
      · rw [none] at two
        cases two
    rw [fill, List.length_cons, fresh, fresh, List.replicate_succ, List.replicate_succ]
    cases one : first item with
    | none => exact ⟨false, _, _, rfl, unread (Or.inl one), nofun⟩
    | some value =>
      dsimp only
      rw [write_append, Option.bind_eq_bind, Option.bind_some]
      cases two : second item with
      | none => exact ⟨false, _, _, rfl, unread (Or.inr two), nofun⟩
      | some value' =>
        dsimp only
        obtain ⟨all, firsts, seconds, filled, complete, written⟩ :=
          ih (front ++ [some value]) (front' ++ [some value']) (by simp [level])
        refine ⟨all, firsts, seconds, ?_, ?_, fun done => ?_⟩
        · have level' : front.length = front'.length := level.symm
          rw [level', write_append, Option.bind_eq_bind, Option.bind_some, ← level']
          rw [List.append_assoc, List.append_assoc, List.length_append] at filled
          exact filled
        · rw [complete, List.forall_mem_cons, one, two]
          simp
        · obtain ⟨rfl, rfl⟩ := written done
          simp [one, two]

theorem fill_fresh (items : List α)
    (read : ∀ item ∈ items, (first item).isSome ∧ (second item).isSome) :
    fill first second 0 (fresh items.length) (fresh items.length) items =
      some (true, items.map first, items.map second) := by
  obtain ⟨all, firsts, seconds, filled, complete, written⟩ :=
    fill_append first second [] [] rfl items
  obtain ⟨rfl, rfl⟩ := written (complete.mpr read)
  rw [complete.mpr read] at filled
  exact filled

theorem fill_stops (items : List α)
    (unread : ¬ ∀ item ∈ items, (first item).isSome ∧ (second item).isSome) :
    ∃ firsts seconds, fill first second 0 (fresh items.length) (fresh items.length) items =
      some (false, firsts, seconds) := by
  obtain ⟨all, firsts, seconds, filled, complete, -⟩ :=
    fill_append first second [] [] rfl items
  rw [← complete, Bool.not_eq_true] at unread
  exact ⟨firsts, seconds, unread ▸ filled⟩

end Fill

end Slots

import Mathlib.Tactic
import Mathlib.Data.List.FinRange

/-!
# First in, first out

Items of a list open something or close what was opened first and is still open. Which items
belong together is told by counting: the `k`-th one that closes goes with the `k`-th one that
opens. What a pass over the list adds to the pairs is said step by step.
-/
namespace Fifo

variable {β : Type} (opens : β → Bool) (items : List β)

/-- How many of the first `k` items open. -/
def opened (k : Nat) : Nat := (items.take k).countP opens

/-- How many of the first `k` items close an earlier one. -/
def closed : Nat → Nat
  | 0 => 0
  | k + 1 =>
    match items[k]? with
    | some item =>
      if opens item = false ∧ closed k < opened opens items k then closed k + 1 else closed k
    | none => closed k

/-- The item does not open, and finds something open. -/
def Closes (i : Fin items.length) : Prop :=
  opens (items.get i) = false ∧ closed opens items i < opened opens items i

instance : DecidablePred (Closes opens items) := fun _ => inferInstanceAs (Decidable (_ ∧ _))

/-- The items of the first `k` that open, in order. -/
def openersIn (k : Nat) : List (Fin items.length) :=
  ((List.finRange items.length).take k).filter fun i => opens (items.get i)

/-- The items of the first `k` that close an earlier one, in order. -/
def closersIn (k : Nat) : List (Fin items.length) :=
  ((List.finRange items.length).take k).filter fun i => Closes opens items i

/-- The pairs that the first `k` items make. -/
def pairsIn (k : Nat) : List (Fin items.length × Fin items.length) :=
  (openersIn opens items k).zip (closersIn opens items k)

/-- The `k`-th item that opens and the `k`-th one that closes, for every `k`. -/
def pairs : List (Fin items.length × Fin items.length) :=
  ((List.finRange items.length).filter fun i => opens (items.get i)).zip
    ((List.finRange items.length).filter fun i => Closes opens items i)

theorem pairsIn_length : pairsIn opens items items.length = pairs opens items := by
  have all : (List.finRange items.length).take items.length = List.finRange items.length :=
    List.take_of_length_le (by rw [List.length_finRange])
  rw [pairsIn, openersIn, closersIn, all, pairs]

/-! ### One item more -/

theorem take_finRange_succ {n k : Nat} (inside : k < n) :
    (List.finRange n).take (k + 1) = (List.finRange n).take k ++ [⟨k, inside⟩] := by
  rw [List.take_succ_eq_append_getElem (by rwa [List.length_finRange]), List.getElem_finRange]
  rfl

/-- One item more is kept at the end, or not at all. -/
theorem filter_take_succ {n k : Nat} (inside : k < n) (keeps : Fin n → Bool) :
    ((List.finRange n).take (k + 1)).filter keeps =
      ((List.finRange n).take k).filter keeps ++
        if keeps ⟨k, inside⟩ then [⟨k, inside⟩] else [] := by
  rw [take_finRange_succ inside, List.filter_append, List.filter_singleton]
  cases keeps ⟨k, inside⟩ <;> rfl

variable {opens items} {k : Nat} (inside : k < items.length)

theorem opened_succ :
    opened opens items (k + 1) =
      opened opens items k + if opens (items.get ⟨k, inside⟩) then 1 else 0 := by
  rw [opened, opened, List.take_succ_eq_append_getElem inside, List.countP_append,
    List.countP_singleton]
  rfl

theorem closed_succ :
    closed opens items (k + 1) =
      closed opens items k + if Closes opens items ⟨k, inside⟩ then 1 else 0 := by
  rw [closed, List.getElem?_eq_getElem inside]
  by_cases closes : Closes opens items ⟨k, inside⟩
  · rw [if_pos closes]
    exact if_pos closes
  · rw [if_neg closes]
    exact if_neg closes

theorem openersIn_succ :
    openersIn opens items (k + 1) = openersIn opens items k ++
      if opens (items.get ⟨k, inside⟩) then [⟨k, inside⟩] else [] :=
  filter_take_succ inside fun i => opens (items.get i)

theorem closersIn_succ :
    closersIn opens items (k + 1) = closersIn opens items k ++
      if Closes opens items ⟨k, inside⟩ then [⟨k, inside⟩] else [] := by
  rw [closersIn, filter_take_succ inside, closersIn]
  simp only [decide_eq_true_eq]

theorem closed_le_opened (upTo : k ≤ items.length) :
    closed opens items k ≤ opened opens items k := by
  induction k with
  | zero => exact Nat.zero_le _
  | succ k ih =>
    rw [closed_succ upTo, opened_succ upTo]
    have before := ih (Nat.le_of_succ_le upTo)
    split
    next closes => have := closes.2; dsimp only at this; omega
    · omega

theorem opened_le : opened opens items k ≤ k :=
  List.countP_le_length.trans (List.length_take_le k items)

theorem length_openersIn (upTo : k ≤ items.length) :
    (openersIn opens items k).length = opened opens items k := by
  induction k with
  | zero => rfl
  | succ k ih =>
    rw [openersIn_succ upTo, List.length_append, ih (Nat.le_of_succ_le upTo), opened_succ upTo]
    split <;> rfl

theorem length_closersIn (upTo : k ≤ items.length) :
    (closersIn opens items k).length = closed opens items k := by
  induction k with
  | zero => rfl
  | succ k ih =>
    rw [closersIn_succ upTo, List.length_append, ih (Nat.le_of_succ_le upTo), closed_succ upTo]
    split <;> rfl

/-! ### Pairs -/

/-- More on the left than there is on the right makes no more pairs. -/
private theorem zip_append_left {γ δ : Type} {xs : List γ} {ys : List δ} (more : List γ)
    (short : ys.length ≤ xs.length) : (xs ++ more).zip ys = xs.zip ys := by
  induction xs generalizing ys with
  | nil =>
    rw [List.eq_nil_of_length_eq_zero (Nat.le_zero.mp short), List.zip_nil_right,
      List.zip_nil_right]
  | cons x xs ih =>
    cases ys with
    | nil => rfl
    | cons y ys =>
      rw [List.cons_append, List.zip_cons_cons, List.zip_cons_cons,
        ih (Nat.le_of_succ_le_succ short)]

/-- One more on the right goes with the first on the left that is left over. -/
private theorem zip_snoc_right {γ δ : Type} {xs : List γ} {ys : List δ} (y : δ)
    (short : ys.length < xs.length) :
    xs.zip (ys ++ [y]) = xs.zip ys ++ [(xs[ys.length], y)] := by
  induction xs generalizing ys with
  | nil => exact absurd short (Nat.not_lt_zero _)
  | cons x xs ih =>
    cases ys with
    | nil => simp
    | cons b ys =>
      rw [List.cons_append, List.zip_cons_cons, List.zip_cons_cons,
        ih (Nat.lt_of_succ_lt_succ short)]
      rfl

/-- An item that closes nothing adds no pair. -/
theorem pairsIn_succ_of_not_closes (passes : ¬ Closes opens items ⟨k, inside⟩) :
    pairsIn opens items (k + 1) = pairsIn opens items k := by
  rw [pairsIn, closersIn_succ inside, if_neg passes, List.append_nil, openersIn_succ inside]
  apply zip_append_left
  rw [length_closersIn inside.le, length_openersIn inside.le]
  exact closed_le_opened inside.le

/-- An item that closes goes with the first one that is open. -/
theorem pairsIn_succ_of_closes (closes : Closes opens items ⟨k, inside⟩) :
    ∃ opener, (openersIn opens items k)[closed opens items k]? = some opener ∧
      pairsIn opens items (k + 1) = pairsIn opens items k ++ [(opener, ⟨k, inside⟩)] := by
  have short : (closersIn opens items k).length < (openersIn opens items k).length := by
    rw [length_closersIn inside.le, length_openersIn inside.le]
    exact closes.2
  refine ⟨(openersIn opens items k)[(closersIn opens items k).length], ?_, ?_⟩
  · rw [← length_closersIn inside.le]
    exact List.getElem?_eq_getElem short
  · have shut : opens (items.get ⟨k, inside⟩) = false := closes.1
    rw [pairsIn, closersIn_succ inside, if_pos closes, openersIn_succ inside, shut]
    simp only [Bool.false_eq_true, if_false, List.append_nil]
    exact zip_snoc_right _ short

theorem length_pairsIn (upTo : k ≤ items.length) :
    (pairsIn opens items k).length = closed opens items k := by
  rw [pairsIn, List.length_zip, length_openersIn upTo, length_closersIn upTo]
  exact Nat.min_eq_right (closed_le_opened upTo)

theorem lt_of_mem_openersIn {i : Fin items.length} (member : i ∈ openersIn opens items k) :
    i < k := by
  have early := List.mem_of_mem_filter member
  obtain ⟨j, bound, rfl⟩ := List.mem_iff_getElem.mp early
  rw [List.length_take] at bound
  rw [List.getElem_take, List.getElem_finRange]
  simp only [Fin.val_cast]
  omega

/-- What an item closes was opened before it. -/
theorem pairs_ordered (upTo : k ≤ items.length) :
    ∀ pair ∈ pairsIn opens items k, pair.1 < pair.2 := by
  induction k with
  | zero => nofun
  | succ k ih =>
    by_cases closes : Closes opens items ⟨k, upTo⟩
    · obtain ⟨opener, found, added⟩ := pairsIn_succ_of_closes upTo closes
      rw [added]
      intro pair member
      rcases List.mem_append.mp member with old | new
      · exact ih (Nat.le_of_succ_le upTo) pair old
      · rw [List.mem_singleton.mp new]
        exact lt_of_mem_openersIn (List.mem_of_getElem? found)
    · rw [pairsIn_succ_of_not_closes upTo closes]
      exact ih (Nat.le_of_succ_le upTo)

/-- Later items keep the pairs that were made. -/
theorem pairsIn_initial {m : Nat} (before : k ≤ m) (upTo : m ≤ items.length) :
    pairsIn opens items k <+: pairsIn opens items m := by
  induction m, before using Nat.le_induction with
  | base => exact List.prefix_rfl
  | succ m _ ih =>
    refine (ih (Nat.le_of_succ_le upTo)).trans ?_
    by_cases closes : Closes opens items ⟨m, upTo⟩
    · obtain ⟨opener, _, added⟩ := pairsIn_succ_of_closes upTo closes
      exact ⟨_, added.symm⟩
    · rw [pairsIn_succ_of_not_closes upTo closes]

/-! ### Items in turn -/

/-- Where items open and close in turn, half of them do either. -/
theorem counts_of_alternating
    (turns : ∀ i : Fin items.length, opens (items.get i) = decide (i.val % 2 = 0))
    (upTo : k ≤ items.length) :
    opened opens items k = (k + 1) / 2 ∧ closed opens items k = k / 2 := by
  induction k with
  | zero => exact ⟨rfl, rfl⟩
  | succ k ih =>
    obtain ⟨openedHalf, closedHalf⟩ := ih (Nat.le_of_succ_le upTo)
    rw [opened_succ upTo, closed_succ upTo, openedHalf, closedHalf, turns ⟨k, upTo⟩]
    simp only [Closes, turns, openedHalf, closedHalf, decide_eq_true_eq, decide_eq_false_iff_not]
    by_cases even : k % 2 = 0
    · rw [if_pos even, if_neg (fun closes => closes.1 even)]
      omega
    · rw [if_neg even, if_pos ⟨even, by omega⟩]
      omega

/-- Where items open and close in turn, each closes the one just before it. -/
theorem pairs_of_alternating
    (turns : ∀ i : Fin items.length, opens (items.get i) = decide (i.val % 2 = 0))
    {i : Fin items.length} (shut : opens (items.get i) = false) :
    ∃ opener : Fin items.length, opener.val + 1 = i.val ∧ Closes opens items i ∧
      (openersIn opens items i)[closed opens items i]? = some opener ∧
      (opener, i) ∈ pairs opens items := by
  have odd : i.val % 2 = 1 := by
    have turn := turns i
    rw [shut, eq_comm, decide_eq_false_iff_not] at turn
    omega
  obtain ⟨j, half⟩ : ∃ j, i.val = j + 1 := ⟨i.val - 1, by omega⟩
  have inside : j + 1 < items.length := half ▸ i.isLt
  obtain rfl : i = ⟨j + 1, inside⟩ := Fin.ext half
  have opener : opens (items.get ⟨j, by omega⟩) = true := by
    rw [turns]
    exact decide_eq_true (show j % 2 = 0 by omega)
  obtain ⟨openedHalf, -⟩ := counts_of_alternating turns (k := j) (by omega)
  obtain ⟨openedHere, closedHere⟩ := counts_of_alternating turns (k := j + 1) (by omega)
  have closes : Closes opens items ⟨j + 1, inside⟩ := by
    refine ⟨shut, ?_⟩
    simp only [openedHere, closedHere]
    omega
  obtain ⟨found, atClosed, added⟩ := pairsIn_succ_of_closes inside closes
  -- what is open is the item before, which is the last that opened
  have last : found = ⟨j, by omega⟩ := by
    have first := atClosed
    rw [openersIn_succ (by omega), opener, if_pos rfl, closedHere,
      List.getElem?_append_right (by rw [length_openersIn (by omega)]; omega),
      length_openersIn (by omega), openedHalf, Nat.sub_self] at first
    exact (Option.some.inj first).symm
  refine ⟨found, by rw [last], closes, atClosed, ?_⟩
  rw [← pairsIn_length]
  apply (pairsIn_initial inside le_rfl).subset
  rw [added]
  exact List.mem_append_right _ List.mem_cons_self

end Fifo

import Mathlib.Tactic
import Mathlib.Data.List.Sort

/-!
# Ranking a list

The stable sort of a list by a total preorder, and what passes over the list find of it. A new
last element goes behind everything it ties with, so the first few of the ranking can be kept
while the list is read; and dropping elements from the list drops them from the ranking.
-/
namespace Ranking

variable {α : Type} (r : α → α → Prop) [DecidableRel r]

/-- The element goes in front of the first one that it comes strictly before. -/
def insertLast (x : α) : List α → List α
  | [] => [x]
  | y :: ys => if r y x then y :: insertLast x ys else x :: y :: ys

/-- One element more, and the first `k` kept. -/
def keep (k : Nat) (best : List α) (x : α) : List α := (insertLast r x best).take k

/-- Whether the list is cut before or after the insertion makes no difference to what is kept. -/
theorem take_insertLast (x : α) (ys : List α) (k : Nat) :
    (insertLast r x (ys.take k)).take k = (insertLast r x ys).take k := by
  induction ys generalizing k with
  | nil => rw [List.take_nil]
  | cons y ys ih =>
    cases k with
    | zero => rw [List.take_zero, List.take_zero]
    | succ k =>
      rw [List.take_succ_cons, insertLast, insertLast]
      split
      · rw [List.take_succ_cons, List.take_succ_cons, ih]
      · rw [List.take_succ_cons, List.take_succ_cons]
        cases k with
        | zero => rfl
        | succ k =>
          rw [List.take_succ_cons, List.take_succ_cons, List.take_take, Nat.min_eq_left k.le_succ]

variable [IsTrans α r] [Std.Total r]

theorem orderedInsert_insertLast (a x : α) (ys : List α) :
    (insertLast r x ys).orderedInsert r a = insertLast r x (ys.orderedInsert r a) := by
  induction ys with
  | nil =>
    rw [insertLast, List.orderedInsert_cons, List.orderedInsert_nil, insertLast, insertLast]
  | cons y ys ih =>
    by_cases behind : r y x <;> by_cases before : r a y
    · -- both `a` and `y` come before `x`
      have first : r a x := trans_of r before behind
      rw [insertLast, if_pos behind, List.orderedInsert_cons_of_le r _ before,
        List.orderedInsert_cons_of_le r _ before, insertLast, if_pos first, insertLast,
        if_pos behind]
    · rw [insertLast, if_pos behind, List.orderedInsert_of_not_le r _ before,
        List.orderedInsert_of_not_le r _ before, insertLast, if_pos behind, ih]
    · rw [insertLast, if_neg behind, List.orderedInsert_cons,
        List.orderedInsert_cons_of_le r _ before, insertLast, insertLast, if_neg behind]
    · -- `x` comes before `y`, and `y` before `a`
      have third : ¬ r a x := fun ahead => before
        (trans_of r ahead ((total_of r x y).resolve_right behind))
      rw [insertLast, if_neg behind, List.orderedInsert_of_not_le r _ third,
        List.orderedInsert_of_not_le r _ before, insertLast, if_neg behind]

/-- A new last element is inserted behind what it ties with. -/
theorem insertionSort_snoc (xs : List α) (x : α) :
    (xs ++ [x]).insertionSort r = insertLast r x (xs.insertionSort r) := by
  induction xs with
  | nil => rfl
  | cons a xs ih =>
    rw [List.cons_append, List.insertionSort_cons, ih, List.insertionSort_cons]
    exact orderedInsert_insertLast r a x _

/-- Reading the list once and keeping the first `k` finds the first `k` of the ranking. -/
theorem foldl_keep (k : Nat) (xs : List α) :
    xs.foldl (keep r k) [] = (xs.insertionSort r).take k := by
  induction xs using List.reverseRecOn with
  | nil => rw [List.insertionSort_nil, List.take_nil, List.foldl_nil]
  | append_singleton xs x ih =>
    rw [List.foldl_append, ih, List.foldl_cons, List.foldl_nil, insertionSort_snoc, keep,
      take_insertLast]

omit [Std.Total r] in
theorem filter_orderedInsert (p : α → Bool) (a : α) {ys : List α} (sorted : ys.Pairwise r) :
    (ys.orderedInsert r a).filter p =
      if p a then (ys.filter p).orderedInsert r a else ys.filter p := by
  induction ys with
  | nil => simp only [List.orderedInsert_nil, List.filter_cons, List.filter_nil]
  | cons y ys ih =>
    obtain ⟨least, sorted⟩ := List.pairwise_cons.mp sorted
    by_cases before : r a y
    · rw [List.orderedInsert_cons_of_le r _ before, List.filter_cons]
      split
      · -- whatever is left of the sorted list, `a` still comes before it
        have first : ∀ b ∈ (y :: ys).filter p, r a b := by
          intro b member
          rcases List.mem_cons.mp (List.mem_of_mem_filter member) with rfl | later
          · exact before
          · exact trans_of r before (least b later)
        cases left : (y :: ys).filter p with
        | nil => rw [List.orderedInsert_nil]
        | cons b rest =>
          rw [List.orderedInsert_cons_of_le r _ (first b (left ▸ List.mem_cons_self))]
      · rfl
    · rw [List.orderedInsert_of_not_le r _ before, List.filter_cons, List.filter_cons, ih sorted]
      by_cases kept : p y = true
      · rw [if_pos kept, if_pos kept]
        split
        · rw [List.orderedInsert_of_not_le r _ before]
        · rfl
      · rw [if_neg kept, if_neg kept]

/-- Dropping elements before or after ranking is the same. -/
theorem insertionSort_filter (p : α → Bool) (xs : List α) :
    (xs.filter p).insertionSort r = (xs.insertionSort r).filter p := by
  induction xs with
  | nil => rfl
  | cons a xs ih =>
    rw [List.insertionSort_cons, filter_orderedInsert r p a (List.pairwise_insertionSort r xs),
      List.filter_cons]
    split
    · rw [List.insertionSort_cons, ih]
    · exact ih

/-- What is left when the first `k` of the ranking are taken from the list, ranked. -/
theorem insertionSort_rest [DecidableEq α] {xs : List α} (nodup : xs.Nodup) (k : Nat) :
    (xs.filter fun x => x ∉ (xs.insertionSort r).take k).insertionSort r =
      (xs.insertionSort r).drop k := by
  have distinct : (xs.insertionSort r).Nodup := (List.perm_insertionSort r xs).nodup_iff.mpr nodup
  rw [insertionSort_filter]
  generalize xs.insertionSort r = ranked at distinct
  rw [← List.take_append_drop k ranked, List.nodup_append] at distinct
  have taken : (ranked.take k).filter (fun x => x ∉ ranked.take k) = [] :=
    List.filter_eq_nil_iff.mpr fun x member => by simp [member]
  have left : (ranked.drop k).filter (fun x => x ∉ ranked.take k) = ranked.drop k :=
    List.filter_eq_self.mpr fun x member => by
      simpa using fun early => distinct.2.2 x early x member rfl
  calc ranked.filter (fun x => x ∉ ranked.take k)
      = (ranked.take k ++ ranked.drop k).filter (fun x => x ∉ ranked.take k) := by
        rw [List.take_append_drop]
    _ = ranked.drop k := by rw [List.filter_append, taken, left, List.nil_append]

/-- An element that stands before all others in the list goes in front of what it ties with. -/
theorem pairwise_orderedInsert_ties {s : α → α → Prop} {a : α} {ys : List α}
    (later : ∀ y ∈ ys, s a y) (ranked : ys.Pairwise fun b c => r b c ∧ (r c b → s b c)) :
    (ys.orderedInsert r a).Pairwise fun b c => r b c ∧ (r c b → s b c) := by
  induction ys with
  | nil => exact List.pairwise_singleton _ a
  | cons y ys ih =>
    obtain ⟨least, rest⟩ := List.pairwise_cons.mp ranked
    by_cases before : r a y
    · rw [List.orderedInsert_cons_of_le r _ before, List.pairwise_cons]
      refine ⟨?_, ranked⟩
      intro b member
      refine ⟨?_, fun _ => later b member⟩
      rcases List.mem_cons.mp member with rfl | below
      · exact before
      · exact trans_of r before (least b below).1
    · rw [List.orderedInsert_of_not_le r _ before, List.pairwise_cons]
      refine ⟨?_, ih (fun b member => later b (List.mem_cons_of_mem y member)) rest⟩
      intro b member
      rcases (List.mem_orderedInsert r).mp member with rfl | below
      · exact ⟨(total_of r y b).resolve_right before, fun back => absurd back before⟩
      · exact least b below

/-- The ranking keeps the order of the list among elements that tie. -/
theorem pairwise_insertionSort_ties {s : α → α → Prop} {xs : List α} (order : xs.Pairwise s) :
    (xs.insertionSort r).Pairwise fun a b => r a b ∧ (r b a → s a b) := by
  induction xs with
  | nil => exact List.Pairwise.nil
  | cons a xs ih =>
    obtain ⟨later, order⟩ := List.pairwise_cons.mp order
    rw [List.insertionSort_cons]
    apply pairwise_orderedInsert_ties r _ (ih order)
    intro y member
    exact later y ((List.mem_insertionSort r).mp member)

omit [IsTrans α r] [Std.Total r] in
/-- Ranking by a key: the key grows, or it is the same and the order of the list is kept. -/
theorem pairwise_insertionSort_key {β : Type} [LinearOrder β] {key : α → β}
    (ranks : ∀ a b, r a b ↔ key a ≤ key b) {s : α → α → Prop} {xs : List α}
    (order : xs.Pairwise s) :
    (xs.insertionSort r).Pairwise fun a b => key a < key b ∨ key a = key b ∧ s a b := by
  have trans : IsTrans α r := ⟨fun a b c first second =>
    (ranks a c).mpr (((ranks a b).mp first).trans ((ranks b c).mp second))⟩
  have total : Std.Total r := ⟨fun a b =>
    (le_total (key a) (key b)).imp (ranks a b).mpr (ranks b a).mpr⟩
  refine (pairwise_insertionSort_ties r order).imp ?_
  intro a b ranked
  rcases lt_or_eq_of_le ((ranks a b).mp ranked.1) with lower | tie
  · exact Or.inl lower
  · exact Or.inr ⟨tie, ranked.2 ((ranks b a).mpr tie.ge)⟩

end Ranking

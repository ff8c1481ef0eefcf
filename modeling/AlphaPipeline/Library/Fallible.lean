import Mathlib.Tactic

/-!
# Computations that may raise

Rules for straight-line code and loops over `Except`: what it takes for a sequence of checks,
a traversal or a loop to come through, and what a loop that collects output has collected
when it does.
-/
namespace Fallible

variable {ε α β γ : Type}

/-- `if bad: raise error`. -/
def raiseIf (bad : Bool) (error : ε) : Except ε Unit := if bad then .error error else .ok ()

@[simp] theorem raiseIf_eq_ok {bad : Bool} {error : ε} {u : Unit} :
    raiseIf bad error = .ok u ↔ bad = false := by
  cases bad <;> simp [raiseIf]

@[simp] theorem raiseIf_false (error : ε) : raiseIf false error = .ok () := rfl

@[simp] theorem pure_eq_ok {a b : α} : (pure a : Except ε α) = .ok b ↔ a = b := by
  simp [pure, Except.pure]

@[simp] theorem bind_eq_ok {x : Except ε α} {f : α → Except ε β} {b : β} :
    (x >>= f) = .ok b ↔ ∃ a, x = .ok a ∧ f a = .ok b := by
  cases x with
  | error e => simp [bind, Except.bind]
  | ok a => simp [bind, Except.bind]

theorem seq_eq_ok {x : Except ε Unit} {f : Unit → Except ε β} {b : β} :
    (x >>= f) = .ok b ↔ x = .ok () ∧ f () = .ok b :=
  bind_eq_ok.trans ⟨fun ⟨_, first, second⟩ => ⟨first, second⟩, fun both => ⟨(), both⟩⟩

@[simp] theorem bind_ok (a : α) (f : α → Except ε β) : (Except.ok a >>= f) = f a := rfl

/-- A traversal comes through when every element does. -/
theorem mapM_ok_iff {f : α → Except ε β} {xs : List α} {ys : List β} :
    xs.mapM f = .ok ys ↔ List.Forall₂ (fun x y => f x = .ok y) xs ys := by
  induction xs generalizing ys with
  | nil => cases ys <;> simp
  | cons x xs ih =>
    rw [List.mapM_cons]
    simp only [bind_eq_ok, pure_eq_ok, ih]
    constructor
    · rintro ⟨y, first, rest, others, rfl⟩
      exact .cons first others
    · intro all
      cases all with
      | cons first others => exact ⟨_, first, _, others, rfl⟩

theorem mapM_ok_mem {f : α → Except ε β} {xs : List α} {ys : List β} (ran : xs.mapM f = .ok ys) :
    ∀ x ∈ xs, ∃ y, f x = .ok y := by
  have pairs := mapM_ok_iff.mp ran
  induction pairs with
  | nil => simp
  | cons first _ ih =>
    intro x member
    rcases List.mem_cons.mp member with rfl | late
    · exact ⟨_, first⟩
    · exact ih (mapM_ok_iff.mpr ‹_›) x late

theorem forM_ok_iff {f : α → Except ε Unit} {xs : List α} :
    xs.forM f = .ok () ↔ ∀ x ∈ xs, f x = .ok () := by
  induction xs with
  | nil => simp [List.forM]
  | cons x xs ih =>
    rw [List.forM, bind_eq_ok, List.forall_mem_cons, ← ih]
    exact ⟨fun ⟨_, first, rest⟩ => ⟨first, rest⟩, fun ⟨first, rest⟩ => ⟨_, first, rest⟩⟩

/-- A traversal whose elements all come through with a property yields results with it. -/
theorem mapM_ok_all {f : α → Except ε β} {good : β → Prop} {xs : List α}
    (all : ∀ x ∈ xs, ∃ y, f x = .ok y ∧ good y) :
    ∃ ys, xs.mapM f = .ok ys ∧ ys.length = xs.length ∧ ∀ y ∈ ys, good y := by
  induction xs with
  | nil => exact ⟨[], rfl, rfl, by simp⟩
  | cons x xs ih =>
    obtain ⟨y, first, goodFirst⟩ := all x List.mem_cons_self
    obtain ⟨ys, rest, length, goodRest⟩ := ih fun x member => all x (List.mem_cons_of_mem _ member)
    refine ⟨y :: ys, ?_, by simp [length], ?_⟩
    · rw [List.mapM_cons, first, bind_ok, rest]
      rfl
    · intro z member
      rcases List.mem_cons.mp member with rfl | late
      · exact goodFirst
      · exact goodRest z late

/-- A traversal with total results is a map. -/
theorem mapM_eq_map {f : α → Except ε β} {g : α → β} {xs : List α}
    (all : ∀ x ∈ xs, f x = .ok (g x)) : xs.mapM f = .ok (xs.map g) := by
  rw [mapM_ok_iff, List.forall₂_map_right_iff, List.forall₂_same]
  exact all

private theorem forall₂_right {R : α → β → Prop} {xs : List α} {ys : List β}
    (pairs : List.Forall₂ R xs ys) : ∀ y ∈ ys, ∃ x ∈ xs, R x y := by
  induction pairs with
  | nil => exact nofun
  | cons first _ ih =>
    intro y member
    rcases List.mem_cons.mp member with rfl | late
    · exact ⟨_, List.mem_cons_self, first⟩
    · obtain ⟨x, there, found⟩ := ih y late
      exact ⟨x, List.mem_cons_of_mem _ there, found⟩

/-- Every result of a traversal is that of an element. -/
theorem mapM_ok_result {f : α → Except ε β} {xs : List α} {ys : List β} (ran : xs.mapM f = .ok ys) :
    ∀ y ∈ ys, ∃ x ∈ xs, f x = .ok y :=
  forall₂_right (mapM_ok_iff.mp ran)

/-- Every element of a traversal has its result. -/
theorem mapM_ok_element {f : α → Except ε β} {xs : List α} {ys : List β}
    (ran : xs.mapM f = .ok ys) : ∀ x ∈ xs, ∃ y ∈ ys, f x = .ok y :=
  forall₂_right (mapM_ok_iff.mp ran).flip

/-- Two traversals of one list, whose results for each element are related. -/
theorem mapM_ok_pairs {f : α → Except ε β} {g : α → Except ε γ} {R : β → γ → Prop}
    (each : ∀ x y z, f x = .ok y → g x = .ok z → R y z) {xs : List α} {ys : List β} {zs : List γ}
    (first : xs.mapM f = .ok ys) (second : xs.mapM g = .ok zs) : List.Forall₂ R ys zs := by
  rw [mapM_ok_iff] at first second
  induction first generalizing zs with
  | nil =>
    cases second
    exact .nil
  | cons head _ ih =>
    cases second with
    | cons head' tail' => exact .cons (each _ _ _ head head') (ih tail')

/-- A loop whose every round comes through and keeps an invariant comes through with it. -/
theorem foldlM_total {σ : Type} {step : σ → α → Except ε σ} (inv : σ → Prop) {xs : List α}
    (round : ∀ s, ∀ x ∈ xs, inv s → ∃ s', step s x = .ok s' ∧ inv s') {s : σ} (holds : inv s) :
    ∃ s', xs.foldlM step s = .ok s' ∧ inv s' := by
  induction xs generalizing s with
  | nil => exact ⟨s, rfl, holds⟩
  | cons x xs ih =>
    obtain ⟨middle, first, kept⟩ := round s x List.mem_cons_self holds
    rw [List.foldlM_cons, first]
    exact ih (fun s x member => round s x (List.mem_cons_of_mem _ member)) kept

/-- A loop whose every round adds output of a known description has, when it comes through,
added the output of all its rounds. -/
theorem foldlM_collects {σ δ : Type} {step : σ → α → Except ε σ} (output : σ → List β)
    (describe : β → δ) (sound : β → Prop) (expected : α → List δ)
    (round : ∀ s x s', step s x = .ok s' → ∃ new, output s' = output s ++ new ∧
      new.map describe = expected x ∧ ∀ b ∈ new, sound b)
    {xs : List α} {s s' : σ} (ran : xs.foldlM step s = .ok s') :
    ∃ new, output s' = output s ++ new ∧ new.map describe = xs.flatMap expected ∧
      ∀ b ∈ new, sound b := by
  induction xs generalizing s with
  | nil =>
    rw [List.foldlM_nil, pure_eq_ok] at ran
    exact ⟨[], by simp [ran], rfl, by simp⟩
  | cons x xs ih =>
    rw [List.foldlM_cons, bind_eq_ok] at ran
    -- the first round adds its output and the others add theirs after it
    obtain ⟨middle, first, rest⟩ := ran
    obtain ⟨new, added, described, good⟩ := round s x middle first
    obtain ⟨others, addedRest, describedRest, goodRest⟩ := ih rest
    refine ⟨new ++ others, by rw [addedRest, added, List.append_assoc], ?_, ?_⟩
    · rw [List.map_append, described, describedRest, List.flatMap_cons]
    · intro b member
      rcases List.mem_append.mp member with early | late
      · exact good b early
      · exact goodRest b late

end Fallible

import Mathlib.Tactic

/-!
# What a trace shows

A trace shows some patterns in order if it has entries that match them, in this order and with any
others in between. A trace only grows, so what it has shown it keeps showing, and a new entry
extends what came before it.
-/
namespace Traces

variable {Entry : Type}

/-- The trace has entries that match the patterns, in order. -/
def InOrder (patterns : List (Entry → Bool)) (trace : List Entry) : Prop :=
  ∃ found, found.Sublist trace ∧ List.Forall₂ (fun pattern entry => pattern entry = true)
    patterns found

variable {patterns : List (Entry → Bool)} {pattern : Entry → Bool} {trace : List Entry}

/-- A longer trace shows no less. -/
theorem InOrder.append (shown : InOrder patterns trace) (more : List Entry) :
    InOrder patterns (trace ++ more) := by
  obtain ⟨found, within, fits⟩ := shown
  exact ⟨found, within.trans (List.sublist_append_left trace more), fits⟩

/-- The entry that comes next matches the pattern that comes next. -/
theorem InOrder.next (shown : InOrder patterns trace) {entry : Entry}
    (fits : pattern entry = true) : InOrder (patterns ++ [pattern]) (trace ++ [entry]) := by
  obtain ⟨found, within, all⟩ := shown
  exact ⟨found ++ [entry], within.append (List.Sublist.refl _),
    List.rel_append all (List.Forall₂.cons fits .nil)⟩

theorem inOrder_nil (trace : List Entry) : InOrder [] trace :=
  ⟨[], List.nil_sublist trace, .nil⟩

end Traces

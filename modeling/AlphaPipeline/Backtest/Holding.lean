import AlphaPipeline.Library.Fifo
import AlphaPipeline.Backtest.Ledger

/-!
# Holding times

`compute_avg_holding_days` queues the dates of the purchases and takes one from the front for
every sale that finds the queue not empty. The `k`-th such sale is thereby paired with the `k`-th
purchase. Its arithmetic is that of 64-bit integers, so the steps are checked for their width as
well.
-/
namespace AlphaPipeline.Backtest

open CDouble

section Pairs

variable {α : Type} (trades : List (TradeRecord α))

def TradeRecord.buys (trade : TradeRecord α) : Bool := decide (trade.side = .buy)

/-- The `k`-th purchase with the `k`-th sale that finds an earlier one not yet matched. -/
def holdingPairs : List (Fin trades.length × Fin trades.length) :=
  Fifo.pairs TradeRecord.buys trades

def daysBetween (pair : Fin trades.length × Fin trades.length) : Int :=
  (trades.get pair.2).date - (trades.get pair.1).date

def heldDays (pair : Fin trades.length × Fin trades.length) : Int := max 0 (daysBetween trades pair)

/-- The loop body, undefined where a difference or the sum overflows. -/
def matchTradeChecked (m : Matching) (trade : TradeRecord α) : Option Matching :=
  if trade.side = .buy then do
    let buyQueue ← Slots.write m.buyQueue m.tail trade.date
    some { m with buyQueue, tail := m.tail + 1 }
  else if m.head < m.tail then do
    let bought ← Slots.read m.buyQueue m.head
    let holding ← signed 64 (trade.date - bought)
    let totalHolding ← signed 64 (m.totalHolding + if holding > 0 then holding else 0)
    some { m with head := m.head + 1, totalHolding, matched := m.matched + 1 }
  else some m

/-- `compute_avg_holding_days`, undefined where a signed step overflows. -/
def computeAvgHoldingDaysChecked [CDouble α] (buyQueue : List (Option Int)) : Option α := do
  let m ← trades.foldlM matchTradeChecked ⟨buyQueue, 0, 0, 0, 0⟩
  some (if m.matched ≠ 0 then ofInt m.totalHolding / ofInt m.matched else literal 0)

/-! ### The loop -/

/-- The variables of the loop, with the dates of the purchases so far in the queue and how many of
them are matched. -/
def matchingOf (capacity : Nat) (dates : List Int) (head : Nat) (totalHolding : Int) : Matching :=
  ⟨Slots.holding capacity dates, head, dates.length, totalHolding, head⟩

variable {capacity head : Nat} {dates : List Int} {total : Int} {trade : TradeRecord α}

theorem matchTrade_buy (buys : trade.side = .buy) (room : dates.length < capacity) :
    matchTrade (matchingOf capacity dates head total) trade =
        some (matchingOf capacity (dates ++ [trade.date]) head total) ∧
      matchTradeChecked (matchingOf capacity dates head total) trade =
        some (matchingOf capacity (dates ++ [trade.date]) head total) := by
  have written := Slots.write_holding room trade.date
  simp [matchTrade, matchTradeChecked, buys, matchingOf, written]

theorem matchTrade_sell (sells : trade.side ≠ .buy) {bought : Int}
    (first : dates[head]? = some bought) :
    matchTrade (matchingOf capacity dates head total) trade =
        some (matchingOf capacity dates (head + 1) (total + max 0 (trade.date - bought))) ∧
      matchTradeChecked (matchingOf capacity dates head total) trade =
        if Fits 64 (trade.date - bought) ∧ Fits 64 (total + max 0 (trade.date - bought)) then
          some (matchingOf capacity dates (head + 1) (total + max 0 (trade.date - bought)))
        else none := by
  have waiting : head < dates.length := (List.getElem?_eq_some_iff.mp first).1
  have read : Slots.read (Slots.holding capacity dates) head = some bought := by
    rw [Slots.read_holding, first]
  have clamp : (if trade.date - bought > 0 then trade.date - bought else 0) =
      max 0 (trade.date - bought) := (max_def_lt _ _).symm
  constructor
  · simp only [matchTrade, if_neg sells, matchingOf, if_pos waiting, read, clamp,
      Option.bind_eq_bind, Option.bind_some, Int.natCast_succ]
  · simp only [matchTradeChecked, if_neg sells, matchingOf, if_pos waiting, read,
      Option.bind_eq_bind, Option.bind_some, Int.natCast_succ]
    by_cases difference : Fits 64 (trade.date - bought)
    · rw [signed, if_pos difference, Option.bind_some, clamp]
      by_cases sum : Fits 64 (total + max 0 (trade.date - bought))
      · rw [signed, if_pos sum, if_pos ⟨difference, sum⟩, Option.bind_some]
      · rw [signed, if_neg sum, if_neg (fun both => sum both.2), Option.bind_none]
    · rw [signed, if_neg difference, if_neg (fun both => difference both.1), Option.bind_none]

theorem matchTrade_skip (sells : trade.side ≠ .buy) (none : dates.length ≤ head) :
    matchTrade (matchingOf capacity dates head total) trade =
        some (matchingOf capacity dates head total) ∧
      matchTradeChecked (matchingOf capacity dates head total) trade =
        some (matchingOf capacity dates head total) := by
  simp [matchTrade, matchTradeChecked, sells, matchingOf, not_lt.mpr none]

/-- The variables of the loop after `k` trades. -/
def matchingAfter (capacity k : Nat) : Matching :=
  matchingOf capacity
    ((Fifo.openersIn TradeRecord.buys trades k).map fun i => (trades.get i).date)
    (Fifo.closed TradeRecord.buys trades k)
    ((Fifo.pairsIn TradeRecord.buys trades k).map (heldDays trades)).sum

/-- The differences and the sum of the first `k` trades fit 64 bits. -/
def NoOverflowIn (k : Nat) : Prop :=
  (∀ pair ∈ Fifo.pairsIn TradeRecord.buys trades k, Fits 64 (daysBetween trades pair)) ∧
    Fits 64 ((Fifo.pairsIn TradeRecord.buys trades k).map (heldDays trades)).sum

instance (k : Nat) : Decidable (NoOverflowIn trades k) := inferInstanceAs (Decidable (_ ∧ _))

variable {trades} {k : Nat}

theorem not_closes_of_buy {i : Fin trades.length} (buys : (trades.get i).side = .buy) :
    ¬ Fifo.Closes TradeRecord.buys trades i := by
  intro closes
  have sells := of_decide_eq_false closes.1
  exact sells buys

/-- The sums only grow, so an overflow stays one. -/
theorem noOverflowIn_of_close {opener : Fin trades.length} {inside : k < trades.length}
    (added : Fifo.pairsIn TradeRecord.buys trades (k + 1) =
      Fifo.pairsIn TradeRecord.buys trades k ++ [(opener, ⟨k, inside⟩)]) :
    NoOverflowIn trades (k + 1) ↔ NoOverflowIn trades k ∧
      Fits 64 (daysBetween trades (opener, ⟨k, inside⟩)) ∧
      Fits 64 (((Fifo.pairsIn TradeRecord.buys trades k).map (heldDays trades)).sum +
        heldDays trades (opener, ⟨k, inside⟩)) := by
  have nonneg : 0 ≤ ((Fifo.pairsIn TradeRecord.buys trades k).map (heldDays trades)).sum := by
    apply List.sum_nonneg
    intro x member
    obtain ⟨pair, _, rfl⟩ := List.mem_map.mp member
    exact le_max_left _ _
  have days : 0 ≤ heldDays trades (opener, ⟨k, inside⟩) := le_max_left _ _
  rw [NoOverflowIn, added, List.map_append, List.sum_append, List.map_singleton,
    List.sum_singleton, List.forall_mem_append, List.forall_mem_singleton, NoOverflowIn]
  generalize ((Fifo.pairsIn TradeRecord.buys trades k).map (heldDays trades)).sum = total at *
  generalize heldDays trades (opener, ⟨k, inside⟩) = more at *
  constructor
  · rintro ⟨⟨earlier, last⟩, sum⟩
    refine ⟨⟨earlier, ?_⟩, last, sum⟩
    unfold Fits at sum ⊢
    omega
  · rintro ⟨⟨earlier, _⟩, last, sum⟩
    exact ⟨⟨earlier, last⟩, sum⟩

theorem noOverflowIn_of_pass {inside : k < trades.length}
    (passes : ¬ Fifo.Closes TradeRecord.buys trades ⟨k, inside⟩) :
    NoOverflowIn trades (k + 1) ↔ NoOverflowIn trades k := by
  rw [NoOverflowIn, Fifo.pairsIn_succ_of_not_closes inside passes, NoOverflowIn]

theorem matchingAfter_of_buy {inside : k < trades.length}
    (bought : (trades.get ⟨k, inside⟩).side = .buy) :
    matchingAfter trades capacity (k + 1) = matchingOf capacity
      ((Fifo.openersIn TradeRecord.buys trades k).map (fun i => (trades.get i).date) ++
        [(trades.get ⟨k, inside⟩).date])
      (Fifo.closed TradeRecord.buys trades k)
      ((Fifo.pairsIn TradeRecord.buys trades k).map (heldDays trades)).sum := by
  have passes := not_closes_of_buy bought
  have buys : TradeRecord.buys (trades.get ⟨k, inside⟩) = true := decide_eq_true bought
  rw [matchingAfter, Fifo.openersIn_succ inside, Fifo.closed_succ inside,
    Fifo.pairsIn_succ_of_not_closes inside passes, buys, if_pos rfl, if_neg passes,
    List.map_append, List.map_singleton, Nat.add_zero]

theorem openersIn_of_sell {inside : k < trades.length}
    (sold : (trades.get ⟨k, inside⟩).side ≠ .buy) :
    Fifo.openersIn TradeRecord.buys trades (k + 1) = Fifo.openersIn TradeRecord.buys trades k := by
  have shut : TradeRecord.buys (trades.get ⟨k, inside⟩) = false := decide_eq_false sold
  rw [Fifo.openersIn_succ inside, shut]
  exact List.append_nil _

theorem matchingAfter_of_close {inside : k < trades.length} {opener : Fin trades.length}
    (sold : (trades.get ⟨k, inside⟩).side ≠ .buy)
    (closes : Fifo.Closes TradeRecord.buys trades ⟨k, inside⟩)
    (added : Fifo.pairsIn TradeRecord.buys trades (k + 1) =
      Fifo.pairsIn TradeRecord.buys trades k ++ [(opener, ⟨k, inside⟩)]) :
    matchingAfter trades capacity (k + 1) = matchingOf capacity
      ((Fifo.openersIn TradeRecord.buys trades k).map fun i => (trades.get i).date)
      (Fifo.closed TradeRecord.buys trades k + 1)
      (((Fifo.pairsIn TradeRecord.buys trades k).map (heldDays trades)).sum +
        heldDays trades (opener, ⟨k, inside⟩)) := by
  rw [matchingAfter, openersIn_of_sell sold, Fifo.closed_succ inside, added, if_pos closes,
    List.map_append, List.sum_append, List.map_singleton, List.sum_singleton]

theorem matchingAfter_of_pass {inside : k < trades.length}
    (sold : (trades.get ⟨k, inside⟩).side ≠ .buy)
    (passes : ¬ Fifo.Closes TradeRecord.buys trades ⟨k, inside⟩) :
    matchingAfter trades capacity (k + 1) = matchingAfter trades capacity k := by
  rw [matchingAfter, openersIn_of_sell sold, Fifo.closed_succ inside,
    Fifo.pairsIn_succ_of_not_closes inside passes, if_neg passes, Nat.add_zero, matchingAfter]

/-- One trade more, of either version of the loop. -/
theorem matchTrade_after (inside : k < trades.length) (room : trades.length ≤ capacity) :
    matchTrade (matchingAfter trades capacity k) (trades.get ⟨k, inside⟩) =
        some (matchingAfter trades capacity (k + 1)) ∧
      (NoOverflowIn trades k →
        matchTradeChecked (matchingAfter trades capacity k) (trades.get ⟨k, inside⟩) =
          if NoOverflowIn trades (k + 1) then some (matchingAfter trades capacity (k + 1))
          else none) ∧
      (NoOverflowIn trades (k + 1) → NoOverflowIn trades k) := by
  have queued : ((Fifo.openersIn TradeRecord.buys trades k).map
      fun i => (trades.get i).date).length = Fifo.opened TradeRecord.buys trades k := by
    rw [List.length_map, Fifo.length_openersIn inside.le]
  by_cases bought : (trades.get ⟨k, inside⟩).side = .buy
  · -- a purchase is queued
    have few : Fifo.opened TradeRecord.buys trades k ≤ k := Fifo.opened_le
    have free := (queued.trans_le few).trans_lt (inside.trans_le room)
    have overflow := noOverflowIn_of_pass (not_closes_of_buy bought)
    rw [matchingAfter_of_buy bought]
    refine ⟨(matchTrade_buy bought free).1, fun fits => ?_, overflow.mp⟩
    rw [if_pos (overflow.mpr fits)]
    exact (matchTrade_buy bought free).2
  · by_cases closes : Fifo.Closes TradeRecord.buys trades ⟨k, inside⟩
    · -- a sale takes the first purchase that waits
      obtain ⟨opener, found, added⟩ := Fifo.pairsIn_succ_of_closes inside closes
      have overflow := noOverflowIn_of_close added
      have first : ((Fifo.openersIn TradeRecord.buys trades k).map
          fun i => (trades.get i).date)[Fifo.closed TradeRecord.buys trades k]? =
          some (trades.get opener).date := by rw [List.getElem?_map, found]; rfl
      rw [matchingAfter_of_close bought closes added]
      refine ⟨(matchTrade_sell bought first).1, fun fits => ?_, fun later => (overflow.mp later).1⟩
      exact (matchTrade_sell bought first).2.trans
        (if_congr (overflow.trans (and_iff_right fits)).symm rfl rfl)
    · -- a sale that finds the queue empty is passed over
      have overflow := noOverflowIn_of_pass closes
      have none : Fifo.opened TradeRecord.buys trades k ≤ Fifo.closed TradeRecord.buys trades k :=
        not_lt.mp fun waiting => closes ⟨decide_eq_false bought, waiting⟩
      rw [matchingAfter_of_pass bought closes]
      refine ⟨(matchTrade_skip bought (queued.trans_le none)).1, fun fits => ?_, overflow.mp⟩
      rw [if_pos (overflow.mpr fits)]
      exact (matchTrade_skip bought (queued.trans_le none)).2

theorem matchingAfter_zero :
    matchingAfter trades capacity 0 = ⟨Slots.fresh capacity, 0, 0, 0, 0⟩ := by
  rw [Slots.fresh_eq_holding]
  rfl

/-- The loop over the first `k` trades. -/
theorem matching_run (room : trades.length ≤ capacity) (upTo : k ≤ trades.length) :
    (trades.take k).foldlM matchTrade ⟨Slots.fresh capacity, 0, 0, 0, 0⟩ =
      some (matchingAfter trades capacity k) := by
  induction k with
  | zero => rw [matchingAfter_zero, List.take_zero, List.foldlM_nil]; rfl
  | succ k ih =>
    rw [List.take_succ_eq_append_getElem upTo, List.foldlM_append, ih (Nat.le_of_succ_le upTo)]
    simp only [Option.bind_eq_bind, Option.bind_some, List.foldlM_cons, List.foldlM_nil]
    rw [show matchTrade _ trades[k] = _ from (matchTrade_after upTo room).1]
    rfl

theorem matching_run_checked (room : trades.length ≤ capacity) (upTo : k ≤ trades.length) :
    (trades.take k).foldlM matchTradeChecked ⟨Slots.fresh capacity, 0, 0, 0, 0⟩ =
      if NoOverflowIn trades k then some (matchingAfter trades capacity k) else none := by
  induction k with
  | zero =>
    have fits : NoOverflowIn trades 0 := ⟨nofun, (by decide : Fits 64 0)⟩
    rw [if_pos fits, matchingAfter_zero, List.take_zero, List.foldlM_nil]
    rfl
  | succ k ih =>
    obtain ⟨-, step, earlier⟩ := matchTrade_after upTo room
    rw [List.take_succ_eq_append_getElem upTo, List.foldlM_append, ih (Nat.le_of_succ_le upTo)]
    by_cases fits : NoOverflowIn trades k
    · rw [if_pos fits]
      simp only [Option.bind_eq_bind, Option.bind_some, List.foldlM_cons, List.foldlM_nil]
      rw [show matchTradeChecked _ trades[k] = _ from step fits]
      split <;> rfl
    · rw [if_neg fits, if_neg (mt earlier fits)]
      rfl

/-- Where nothing overflows up to a sale that is matched, it takes the date of its purchase from the
queue and adds its holding time. -/
theorem matchTradeChecked_of_close {i opener : Fin trades.length}
    (room : trades.length ≤ capacity) (closes : Fifo.Closes TradeRecord.buys trades i)
    (first : (Fifo.openersIn TradeRecord.buys trades i)[Fifo.closed TradeRecord.buys trades i]? =
      some opener) (fits : NoOverflowIn trades (i + 1)) :
    ∃ m, (trades.take i).foldlM matchTradeChecked ⟨Slots.fresh capacity, 0, 0, 0, 0⟩ = some m ∧
      Slots.read m.buyQueue m.head = some (trades.get opener).date ∧
      matchTradeChecked m (trades.get i) = some { m with
        head := m.head + 1
        totalHolding := m.totalHolding + heldDays trades (opener, i)
        matched := m.matched + 1 } := by
  have sold : (trades.get i).side ≠ .buy := of_decide_eq_false closes.1
  obtain ⟨found, same, added⟩ := Fifo.pairsIn_succ_of_closes i.isLt closes
  obtain rfl : opener = found := Option.some.inj (first.symm.trans same)
  obtain ⟨before, difference, sum⟩ := (noOverflowIn_of_close added).mp fits
  have date : ((Fifo.openersIn TradeRecord.buys trades i).map
      fun j => (trades.get j).date)[Fifo.closed TradeRecord.buys trades i]? =
      some (trades.get opener).date := by rw [List.getElem?_map, first]; rfl
  refine ⟨matchingAfter trades capacity i, ?_, ?_, ?_⟩
  · rw [matching_run_checked room i.isLt.le, if_pos before]
  · exact (Slots.read_holding ..).trans date
  · refine ((matchTrade_sell sold date).2.trans (if_pos ⟨difference, sum⟩)).trans ?_
    simp only [matchingAfter, matchingOf, Int.natCast_succ]
    rfl

variable (trades)

/-- The differences of the pairs and the sum of the holding times fit 64 bits. -/
def NoOverflow : Prop :=
  (∀ pair ∈ holdingPairs trades, Fits 64 (daysBetween trades pair)) ∧
    Fits 64 ((holdingPairs trades).map (heldDays trades)).sum

instance : Decidable (NoOverflow trades) := inferInstanceAs (Decidable (_ ∧ _))

/-- The mean of the holding times, 0 without pairs, as a quotient of doubles. -/
def meanHolding [CDouble α] : α :=
  if (holdingPairs trades).length ≠ 0 then
    ofInt ((holdingPairs trades).map (heldDays trades)).sum / ofInt (holdingPairs trades).length
  else literal 0

theorem pairsIn_all : Fifo.pairsIn TradeRecord.buys trades trades.length = holdingPairs trades :=
  Fifo.pairsIn_length TradeRecord.buys trades

/-- What is returned of the variables after the last trade. -/
theorem meanHolding_eq [CDouble α] (capacity : Nat) :
    (if (matchingAfter trades capacity trades.length).matched ≠ 0 then
      ofInt (matchingAfter trades capacity trades.length).totalHolding /
        ofInt (matchingAfter trades capacity trades.length).matched
      else literal 0) = meanHolding trades := by
  have counted : Fifo.closed TradeRecord.buys trades trades.length =
      (holdingPairs trades).length := by
    rw [← pairsIn_all, Fifo.length_pairsIn le_rfl]
  simp only [matchingAfter, matchingOf, pairsIn_all, counted, meanHolding, Nat.cast_ne_zero]

theorem computeAvgHoldingDays_eq [CDouble α] (room : trades.length ≤ capacity) :
    computeAvgHoldingDays trades (Slots.fresh capacity) = some (meanHolding trades) := by
  have run := matching_run room (le_refl trades.length)
  rw [List.take_length] at run
  rw [computeAvgHoldingDays, run, ← meanHolding_eq trades capacity]
  rfl

theorem computeAvgHoldingDaysChecked_eq [CDouble α] (room : trades.length ≤ capacity) :
    computeAvgHoldingDaysChecked trades (Slots.fresh capacity) =
      if NoOverflow trades then some (meanHolding trades) else none := by
  have run := matching_run_checked room (le_refl trades.length)
  have overflow : NoOverflowIn trades trades.length ↔ NoOverflow trades := by
    rw [NoOverflowIn, pairsIn_all, NoOverflow]
  rw [List.take_length] at run
  rw [computeAvgHoldingDaysChecked, run, ← meanHolding_eq trades capacity]
  by_cases fits : NoOverflow trades
  · rw [if_pos fits, if_pos (overflow.mpr fits)]
    rfl
  · rw [if_neg fits, if_neg (mt overflow.mp fits)]
    rfl

end Pairs

/-! ### The trades of a run -/

section Run

variable {σ α : Type} [CDouble α] (inputs : Inputs σ α) (platform : Platform α)

theorem afterTrade_date (ledger : Ledger σ α) (i : Nat) :
    ∀ trade ∈ (inputs.afterTrade platform ledger i).2, trade.date = inputs.dates i := by
  rw [Inputs.afterTrade]
  cases traded : inputs.trade platform ledger.state (ledger.signal inputs i) i with
  | none =>
    intro trade member
    cases member
  | some taken =>
    intro trade member
    rw [List.mem_singleton.mp member]
    rcases trade_shapes inputs platform traded with ⟨_, _, _, _, rfl⟩ | ⟨_, _, rfl⟩
    · rfl
    · rfl

/-- The trades carry the dates of their bars, in order. -/
theorem ledger_dates {k : Nat} (upTo : k ≤ inputs.n)
    (sorted : ∀ i j, i ≤ j → j < inputs.n → inputs.dates i ≤ inputs.dates j) :
    (inputs.ledger platform k).trades.Pairwise (·.date ≤ ·.date) ∧
      ∀ trade ∈ (inputs.ledger platform k).trades, ∃ j < k, trade.date = inputs.dates j := by
  induction k with
  | zero => exact ⟨List.Pairwise.nil, nofun⟩
  | succ k ih =>
    obtain ⟨ordered, dated⟩ := ih (Nat.le_of_succ_le upTo)
    have today := afterTrade_date inputs platform (inputs.ledger platform k) k
    change ((inputs.ledger platform k).trades ++ _).Pairwise _ ∧ ∀ trade ∈ _ ++ _, _
    rw [List.pairwise_append]
    refine ⟨⟨ordered, ?_, ?_⟩, ?_⟩
    · apply List.pairwise_of_forall_mem_list
      intro a first b second
      rw [today a first, today b second]
    · intro a early b late
      obtain ⟨j, before, date⟩ := dated a early
      rw [date, today b late]
      exact sorted j k before.le upTo
    · intro trade member
      rcases List.mem_append.mp member with early | late
      · obtain ⟨j, before, date⟩ := dated trade early
        exact ⟨j, before.trans (Nat.lt_succ_self k), date⟩
      · exact ⟨k, Nat.lt_succ_self k, today trade late⟩

/-- The trades of the result are those of the ledger. -/
theorem run_trades {alloc : Allocations} {out result : BacktestResult α}
    {trades : List (TradeRecord α)}
    (returned : inputs.run platform alloc out = some (.ok, some result))
    (read : Slots.readFirst result.trades result.tradeCount = some trades) :
    (inputs.ledger platform inputs.n).trades = trades := by
  obtain ⟨_, _, metrics, _, rfl⟩ := run_ok inputs platform returned
  have all := Slots.readFirst_of_prefix inputs.n
    (List.prefix_rfl : (inputs.ledger platform inputs.n).trades <+: _)
  exact Option.some.inj (all.symm.trans read)

/-- In a run every sale is paired with the purchase just before it, the first one that waits. -/
theorem ledger_pairs {trades : List (TradeRecord α)}
    (booked : (inputs.ledger platform inputs.n).trades = trades) {i : Fin trades.length}
    (sells : (trades.get i).side = .sell) :
    ∃ bought : Fin trades.length, bought.val + 1 = i.val ∧
      Fifo.Closes TradeRecord.buys trades i ∧
      (Fifo.openersIn TradeRecord.buys trades i)[Fifo.closed TradeRecord.buys trades i]? =
        some bought ∧ (bought, i) ∈ holdingPairs trades := by
  subst booked
  have alternating := alternating_of_booked (ledger_balanced inputs platform inputs.n).booked
  apply Fifo.pairs_of_alternating
  · intro j
    have side := alternating.sides j _ (List.getElem?_eq_getElem j.isLt)
    change decide ((List.get _ j).side = .buy) = _
    rw [List.get_eq_getElem, side]
    by_cases even : j.val % 2 = 0
    · simp [even]
    · simp [even]
  · exact decide_eq_false (by rw [sells]; nofun)

end Run

/-- `compute_avg_holding_days` pairs the `k`-th purchase with the `k`-th sale that finds an earlier
one not yet matched, within the first `nt` entries of its queue, and returns the mean of the
holding times where the differences and their sum fit 64 bits. In the trades of a run with
non-decreasing dates every sale is paired with the purchase just before it; where nothing overflows
up to the sale, the difference of the two dates is added as it is. -/
theorem avgHoldingDays_pairs {α : Type} [CDouble α] (trades : List (TradeRecord α)) {capacity : Nat}
    (room : trades.length ≤ capacity) :
    (∀ k ≤ trades.length,
      (trades.take k).foldlM matchTrade ⟨Slots.fresh capacity, 0, 0, 0, 0⟩ =
          some (matchingAfter trades capacity k) ∧
        (matchingAfter trades capacity k).head ≤ (matchingAfter trades capacity k).tail ∧
        (matchingAfter trades capacity k).tail ≤ k) ∧
      (∀ pair ∈ holdingPairs trades, pair.1 < pair.2) ∧
      computeAvgHoldingDays trades (Slots.fresh capacity) = some (meanHolding trades) ∧
      computeAvgHoldingDaysChecked trades (Slots.fresh capacity) =
        (if NoOverflow trades then some (meanHolding trades) else none) ∧
      ∀ (σ : Type) (inputs : Inputs σ α) (platform : Platform α) (alloc : Allocations)
        (out result : BacktestResult α),
        inputs.run platform alloc out = some (.ok, some result) →
        Slots.readFirst result.trades result.tradeCount = some trades →
        (∀ i j, i ≤ j → j < inputs.n → inputs.dates i ≤ inputs.dates j) →
        ∀ i, (trades.get i).side = .sell → ∃ bought, bought.val + 1 = i.val ∧
          (bought, i) ∈ holdingPairs trades ∧
          (NoOverflowIn trades (i + 1) → ∃ m,
            (trades.take i).foldlM matchTradeChecked ⟨Slots.fresh capacity, 0, 0, 0, 0⟩ = some m ∧
            Slots.read m.buyQueue m.head = some (trades.get bought).date ∧
            0 ≤ daysBetween trades (bought, i) ∧
            matchTradeChecked m (trades.get i) = some { m with
              head := m.head + 1
              totalHolding := m.totalHolding + daysBetween trades (bought, i)
              matched := m.matched + 1 }) := by
  have ordered : ∀ pair ∈ holdingPairs trades, pair.1 < pair.2 := by
    rw [holdingPairs, ← Fifo.pairsIn_length]
    exact Fifo.pairs_ordered le_rfl
  refine ⟨?_, ordered, computeAvgHoldingDays_eq trades room,
    computeAvgHoldingDaysChecked_eq trades room, ?_⟩
  · intro k upTo
    have queued : (matchingAfter trades capacity k).tail = Fifo.opened TradeRecord.buys trades k :=
      (List.length_map _).trans (Fifo.length_openersIn upTo)
    rw [queued]
    exact ⟨matching_run room upTo, Fifo.closed_le_opened upTo, Fifo.opened_le⟩
  · intro σ inputs platform alloc out result returned read sorted i sells
    have booked := run_trades inputs platform returned read
    obtain ⟨bought, before, closes, first, paired⟩ := ledger_pairs inputs platform booked sells
    refine ⟨bought, before, paired, fun fits => ?_⟩
    -- the dates are those of the bars, so the difference is not clamped
    have dates := List.pairwise_iff_get.mp (booked ▸ (ledger_dates inputs platform le_rfl sorted).1)
      bought i (ordered _ paired)
    have nonneg : 0 ≤ daysBetween trades (bought, i) := sub_nonneg.mpr dates
    have unclamped : heldDays trades (bought, i) = daysBetween trades (bought, i) :=
      max_eq_right nonneg
    obtain ⟨m, run, taken, added⟩ := matchTradeChecked_of_close room closes first fits
    exact ⟨m, run, taken, nonneg, unclamped ▸ added⟩

/-- A trade of one share on a date. -/
def tradeOn (side : AlphaSide) (date : Int) : TradeRecord ℚ :=
  ⟨date, side, [], 1, 1, 0, 0, 0, 0, 0⟩

/-- The first sale finds nothing to sell, the second goes with the purchase before it. -/
theorem avgHoldingDays_pairs_surplus :
    holdingPairs [tradeOn .sell 3, tradeOn .buy 10, tradeOn .sell 25] = [(1, 2)] ∧
      computeAvgHoldingDaysChecked [tradeOn .sell 3, tradeOn .buy 10, tradeOn .sell 25]
        (Slots.fresh stackCapacity) = some 15 := by
  have computed := (avgHoldingDays_pairs [tradeOn .sell 3, tradeOn .buy 10, tradeOn .sell 25]
    (show 3 ≤ stackCapacity by decide)).2.2.2.1
  refine ⟨by decide +kernel, computed.trans ?_⟩
  decide +kernel

/-- Dates that fit 64 bits and a difference that does not: `compute_avg_holding_days` overflows. -/
theorem computeAvgHoldingDays_overflows :
    Fits 64 (tradeOn .buy (-1)).date ∧ Fits 64 (tradeOn .sell int64Max).date ∧
      computeAvgHoldingDaysChecked [tradeOn .buy (-1), tradeOn .sell int64Max]
        (Slots.fresh stackCapacity) = none := by
  rw [computeAvgHoldingDaysChecked_eq _ (show 2 ≤ stackCapacity by decide)]
  decide +kernel

end AlphaPipeline.Backtest

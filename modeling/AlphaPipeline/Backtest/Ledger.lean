import AlphaPipeline.Library.Runs
import AlphaPipeline.Backtest.Engine

/-!
# The ledger of a backtest

A ledger is what the arrays of a run hold: the trades and the snapshots, in order. The loop
over arrays of slots simulates the ledger, which grows by one bar at a time. A book that is
either flat or holds one lot accepts the trades of every ledger: it opens a lot when flat
and closes all of it when holding.
-/
namespace AlphaPipeline.Backtest

open CDouble

section Book

variable {α : Type}

/-- The shares a trade adds to the position. -/
def TradeRecord.signedQty (trade : TradeRecord α) : Int :=
  match trade.side with
  | .buy => trade.quantity
  | .sell => -trade.quantity

/-- Bought minus sold shares. -/
def position (trades : List (TradeRecord α)) : Int := (trades.map TradeRecord.signedQty).sum

/-- One trade entered in the book, which knows the shares held. -/
def bookTrade (held : Int) (trade : TradeRecord α) : Option Int :=
  match trade.side with
  | .buy => if held = 0 ∧ 0 < trade.quantity then some trade.quantity else none
  | .sell => if 0 < held ∧ trade.quantity = held then some 0 else none

/-- The book accepts the trades and ends with `held` shares. -/
def Booked (trades : List (TradeRecord α)) (held : Int) : Prop :=
  Runs.watch bookTrade 0 trades = some held

/-- Purchases and sales in turn, a purchase first, each sale of what was bought before it. -/
structure Alternating (trades : List (TradeRecord α)) : Prop where
  sides : ∀ k trade, trades[k]? = some trade → trade.side = if k % 2 = 0 then .buy else .sell
  positive : ∀ trade ∈ trades, 0 < trade.quantity
  paired : ∀ k bought sold, trades[k]? = some bought → trades[k + 1]? = some sold →
    sold.side = .sell → sold.quantity = bought.quantity

theorem bookTrade_cases {held after : Int} {trade : TradeRecord α}
    (booked : bookTrade held trade = some after) :
    (trade.side = .buy ∧ held = 0 ∧ 0 < trade.quantity ∧ after = trade.quantity) ∨
      (trade.side = .sell ∧ 0 < held ∧ trade.quantity = held ∧ after = 0) := by
  unfold bookTrade at booked
  split at booked
  next side =>
    split at booked
    next fits => exact Or.inl ⟨side, fits.1, fits.2, by simpa using booked.symm⟩
    · simp at booked
  next side =>
    split at booked
    next fits => exact Or.inr ⟨side, fits.1, fits.2, by simpa using booked.symm⟩
    · simp at booked

theorem booked_nil : Booked ([] : List (TradeRecord α)) 0 := rfl

theorem booked_append {trades : List (TradeRecord α)} {trade : TradeRecord α} {after : Int} :
    Booked (trades ++ [trade]) after ↔
      ∃ held, Booked trades held ∧ bookTrade held trade = some after :=
  Runs.watch_append_singleton bookTrade

/-- The book knows the position. -/
theorem position_of_booked {trades : List (TradeRecord α)} {held : Int}
    (booked : Booked trades held) : position trades = held := by
  -- from the last trade; the book before it knows the position already
  induction trades using List.reverseRecOn generalizing held with
  | nil => simpa [Booked, position] using booked
  | append_singleton trades trade ih =>
    obtain ⟨before, earlier, entered⟩ := booked_append.mp booked
    have step : position (trades ++ [trade]) = before + trade.signedQty := by
      rw [← ih earlier]
      simp [position]
    rw [step, TradeRecord.signedQty]
    rcases bookTrade_cases entered with ⟨side, flat, _, rfl⟩ | ⟨side, _, all, rfl⟩
    · rw [side, flat]
      exact Int.zero_add _
    · rw [side, all]
      exact Int.add_right_neg before

/-- After an even number of trades the book is flat; after an odd number it holds the lot of
the last one. -/
theorem held_of_booked {trades : List (TradeRecord α)} {held : Int}
    (booked : Booked trades held) :
    (trades.length % 2 = 0 ∧ held = 0) ∨
      (trades.length % 2 = 1 ∧ 0 < held ∧
        ∃ bought, trades[trades.length - 1]? = some bought ∧ bought.quantity = held) := by
  induction trades using List.reverseRecOn generalizing held with
  | nil => exact Or.inl ⟨rfl, by simpa [Booked] using booked.symm⟩
  | append_singleton trades trade ih =>
    obtain ⟨before, earlier, entered⟩ := booked_append.mp booked
    rw [List.length_append, List.length_singleton]
    -- a purchase needs a flat book, so the parity decides which trade can follow
    rcases bookTrade_cases entered with ⟨_, flat, positive, rfl⟩ | ⟨_, holding, _, rfl⟩
    · rcases ih earlier with ⟨even, _⟩ | ⟨_, positive, _⟩
      · exact Or.inr ⟨by omega, positive, trade, by simp, rfl⟩
      · omega
    · rcases ih earlier with ⟨_, flat⟩ | ⟨odd, _⟩
      · omega
      · exact Or.inl ⟨by omega, rfl⟩

/-- An entry of a list with one more element is an old one or the new one. -/
private theorem getElem?_snoc {β : Type} {xs : List β} {x y : β} {k : Nat}
    (entry : (xs ++ [x])[k]? = some y) : xs[k]? = some y ∨ (k = xs.length ∧ y = x) := by
  have bound := (List.getElem?_eq_some_iff.mp entry).1
  rw [List.length_append, List.length_singleton] at bound
  rcases Nat.lt_or_ge k xs.length with old | new
  · exact Or.inl (by rwa [List.getElem?_append_left old] at entry)
  · obtain rfl : k = xs.length := by omega
    exact Or.inr ⟨rfl, by simpa using entry.symm⟩

/-- What the book accepts alternates. -/
theorem alternating_of_booked {trades : List (TradeRecord α)} {held : Int}
    (booked : Booked trades held) : Alternating trades := by
  induction trades using List.reverseRecOn generalizing held with
  | nil => exact ⟨by simp, by simp, by simp⟩
  | append_singleton trades trade ih =>
    obtain ⟨before, earlier, entered⟩ := booked_append.mp booked
    obtain ⟨sides, positive, paired⟩ := ih earlier
    have cases := bookTrade_cases entered
    -- the parity tells which side the new trade is on
    have parity := held_of_booked earlier
    constructor
    · intro k t entry
      rcases getElem?_snoc entry with old | ⟨rfl, rfl⟩
      · exact sides k t old
      · rcases cases with ⟨side, flat, _⟩ | ⟨side, holding, _⟩
        · rw [side, if_pos (by omega)]
        · rw [side, if_neg (by omega)]
    · intro t member
      rcases List.mem_append.mp member with old | new
      · exact positive t old
      · obtain rfl := List.mem_singleton.mp new
        rcases cases with ⟨_, _, bought, _⟩ | ⟨_, holding, all, _⟩ <;> omega
    · intro k bought sold first second sale
      rcases getElem?_snoc second with old | ⟨next, rfl⟩
      · have bound := (List.getElem?_eq_some_iff.mp old).1
        rw [List.getElem?_append_left (by omega)] at first
        exact paired k bought sold first old sale
      · -- the new trade closes the lot that the last old trade opened
        rcases cases with ⟨side, _⟩ | ⟨_, holding, all, _⟩
        · rw [side] at sale
          cases sale
        · rcases parity with ⟨_, flat⟩ | ⟨_, _, last, entry, lot⟩
          · omega
          · have index : trades.length - 1 = k := by omega
            rw [index] at entry
            rw [List.getElem?_append_left (by omega), entry] at first
            obtain rfl := Option.some.inj first
            rw [all, lot]

end Book

variable {σ α : Type} [CDouble α] (inputs : Inputs σ α) (platform : Platform α)

/-- The bars played so far: the engine's state, and the trades and snapshots in order. -/
structure Ledger (σ α : Type) where
  state : EngineState α
  ctx : σ
  trades : List (TradeRecord α)
  snapshots : List (DailySnapshot α)

/-- What the signal function answers on bar `i`. -/
def Ledger.signal (ledger : Ledger σ α) (i : Nat) : AlphaSignal :=
  (inputs.signal ledger.ctx i ledger.state.positionQty).1

/-- The state after the trade of bar `i`, and the trade. -/
def Inputs.afterTrade (ledger : Ledger σ α) (i : Nat) : EngineState α × List (TradeRecord α) :=
  match inputs.trade platform ledger.state (ledger.signal inputs i) i with
  | some (state, trade) => (state, [trade])
  | none => (ledger.state, [])

/-- The ledger after bar `i`. -/
def Inputs.post (ledger : Ledger σ α) (i : Nat) : Ledger σ α :=
  let (state, traded) := inputs.afterTrade platform ledger i
  let (state, snapshot) := takeSnapshot state (inputs.dates i) (inputs.prices i)
  { state
    ctx := (inputs.signal ledger.ctx i ledger.state.positionQty).2
    trades := ledger.trades ++ traded
    snapshots := ledger.snapshots ++ [snapshot] }

/-- The ledger of the first `k` bars. -/
def Inputs.ledger : Nat → Ledger σ α
  | 0 => ⟨inputs.start.state, inputs.signalCtx, [], []⟩
  | k + 1 => inputs.post platform (Inputs.ledger k) k

/-- The loop whose arrays of `capacity` slots hold this ledger. -/
def Ledger.loop (ledger : Ledger σ α) (capacity : Nat) : Loop σ α where
  state := ledger.state
  ctx := ledger.ctx
  trades := Slots.holding capacity ledger.trades
  tradeCount := ledger.trades.length
  snapshots := Slots.holding capacity ledger.snapshots

/-- What `open_position` buys is a positive number of shares. -/
theorem openPosition_buys {state : EngineState α} {cost : CostModel α}
    {config : BacktestConfig α} {date : Int} {price : α} {taken : EngineState α × TradeRecord α}
    (opened : openPosition platform state cost config date price = some taken) :
    ∃ quantity, 0 < quantity ∧
      taken = buyShares state config date price quantity
        (alphaCostCalculate cost .buy price quantity) := by
  -- no price to pay, no share affordable, or the rounding guard gives up the only one
  simp only [openPosition] at opened
  split at opened
  · cases opened
  · split at opened
    · cases opened
    next affordable =>
      split at opened
      · split at opened
        · cases opened
        next left => exact ⟨_, Int.not_le.mp left, (Option.some.inj opened).symm⟩
      · exact ⟨_, Int.not_le.mp affordable, (Option.some.inj opened).symm⟩

/-- A trade is a purchase on a buy signal while flat, or the sale of everything on a sell or
close signal. -/
theorem trade_shapes {state : EngineState α} {signal : AlphaSignal} {i : Nat}
    {taken : EngineState α × TradeRecord α}
    (traded : inputs.trade platform state signal i = some taken) :
    (signal = .buy ∧ state.positionQty = 0 ∧ ∃ quantity, 0 < quantity ∧
      taken = buyShares state inputs.config (inputs.dates i) (inputs.prices i) quantity
        (alphaCostCalculate inputs.cost .buy (inputs.prices i) quantity)) ∨
    ((signal = .sell ∨ signal = .close) ∧ 0 < state.positionQty ∧
      taken = closePosition state inputs.cost inputs.config (inputs.dates i)
        (inputs.prices i)) := by
  unfold Inputs.trade at traded
  split at traded
  next buy => exact Or.inl ⟨buy.1, buy.2, openPosition_buys platform traded⟩
  next =>
    split at traded
    next sell => exact Or.inr ⟨sell.1, sell.2, (Option.some.inj traded).symm⟩
    · cases traded

/-- A purchase opens a lot on a buy signal while flat; a sale closes it on a sell or close
signal. -/
theorem trade_cases {state : EngineState α} {signal : AlphaSignal} {i : Nat}
    {taken : EngineState α × TradeRecord α}
    (traded : inputs.trade platform state signal i = some taken) :
    bookTrade state.positionQty taken.2 = some taken.1.positionQty ∧
      ((taken.2.side = .buy ∧ signal = .buy ∧ state.positionQty = 0) ∨
        (taken.2.side = .sell ∧ (signal = .sell ∨ signal = .close) ∧ 0 < state.positionQty)) := by
  rcases trade_shapes inputs platform traded with
    ⟨buy, flat, quantity, positive, rfl⟩ | ⟨sell, holding, rfl⟩
  · exact ⟨if_pos ⟨flat, positive⟩, Or.inl ⟨rfl, buy, flat⟩⟩
  · exact ⟨if_pos ⟨holding, rfl⟩, Or.inr ⟨rfl, sell, holding⟩⟩

/-- A sell or close signal while holding always sells. -/
theorem trade_sells {state : EngineState α} {signal : AlphaSignal} (i : Nat)
    (sell : signal = .sell ∨ signal = .close) (holding : 0 < state.positionQty) :
    ∃ taken, inputs.trade platform state signal i = some taken ∧ taken.2.side = .sell := by
  have buys : ¬(signal = .buy ∧ state.positionQty = 0) := by omega
  exact ⟨closePosition state inputs.cost inputs.config (inputs.dates i) (inputs.prices i),
    by rw [Inputs.trade, if_neg buys, if_pos ⟨sell, holding⟩], rfl⟩

@[simp] theorem takeSnapshot_positionQty (state : EngineState α) (date : Int) (closePrice : α) :
    (takeSnapshot state date closePrice).1.positionQty = state.positionQty := rfl

/-- One bar of the loop over slots is one bar of the ledger. -/
theorem bar_simulates {ledger : Ledger σ α} {i : Nat} (inside : i < inputs.n)
    (bars : ledger.snapshots.length = i) (room : ledger.trades.length ≤ i) :
    inputs.bar platform (ledger.loop inputs.n) i =
      some ((inputs.post platform ledger i).loop inputs.n) := by
  -- bar `i` writes slot `i`, which is the first one free
  have shot (snapshot : DailySnapshot α) :
      Slots.write (Slots.holding inputs.n ledger.snapshots) i snapshot =
        some (Slots.holding inputs.n (ledger.snapshots ++ [snapshot])) := by
    rw [← bars]
    exact Slots.write_holding (by omega) snapshot
  unfold Inputs.bar Inputs.post Inputs.afterTrade
  simp only [Ledger.loop, Ledger.signal]
  cases inputs.trade platform ledger.state
      (inputs.signal ledger.ctx i ledger.state.positionQty).1 i with
  | none => simp [shot]
  | some taken => simp [shot, Slots.write_holding (show ledger.trades.length < inputs.n by omega)]

/-- What holds of the ledger after `k` bars. -/
structure Ledger.Balanced (ledger : Ledger σ α) (k : Nat) : Prop where
  bars : ledger.snapshots.length = k
  room : ledger.trades.length ≤ k
  booked : Booked ledger.trades ledger.state.positionQty

/-- A bar leaves the book alone, on no sell signal it should act on, or enters one trade. -/
theorem afterTrade_cases (ledger : Ledger σ α) (i : Nat) :
    (inputs.afterTrade platform ledger i = (ledger.state, []) ∧
        ¬((ledger.signal inputs i = .sell ∨ ledger.signal inputs i = .close) ∧
          0 < ledger.state.positionQty)) ∨
      ∃ after trade, inputs.afterTrade platform ledger i = (after, [trade]) ∧
        bookTrade ledger.state.positionQty trade = some after.positionQty ∧
        ((trade.side = .buy ∧ ledger.signal inputs i = .buy ∧ ledger.state.positionQty = 0) ∨
          (trade.side = .sell ∧
            (ledger.signal inputs i = .sell ∨ ledger.signal inputs i = .close) ∧
            0 < ledger.state.positionQty)) := by
  cases traded : inputs.trade platform ledger.state (ledger.signal inputs i) i with
  | none =>
    left
    refine ⟨by simp only [Inputs.afterTrade, traded], ?_⟩
    -- a sale never fails
    rintro ⟨sell, holding⟩
    obtain ⟨taken, sold, _⟩ := trade_sells inputs platform i sell holding
    rw [traded] at sold
    cases sold
  | some taken =>
    obtain ⟨booked, reason⟩ := trade_cases inputs platform traded
    right
    exact ⟨taken.1, taken.2, by simp only [Inputs.afterTrade, traded], booked,
      reason⟩

theorem post_balanced {ledger : Ledger σ α} {k : Nat} (balanced : ledger.Balanced k) :
    (inputs.post platform ledger k).Balanced (k + 1) := by
  obtain ⟨bars, room, booked⟩ := balanced
  constructor
  · simp [Inputs.post, bars]
  · rcases afterTrade_cases inputs platform ledger k with ⟨quiet, _⟩ | ⟨_, _, traded, _⟩
    · simp only [Inputs.post, quiet, List.append_nil]
      omega
    · simp only [Inputs.post, traded, List.length_append, List.length_singleton]
      omega
  · rcases afterTrade_cases inputs platform ledger k with ⟨quiet, _⟩ | ⟨_, _, traded, entered, _⟩
    · simpa only [Inputs.post, quiet, List.append_nil, takeSnapshot_positionQty] using booked
    · simp only [Inputs.post, traded]
      exact booked_append.mpr ⟨_, booked, entered⟩

/-- Every ledger is balanced. -/
theorem ledger_balanced (k : Nat) : (inputs.ledger platform k).Balanced k := by
  induction k with
  | zero => exact ⟨rfl, Nat.le_refl 0, booked_nil⟩
  | succ k ih => exact post_balanced inputs platform ih

/-- The loop over slots reaches the ledger: no slot outside the arrays is written. -/
theorem reached_eq_ledger (k : Nat) (inside : k ≤ inputs.n) :
    inputs.reached platform k = some ((inputs.ledger platform k).loop inputs.n) := by
  induction k with
  | zero =>
    simp [Inputs.reached, Inputs.start, Inputs.ledger, Ledger.loop, Slots.fresh_eq_holding]
  | succ k ih =>
    obtain ⟨bars, room, _⟩ := ledger_balanced inputs platform k
    rw [Inputs.reached, ih (by omega)]
    exact bar_simulates inputs platform (by omega) bars room

/-- Later bars keep the trades and snapshots of the earlier ones. -/
theorem ledger_grows {k m : Nat} (before : k ≤ m) :
    (inputs.ledger platform k).trades <+: (inputs.ledger platform m).trades ∧
      (inputs.ledger platform k).snapshots <+: (inputs.ledger platform m).snapshots := by
  induction m, before using Nat.le_induction with
  | base => exact ⟨List.prefix_rfl, List.prefix_rfl⟩
  | succ m _ ih =>
    exact ⟨ih.1.trans (List.prefix_append _ _), ih.2.trans (List.prefix_append _ _)⟩

/-- An entry of a list stays where it is in every list that continues it. -/
private theorem getElem?_of_prefix {β : Type} {xs ys : List β} (kept : xs <+: ys) {k : Nat} {x : β}
    (entry : xs[k]? = some x) : ys[k]? = some x := by
  obtain ⟨bound, value⟩ := List.getElem?_eq_some_iff.mp entry
  rw [List.prefix_iff_getElem?.mp kept k bound, value]

/-- What an accepted run returns: the ledger of all its bars, with the metrics of the ledger. -/
theorem alphaBacktestRun_metrics (alloc : Allocations) (out : BacktestResult α)
    (accepted : inputs.config.trainEnd < inputs.config.testStart)
    (allocated : inputs.n = 0 ∨ (alloc.trades = true ∧ alloc.snapshots = true)) :
    ∃ metrics, alphaComputeMetrics platform alloc (inputs.ledger platform inputs.n).snapshots
        (inputs.ledger platform inputs.n).trades inputs.config.initialCapital = some metrics ∧
      alphaBacktestRun platform alloc (some inputs.config) (some inputs.prices)
        (some inputs.dates) inputs.n (some inputs.signalFn) inputs.signalCtx (some inputs.cost)
        (some out) =
      some (.ok, some
        { config := inputs.config
          metrics
          trades := Slots.holding inputs.n (inputs.ledger platform inputs.n).trades
          tradeCount := (inputs.ledger platform inputs.n).trades.length
          snapshots := Slots.holding inputs.n (inputs.ledger platform inputs.n).snapshots
          snapshotCount := inputs.n }) := by
  have bars := (ledger_balanced inputs platform inputs.n).bars
  obtain ⟨metrics, computed⟩ := alphaComputeMetrics_defined platform alloc
    (inputs.ledger platform inputs.n).snapshots (inputs.ledger platform inputs.n).trades
    inputs.config.initialCapital
  have shots := Slots.readFirst_of_prefix inputs.n
    (List.prefix_rfl : (inputs.ledger platform inputs.n).snapshots <+: _)
  have trades := Slots.readFirst_of_prefix inputs.n
    (List.prefix_rfl : (inputs.ledger platform inputs.n).trades <+: _)
  rw [bars] at shots
  have backtest : inputs.backtest platform alloc = some (.ok, ⟨inputs.config, metrics,
      Slots.holding inputs.n (inputs.ledger platform inputs.n).trades,
      (inputs.ledger platform inputs.n).trades.length,
      Slots.holding inputs.n (inputs.ledger platform inputs.n).snapshots, inputs.n⟩) := by
    have enough :
        ¬(inputs.n > 0 ∧ (alloc.trades = false ∨ alloc.snapshots = false)) := by
      rcases allocated with none | both
      · omega
      · simp [both]
    rw [Inputs.backtest, if_neg enough,
      reached_eq_ledger inputs platform inputs.n le_rfl]
    simp only [Ledger.loop, Option.bind_eq_bind, Option.bind_some, shots, trades, computed]
  refine ⟨metrics, computed, ?_⟩
  simp only [alphaBacktestRun, if_neg (Int.not_le.mpr accepted)]
  rw [backtest]
  rfl

/-- The ledger a run returns, whatever the metrics. -/
theorem alphaBacktestRun_ledger (alloc : Allocations) (out : BacktestResult α)
    (accepted : inputs.config.trainEnd < inputs.config.testStart)
    (allocated : inputs.n = 0 ∨ (alloc.trades = true ∧ alloc.snapshots = true)) :
    ∃ metrics, alphaBacktestRun platform alloc (some inputs.config) (some inputs.prices)
        (some inputs.dates) inputs.n (some inputs.signalFn) inputs.signalCtx (some inputs.cost)
        (some out) =
      some (.ok, some
        { config := inputs.config
          metrics
          trades := Slots.holding inputs.n (inputs.ledger platform inputs.n).trades
          tradeCount := (inputs.ledger platform inputs.n).trades.length
          snapshots := Slots.holding inputs.n (inputs.ledger platform inputs.n).snapshots
          snapshotCount := inputs.n }) := by
  obtain ⟨metrics, _, returned⟩ :=
    alphaBacktestRun_metrics inputs platform alloc out accepted allocated
  exact ⟨metrics, returned⟩

/-- `alpha_backtest_run` on these inputs, no pointer of which is NULL. -/
def Inputs.run (alloc : Allocations) (out : BacktestResult α) :
    Option (AlphaErr × Option (BacktestResult α)) :=
  alphaBacktestRun platform alloc (some inputs.config) (some inputs.prices) (some inputs.dates)
    inputs.n (some inputs.signalFn) inputs.signalCtx (some inputs.cost) (some out)

/-- A run without its arrays has bars and lacks one of the two. -/
theorem array_missing {alloc : Allocations} {n : Nat}
    (missing : ¬(n = 0 ∨ (alloc.trades = true ∧ alloc.snapshots = true))) :
    n > 0 ∧ (alloc.trades = false ∨ alloc.snapshots = false) := by
  obtain ⟨bars, lacks⟩ := not_or.mp missing
  refine ⟨Nat.pos_of_ne_zero bars, ?_⟩
  rcases not_and_or.mp lacks with trades | snapshots
  · exact .inl (Bool.eq_false_iff.mpr trades)
  · exact .inr (Bool.eq_false_iff.mpr snapshots)

/-- A run that returns `ALPHA_OK` was accepted, had its arrays, and returned its ledger. -/
theorem run_ok {alloc : Allocations} {out result : BacktestResult α}
    (returned : inputs.run platform alloc out = some (.ok, some result)) :
    inputs.config.trainEnd < inputs.config.testStart ∧
      (inputs.n = 0 ∨ (alloc.trades = true ∧ alloc.snapshots = true)) ∧
      ∃ metrics, alphaComputeMetrics platform alloc (inputs.ledger platform inputs.n).snapshots
          (inputs.ledger platform inputs.n).trades inputs.config.initialCapital = some metrics ∧
        result =
          { config := inputs.config
            metrics
            trades := Slots.holding inputs.n (inputs.ledger platform inputs.n).trades
            tradeCount := (inputs.ledger platform inputs.n).trades.length
            snapshots := Slots.holding inputs.n (inputs.ledger platform inputs.n).snapshots
            snapshotCount := inputs.n } := by
  have accepted : inputs.config.trainEnd < inputs.config.testStart := by
    by_contra rejected
    simp [Inputs.run, alphaBacktestRun, not_lt.mp rejected] at returned
  have allocated : inputs.n = 0 ∨ (alloc.trades = true ∧ alloc.snapshots = true) := by
    by_contra missing
    have fails := array_missing missing
    simp [Inputs.run, alphaBacktestRun, not_le.mpr accepted, Inputs.backtest, fails] at returned
  obtain ⟨metrics, computed, ledger⟩ :=
    alphaBacktestRun_metrics inputs platform alloc out accepted allocated
  refine ⟨accepted, allocated, metrics, computed, ?_⟩
  rw [Inputs.run, ledger] at returned
  simpa using returned.symm

/-- The snapshots of the result are those of the ledger. -/
theorem run_snapshots {alloc : Allocations} {out result : BacktestResult α}
    {snapshots : List (DailySnapshot α)}
    (returned : inputs.run platform alloc out = some (.ok, some result))
    (read : Slots.readFirst result.snapshots result.snapshotCount = some snapshots) :
    (inputs.ledger platform inputs.n).snapshots = snapshots := by
  obtain ⟨_, _, metrics, _, rfl⟩ := run_ok inputs platform returned
  have all := Slots.readFirst_of_prefix inputs.n
    (List.prefix_rfl : (inputs.ledger platform inputs.n).snapshots <+: _)
  rw [(ledger_balanced inputs platform inputs.n).bars] at all
  exact Option.some.inj (all.symm.trans read)

/-- Slot `k` of the result holds `trade` and was filled between two states of the loop. -/
def FilledBetween (before after : Loop σ α) (result : BacktestResult α) (k : Nat)
    (trade : TradeRecord α) : Prop :=
  before.tradeCount ≤ k ∧ k < after.tradeCount ∧ Slots.read result.trades k = some trade

/-- What bar `i` contributes to the result, between the state of the loop before it and the
state after it. -/
structure BarRecord (result : BacktestResult α) (i : Nat) (before after : Loop σ α) : Prop where
  oneTrade : after.tradeCount = before.tradeCount ∨ after.tradeCount = before.tradeCount + 1
  slots : ∀ k, after.trades[k]? ≠ before.trades[k]? → k ≤ i
  buys : ∀ k trade, FilledBetween before after result k trade → trade.side = .buy →
    (inputs.signal before.ctx i before.state.positionQty).1 = .buy ∧ before.state.positionQty = 0
  sells : ∀ k trade, FilledBetween before after result k trade → trade.side = .sell →
    ((inputs.signal before.ctx i before.state.positionQty).1 = .sell ∨
      (inputs.signal before.ctx i before.state.positionQty).1 = .close) ∧
    0 < before.state.positionQty
  closes : ((inputs.signal before.ctx i before.state.positionQty).1 = .sell ∨
      (inputs.signal before.ctx i before.state.positionQty).1 = .close) →
    0 < before.state.positionQty →
    ∃ k trade, FilledBetween before after result k trade ∧ trade.side = .sell
  snapshot : ∃ snapshot trades, Slots.read result.snapshots i = some snapshot ∧
    snapshot.date = inputs.dates i ∧ snapshot.closePrice = inputs.prices i ∧
    Slots.readFirst result.trades after.tradeCount = some trades ∧
    snapshot.positionQty = position trades

/-- The structure of a run's result. -/
structure LedgerStructure (result : BacktestResult α) : Prop where
  snapshots : result.snapshotCount = inputs.n ∧ result.snapshots.length = inputs.n
  trades : result.tradeCount ≤ inputs.n ∧ result.trades.length = inputs.n
  alternates : ∃ trades, Slots.readFirst result.trades result.tradeCount = some trades ∧
    Alternating trades
  bars : ∀ i < inputs.n, ∃ before after, inputs.reached platform i = some before ∧
    inputs.reached platform (i + 1) = some after ∧ BarRecord inputs result i before after
  last : ∃ last, inputs.reached platform inputs.n = some last ∧
    result.trades = last.trades ∧ result.tradeCount = last.tradeCount ∧
    result.snapshots = last.snapshots

/-- The snapshot of bar `i` shows the state the bar leaves, valued at its price. -/
theorem snapshot_of_bar {i k : Nat} (inside : i < k) :
    ∃ snapshot, (inputs.ledger platform k).snapshots[i]? = some snapshot ∧
      snapshot.date = inputs.dates i ∧ snapshot.closePrice = inputs.prices i ∧
      snapshot.cash = (inputs.ledger platform (i + 1)).state.cash ∧
      snapshot.positionQty = (inputs.ledger platform (i + 1)).state.positionQty ∧
      snapshot.portfolioValue = (inputs.ledger platform (i + 1)).state.cash +
        ofInt (inputs.ledger platform (i + 1)).state.positionQty * inputs.prices i := by
  have bars := (ledger_balanced inputs platform i).bars
  have kept := (ledger_grows inputs platform (Nat.succ_le_of_lt inside)).2
  let taken := takeSnapshot (inputs.afterTrade platform (inputs.ledger platform i) i).1
    (inputs.dates i) (inputs.prices i)
  have written : (inputs.ledger platform (i + 1)).snapshots[i]? = some taken.2 := by
    simp [Inputs.ledger, Inputs.post, bars, taken]
  exact ⟨taken.2, getElem?_of_prefix kept written, rfl, rfl, rfl, rfl, rfl⟩

/-- A slot filled by a bar that takes a trade holds this trade. -/
private theorem filled_iff {result : BacktestResult α} {i : Nat} (inside : i < inputs.n)
    (trades : result.trades = Slots.holding inputs.n (inputs.ledger platform inputs.n).trades)
    {trade : TradeRecord α} (added : (inputs.ledger platform (i + 1)).trades =
      (inputs.ledger platform i).trades ++ [trade]) (k : Nat) (filled : TradeRecord α) :
    FilledBetween ((inputs.ledger platform i).loop inputs.n)
        ((inputs.ledger platform (i + 1)).loop inputs.n) result k filled ↔
      k = (inputs.ledger platform i).trades.length ∧ filled = trade := by
  have kept := (ledger_grows inputs platform (Nat.succ_le_of_lt inside)).1
  have entry : (inputs.ledger platform inputs.n).trades[
      (inputs.ledger platform i).trades.length]? = some trade := by
    apply getElem?_of_prefix kept
    simp [added]
  simp only [FilledBetween, Ledger.loop, trades, Slots.read_holding, added, List.length_append,
    List.length_singleton]
  constructor
  · rintro ⟨low, high, read⟩
    obtain rfl : k = (inputs.ledger platform i).trades.length := by omega
    rw [entry] at read
    exact ⟨rfl, (Option.some.inj read).symm⟩
  · rintro ⟨rfl, rfl⟩
    exact ⟨le_rfl, by omega, entry⟩

/-- The slots that a bar fills hold the trade it takes. -/
theorem filled_traded {result : BacktestResult α} {i : Nat} (inside : i < inputs.n)
    (trades : result.trades = Slots.holding inputs.n (inputs.ledger platform inputs.n).trades)
    (k : Nat) (filled : TradeRecord α) :
    FilledBetween ((inputs.ledger platform i).loop inputs.n)
        ((inputs.ledger platform (i + 1)).loop inputs.n) result k filled ↔
      k = (inputs.ledger platform i).trades.length ∧
        ∃ after, inputs.trade platform (inputs.ledger platform i).state
          ((inputs.ledger platform i).signal inputs i) i = some (after, filled) := by
  cases traded : inputs.trade platform (inputs.ledger platform i).state
      ((inputs.ledger platform i).signal inputs i) i with
  | none =>
    have same : (inputs.ledger platform (i + 1)).trades = (inputs.ledger platform i).trades := by
      simp [Inputs.ledger, Inputs.post, Inputs.afterTrade, traded]
    refine iff_of_false ?_ (by simp)
    rintro ⟨low, high, _⟩
    simp only [Ledger.loop, same] at low high
    omega
  | some taken =>
    have added : (inputs.ledger platform (i + 1)).trades =
        (inputs.ledger platform i).trades ++ [taken.2] := by
      simp [Inputs.ledger, Inputs.post, Inputs.afterTrade, traded]
    rw [filled_iff inputs platform inside trades added]
    refine and_congr_right fun _ => ⟨?_, ?_⟩
    · rintro rfl
      exact ⟨taken.1, rfl⟩
    · rintro ⟨after, same⟩
      rw [Option.some.inj same]

/-- The snapshot of a bar, with the trades up to that bar. -/
private theorem bar_snapshot {result : BacktestResult α} {i : Nat} (inside : i < inputs.n)
    (trades : result.trades = Slots.holding inputs.n (inputs.ledger platform inputs.n).trades)
    (snapshots : result.snapshots =
      Slots.holding inputs.n (inputs.ledger platform inputs.n).snapshots) :
    ∃ snapshot counted, Slots.read result.snapshots i = some snapshot ∧
      snapshot.date = inputs.dates i ∧ snapshot.closePrice = inputs.prices i ∧
      Slots.readFirst result.trades (inputs.ledger platform (i + 1)).trades.length =
        some counted ∧ snapshot.positionQty = position counted := by
  obtain ⟨snapshot, entry, date, price, _, held, _⟩ := snapshot_of_bar inputs platform inside
  have booked := (ledger_balanced inputs platform (i + 1)).booked
  refine ⟨snapshot, _, by rw [snapshots, Slots.read_holding, entry], date, price, ?_,
    held.trans (position_of_booked booked).symm⟩
  rw [trades]
  exact Slots.readFirst_of_prefix inputs.n
    (ledger_grows inputs platform (Nat.succ_le_of_lt inside)).1

private theorem bar_record {result : BacktestResult α} {i : Nat} (inside : i < inputs.n)
    (trades : result.trades = Slots.holding inputs.n (inputs.ledger platform inputs.n).trades)
    (snapshots : result.snapshots =
      Slots.holding inputs.n (inputs.ledger platform inputs.n).snapshots) :
    BarRecord inputs result i ((inputs.ledger platform i).loop inputs.n)
      ((inputs.ledger platform (i + 1)).loop inputs.n) := by
  have room := (ledger_balanced inputs platform i).room
  have shot := bar_snapshot inputs platform inside trades snapshots
  rcases afterTrade_cases inputs platform (inputs.ledger platform i) i with
    ⟨quiet, ignored⟩ | ⟨_, trade, traded, _, reason⟩
  -- a bar without a trade fills no slot
  · have same : (inputs.ledger platform (i + 1)).trades = (inputs.ledger platform i).trades := by
      simp [Inputs.ledger, Inputs.post, quiet]
    have none (k trade) : ¬FilledBetween ((inputs.ledger platform i).loop inputs.n)
        ((inputs.ledger platform (i + 1)).loop inputs.n) result k trade := by
      rintro ⟨low, high, _⟩
      simp only [Ledger.loop, same] at low high
      omega
    refine ⟨Or.inl (by simp only [Ledger.loop, same]), ?_, ?_, ?_, ?_, shot⟩
    · intro k changed
      simp only [Ledger.loop, same, ne_eq, not_true_eq_false] at changed
    · exact fun k trade filled => absurd filled (none k trade)
    · exact fun k trade filled => absurd filled (none k trade)
    · exact fun sell holding => absurd ⟨sell, holding⟩ ignored
  · have added : (inputs.ledger platform (i + 1)).trades =
        (inputs.ledger platform i).trades ++ [trade] := by
      simp [Inputs.ledger, Inputs.post, traded]
    -- the one slot that is filled is the one behind the trades so far
    have filled := filled_iff inputs platform inside trades added
    refine ⟨Or.inr (by simp only [Ledger.loop, added, List.length_append, List.length_singleton]),
      ?_, ?_, ?_, ?_, shot⟩
    · intro k changed
      by_contra beyond
      apply changed
      simp only [Ledger.loop, added]
      exact Slots.getElem?_holding_snoc (by omega) trade (by omega)
    · intro k bought slot side
      obtain ⟨_, rfl⟩ := (filled k bought).mp slot
      rcases reason with ⟨_, buy⟩ | ⟨sold, _⟩
      · exact buy
      · rw [sold] at side
        cases side
    · intro k sold slot side
      obtain ⟨_, rfl⟩ := (filled k sold).mp slot
      rcases reason with ⟨bought, _⟩ | ⟨_, sell⟩
      · rw [bought] at side
        cases side
      · exact sell
    · intro sell holding
      refine ⟨_, trade, (filled _ trade).mpr ⟨rfl, rfl⟩, ?_⟩
      rcases reason with ⟨_, _, flat⟩ | ⟨sold, _⟩
      · simp only [Ledger.loop] at holding
        omega
      · exact sold

/-- Every accepted run returns a ledger: a snapshot for each bar, trades that alternate, at
most one of them a bar and for the reason of its signal, and positions that add up. -/
theorem backtest_ledger_structure (alloc : Allocations) (out : BacktestResult α)
    (accepted : inputs.config.trainEnd < inputs.config.testStart)
    (allocated : alloc.trades = true ∧ alloc.snapshots = true) :
    ∃ result, alphaBacktestRun platform alloc (some inputs.config) (some inputs.prices)
        (some inputs.dates) inputs.n (some inputs.signalFn) inputs.signalCtx (some inputs.cost)
        (some out) = some (.ok, some result) ∧
      LedgerStructure inputs platform result := by
  obtain ⟨metrics, returned⟩ :=
    alphaBacktestRun_ledger inputs platform alloc out accepted (Or.inr allocated)
  obtain ⟨bars, room, booked⟩ := ledger_balanced inputs platform inputs.n
  refine ⟨_, returned, ⟨rfl, Slots.length_holding bars.le⟩, ⟨room, Slots.length_holding room⟩,
    ⟨_, Slots.readFirst_of_prefix inputs.n List.prefix_rfl, alternating_of_booked booked⟩, ?_,
    ⟨_, reached_eq_ledger inputs platform inputs.n le_rfl, rfl, rfl, rfl⟩⟩
  intro i inside
  exact ⟨_, _, reached_eq_ledger inputs platform i inside.le,
    reached_eq_ledger inputs platform (i + 1) inside, bar_record inputs platform inside rfl rfl⟩

/-- Four bars: a purchase, a second buy signal, a close, and a sell signal while flat. -/
def oneLot : Inputs ReplaySource ℚ where
  config :=
    { ticker := "005930".toList
      strategy := "A".toList
      trainStart := -10
      trainEnd := -1
      testStart := 0
      testEnd := 100
      initialCapital := 10000000
      commissionRatePct := 15 / 1000
      taxRatePct := 18 / 100
      slippageBps := 3 }
  prices := fun i => 48800 + 100 * i
  dates := fun i => i
  n := 4
  signalFn := alphaReplaySignal
  signalCtx := [(0, .buy), (1, .buy), (2, .close), (3, .sell)]
  cost := alphaCostModelDefault

/-- A platform for the examples; the ledger does not depend on its functions. -/
def somePlatform : Platform ℚ := ⟨fun x => x, fun x _ => x, fun _ => -int64Max - 1⟩

example : (oneLot.ledger somePlatform 4).trades.map (fun t => (t.side, t.quantity, t.date)) =
    [(.buy, 204, 0), (.sell, 204, 2)] := by decide +kernel

theorem backtest_ledger_structure_one_lot :
    ∃ result, alphaBacktestRun somePlatform ⟨true, true, true, true⟩ (some oneLot.config)
        (some oneLot.prices) (some oneLot.dates) oneLot.n (some oneLot.signalFn) oneLot.signalCtx
        (some oneLot.cost) (some (clearedResult oneLot.config)) = some (.ok, some result) ∧
      LedgerStructure oneLot somePlatform result :=
  backtest_ledger_structure oneLot somePlatform ⟨true, true, true, true⟩
    (clearedResult oneLot.config) (by decide) ⟨rfl, rfl⟩

end AlphaPipeline.Backtest

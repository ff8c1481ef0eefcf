import AlphaPipeline.Backtest.Ledger

/-!
# No look-ahead

Two runs with the same configuration, costs and signal function, on bars that agree up to
some point, are the same up to that point, whatever bars come later and however many.
-/
namespace AlphaPipeline.Backtest

variable {σ α : Type}

/-- A signal function that reads no price after the history it is given. -/
def Causal (signalFn : SignalFn σ α) : Prop :=
  ∀ ctx day (prices prices' : Nat → α) n position, (∀ j < n, prices j = prices' j) →
    signalFn ctx day prices n position = signalFn ctx day prices' n position

theorem alphaReplaySignal_causal : Causal (alphaReplaySignal (α := α)) :=
  fun _ _ _ _ _ _ _ => rfl

/-- The same run on other bars. -/
def Inputs.onBars (inputs : Inputs σ α) (prices : Nat → α) (dates : Nat → Int) (n : Nat) :
    Inputs σ α :=
  { inputs with prices, dates, n }

variable [CDouble α] {inputs : Inputs σ α} (platform : Platform α) {prices : Nat → α}
  {dates : Nat → Int} {n : Nat}

/-- A bar reads the prices up to its own and nothing later. -/
private theorem post_onBars (causal : Causal inputs.signalFn) {i : Nat}
    (agree : ∀ j ≤ i, inputs.prices j = prices j ∧ inputs.dates j = dates j)
    (ledger : Ledger σ α) :
    (inputs.onBars prices dates n).post platform ledger i = inputs.post platform ledger i := by
  obtain ⟨price, date⟩ := agree i le_rfl
  -- the signal sees the prices up to the bar, and its date
  have signal : (inputs.onBars prices dates n).signal ledger.ctx i ledger.state.positionQty =
      inputs.signal ledger.ctx i ledger.state.positionQty := by
    rw [Inputs.signal, Inputs.signal, date]
    exact causal _ _ _ _ _ _ fun j earlier => (agree j (by omega)).1.symm
  have traded (s : AlphaSignal) : (inputs.onBars prices dates n).trade platform ledger.state s i =
      inputs.trade platform ledger.state s i := by
    rw [Inputs.trade, Inputs.trade, price, date]
    rfl
  simp only [Inputs.post, Inputs.afterTrade, Ledger.signal, signal, traded]
  simp only [Inputs.onBars, price, date]

/-- Bars that agree up to `k` have the same ledger up to `k`. -/
private theorem ledger_onBars (causal : Causal inputs.signalFn) {k : Nat}
    (agree : ∀ j < k, inputs.prices j = prices j ∧ inputs.dates j = dates j) :
    (inputs.onBars prices dates n).ledger platform k = inputs.ledger platform k := by
  induction k with
  | zero => rfl
  | succ k ih =>
    rw [Inputs.ledger, Inputs.ledger, ih fun j earlier => agree j (by omega)]
    exact post_onBars platform causal (fun j upTo => agree j (by omega)) _

/-- The same first `k` snapshots, and the same first `count` trades. -/
structure SamePrefix (k count : Nat) (result other : BacktestResult α) : Prop where
  snapshots : ∃ snapshots, Slots.readFirst result.snapshots k = some snapshots ∧
    Slots.readFirst other.snapshots k = some snapshots
  trades : ∃ trades, Slots.readFirst result.trades count = some trades ∧
    Slots.readFirst other.trades count = some trades

variable (inputs prices dates n)

/-- Runs on bars that agree on the first `k` have the same first `k` snapshots and the same
trades on these bars; a run on these bars alone has no others. -/
theorem no_lookahead (alloc alloc' : Allocations) (out out' : BacktestResult α) (k : Nat)
    (causal : Causal inputs.signalFn)
    (agree : ∀ j < k, inputs.prices j = prices j ∧ inputs.dates j = dates j)
    (enough : k ≤ inputs.n ∧ k ≤ n)
    (accepted : inputs.config.trainEnd < inputs.config.testStart)
    (allocated : inputs.n = 0 ∨ (alloc.trades = true ∧ alloc.snapshots = true))
    (allocated' : n = 0 ∨ (alloc'.trades = true ∧ alloc'.snapshots = true)) :
    ∃ result other loop loop',
      alphaBacktestRun platform alloc (some inputs.config) (some inputs.prices)
        (some inputs.dates) inputs.n (some inputs.signalFn) inputs.signalCtx (some inputs.cost)
        (some out) = some (.ok, some result) ∧
      alphaBacktestRun platform alloc' (some inputs.config) (some prices) (some dates) n
        (some inputs.signalFn) inputs.signalCtx (some inputs.cost) (some out') =
        some (.ok, some other) ∧
      inputs.reached platform k = some loop ∧
      (inputs.onBars prices dates n).reached platform k = some loop' ∧
      loop'.tradeCount = loop.tradeCount ∧
      SamePrefix k loop.tradeCount result other ∧
      (n = k → other.snapshotCount = k ∧ other.tradeCount = loop.tradeCount) := by
  have same : (inputs.onBars prices dates n).ledger platform k = inputs.ledger platform k :=
    ledger_onBars platform causal agree
  obtain ⟨metrics, returned⟩ :=
    alphaBacktestRun_ledger inputs platform alloc out accepted allocated
  obtain ⟨metrics', returned'⟩ := alphaBacktestRun_ledger (inputs.onBars prices dates n) platform
    alloc' out' accepted allocated'
  have bars := (ledger_balanced inputs platform k).bars
  -- both results continue the one ledger of the first `k` bars
  have kept := ledger_grows inputs platform enough.1
  have kept' := ledger_grows (inputs.onBars prices dates n) platform enough.2
  rw [same] at kept'
  refine ⟨_, _, _, _, returned, returned', reached_eq_ledger inputs platform k enough.1,
    reached_eq_ledger (inputs.onBars prices dates n) platform k enough.2, ?_, ⟨?_, ?_⟩, ?_⟩
  · simp only [Ledger.loop, same]
  · rw [← bars]
    exact ⟨_, Slots.readFirst_of_prefix _ kept.2, Slots.readFirst_of_prefix _ kept'.2⟩
  · exact ⟨_, Slots.readFirst_of_prefix _ kept.1, Slots.readFirst_of_prefix _ kept'.1⟩
  · rintro rfl
    exact ⟨rfl, congrArg (fun ledger => ledger.trades.length) same⟩

/-- The first two bars of `oneLot` alone. -/
theorem no_lookahead_two_bars : ∃ result other loop loop',
    alphaBacktestRun somePlatform ⟨true, true, true, true⟩ (some oneLot.config)
      (some oneLot.prices) (some oneLot.dates) 4 (some oneLot.signalFn) oneLot.signalCtx
      (some oneLot.cost) (some (clearedResult oneLot.config)) = some (.ok, some result) ∧
    alphaBacktestRun somePlatform ⟨true, true, true, true⟩ (some oneLot.config)
      (some fun i => if i < 2 then oneLot.prices i else 0) (some oneLot.dates) 2
      (some oneLot.signalFn) oneLot.signalCtx (some oneLot.cost)
      (some (clearedResult oneLot.config)) = some (.ok, some other) ∧
    oneLot.reached somePlatform 2 = some loop ∧
    (oneLot.onBars (fun i => if i < 2 then oneLot.prices i else 0) oneLot.dates 2).reached
      somePlatform 2 = some loop' ∧
    loop'.tradeCount = loop.tradeCount ∧
    SamePrefix 2 loop.tradeCount result other ∧
    (2 = 2 → other.snapshotCount = 2 ∧ other.tradeCount = loop.tradeCount) :=
  no_lookahead oneLot somePlatform (fun i => if i < 2 then oneLot.prices i else 0) oneLot.dates 2
    ⟨true, true, true, true⟩ ⟨true, true, true, true⟩ (clearedResult oneLot.config)
    (clearedResult oneLot.config) 2 alphaReplaySignal_causal
    (fun j early => ⟨by simp [early], rfl⟩) ⟨by decide, le_rfl⟩ (by decide) (Or.inr ⟨rfl, rfl⟩)
    (Or.inr ⟨rfl, rfl⟩)

end AlphaPipeline.Backtest

import AlphaPipeline.Bench.Driver

/-!
# What the driver records

`execute` runs a fixed schedule: two cases, three concurrencies, every trial with its three
adapters in rotated order. The records it returns are those of the schedule, in its order,
each with an output that passed all checks; so the documents are one for each of the 18
cells, made of the trials of that cell.
-/
namespace AlphaPipeline.Bench

open PyJson PyJson.Json Fallible

/-- A place in the schedule. -/
structure Slot where
  cell : Cell
  trial : Nat
  orderIndex : Nat
  deriving DecidableEq, Repr

def Record.slot (record : Record) : Slot := ⟨record.cell, record.trial, record.orderIndex⟩

def variantSlots (benchCase : BenchCase) (concurrency trial : Nat) (entry : Variant × Nat) :
    List Slot :=
  [⟨⟨benchCase, concurrency, entry.1⟩, trial, entry.2⟩]

def trialSlots (benchCase : BenchCase) (concurrency trial : Nat) : List Slot :=
  (trialOrder trial).zipIdx.flatMap (variantSlots benchCase concurrency trial)

def concurrencySlots (trials : Nat) (benchCase : BenchCase) (concurrency : Nat) : List Slot :=
  (List.range trials).flatMap (trialSlots benchCase concurrency)

def caseSlots (trials : Nat) (benchCase : BenchCase) : List Slot :=
  concurrencies.flatMap (concurrencySlots trials benchCase)

/-- The adapter runs of `execute`, in order. -/
def schedule (trials : Nat) : List Slot := cases.flatMap (caseSlots trials)

section Records

variable (session : Session) (fixture : Fixture) (adapters : List (String × List String))
  (attestations : List (String × Json)) (minimumElapsedMs : ℚ)

/-- What holds of a record: its output came from a successful adapter run and passed the
checks of its cell. -/
structure Checked (record : Record) : Prop where
  ran : ∃ command trialNamespace, valueOf adapters record.cell.variant.name = .ok command ∧
    runAdapter session ⟨command, record.cell.benchCase, record.cell.concurrency, record.trial,
      trialNamespace⟩ = .ok record.adapter
  passed : checkOutput session fixture minimumElapsedMs record.cell record.adapter = .ok ()
  attested : valueOf attestations record.cell.variant.name = .ok record.attestation
  environment : record.environment = hostEnvironment session.host

private theorem runVariant_adds {benchCase : BenchCase} {concurrency trial : Nat}
    {state after : Progress × Option Json} {entry : Variant × Nat}
    (ran : runVariant session fixture adapters attestations minimumElapsedMs benchCase concurrency
      trial state entry = .ok after) :
    ∃ new, after.1.records = state.1.records ++ new ∧
      new.map Record.slot = variantSlots benchCase concurrency trial entry ∧
      ∀ r ∈ new, Checked session fixture adapters attestations minimumElapsedMs r := by
  obtain ⟨variant, orderIndex⟩ := entry
  simp only [runVariant, bind_eq_ok, raiseIf_eq_ok, Except.ok.injEq] at ran
  obtain ⟨command, known, out, printed, _, passed, _, _, attestation, attested, rfl⟩ := ran
  refine ⟨_, rfl, rfl, ?_⟩
  intro r member
  obtain rfl := List.mem_singleton.mp member
  exact ⟨⟨command, _, known, printed⟩, passed, attested, rfl⟩

/-- The adapter runs of a trial. -/
theorem runVariants_adds {benchCase : BenchCase} {concurrency trial : Nat}
    {state after : Progress × Option Json}
    (ran : (trialOrder trial).zipIdx.foldlM (runVariant session fixture adapters attestations
      minimumElapsedMs benchCase concurrency trial) state = .ok after) :
    ∃ new, after.1.records = state.1.records ++ new ∧
      new.map Record.slot = trialSlots benchCase concurrency trial ∧
      ∀ r ∈ new, Checked session fixture adapters attestations minimumElapsedMs r :=
  foldlM_collects (fun s : Progress × Option Json => s.1.records) Record.slot
    (Checked session fixture adapters attestations minimumElapsedMs)
    (variantSlots benchCase concurrency trial)
    (fun _ _ _ => runVariant_adds session fixture adapters attestations minimumElapsedMs) ran

private theorem runTrial_adds {benchCase : BenchCase} {concurrency trial : Nat}
    {state after : Progress × Option Json}
    (ran : runTrial session fixture adapters attestations minimumElapsedMs benchCase concurrency
      state trial = .ok after) :
    ∃ new, after.1.records = state.1.records ++ new ∧
      new.map Record.slot = trialSlots benchCase concurrency trial ∧
      ∀ r ∈ new, Checked session fixture adapters attestations minimumElapsedMs r := by
  simp only [runTrial, bind_eq_ok] at ran
  obtain ⟨⟨progress, baseline⟩, variantsRan, rest⟩ := ran
  -- the checks after the adapter runs leave the records alone
  have same : after.1 = progress := by
    cases baseline with
    | none => cases rest
    | some baselineHash =>
      cases earlier : state.2 with
      | none =>
        simp only [earlier, bind_eq_ok, Except.ok.injEq] at rest
        obtain ⟨_, _, rfl⟩ := rest
        rfl
      | some hash =>
        simp only [earlier, bind_eq_ok, Except.ok.injEq] at rest
        obtain ⟨_, _, _, _, rfl⟩ := rest
        rfl
  rw [same]
  exact runVariants_adds session fixture adapters attestations minimumElapsedMs variantsRan

private theorem runCase_adds {trials : Nat} {progress after : Progress} {benchCase : BenchCase}
    (ran : runCase session fixture adapters attestations minimumElapsedMs trials progress
      benchCase = .ok after) :
    ∃ new, after.records = progress.records ++ new ∧
      new.map Record.slot = caseSlots trials benchCase ∧
      ∀ r ∈ new, Checked session fixture adapters attestations minimumElapsedMs r := by
  simp only [runCase, bind_eq_ok, Except.ok.injEq] at ran
  obtain ⟨state, concurrenciesRan, rfl⟩ := ran
  refine foldlM_collects (fun s : Progress × Option Json => s.1.records) Record.slot
    (Checked session fixture adapters attestations minimumElapsedMs)
    (concurrencySlots trials benchCase) (fun s concurrency s' trialsRan => ?_) concurrenciesRan
  exact foldlM_collects (fun s : Progress × Option Json => s.1.records) Record.slot
    (Checked session fixture adapters attestations minimumElapsedMs)
    (trialSlots benchCase concurrency)
    (fun s x s' => runTrial_adds session fixture adapters attestations minimumElapsedMs) trialsRan

private theorem lookup_of_mem {β : Type} {entries : List (String × β)} {key : String}
    (known : key ∈ entries.map Prod.fst) :
    ∃ value, (key, value) ∈ entries ∧ entries.lookup key = some value := by
  induction entries with
  | nil => simp at known
  | cons entry rest ih =>
    obtain ⟨k, v⟩ := entry
    rw [List.lookup_cons]
    by_cases same : key = k
    · subst same
      exact ⟨v, List.mem_cons_self, by rw [beq_self_eq_true]⟩
    · obtain ⟨value, member, found⟩ := ih (by simpa [same] using known)
      exact ⟨value, List.mem_cons_of_mem _ member, by rw [beq_false_of_ne same, found]⟩

/-- What is known of a benchmark run that was not refused: its records are those of the
schedule, all of them checked, and its sources are clean. -/
structure Completed (sources : List (String × String)) (trials : Nat) (records : List Record) :
    Prop where
  slots : records.map Record.slot = schedule trials
  checked : ∀ r ∈ records, Checked session fixture adapters attestations minimumElapsedMs r
  clean : ∀ variant : Variant, ∃ source, valueOf sources variant.name = .ok source ∧
    isClean source = true

/-- A run that is not refused is complete. -/
theorem execute_completed {sources : List (String × String)} {trials minimumTrials : Nat}
    {records : List Record} (supplied : attestations ≠ [])
    (executed : execute session fixture adapters sources trials attestations minimumTrials
      minimumElapsedMs = .ok records) :
    Completed session fixture adapters attestations minimumElapsedMs sources trials records := by
  simp only [execute, bind_eq_ok, raiseIf_eq_ok, Except.ok.injEq] at executed
  obtain ⟨_, _, _, _, _, clean, _, _, _, _, progress, casesRan, rfl⟩ := executed
  -- attestations were supplied, so the default ones are not used
  rw [if_neg (by simpa using supplied)] at casesRan
  obtain ⟨new, added, slots, checked⟩ := foldlM_collects Progress.records Record.slot
    (Checked session fixture adapters attestations minimumElapsedMs) (caseSlots trials)
    (fun s x s' => runCase_adds session fixture adapters attestations minimumElapsedMs) casesRan
  rw [List.nil_append] at added
  subst added
  refine ⟨slots, checked, fun variant => ?_⟩
  simp only [Bool.or_eq_false_iff, Bool.not_eq_false', List.all_eq_true, decide_eq_true_eq,
    List.any_eq_false, Bool.not_eq_true] at clean
  have known : variant.name ∈ sources.map Prod.fst :=
    clean.1.2 variant (by cases variant <;> decide)
  obtain ⟨source, member, found⟩ := lookup_of_mem known
  exact ⟨source, by rw [valueOf, found], clean.2 _ member⟩

end Records

/-! ## The cells -/

/-- All cells, in the order of the documents. -/
def allCells : List Cell :=
  [BenchCase.dbReadWrite, .redisHotPath].flatMap fun benchCase => concurrencies.flatMap
    fun concurrency => [Variant.c, .python, .rust].map fun variant =>
      ⟨benchCase, concurrency, variant⟩

/-- The positions of a variant in its 30 trials. -/
def rotation : Variant → List Nat
  | .python => (List.replicate 10 [0, 2, 1]).flatten
  | .c => (List.replicate 10 [1, 0, 2]).flatten
  | .rust => (List.replicate 10 [2, 1, 0]).flatten

theorem schedule_cells : ((schedule 30).map Slot.cell).dedup.insertionSort
    (fun a b => a.le b = true) = allCells := by decide +kernel

theorem schedule_trials : ∀ cell ∈ allCells,
    ((schedule 30).filter fun slot => slot.cell = cell).map (fun s => (s.trial, s.orderIndex)) =
      (List.range 30).zip (rotation cell.variant) := by decide +kernel

section Groups

variable {records : List Record} (slots : records.map Record.slot = schedule 30)
include slots

/-- The documents are those of the 18 cells. -/
theorem resultCells_eq : resultCells records = allCells := by
  have cells : records.map Record.cell = (schedule 30).map Slot.cell := by
    rw [← slots, List.map_map]
    rfl
  rw [resultCells, cells, schedule_cells]

/-- The group of a cell: its 30 trials in order, in the positions of the rotation. -/
theorem groupOf_trials {cell : Cell} (known : cell ∈ allCells) :
    (groupOf records cell).map (fun r => (r.trial, r.orderIndex)) =
      (List.range 30).zip (rotation cell.variant) := by
  have filtered : (records.filter fun r => r.cell = cell).map
      (fun r => (r.trial, r.orderIndex)) = (List.range 30).zip (rotation cell.variant) := by
    rw [← schedule_trials cell known, ← slots, List.filter_map, List.map_map]
    rfl
  have trials : (records.filter fun r => r.cell = cell).map Record.trial = List.range 30 := by
    have firsts := congrArg (List.map Prod.fst) filtered
    rw [List.map_map, List.map_fst_zip (by cases cell.variant <;> decide)] at firsts
    exact firsts
  -- the filtered records are in the order of their trials already
  have ordered : (records.filter fun r => r.cell = cell).Pairwise
      fun a b => a.trial ≤ b.trial := by
    rw [← List.pairwise_map, trials]
    exact List.pairwise_le_range
  rw [groupOf, ordered.insertionSort_eq, filtered]

theorem length_groupOf {cell : Cell} (known : cell ∈ allCells) :
    (groupOf records cell).length = 30 := by
  have counted := congrArg List.length (groupOf_trials slots known)
  rw [List.length_map] at counted
  rw [counted]
  cases cell.variant <;> decide

theorem orderIndex_groupOf {cell : Cell} (known : cell ∈ allCells) :
    (groupOf records cell).map Record.orderIndex = rotation cell.variant := by
  have seconds := congrArg (List.map Prod.snd) (groupOf_trials slots known)
  rw [List.map_map, List.map_snd_zip (by cases cell.variant <;> decide)] at seconds
  exact seconds

omit slots in
theorem mem_groupOf {cell : Cell} {r : Record} :
    r ∈ groupOf records cell ↔ r ∈ records ∧ r.cell = cell := by
  simp [groupOf, List.mem_insertionSort]

/-- The first record of a group, whose output speaks for the cell, is that of trial 0. -/
theorem head_groupOf {cell : Cell} (known : cell ∈ allCells) :
    ∃ first rest, groupOf records cell = first :: rest ∧ first ∈ records ∧ first.cell = cell ∧
      first.trial = 0 := by
  have trials := groupOf_trials slots known
  cases group : groupOf records cell with
  | nil =>
    have size := length_groupOf slots known
    rw [group] at size
    cases size
  | cons first rest =>
    have member := mem_groupOf.mp (group ▸ List.mem_cons_self : first ∈ groupOf records cell)
    rw [group, List.map_cons] at trials
    refine ⟨first, rest, rfl, member.1, member.2, ?_⟩
    have zero := congrArg (fun l => (l.head?.map Prod.fst)) trials
    cases variant : cell.variant <;> simpa [variant, rotation, List.range_succ_eq_map] using zero

/-- Only the first record of a group is of trial 0. -/
theorem eq_head_of_trial {cell : Cell} (known : cell ∈ allCells) {r first : Record}
    {rest : List Record} (group : groupOf records cell = first :: rest)
    (member : r ∈ groupOf records cell) (trial : r.trial = 0) : r = first := by
  have trials := congrArg (List.map Prod.fst) (groupOf_trials slots known)
  rw [List.map_map, List.map_fst_zip (by cases cell.variant <;> decide), group,
    List.range_succ_eq_map, List.map_cons, List.cons.injEq] at trials
  rw [group] at member
  rcases List.mem_cons.mp member with rfl | later
  · rfl
  · have listed : r.trial ∈ (List.range 29).map Nat.succ :=
      trials.2 ▸ List.mem_map.mpr ⟨r, later, rfl⟩
    rw [trial] at listed
    simp at listed

theorem cell_known {r : Record} (recorded : r ∈ records) : r.cell ∈ allCells := by
  rw [← resultCells_eq slots, resultCells, List.mem_insertionSort, List.mem_dedup]
  exact List.mem_map.mpr ⟨r, recorded, rfl⟩

end Groups

end AlphaPipeline.Bench

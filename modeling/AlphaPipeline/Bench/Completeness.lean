import AlphaPipeline.Bench.Documents
import AlphaPipeline.Tools.SchemaLock

/-!
# Runs the driver accepts

Adapters that print, in every trial of a cell, the same output, one that passes the checks of
the cell, are never refused. Builds may differ from cell to cell.
-/
namespace AlphaPipeline.Bench

open PyJson PyJson.Json Fallible

section Steady

variable (session : Session) (fixture : Fixture) (adapters : List (String × List String))
  (attestations : List (String × Json)) (minimumElapsedMs : ℚ) (output : Cell → Json)

/-- Adapters that print one output, an accepted one, for each cell. -/
structure Steady : Prop where
  printed : ∀ (cell : Cell) (command : List String) (trial : Nat) (trialNamespace : String),
    valueOf adapters cell.variant.name = .ok command →
    runAdapter session ⟨command, cell.benchCase, cell.concurrency, trial, trialNamespace⟩ =
      .ok (output cell)
  passes : ∀ cell, checkOutput session fixture minimumElapsedMs cell (output cell) = .ok ()
  commands : ∀ variant : Variant, ∃ command, valueOf adapters variant.name = .ok command
  attested : ∀ variant : Variant, ∃ attestation,
    valueOf attestations variant.name = .ok attestation

/-- The invariants stored so far are those of the outputs. -/
def Progress.Settled (progress : Progress) : Prop :=
  ∀ cell text, progress.invariants.lookup cell = some text →
    text = invariantOf session (output cell)

/-- What holds between trials: the stored invariants are those of the outputs, and the stored
checksum of the case is its golden one. -/
def OnCourse (benchCase : BenchCase) (state : Progress × Option Json) : Prop :=
  state.1.Settled session output ∧
    ∀ hash, state.2 = some hash → hash.eq (fixture.config benchCase).terminalSha256 = true

variable {session fixture adapters attestations minimumElapsedMs output}
  (steady : Steady session fixture adapters attestations minimumElapsedMs output)
include steady

private theorem runVariant_ok {benchCase : BenchCase} {concurrency trial : Nat}
    {state : Progress × Option Json} (settled : state.1.Settled session output)
    (entry : Variant × Nat) :
    ∃ after, runVariant session fixture adapters attestations minimumElapsedMs benchCase
        concurrency trial state entry = .ok after ∧ after.1.Settled session output ∧
      after.2 = if entry.1 = .python then
        some ((output ⟨benchCase, concurrency, .python⟩).field "result_sha256") else state.2 := by
  obtain ⟨variant, orderIndex⟩ := entry
  obtain ⟨command, foundCommand⟩ := steady.commands variant
  obtain ⟨attestation, foundAttestation⟩ := steady.attested variant
  have printed := steady.printed ⟨benchCase, concurrency, variant⟩ command trial
  have passes := steady.passes ⟨benchCase, concurrency, variant⟩
  -- the invariant stored for the cell, if any, is that of the same output
  have unchanged : ((state.1.invariants.lookup ⟨benchCase, concurrency, variant⟩).map
      (· != invariantOf session (output ⟨benchCase, concurrency, variant⟩))).getD false =
      false := by
    cases found : state.1.invariants.lookup ⟨benchCase, concurrency, variant⟩ with
    | none => rfl
    | some text => simp [settled _ text found]
  simp only [runVariant, foundCommand, printed _ foundCommand, passes, unchanged, raiseIf_false,
    foundAttestation, bind_ok]
  refine ⟨_, rfl, ?_, ?_⟩
  · intro cell text found
    rw [List.lookup_cons] at found
    split at found
    next same =>
      obtain rfl := eq_of_beq same
      exact (Option.some.inj found).symm
    · exact settled cell text found
  · by_cases python : variant = .python
    · subst python
      rfl
    · simp [python]

/-- The adapter runs of a trial come through, with the baseline of Python if it is among them. -/
private theorem runVariants_ok (benchCase : BenchCase) (concurrency trial : Nat)
    (entries : List (Variant × Nat)) {state : Progress × Option Json}
    (settled : state.1.Settled session output) :
    ∃ after, entries.foldlM (runVariant session fixture adapters attestations minimumElapsedMs
        benchCase concurrency trial) state = .ok after ∧ after.1.Settled session output ∧
      after.2 = if ∃ entry ∈ entries, entry.1 = .python then
        some ((output ⟨benchCase, concurrency, .python⟩).field "result_sha256") else state.2 := by
  induction entries generalizing state with
  | nil => exact ⟨state, rfl, settled, by simp⟩
  | cons entry rest ih =>
    obtain ⟨middle, first, kept, baseline⟩ := runVariant_ok steady settled entry
    obtain ⟨after, others, keptRest, baselineRest⟩ := ih kept
    refine ⟨after, by rw [List.foldlM_cons, first, bind_ok, others], keptRest, ?_⟩
    rw [baselineRest, baseline]
    -- the baseline of a later run of Python replaces that of an earlier one
    by_cases late : ∃ entry ∈ rest, entry.1 = Variant.python
    · rw [if_pos late, if_pos]
      obtain ⟨entry, member, python⟩ := late
      exact ⟨entry, List.mem_cons_of_mem _ member, python⟩
    · rw [if_neg late]
      simp only [List.exists_mem_cons_iff, late, or_false]

omit steady in
private theorem python_runs (trial : Nat) :
    ∃ entry ∈ (trialOrder trial).zipIdx, entry.1 = Variant.python := by
  have listed : Variant.python ∈ trialOrder trial := by
    have member : Variant.python ∈ variants.take (trial % 3) ++ variants.drop (trial % 3) := by
      rw [List.take_append_drop]
      decide
    exact List.mem_append.mpr (List.mem_append.mp member).symm
  obtain ⟨i, bound, found⟩ := List.mem_iff_getElem.mp listed
  exact ⟨(Variant.python, i), by simp [List.mem_zipIdx_iff_getElem?, bound, found], rfl⟩

omit steady in
private theorem length_trialSlots (benchCase : BenchCase) (concurrency trial : Nat) :
    (trialSlots benchCase concurrency trial).length = variants.length := by
  have split : (trialOrder trial).length = variants.length := by
    rw [trialOrder, List.length_append, List.length_drop, List.length_take]
    omega
  simp [trialSlots, variantSlots, split]

private theorem runTrial_ok {benchCase : BenchCase} (concurrency trial : Nat)
    {state : Progress × Option Json} (onCourse : OnCourse session fixture output benchCase state) :
    ∃ after, runTrial session fixture adapters attestations minimumElapsedMs benchCase concurrency
      state trial = .ok after ∧ OnCourse session fixture output benchCase after := by
  obtain ⟨settled, stored⟩ := onCourse
  obtain ⟨⟨progress, baseline⟩, variantsRan, kept, found⟩ :=
    runVariants_ok steady benchCase concurrency trial (trialOrder trial).zipIdx
      (show Progress.Settled session output (state.1, (none : Option Json)).1 from settled)
  rw [if_pos (python_runs trial)] at found
  obtain rfl : baseline = _ := found
  obtain ⟨new, added, slots, checked⟩ :=
    runVariants_adds session fixture adapters attestations minimumElapsedMs variantsRan
  have golden := golden_of_passed (steady.passes ⟨benchCase, concurrency, .python⟩)
  -- the last three records are those of this trial
  have last : progress.records.drop (progress.records.length - variants.length) = new := by
    have size : new.length = variants.length := by
      rw [← length_trialSlots benchCase concurrency trial, ← slots, List.length_map]
    rw [show progress.records = state.1.records ++ new from added, List.length_append, size,
      Nat.add_sub_cancel, List.drop_left]
  -- both checksums are the golden one of the case
  have parity : (new.any fun r => !(r.adapter.field "result_sha256").eq
      ((output ⟨benchCase, concurrency, .python⟩).field "result_sha256")) = false := by
    rw [List.any_eq_false]
    intro r member
    have own : r.cell.benchCase = benchCase := by
      have listed : r.slot ∈ trialSlots benchCase concurrency trial :=
        slots ▸ List.mem_map_of_mem member
      simp only [trialSlots, variantSlots, List.mem_flatMap, List.mem_singleton] at listed
      obtain ⟨_, _, slot⟩ := listed
      exact congrArg (fun slot => slot.cell.benchCase) slot
    have goldenRecord := golden_of_passed (checked r member).passed
    rw [own] at goldenRecord
    simp [eq_trans goldenRecord (eq_symm golden)]
  simp only [runTrial, variantsRan, bind_ok, last, parity, raiseIf_false]
  -- the first trial of a case stores its checksum and the later ones compare theirs
  cases earlier : state.2 with
  | none =>
    refine ⟨_, rfl, kept, fun hash same => ?_⟩
    obtain rfl := Option.some.inj same
    exact golden
  | some hash =>
    have goldenStored := stored hash earlier
    refine ⟨(progress, some hash), ?_, kept, fun hash' same => ?_⟩
    · simp [eq_trans golden (eq_symm goldenStored)]
    · obtain rfl := Option.some.inj same
      exact goldenStored

private theorem runCase_ok (trials : Nat) {progress : Progress} (benchCase : BenchCase)
    (settled : progress.Settled session output) :
    ∃ after, runCase session fixture adapters attestations minimumElapsedMs trials progress
      benchCase = .ok after ∧ after.Settled session output := by
  have start : OnCourse session fixture output benchCase (progress, none) :=
    ⟨settled, fun _ same => by cases same⟩
  obtain ⟨state, ran, kept⟩ := foldlM_total (OnCourse session fixture output benchCase)
    (fun s concurrency _ holds => foldlM_total (OnCourse session fixture output benchCase)
      (fun s trial _ holds => runTrial_ok steady concurrency trial holds) holds) start
  exact ⟨state.1, by rw [runCase]; exact bind_eq_ok.mpr ⟨state, ran, rfl⟩, kept.1⟩

/-- `execute` refuses no steady adapters, and records their outputs. -/
theorem execute_ok {sources : List (String × String)} {trials minimumTrials : Nat}
    (enough : minimumTrials ≤ trials) (named : adapters.map Prod.fst = variants.map Variant.name)
    (sourced : sources.map Prod.fst = variants.map Variant.name)
    (clean : ∀ source ∈ sources, isClean source.2 = true)
    (service : Json.eq (.str (session.sha256 (session.canonical fixture.contract.serviceConfig)))
      fixture.contract.serviceConfigSha256 = true)
    (schema : Json.eq (.str session.schemaLockSha) fixture.contract.schemaSha256 = true) :
    ∃ records, execute session fixture adapters sources trials attestations minimumTrials
        minimumElapsedMs = .ok records ∧ ∀ r ∈ records, r.adapter = output r.cell := by
  have supplied : attestations ≠ [] := by
    rintro rfl
    obtain ⟨_, found⟩ := steady.attested .python
    cases found
  have start : Progress.Settled session output ⟨[], []⟩ := fun _ _ found => by cases found
  obtain ⟨progress, ran, _⟩ := foldlM_total (Progress.Settled session output)
    (fun _ benchCase _ => runCase_ok steady trials benchCase) start
  have executed : execute session fixture adapters sources trials attestations minimumTrials
      minimumElapsedMs = .ok progress.records := by
    have cleanAll : (sources.any fun source => !isClean source.2) = false := by
      simpa using clean
    simp only [execute, bind_eq_ok, raiseIf_eq_ok]
    refine ⟨(), by simpa using enough, (), by simp [named], (), ?_, (), by simp [service], (),
      by simp [schema], progress, ?_, rfl⟩
    · rw [sourced, cleanAll]
      decide
    · rw [if_neg (by simpa using supplied)]
      exact ran
  refine ⟨_, executed, fun r recorded => ?_⟩
  have run := execute_completed session fixture adapters attestations minimumElapsedMs supplied
    executed
  obtain ⟨command, trialNamespace, known, printed⟩ := (run.checked r recorded).ran
  rw [steady.printed r.cell command r.trial trialNamespace known] at printed
  exact (Except.ok.inj printed).symm

end Steady

theorem exactValue_refl (value : Json) : exactValue value value = true := by
  rw [exactValue, eq_refl, Bool.and_true]
  cases value <;> rfl

/-! ## A small run -/

/-- A hex digest, of a file or a command. -/
def someDigest : String := String.ofList (List.replicate 64 '0')

/-- The decimals of a fraction below one, up to `count` of them. -/
def decimals : Nat → Nat → Nat → List Char
  | 0, _, _ => []
  | count + 1, numerator, denominator =>
    if numerator = 0 then []
    else Nat.digitChar (10 * numerator / denominator) ::
      decimals count (10 * numerator % denominator) denominator

/-- `repr` of a float that is written out in at most 17 decimals. -/
def reprDecimals (x : ℚ) : String :=
  let fraction := decimals 17 (x.num.natAbs % x.den) x.den
  (if x < 0 then "-" else "") ++ toString (x.num.natAbs / x.den) ++ "." ++
    String.ofList (if fraction = [] then ['0'] else fraction)

example : reprDecimals (-5 / 4) = "-1.25" := by decide +kernel

/-- A machine with Python's SHA-256 and no adapters yet. Runs on it have equal samples, which do
not deviate. -/
def smallHost : Session where
  reprFloat := reprDecimals
  sha256 text := String.ofList (SchemaLock.hexdigest (SchemaLock.encode text.toList))
  sha256_length text := by rw [String.length_ofList, SchemaLock.length_hexdigest]
  display
    | .str text => text
    | value => value.dumps reprDecimals
  stdev _ := 0
  fixturePath := "fixture.json"
  fixtureSha := someDigest
  schemaLockSha := someDigest
  host := ⟨"host", "Linux", "6.1", "1", "x86_64", "", some 8, some 4096, "3.12", "local", "Linux",
    "x86_64", "unreported"⟩
  process _ := .exited 127 ""

/-- An adapter's command is its event loop. -/
def smallAdapters : List (String × List String) :=
  variants.map fun variant => (variant.name, [variant.eventLoop])

def smallSources : List (String × String) :=
  [("python", "a1:clean"), ("c", "b2:clean"), ("rust", "b2:clean")]

def smallAttestation : Json :=
  .obj [("artifact", .str "adapter"), ("artifact_sha256", .str someDigest),
    ("command_sha256", .str someDigest)]

def smallAttestations : List (String × Json) :=
  variants.map fun variant => (variant.name, smallAttestation)

/-- The first dependency each adapter reports: for Python and Rust that of the case it ran. -/
def caseDependency : Variant → BenchCase → String
  | .python, .redisHotPath => "redis"
  | .python, .dbReadWrite => "asyncpg"
  | .c, _ => "hiredis"
  | .rust, .redisHotPath => "fred"
  | .rust, .dbReadWrite => "sqlx"

section SmallRun

variable (machine : Session)

def smallTerminal : BenchCase → Json
  | .redisHotPath => .arr [.obj [("id", .str "r001"), ("ttl_positive", .bool true)]]
  | .dbReadWrite => .arr [.obj [("id", .str "d001"), ("quantity", .int 10)]]

/-- The machine's checksum of a value. -/
def checksum (value : Json) : Json := .str (machine.sha256 (machine.canonical value))

/-- One operation in each case, with the checksums of the machine. -/
def smallFixture : Fixture where
  contract :=
    { pipelineDepth := .int 1
      queueDepth := .int 1
      retryPolicy := .str "none"
      saturationPolicy := .str "bounded_wait"
      serviceConfig := .obj []
      serviceConfigSha256 := checksum machine (.obj [])
      schemaSha256 := .str machine.schemaLockSha }
  redisHotPath :=
    { operations := ["r001"]
      repeats := 1
      connectionCount := .int 1
      timeoutMs := .int 5000
      terminal := smallTerminal .redisHotPath
      terminalSha256 := checksum machine (smallTerminal .redisHotPath) }
  dbReadWrite :=
    { operations := ["d001"]
      repeats := 1
      connectionCount := .int 1
      timeoutMs := .int 5000
      terminal := smallTerminal .dbReadWrite
      terminalSha256 := checksum machine (smallTerminal .dbReadWrite) }

/-- The output of an adapter that completes its operation. -/
def smallOutput (dependencies : Variant → BenchCase → String) (cell : Cell) : Json :=
  let config := (smallFixture machine).config cell.benchCase
  .obj [
    ("build", .obj [("compiler", .str "pinned"),
      ("dependencies", .obj [(dependencies cell.variant cell.benchCase, .str "pinned")]),
      ("flags", .str "release"), ("runtime", .str "pinned")]),
    ("completed_tokens", .arr ((expectedTokens config).map .str)),
    ("configuration", .obj [("concurrency", .int cell.concurrency), ("connection_count", .int 1),
      ("event_loop_mode", .str cell.variant.eventLoop), ("operation_count", .int 1),
      ("pipeline_depth", .int 1), ("queue_depth", .int 1), ("retry_policy", .str "none"),
      ("saturation_policy", .str "bounded_wait"), ("schema_sha256", .str machine.schemaLockSha),
      ("service_config_sha256", checksum machine (.obj [])), ("timeout_ms", .int 5000),
      ("worker_count", .int 1)]),
    ("dropped", .int 0),
    ("elapsed_ms", .float (3 / 2)),
    ("errors", .int 0),
    ("fixture_sha256", .str machine.fixtureSha),
    ("operation_latency_ns", .arr [.int 1500000]),
    ("resources", .obj [("cpu_time_ms", .float (5 / 4)), ("peak_rss_bytes", .int 4096)]),
    ("result_sha256", checksum machine config.terminal),
    ("terminal", config.terminal)]

/-- The machine with the three adapters. -/
def smallSession (dependencies : Variant → BenchCase → String) : Session :=
  { machine with
    process := fun call =>
      let variant := (variants.find? fun variant => call.command = [variant.eventLoop]).getD .python
      .printed (smallOutput machine dependencies ⟨call.benchCase, call.concurrency, variant⟩) }

/-- The configuration that is printed is the expected one. -/
private theorem smallOutput_configured (dependencies : Variant → BenchCase → String)
    {benchCase : BenchCase} {concurrency : Nat} {variant : Variant} {f : String × Json}
    (listed : f ∈ expectedConfig (smallFixture machine).contract
      ((smallFixture machine).config benchCase) concurrency) :
    ((smallOutput machine dependencies ⟨benchCase, concurrency, variant⟩).field
      "configuration").field f.1 = f.2 := by
  revert f
  cases benchCase <;>
    simp only [expectedConfig, List.forall_mem_cons, List.not_mem_nil, false_implies,
      implies_true, and_true] <;>
    exact ⟨rfl, rfl, rfl, rfl, rfl, rfl, rfl, rfl, rfl, rfl, rfl⟩

theorem smallSession_steady (dependencies : Variant → BenchCase → String) :
    Steady (smallSession machine dependencies) (smallFixture machine) smallAdapters
      smallAttestations 0 (smallOutput machine dependencies) where
  printed := by
    rintro ⟨benchCase, concurrency, variant⟩ command trial trialNamespace known
    obtain rfl : command = [variant.eventLoop] := by
      cases variant <;> exact (Except.ok.inj known).symm
    have process : (smallSession machine dependencies).process
        ⟨[variant.eventLoop], benchCase, concurrency, trial, trialNamespace⟩ =
        .printed (smallOutput machine dependencies ⟨benchCase, concurrency, variant⟩) := by
      cases variant <;> rfl
    have elapsed : positiveNumber (.float (3 / 2)) = true := by norm_num [positiveNumber]
    have cpuTime : positiveNumber (.float (5 / 4)) = true := by norm_num [positiveNumber]
    simp only [runAdapter, process, bind_eq_ok, raiseIf_eq_ok]
    refine ⟨(), rfl, (), ?_, (), ?_, trivial⟩
    · exact congrArg not elapsed
    · exact congrArg not cpuTime
  passes := by
    rintro ⟨benchCase, concurrency, variant⟩
    have elapsed : decide ((3 / 2 : ℚ) < 0) = false := by norm_num
    simp only [checkOutput, bind_eq_ok, raiseIf_eq_ok]
    have configured : ((expectedConfig (smallFixture machine).contract
        ((smallFixture machine).config benchCase) concurrency).any fun f => !exactValue
          (((smallOutput machine dependencies ⟨benchCase, concurrency, variant⟩).field
            "configuration").field f.1) f.2) = false := by
      rw [List.any_eq_false]
      intro f listed
      rw [smallOutput_configured machine dependencies listed, exactValue_refl]
      decide
    -- the checks in their order; a checksum is compared with itself
    refine ⟨3 / 2, rfl, (), elapsed, (), ?_, (), ?_, (), ?_, (), ?_, (), ?_, (), ?_, (), rfl, (),
      rfl, (), ?_, (), ?_, ?_⟩
    · exact congrArg not (eq_refl _)
    · exact congrArg not (eq_refl _)
    · cases benchCase <;> rfl
    · exact congrArg not (eq_refl _)
    · cases benchCase <;> exact congrArg not (eq_refl _)
    · exact congrArg not (eq_refl _)
    · exact configured
    · exact congrArg not (eq_refl _)
    · rfl
  commands := by
    intro variant
    cases variant <;> exact ⟨_, rfl⟩
  attested := by
    intro variant
    cases variant <;> exact ⟨_, rfl⟩

/-- The driver accepts the small run, whatever the machine's checksums and whatever dependencies
the adapters report. -/
theorem smallRun_ok (dependencies : Variant → BenchCase → String) :
    ∃ records, execute (smallSession machine dependencies) (smallFixture machine) smallAdapters
        smallSources 30 smallAttestations 30 0 = .ok records ∧
      ∀ r ∈ records, r.adapter = smallOutput machine dependencies r.cell :=
  execute_ok (smallSession_steady machine dependencies) le_rfl (by decide) (by decide) (by decide)
    (eq_refl _) (eq_refl _)

end SmallRun

end AlphaPipeline.Bench

import AlphaPipeline.Bench.Documents

/-!
# The gate on single documents

Of the checks the gate makes on one document of a completed run, two can fail: the source may
have no commit before its `:clean`, and the case may have no operations.
-/
namespace AlphaPipeline.Bench

open PyJson PyJson.Json Fallible

/-- An attestation with an artifact and two digests. -/
structure RealAttestation (attestation : Json) : Prop where
  dict : attestation.isDict = true
  artifact : (attestation.field "artifact").isText = true
  commandSha : isDigest (attestation.field "command_sha256") = true
  artifactSha : isDigest (attestation.field "artifact_sha256") = true

section Fields

variable (session : Session) (cell : Cell) (first : Record) (group : List Record)
  (measured : Measured)

@[simp] theorem document_build :
    (resultDocument session cell first group measured).field "build" =
      first.adapter.field "build" := rfl

@[simp] theorem document_case :
    (resultDocument session cell first group measured).field "case" =
      .str cell.benchCase.name := rfl

@[simp] theorem document_eligible :
    (resultDocument session cell first group measured).field "eligible" = .bool true := rfl

@[simp] theorem document_environment :
    (resultDocument session cell first group measured).field "environment" =
      first.environment := rfl

@[simp] theorem document_errors :
    (resultDocument session cell first group measured).field "errors" =
      .obj [("count", .int 0), ("dropped", .int 0)] := rfl

@[simp] theorem document_latencies :
    (resultDocument session cell first group measured).field "operation_latency_ns_samples" =
      .arr (group.map fun r => r.adapter.field "operation_latency_ns") := rfl

/-- The parity section of a document. -/
def paritySection : Json :=
  .obj [("golden_sha256", .str session.fixtureSha), ("passed", .bool true),
    ("result_sha256", first.adapter.field "result_sha256")]

@[simp] theorem document_parityOr (default : Json) :
    (resultDocument session cell first group measured).fieldOr "parity" default =
      paritySection session first := rfl

@[simp] theorem document_resourceSamples :
    (resultDocument session cell first group measured).field "resource_samples" =
      .arr (group.map Record.resources) := rfl

@[simp] theorem document_resources :
    (resultDocument session cell first group measured).field "resources" =
      .obj [("cpu_time_ms", measured.cpuTime), ("peak_rss_bytes", measured.peakRss)] := rfl

@[simp] theorem document_samples :
    (resultDocument session cell first group measured).field "samples_ms" =
      .arr (measured.samples.map .float) := rfl

@[simp] theorem document_source :
    (resultDocument session cell first group measured).field "source" =
      .obj [("adapter", first.attestation), ("commit", .str measured.commit),
        ("dirty", .bool false)] := rfl

@[simp] theorem document_order :
    (resultDocument session cell first group measured).field "trial_order_index" =
      .arr (group.map fun r => .int r.orderIndex) := rfl

@[simp] theorem document_variant :
    (resultDocument session cell first group measured).field "variant" =
      .str cell.variant.name := rfl

/-- The workload section of a document. -/
def workloadSection : Json :=
  .obj [("concurrency", .int cell.concurrency),
    ("configuration", first.adapter.field "configuration"),
    ("fixture_sha256", .str session.fixtureSha), ("rotation", .str "latin-3"),
    ("trials", .int group.length)]

@[simp] theorem document_workload :
    (resultDocument session cell first group measured).field "workload" =
      workloadSection session cell first group := rfl

@[simp] theorem document_workloadOr (default : Json) :
    (resultDocument session cell first group measured).fieldOr "workload" default =
      workloadSection session cell first group := rfl

end Fields

private theorem validateAttestation_iff {attestation : Json} (real : RealAttestation attestation)
    (commit : String) :
    validateAttestation (.obj [("adapter", attestation), ("commit", .str commit),
      ("dirty", .bool false)]) = .ok () ↔ commit ≠ "" := by
  simp [validateAttestation, List.lookup_cons, isBool, real.dict, real.artifact, real.commandSha,
    real.artifactSha]

private theorem thirty_ok {items : List Json} (size : items.length = 30) (message : String) :
    thirty (.arr items) message = .ok items := by
  simp [thirty, size, requiredTrials, raiseIf]

private theorem positions_variant (variant : Variant) :
    positions (.str variant.name) = .arr ((rotation variant).map fun n : Nat => .int n) := by
  cases variant <;> rfl

/-- The gate asks less of a build than the driver. -/
private theorem build_ok {build : Json} (complete : completeBuild build = true) :
    (!build.isDict || ["runtime", "compiler", "flags"].any (fun key => !(build.field key).isText) ||
      !(build.field "dependencies").isDict || !(build.field "dependencies").truthy) = false := by
  simp only [completeBuild, Bool.and_eq_true] at complete
  obtain ⟨⟨dict, texts⟩, dependencies⟩ := complete
  split at dependencies
  next fields found =>
    simp only [Bool.and_eq_true, Bool.not_eq_true'] at dependencies
    simp_all [truthy]
  · cases dependencies

section Validation

variable (session : Session) {cell : Cell} {first : Record} {group : List Record}
  {measured : Measured}

private theorem validateHeader_iff (size : group.length = 30)
    (order : group.map Record.orderIndex = rotation cell.variant)
    (samples : measured.samples.length = 30 ∧ ∀ x ∈ measured.samples, 0 < x)
    (real : RealAttestation first.attestation)
    (build : completeBuild (first.adapter.field "build") = true) :
    validateHeader (resultDocument session cell first group measured) = .ok () ↔
      measured.commit ≠ "" := by
  have rotated : group.map (fun r => Json.int r.orderIndex) =
      (rotation cell.variant).map fun n : Nat => .int n := by
    rw [← order, List.map_map]
    rfl
  have positive : (measured.samples.map Json.float).any (fun value => !positiveNumber value) =
      false := by
    simpa [positiveNumber] using samples.2
  have workload : (!(workloadSection session cell first group).isDict ||
      !((workloadSection session cell first group).field "trials").eq (.int requiredTrials) ||
      !((workloadSection session cell first group).field "rotation").eq (.str "latin-3")) =
      false := by
    simp [workloadSection, List.lookup_cons, size, requiredTrials, eq_refl]
  have passed : (paritySection session first).get "passed" = .ok (.bool true) := rfl
  have thirtySamples : (measured.samples.map Json.float).length = 30 := by
    rw [List.length_map, samples.1]
  simp only [validateHeader, document_workload, workload, document_samples, document_order,
    document_variant, document_eligible, document_parityOr, passed, document_errors,
    document_source, document_build, build_ok build, positions_variant, rotated, positive,
    thirty_ok thirtySamples, eq_refl, bind_eq_ok, raiseIf_eq_ok, bind_ok, isBool, Bool.not_true,
    beq_self_eq_true, exists_const, true_and, and_true, validateAttestation_iff real]

/-- All tokens of a case are expected when it has operations at all. -/
private theorem length_expectedTokens {config : CaseConfig} (some_ : 0 < operationCount config) :
    ((expectedTokens config).length : Int) = operationCount config := by
  have length : (expectedTokens config).length =
      config.repeats.toNat * config.operations.length := by
    simp [expectedTokens, List.length_flatMap]
  have repeated : 0 ≤ config.repeats := by
    by_contra negative
    have := Int.mul_nonpos_of_nonneg_of_nonpos (Int.natCast_nonneg config.operations.length)
      (by omega : config.repeats ≤ 0)
    rw [operationCount] at some_
    omega
  rw [length, operationCount]
  push_cast
  rw [Int.toNat_of_nonneg repeated, mul_comm]

/-- The latencies of an accepted output have percentiles. -/
private theorem trialPercentiles_ok {fixture : Fixture} {out : Json}
    (accepted : Accepted session fixture cell out)
    (some_ : 0 < operationCount (fixture.config cell.benchCase)) :
    ∃ p, trialPercentiles (operationCount (fixture.config cell.benchCase))
      (out.field "operation_latency_ns") = .ok p := by
  have valid := accepted.latencies
  unfold validLatencies at valid
  split at valid
  next items found =>
    simp only [Bool.and_eq_true, beq_iff_eq, List.all_eq_true] at valid
    have size : (items.length : Int) = operationCount (fixture.config cell.benchCase) := by
      rw [valid.1, length_expectedTokens some_]
    obtain ⟨values, foundValues, length, _⟩ : ∃ values, items.mapM number = .ok values ∧
        values.length = items.length ∧ ∀ x ∈ values, 0 < x :=
      mapM_ok_all fun v member =>
        positiveNumber_iff (positiveNumber_of_positiveInt (valid.2 v member))
    have nonempty : values ≠ [] := by
      rintro rfl
      rw [List.length_nil] at length
      omega
    obtain ⟨p95, found95⟩ := percentile_ok (q := 95 / 100) nonempty (by norm_num) (by norm_num)
    obtain ⟨p99, found99⟩ := percentile_ok (q := 99 / 100) nonempty (by norm_num) (by norm_num)
    have passes : raiseIf ((items.length : Int) != operationCount (fixture.config cell.benchCase) ||
        items.any fun value => !positiveInt value)
        (PyError.valueError "operation latency trial is invalid") = .ok () := by
      simpa [size] using valid.2
    rw [found]
    exact ⟨(p95, p99),
      by simp only [trialPercentiles, passes, bind_ok, foundValues, found95, found99]⟩
  · cases valid

private theorem positiveCount_iff {config : Json} {n count : Int}
    (counted : config.field "operation_count" = .int n) :
    positiveCount config = .ok count ↔ 0 < n ∧ n = count := by
  simp [positiveCount, counted]

end Validation

/-- The source of a variant names a commit. -/
def HasCommit (sources : List (String × String)) (variant : Variant) : Prop :=
  ∀ source, valueOf sources variant.name = .ok source → commitOf source ≠ ""

section Documents

variable {session : Session} {fixture : Fixture} {adapters : List (String × List String)}
  {attestations : List (String × Json)} {minimumElapsedMs : ℚ} {sources : List (String × String)}
  {records : List Record}
  (run : Completed session fixture adapters attestations minimumElapsedMs sources 30 records)
include run

/-- The resource samples of a group are what the gate takes the aggregates of. -/
private theorem resourceSamples_ok {cell : Cell} :
    ((groupOf records cell).map Record.resources).mapM trialResources =
      .ok ((groupOf records cell).map fun r =>
        ((r.adapter.field "resources").field "peak_rss_bytes",
          (r.adapter.field "resources").field "cpu_time_ms")) := by
  have samples : (groupOf records cell).map Record.resources =
      (groupOf records cell).map fun r => r.adapter.field "resources" :=
    List.map_congr_left fun r member => resources_of_group run member
  have pairs : ((groupOf records cell).map fun r => r.adapter.field "resources").mapM
      trialResources = .ok (((groupOf records cell).map fun r => r.adapter.field "resources").map
        fun s => (s.field "peak_rss_bytes", s.field "cpu_time_ms")) := by
    apply mapM_eq_map
    intro sample member
    obtain ⟨r, inGroup, rfl⟩ := List.mem_map.mp member
    obtain ⟨dict, rss, cpu⟩ := (accepted_of_group run inGroup).resources
    simp [trialResources, raiseIf, dict, positiveNumber_of_positiveInt rss, cpu]
  rw [samples, pairs, List.map_map]
  rfl

/-- Every trial of a cell has its percentiles, and there are trials. -/
private theorem percentiles_ok {cell : Cell} (known : cell ∈ allCells)
    (operations : 0 < operationCount (fixture.config cell.benchCase)) :
    ∃ percentiles, ((groupOf records cell).map fun r =>
        r.adapter.field "operation_latency_ns").mapM
        (trialPercentiles (operationCount (fixture.config cell.benchCase))) = .ok percentiles ∧
      percentiles ≠ [] := by
  obtain ⟨percentiles, found, length, _⟩ : ∃ percentiles,
      ((groupOf records cell).map fun r => r.adapter.field "operation_latency_ns").mapM
        (trialPercentiles (operationCount (fixture.config cell.benchCase))) = .ok percentiles ∧
      percentiles.length =
        ((groupOf records cell).map fun r => r.adapter.field "operation_latency_ns").length ∧
      ∀ p ∈ percentiles, True := by
    apply mapM_ok_all
    intro trial member
    obtain ⟨r, inGroup, rfl⟩ := List.mem_map.mp member
    obtain ⟨p, ok⟩ := trialPercentiles_ok session (accepted_of_group run inGroup) operations
    exact ⟨p, ok, trivial⟩
  refine ⟨percentiles, found, ?_⟩
  rintro rfl
  rw [List.length_nil, List.length_map, length_groupOf run.slots known] at length
  cases length

/-- The gate accepts the document of a cell exactly when its source names a commit and its case
has operations. -/
theorem validateDoc_iff
    (real : ∀ variant : Variant, ∀ attestation,
      valueOf attestations variant.name = .ok attestation → RealAttestation attestation)
    {cell : Cell} (known : cell ∈ allCells) :
    (∃ latency, validateDoc (docOf session sources records cell) = .ok latency) ↔
      HasCommit sources cell.variant ∧ 0 < operationCount (fixture.config cell.benchCase) := by
  obtain ⟨first, rest, measured, group, recorded, inCell, _, _, doc, figures⟩ := docOf_eq run known
  have member : first ∈ groupOf records cell := group ▸ List.mem_cons_self
  have size := length_groupOf run.slots known
  have accepted := accepted_of_group run member
  have attested : RealAttestation first.attestation :=
    real cell.variant _ (inCell ▸ (run.checked first recorded).attested)
  have counted : ((workloadSection session cell first (groupOf records cell)).field
      "configuration").field "operation_count" =
      .int (operationCount (fixture.config cell.benchCase)) :=
    exactValue_int (accepted.configured _ (List.mem_cons_of_mem _ List.mem_cons_self))
  have header := validateHeader_iff session size
    (orderIndex_groupOf run.slots known) figures.samples attested accepted.build
  obtain ⟨source, foundSource, commit⟩ := figures.commit
  have commits : measured.commit ≠ "" ↔ HasCommit sources cell.variant := by
    constructor
    · intro named other found
      rw [foundSource] at found
      cases found
      exact commit ▸ named
    · intro named
      rw [commit]
      exact named source foundSource
  rw [doc, ← commits, ← header]
  constructor
  · rintro ⟨latency, valid⟩
    simp only [validateDoc, document_workload, bind_eq_ok] at valid
    obtain ⟨_, headed, count, found, _⟩ := valid
    exact ⟨headed, ((positiveCount_iff counted).mp found).1⟩
  · rintro ⟨headed, operations⟩
    have found := (positiveCount_iff counted).mpr ⟨operations, rfl⟩
    obtain ⟨percentiles, foundPercentiles, nonempty⟩ := percentiles_ok run known operations
    have column (f : ℚ × ℚ → ℚ) : percentiles.map f ≠ [] := mt List.map_eq_nil_iff.mp nonempty
    obtain ⟨median95, foundMedian95, _⟩ := median_ok (column Prod.fst)
    obtain ⟨max95, foundMax95⟩ := maximum_ok (column Prod.fst)
    obtain ⟨median99, foundMedian99, _⟩ := median_ok (column Prod.snd)
    obtain ⟨max99, foundMax99⟩ := maximum_ok (column Prod.snd)
    refine ⟨⟨percentiles.map Prod.fst, percentiles.map Prod.snd, ⟨median95, max95⟩,
      ⟨median99, max99⟩⟩, ?_⟩
    have thirtyOf (f : Record → Json) (message : String) :
        thirty (.arr ((groupOf records cell).map f)) message =
          .ok ((groupOf records cell).map f) :=
      thirty_ok (by rw [List.length_map, size]) message
    have fits : raiseIf (!(Json.obj [("cpu_time_ms", measured.cpuTime),
        ("peak_rss_bytes", measured.peakRss)]).eq (.obj [("cpu_time_ms", measured.cpuTime),
        ("peak_rss_bytes", measured.peakRss)]))
        (PyError.valueError "resource aggregate does not match trial samples") = .ok () := by
      simp [eq_refl]
    simp only [validateDoc, headed, document_workload, found, document_latencies, thirtyOf,
      document_resourceSamples, foundPercentiles, bind_ok, resourceSamples_ok run, List.map_map,
      Function.comp_def, figures.peakRss, figures.cpuTime, document_resources, fits]
    simp only [foundMedian95, foundMax95, foundMedian99, foundMax99, bind_ok]

end Documents

end AlphaPipeline.Bench

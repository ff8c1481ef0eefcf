import AlphaPipeline.Bench.Gate
import AlphaPipeline.Bench.Schedule

/-!
# The documents of a run

What the checks of the driver leave known about an adapter output, and what follows for the
document that is made of the outputs of a cell: it is made without an exception, and the
gate accepts it by itself when the source has a commit and the case has operations.
-/
namespace AlphaPipeline.Bench

open PyJson PyJson.Json Fallible

/-! ## Accepted outputs -/

theorem positiveNumber_iff {value : Json} :
    positiveNumber value = true → ∃ x, number value = .ok x ∧ 0 < x := by
  intro positive
  cases value <;> simp only [positiveNumber, Bool.false_eq_true, decide_eq_true_eq] at positive
  next n => exact ⟨n, rfl, by exact_mod_cast positive⟩
  next x => exact ⟨x, rfl, positive⟩

theorem positiveNumber_of_positiveInt {value : Json} (positive : positiveInt value = true) :
    positiveNumber value = true := by
  cases value <;> simp_all [positiveInt, positiveNumber]

theorem exactValue_int {value : Json} {n : Int} (exact_ : exactValue value (.int n) = true) :
    value = .int n := by
  cases value <;> simp_all [exactValue, sameType, Json.eq, number?]

theorem ne_null_of_isDict {value : Json} (dict : value.isDict = true) : value ≠ .null := by
  rintro rfl
  cases dict

theorem ne_null_of_positiveNumber {value : Json} (positive : positiveNumber value = true) :
    value ≠ .null := by
  rintro rfl
  cases positive

/-- What the driver's checks say about an output of a cell. -/
structure Accepted (session : Session) (fixture : Fixture) (cell : Cell) (out : Json) : Prop where
  elapsed : ∃ x, number (out.field "elapsed_ms") = .ok x ∧ 0 < x
  latencies : validLatencies (out.field "operation_latency_ns")
    (expectedTokens (fixture.config cell.benchCase)).length = true
  golden : (out.field "result_sha256").eq (fixture.config cell.benchCase).terminalSha256 = true
  hashed : ∃ text, text ≠ "" ∧ out.field "result_sha256" = .str text
  configured : ∀ f ∈ expectedConfig fixture.contract (fixture.config cell.benchCase)
    cell.concurrency, exactValue ((out.field "configuration").field f.1) f.2 = true
  build : completeBuild (out.field "build") = true
  resources : (out.field "resources").isDict = true ∧
    positiveInt ((out.field "resources").field "peak_rss_bytes") = true ∧
    positiveNumber ((out.field "resources").field "cpu_time_ms") = true

theorem runAdapter_printed {session : Session} {call : Call} {out : Json}
    (ran : runAdapter session call = .ok out) :
    positiveNumber (out.field "elapsed_ms") = true ∧ (out.field "resources").isDict = true ∧
      positiveInt ((out.field "resources").field "peak_rss_bytes") = true ∧
      positiveNumber ((out.field "resources").field "cpu_time_ms") = true := by
  unfold runAdapter at ran
  split at ran
  · cases ran
  · cases ran
  · simp only [bind_eq_ok, raiseIf_eq_ok, Except.ok.injEq, Bool.or_eq_false_iff,
      Bool.not_eq_false'] at ran
    obtain ⟨_, _, _, elapsed, _, resources, rfl⟩ := ran
    exact ⟨elapsed, resources.1.1, resources.1.2, resources.2⟩

/-- The result checksum of an output that passed is the golden one of its case. -/
theorem golden_of_passed {session : Session} {fixture : Fixture} {minimumElapsedMs : ℚ}
    {cell : Cell} {out : Json}
    (passed : checkOutput session fixture minimumElapsedMs cell out = .ok ()) :
    (out.field "result_sha256").eq (fixture.config cell.benchCase).terminalSha256 = true := by
  simp only [checkOutput, bind_eq_ok, raiseIf_eq_ok, Bool.not_eq_false'] at passed
  obtain ⟨_, _, _, _, _, _, _, _, _, _, _, _, _, golden, _⟩ := passed
  exact golden

theorem Checked.accepted {session : Session} {fixture : Fixture}
    {adapters : List (String × List String)} {attestations : List (String × Json)}
    {minimumElapsedMs : ℚ} {record : Record}
    (checked : Checked session fixture adapters attestations minimumElapsedMs record) :
    Accepted session fixture record.cell record.adapter := by
  obtain ⟨_, _, _, ran⟩ := checked.ran
  have printed := runAdapter_printed ran
  have passed := checked.passed
  simp only [checkOutput, bind_eq_ok, raiseIf_eq_ok, Bool.or_eq_false_iff,
    Bool.not_eq_false'] at passed
  -- the checks in the order in which the driver makes them
  obtain ⟨_, _, _, _, _, _, _, _, _, latencies, _, _, _, _, _, hash, _, _, _, _, _, configured,
    _, _, build⟩ := passed
  exact {
    elapsed := positiveNumber_iff printed.1
    latencies := latencies
    golden := golden_of_passed checked.passed
    hashed := by
      refine ⟨_, ?_, eq_str.mp hash⟩
      intro empty
      have length := session.sha256_length (session.canonical (record.adapter.field "terminal"))
      rw [empty] at length
      cases length
    configured := by simpa using configured.2
    build := build
    resources := printed.2 }

/-! ## The figures of a cell -/

private theorem largest_ok (values : List Json) (nonempty : values ≠ [])
    (positive : ∀ v ∈ values, positiveNumber v = true) :
    ∃ v, largest values = .ok v ∧ positiveNumber v = true := by
  cases values with
  | nil => exact absurd rfl nonempty
  | cons first rest =>
    apply foldlM_total (fun v => positiveNumber v = true)
    · intro s v member good
      have next := positive v (List.mem_cons_of_mem _ member)
      obtain ⟨x, foundX, _⟩ := positiveNumber_iff good
      obtain ⟨y, foundY, _⟩ := positiveNumber_iff next
      refine ⟨if y > x then v else s, by rw [maxNumbers, foundX, foundY]; rfl, ?_⟩
      split
      · exact next
      · exact good
    · exact positive first List.mem_cons_self

private theorem addNumbers_ok {a b : Json} {x y : ℚ} (left : number a = .ok x)
    (right : number b = .ok y) : ∃ v, addNumbers a b = .ok v ∧ number v = .ok (x + y) := by
  unfold addNumbers
  split
  next n m =>
    refine ⟨_, rfl, ?_⟩
    cases left
    cases right
    simp [number, number?]
  · exact ⟨_, by rw [left, right]; rfl, rfl⟩

/-- A sum of positive numbers is defined, and positive when there are any. -/
private theorem sumNumbers_ok (values : List Json) (nonempty : values ≠ [])
    (positive : ∀ v ∈ values, positiveNumber v = true) :
    ∃ v x, sumNumbers values = .ok v ∧ number v = .ok x ∧ 0 < x := by
  cases values with
  | nil => exact absurd rfl nonempty
  | cons first rest =>
    obtain ⟨x, foundX, positiveX⟩ := positiveNumber_iff (positive first List.mem_cons_self)
    -- the sum starts at the integer 0, which alone is not positive
    obtain ⟨start, added, startX⟩ := addNumbers_ok (a := .int 0) (x := 0) rfl foundX
    have run : ∃ v, rest.foldlM addNumbers start = .ok v ∧ ∃ x, number v = .ok x ∧ 0 < x := by
      apply foldlM_total (fun v => ∃ x, number v = .ok x ∧ 0 < x)
      · rintro s v member ⟨x, foundX, positiveX⟩
        obtain ⟨y, foundY, positiveY⟩ :=
          positiveNumber_iff (positive v (List.mem_cons_of_mem _ member))
        obtain ⟨next, added, value⟩ := addNumbers_ok foundX foundY
        exact ⟨next, added, x + y, value, by linarith⟩
      · exact ⟨0 + x, startX, by linarith⟩
    obtain ⟨v, ran, y, value, positiveY⟩ := run
    exact ⟨v, y, by rw [sumNumbers, List.foldlM_cons, added]; exact ran, value, positiveY⟩

private theorem summary_ok (session : Session) (values : List ℚ) (unit : String)
    (enough : 2 ≤ values.length) : ∃ doc, summary session values unit = .ok doc := by
  have nonempty : values ≠ [] := by
    rintro rfl
    simp at enough
  obtain ⟨top, foundTop⟩ := maximum_ok nonempty
  obtain ⟨middle, foundMiddle, _⟩ := median_ok nonempty
  obtain ⟨bottom, foundBottom⟩ := minimum_ok nonempty
  obtain ⟨p95, found95⟩ := percentile_ok (q := 95 / 100) nonempty (by norm_num) (by norm_num)
  obtain ⟨p99, found99⟩ := percentile_ok (q := 99 / 100) nonempty (by norm_num) (by norm_num)
  have many : raiseIf (ε := PyError) (decide (values.length < 2)) .statisticsError = .ok () := by
    rw [raiseIf_eq_ok, decide_eq_false_iff_not]
    omega
  exact ⟨_, by rw [summary, foundTop, foundMiddle, foundBottom, found95, found99, many]; rfl⟩

/-- The commit of a clean source. -/
def commitOf (source : String) : String := ((rsplitColon source).map Prod.fst).getD ""

private theorem rsplitColon_clean {source : String} (clean : isClean source = true) :
    ∃ rest, rsplitColon source = some (commitOf source, rest) := by
  rw [isClean, List.isSuffixOf_iff_suffix] at clean
  obtain ⟨before, text⟩ := clean
  -- the text ends in `:clean`, so its last colon is there
  have reversed : source.toList.reverse = "naelc:".toList ++ before.reverse := by
    rw [← text, List.reverse_append]
    rfl
  cases split : rsplitColon source with
  | none =>
    simp [rsplitColon, reversed] at split
  | some parts => exact ⟨parts.2, by simp [commitOf, split]⟩

/-- What is known of the figures of a cell. -/
structure Figures (sources : List (String × String)) (cell : Cell) (group : List Record)
    (measured : Measured) : Prop where
  samples : measured.samples.length = 30 ∧ ∀ x ∈ measured.samples, 0 < x
  commit : ∃ source, valueOf sources cell.variant.name = .ok source ∧
    measured.commit = commitOf source
  peakRss : largest (group.map fun r => (r.adapter.field "resources").field "peak_rss_bytes") =
    .ok measured.peakRss
  cpuTime : sumNumbers (group.map fun r => (r.adapter.field "resources").field "cpu_time_ms") =
    .ok measured.cpuTime
  peakRssPositive : ∃ x, number measured.peakRss = .ok x ∧ 0 < x
  cpuTimePositive : ∃ x, number measured.cpuTime = .ok x ∧ 0 < x

section Documents

variable {session : Session} {fixture : Fixture} {adapters : List (String × List String)}
  {attestations : List (String × Json)} {minimumElapsedMs : ℚ} {sources : List (String × String)}
  {records : List Record}
  (run : Completed session fixture adapters attestations minimumElapsedMs sources 30 records)
include run

theorem accepted_of_group {cell : Cell} {r : Record} (member : r ∈ groupOf records cell) :
    Accepted session fixture cell r.adapter := by
  obtain ⟨recorded, rfl⟩ := mem_groupOf.mp member
  exact (run.checked r recorded).accepted

theorem resources_of_group {cell : Cell} {r : Record}
    (member : r ∈ groupOf records cell) : r.resources = r.adapter.field "resources" :=
  fieldOr_eq_field (ne_null_of_isDict (accepted_of_group run member).resources.1)

/-- The resources are there, so that the defaults of the lookups play no part. -/
private theorem resourceSamples_eq {cell : Cell} {key : String}
    (there : ∀ r ∈ groupOf records cell,
      positiveNumber ((r.adapter.field "resources").field key) = true) :
    (groupOf records cell).map (fun r => r.resources.fieldOr key (.int 0)) =
      (groupOf records cell).map fun r => (r.adapter.field "resources").field key := by
  apply List.map_congr_left
  intro r member
  rw [resources_of_group run member]
  exact fieldOr_eq_field (ne_null_of_positiveNumber (there r member))

/-- The figures of every cell can be computed. -/
private theorem measure_ok {cell : Cell} (known : cell ∈ allCells) {first : Record}
    (member : first ∈ groupOf records cell) :
    ∃ measured, measure session sources cell first (groupOf records cell) = .ok measured ∧
      Figures sources cell (groupOf records cell) measured := by
  have size := length_groupOf run.slots known
  have nonempty : groupOf records cell ≠ [] := List.ne_nil_of_mem member
  have accepted (r) (member : r ∈ groupOf records cell) := accepted_of_group run member
  obtain ⟨samples, foundSamples, lengthSamples, positive⟩ : ∃ samples, (groupOf records cell).mapM
      (fun r => number (r.adapter.field "elapsed_ms")) = .ok samples ∧
      samples.length = (groupOf records cell).length ∧ ∀ x ∈ samples, 0 < x :=
    mapM_ok_all fun r member => (accepted r member).elapsed
  -- the operation count of the output was checked against the fixture
  have counted : (first.adapter.field "configuration").field "operation_count" =
      .int (operationCount (fixture.config cell.benchCase)) :=
    exactValue_int ((accepted first member).configured _
      (List.mem_cons_of_mem _ List.mem_cons_self))
  have countValue : number (.int (operationCount (fixture.config cell.benchCase))) =
      .ok (operationCount (fixture.config cell.benchCase)) := rfl
  let throughput := samples.map fun sample =>
    (operationCount (fixture.config cell.benchCase) : ℚ) * 1000 / sample
  have foundThroughput : samples.mapM (fun sample =>
      divide ((operationCount (fixture.config cell.benchCase) : ℚ) * 1000) sample) =
      .ok throughput :=
    mapM_eq_map fun x member => divide_ok (positive x member).ne' _
  obtain ⟨source, foundSource, clean⟩ := run.clean cell.variant
  obtain ⟨rest, foundCommit⟩ := rsplitColon_clean clean
  obtain ⟨summaryMs, foundMs⟩ := summary_ok session samples "ms" (by omega)
  obtain ⟨summaryOps, foundOps⟩ := summary_ok session throughput "ops_s"
    (by rw [List.length_map]; omega)
  have rss (r) (member : r ∈ groupOf records cell) :=
    positiveNumber_of_positiveInt (accepted r member).resources.2.1
  have cpu (r) (member : r ∈ groupOf records cell) := (accepted r member).resources.2.2
  have peaks := resourceSamples_eq run rss
  have times := resourceSamples_eq run cpu
  obtain ⟨peakRss, foundPeak, peakPositive⟩ := largest_ok ((groupOf records cell).map
    fun r => (r.adapter.field "resources").field "peak_rss_bytes")
    (by simpa using nonempty) (by simpa using rss)
  obtain ⟨cpuTime, total, foundCpu, cpuValue, cpuPositive⟩ := sumNumbers_ok
    ((groupOf records cell).map fun r => (r.adapter.field "resources").field "cpu_time_ms")
    (by simpa using nonempty) (by simpa using cpu)
  refine ⟨⟨samples, throughput, commitOf source, summaryMs, summaryOps, peakRss, cpuTime⟩, ?_,
    ⟨lengthSamples.trans size, positive⟩, ⟨source, foundSource, rfl⟩, foundPeak, foundCpu,
    positiveNumber_iff peakPositive, ⟨total, cpuValue, cpuPositive⟩⟩
  simp only [measure, foundSamples, bind_ok, counted, countValue, foundThroughput, foundSource,
    foundCommit, foundMs, foundOps, peaks, foundPeak, times, foundCpu]

omit run in
/-- The document of a cell. -/
def docOf (session : Session) (sources : List (String × String)) (records : List Record)
    (cell : Cell) : Json :=
  match buildResult session sources cell (groupOf records cell) with
  | .ok doc => doc
  | .error _ => .null

/-- The document of a cell is made of trial 0 and the figures of all trials. -/
theorem docOf_eq {cell : Cell} (known : cell ∈ allCells) :
    ∃ first rest measured, groupOf records cell = first :: rest ∧ first ∈ records ∧
      first.cell = cell ∧ first.trial = 0 ∧
      buildResult session sources cell (groupOf records cell) =
        .ok (docOf session sources records cell) ∧
      docOf session sources records cell =
        resultDocument session cell first (groupOf records cell) measured ∧
      Figures sources cell (groupOf records cell) measured := by
  obtain ⟨first, rest, group, recorded, inCell, trial⟩ := head_groupOf run.slots known
  obtain ⟨measured, found, figures⟩ := measure_ok run known
    (group ▸ List.mem_cons_self : first ∈ groupOf records cell)
  have built : buildResult session sources cell (groupOf records cell) =
      .ok (resultDocument session cell first (groupOf records cell) measured) := by
    rw [buildResult.eq_def, group]
    simp only [← group, found, bind_ok]
  have doc : docOf session sources records cell =
      resultDocument session cell first (groupOf records cell) measured := by
    rw [docOf, built]
  exact ⟨first, rest, measured, group, recorded, inCell, trial, doc ▸ built, doc, figures⟩

/-- `build_results` makes the documents of the 18 cells. -/
theorem buildResults_eq :
    buildResults session sources records = .ok (allCells.map (docOf session sources records)) := by
  rw [buildResults, resultCells_eq run.slots]
  apply mapM_eq_map
  intro cell known
  obtain ⟨_, _, _, _, _, _, _, built, _⟩ := docOf_eq run known
  exact built

end Documents

end AlphaPipeline.Bench

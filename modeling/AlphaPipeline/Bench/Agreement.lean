import AlphaPipeline.Bench.Completeness
import AlphaPipeline.Bench.Validation

/-!
# Agreement of the driver and the gate

The gate, applied to the documents of a completed run, fails on three things only: a source
without a commit, a case without operations, and a variant that reports different build
metadata in two of its cells. The driver checks none of them: it compares builds within a
cell, not across cells.
-/
namespace AlphaPipeline.Bench

open PyJson PyJson.Json Fallible

/-- The keys of a configuration, in order, as every adapter prints them. -/
def configurationKeys : List String :=
  ["concurrency", "connection_count", "event_loop_mode", "operation_count", "pipeline_depth",
    "queue_depth", "retry_policy", "saturation_policy", "schema_sha256", "service_config_sha256",
    "timeout_ms", "worker_count"]

/-- An output whose configuration has the keys the adapters print, and no others. -/
def Emitted (out : Json) : Prop :=
  ∃ fields, out.field "configuration" = .obj fields ∧ fields.map Prod.fst = configurationKeys

/-- Every variant reports the same build in trial 0 of all its cells. -/
def BuildsAgree (records : List Record) : Prop :=
  ∀ r ∈ records, ∀ r' ∈ records, r.trial = 0 → r'.trial = 0 →
    r.cell.variant = r'.cell.variant →
    (r.adapter.field "build").eq (r'.adapter.field "build") = true

/-! ## The speedup -/

private theorem resample_ok (draws : Draws) {samples : List ℚ} (size : samples.length = 30)
    (positive : ∀ x ∈ samples, 0 < x) (round : Nat) :
    ∃ m, (resample draws samples round >>= median) = .ok m ∧ 0 < m := by
  obtain ⟨chosen, found, length, positiveChosen⟩ : ∃ chosen,
      resample draws samples round = .ok chosen ∧
      chosen.length = (List.range requiredTrials).length ∧ ∀ x ∈ chosen, 0 < x := by
    apply mapM_ok_all
    intro position _
    have inside : ((draws round position).val : Int) < samples.length := by
      rw [size]
      exact_mod_cast (draws round position).isLt
    obtain ⟨x, member, found⟩ := indexed_ok (Int.natCast_nonneg _) inside
    exact ⟨x, found, positive x member⟩
  have nonempty : chosen ≠ [] := by
    rintro rfl
    cases length
  obtain ⟨m, foundMedian, positiveMedian⟩ := median_ok nonempty
  exact ⟨m, by rw [found, bind_ok, foundMedian], positiveMedian positiveChosen⟩

private theorem numbers_of_floats (samples : List ℚ) :
    (samples.map Json.float).mapM number = .ok samples := by
  rw [mapM_ok_iff, List.forall₂_map_left_iff, List.forall₂_same]
  exact fun x _ => rfl

/-- Thirty positive samples on each side have a speedup. -/
private theorem bootstrapSpeedup_ok (draws : Draws) {python candidate : List ℚ}
    (pythonSamples : python.length = 30 ∧ ∀ x ∈ python, 0 < x)
    (candidateSamples : candidate.length = 30 ∧ ∀ x ∈ candidate, 0 < x) :
    ∃ ci, bootstrapSpeedup draws (python.map .float) (candidate.map .float) = .ok ci := by
  obtain ⟨estimates, foundEstimates, length, _⟩ : ∃ estimates,
      (List.range 10000).mapM (estimate draws python candidate) = .ok estimates ∧
      estimates.length = (List.range 10000).length ∧ ∀ x ∈ estimates, True := by
    apply mapM_ok_all
    intro round _
    obtain ⟨a, foundA, _⟩ := resample_ok draws pythonSamples.1 pythonSamples.2 round
    obtain ⟨b, foundB, positiveB⟩ := resample_ok draws candidateSamples.1 candidateSamples.2 round
    exact ⟨a / b, by rw [estimate, foundA, bind_ok, foundB, bind_ok, divide_ok positiveB.ne'],
      trivial⟩
  -- ten thousand estimates, so both percentiles exist
  have many : estimates ≠ [] := by
    rintro rfl
    rw [List.length_range] at length
    cases length
  have nonempty {samples : List ℚ} (size : samples.length = 30) : samples ≠ [] := by
    rintro rfl
    cases size
  obtain ⟨a, foundA, _⟩ := median_ok (nonempty pythonSamples.1)
  obtain ⟨b, foundB, positiveB⟩ := median_ok (nonempty candidateSamples.1)
  obtain ⟨low, foundLow⟩ := percentile_ok (q := 25 / 1000) many (by norm_num) (by norm_num)
  obtain ⟨high, foundHigh⟩ := percentile_ok (q := 975 / 1000) many (by norm_num) (by norm_num)
  have sizes : raiseIf ((python.map Json.float).length != requiredTrials ||
      (candidate.map Json.float).length != requiredTrials)
      (PyError.valueError "paired Python/candidate samples require exactly 30 trials") =
        .ok () := by
    simp [pythonSamples.1, candidateSamples.1, requiredTrials]
  have positive : raiseIf ((python.map Json.float ++ candidate.map Json.float).any
      fun value => !positiveNumber value)
      (PyError.valueError "samples must be finite and positive") = .ok () := by
    simpa [positiveNumber] using ⟨pythonSamples.2, candidateSamples.2⟩
  refine ⟨⟨a / b, low, high⟩, ?_⟩
  simp only [bootstrapSpeedup, sizes, positive, numbers_of_floats, foundEstimates, foundA, foundB,
    divide_ok (positiveB candidateSamples.2).ne', foundLow, foundHigh, bind_ok]

/-! ## Sets of keys -/

/-- The key of a cell's document. -/
def cellKey (cell : Cell) : Key :=
  (.str cell.benchCase.name, .int cell.concurrency, .str cell.variant.name)

private theorem checkCells_ok :
    checkCells (allCells.map cellKey) "c" = .ok () ∧
      checkCells (allCells.map cellKey) "rust" = .ok () := by decide +kernel

private theorem supplied_eq : supplied (allCells.map cellKey) =
    [Variant.c, .python, .rust].map fun variant => .str variant.name := rfl

private theorem find_cell : ∀ cell ∈ allCells,
    allCells.find? (fun c => (cellKey c).eq (cellKey cell)) = some cell := by decide +kernel

private theorem mem_allCells (benchCase : BenchCase) {concurrency : Nat}
    (listed : concurrency ∈ concurrencies) (variant : Variant) :
    ⟨benchCase, concurrency, variant⟩ ∈ allCells := by
  simp only [concurrencies, List.mem_cons, List.not_mem_nil, or_false] at listed
  rcases listed with rfl | rfl | rfl <;> cases benchCase <;> cases variant <;> decide

/-- A document, or what belongs to it, is found under the key of its cell. -/
private theorem docAt_map {β : Type} (g : Cell → β) {cell : Cell} (known : cell ∈ allCells) :
    docAt ((allCells.map cellKey).zip (allCells.map g)) cell.benchCase cell.concurrency
      (.str cell.variant.name) = .ok (g cell) := by
  rw [List.zip_map', docAt, List.find?_map]
  simp only [Function.comp_def]
  have found := find_cell cell known
  simp only [cellKey] at found
  simp only [cellKey, found]
  rfl

private theorem distinct_const {values : List Json} {value : Json} (nonempty : values ≠ [])
    (same : ∀ v ∈ values, v = value) : distinct Json.eq values = [value] := by
  induction values with
  | nil => exact absurd rfl nonempty
  | cons v rest ih =>
    obtain rfl := same v List.mem_cons_self
    have others (w) (member : w ∈ rest) := same w (List.mem_cons_of_mem _ member)
    cases rest with
    | nil => rfl
    | cons w rest =>
      obtain rfl := others w List.mem_cons_self
      rw [distinct, if_pos (by simp [eq_refl])]
      exact ih (List.cons_ne_nil _ _) others

private theorem sameSet_refl (values : List Json) : sameSet Json.eq values values = true := by
  simp only [sameSet, Bool.and_self, List.all_eq_true, List.any_eq_true]
  exact fun x member => ⟨x, member, eq_refl x⟩

/-- A field is the same in all documents exactly when no document differs from the first. -/
private theorem checkField_iff (docs : List Json) (variant : Json) (field : String) :
    checkField docs variant field = .ok () ↔
      ∀ doc ∈ docs, ∀ other ∈ docs, (doc.field field).eq (other.field field) = true := by
  cases docs with
  | nil => simp [checkField]
  | cons first rest =>
    simp only [checkField, raiseIf_eq_ok, List.any_eq_false, Bool.not_eq_true, Bool.not_eq_false']
    have toFirst (agree : ∀ doc ∈ rest, (doc.field field).eq (first.field field) = true) (doc)
        (member : doc ∈ first :: rest) : (doc.field field).eq (first.field field) = true := by
      rcases List.mem_cons.mp member with rfl | late
      · exact eq_refl _
      · exact agree doc late
    constructor
    · intro agree doc member other memberOther
      exact eq_trans (toFirst agree doc member) (eq_symm (toFirst agree other memberOther))
    · intro agree doc member
      exact agree doc (List.mem_cons_of_mem _ member) first List.mem_cons_self

section Documents

variable {session : Session} {fixture : Fixture} {adapters : List (String × List String)}
  {attestations : List (String × Json)} {minimumElapsedMs : ℚ} {sources : List (String × String)}
  {records : List Record}
  (run : Completed session fixture adapters attestations minimumElapsedMs sources 30 records)
include run

private theorem load_ok :
    ((allCells.map (docOf session sources records)).map (resultFile session)).mapM load =
      .ok (allCells.map (docOf session sources records)) := by
  rw [mapM_ok_iff, List.map_map, List.forall₂_map_left_iff, List.forall₂_map_right_iff,
    List.forall₂_same]
  intro cell known
  obtain ⟨_, _, _, _, _, _, _, _, doc, _⟩ := docOf_eq run known
  simp [load, resultFile, raiseIf, doc, resultDocument]

private theorem keys_ok :
    (allCells.map (docOf session sources records)).mapM keyOf = .ok (allCells.map cellKey) := by
  rw [mapM_ok_iff, List.forall₂_map_left_iff, List.forall₂_map_right_iff, List.forall₂_same]
  intro cell known
  obtain ⟨_, _, _, _, _, _, _, _, doc, _⟩ := docOf_eq run known
  simp [keyOf, doc, workloadSection, cellKey]

private theorem environments_ok :
    checkEnvironments (allCells.map (docOf session sources records)) = .ok () := by
  have same : (allCells.map (docOf session sources records)).map (fun doc =>
      doc.field "environment") = allCells.map fun _ => hostEnvironment session.host := by
    rw [List.map_map]
    apply List.map_congr_left
    intro cell known
    obtain ⟨first, _, _, _, recorded, _, _, _, doc, _⟩ := docOf_eq run known
    simp only [Function.comp_apply, doc, document_environment]
    exact (run.checked first recorded).environment
  have listed : allCells.map (fun _ => hostEnvironment session.host) =
      hostEnvironment session.host :: allCells.tail.map fun _ => hostEnvironment session.host := rfl
  have dict : (hostEnvironment session.host).isDict = true := rfl
  have filled : (hostEnvironment session.host).truthy = true := rfl
  rw [checkEnvironments, same, listed]
  simp [dict, filled, eq_refl]

private theorem fixtures_ok :
    checkFixtures (allCells.map (docOf session sources records)) = .ok () := by
  have constant (f : Json → Json)
      (all : ∀ cell ∈ allCells, f (docOf session sources records cell) = .str session.fixtureSha) :
      (allCells.map (docOf session sources records)).map f =
        allCells.map fun _ => .str session.fixtureSha := by
    rw [List.map_map]
    exact List.map_congr_left all
  have fixtures := constant (fun doc => (doc.field "workload").field "fixture_sha256") (by
    intro cell known
    obtain ⟨_, _, _, _, _, _, _, _, doc, _⟩ := docOf_eq run known
    rw [doc]
    rfl)
  have goldens := constant (fun doc => (doc.field "parity").field "golden_sha256") (by
    intro cell known
    obtain ⟨_, _, _, _, _, _, _, _, doc, _⟩ := docOf_eq run known
    rw [doc]
    rfl)
  have one : distinct Json.eq (allCells.map fun _ => Json.str session.fixtureSha) =
      [.str session.fixtureSha] := by
    apply distinct_const
    · simp [allCells, concurrencies]
    · simp
  simp only [checkFixtures, fixtures, goldens, one, sameSet_refl]
  simp [hashable]

/-- A document's build is that of trial 0 of its cell. -/
private theorem build_of_trial_zero {r : Record} (recorded : r ∈ records) (trial : r.trial = 0) :
    (docOf session sources records r.cell).field "build" = r.adapter.field "build" := by
  have known := cell_known run.slots recorded
  obtain ⟨first, rest, _, group, _, _, _, _, doc, _⟩ := docOf_eq run known
  have same := eq_head_of_trial run.slots known group (mem_groupOf.mpr ⟨recorded, rfl⟩) trial
  rw [doc, document_build, same]

private theorem buildsAgree_iff : BuildsAgree records ↔
    ∀ cell ∈ allCells, ∀ other ∈ allCells, cell.variant = other.variant →
      ((docOf session sources records cell).field "build").eq
        ((docOf session sources records other).field "build") = true := by
  constructor
  · intro agree cell known other knownOther variant
    obtain ⟨first, _, _, _, recorded, inCell, trial, _, doc, _⟩ := docOf_eq run known
    obtain ⟨second, _, _, _, recorded', inCell', trial', _, doc', _⟩ := docOf_eq run knownOther
    rw [doc, doc', document_build, document_build]
    exact agree first recorded second recorded' trial trial' (by rw [inCell, inCell', variant])
  · intro agree r recorded r' recorded' trial trial' variant
    rw [← build_of_trial_zero run recorded trial, ← build_of_trial_zero run recorded' trial']
    exact agree _ (cell_known run.slots recorded) _ (cell_known run.slots recorded') variant

/-- The documents of a variant have one source. -/
private theorem source_eq {cell other : Cell} (known : cell ∈ allCells)
    (knownOther : other ∈ allCells) (variant : cell.variant = other.variant) :
    (docOf session sources records cell).field "source" =
      (docOf session sources records other).field "source" := by
  obtain ⟨first, _, measured, _, recorded, inCell, _, _, doc, figures⟩ := docOf_eq run known
  obtain ⟨second, _, measured', _, recorded', inCell', _, _, doc', figures'⟩ :=
    docOf_eq run knownOther
  have attested := (run.checked first recorded).attested
  have attested' := (run.checked second recorded').attested
  obtain ⟨source, found, commit⟩ := figures.commit
  obtain ⟨source', found', commit'⟩ := figures'.commit
  rw [inCell, variant, ← inCell', attested', Except.ok.injEq] at attested
  rw [variant, found', Except.ok.injEq] at found
  rw [doc, doc', document_source, document_source, attested, commit, commit', found]

private theorem variantDocs_eq (variant : Variant) :
    (allCells.map (docOf session sources records)).filter (fun doc =>
      (doc.field "variant").eq (.str variant.name)) =
      (allCells.filter fun cell => cell.variant = variant).map (docOf session sources records) := by
  rw [List.filter_map]
  congr 1
  apply List.filter_congr
  intro cell known
  obtain ⟨_, _, _, _, _, _, _, _, doc, _⟩ := docOf_eq run known
  simp only [Function.comp_apply, doc, document_variant]
  cases cell.variant <;> cases variant <;> decide

/-- The gate sees no drift exactly when the builds agree. -/
private theorem checkDrift_iff :
    checkDrift (supplied (allCells.map cellKey)) (allCells.map (docOf session sources records)) =
      .ok () ↔ BuildsAgree records := by
  rw [checkDrift, forM_ok_iff, supplied_eq, buildsAgree_iff run]
  constructor
  · intro pass cell known other knownOther variant
    have checked := pass (.str cell.variant.name)
      (List.mem_map.mpr ⟨cell.variant, by cases cell.variant <;> decide, rfl⟩)
    simp only [variantDocs_eq run, bind_eq_ok] at checked
    obtain ⟨_, builds, _⟩ := checked
    rw [checkField_iff] at builds
    have listed {c : Cell} (known : c ∈ allCells) (same : c.variant = cell.variant) :
        docOf session sources records c ∈ (allCells.filter fun c => c.variant = cell.variant).map
          (docOf session sources records) :=
      List.mem_map.mpr ⟨c, List.mem_filter.mpr ⟨known, by simpa using same⟩, rfl⟩
    exact builds _ (listed known rfl) _ (listed knownOther variant.symm)
  · intro agree variant member
    obtain ⟨variant, _, rfl⟩ := List.mem_map.mp member
    simp only [variantDocs_eq run, bind_eq_ok]
    refine ⟨(), ?_, ?_⟩
    · simp only [checkField_iff, List.mem_map, List.mem_filter, decide_eq_true_eq]
      rintro _ ⟨cell, ⟨known, rfl⟩, rfl⟩ _ ⟨other, ⟨knownOther, same⟩, rfl⟩
      exact agree cell known other knownOther same.symm
    · simp only [checkField_iff, List.mem_map, List.mem_filter, decide_eq_true_eq]
      rintro _ ⟨cell, ⟨known, rfl⟩, rfl⟩ _ ⟨other, ⟨knownOther, same⟩, rfl⟩
      rw [source_eq run known knownOther same.symm]
      exact eq_refl _

/-! ## The comparison -/

/-- All outputs of a case have the result checksum of the fixture, which is a text. -/
private theorem caseHash (benchCase : BenchCase) : ∃ text, text ≠ "" ∧
    ∀ cell ∈ allCells, cell.benchCase = benchCase →
      ((docOf session sources records cell).field "parity").field "result_sha256" =
        .str text := by
  have hash (cell) (known : cell ∈ allCells) : ∃ text, text ≠ "" ∧
      ((docOf session sources records cell).field "parity").field "result_sha256" = .str text ∧
      Json.eq (.str text) (fixture.config cell.benchCase).terminalSha256 = true := by
    obtain ⟨first, _, _, group, _, _, _, _, doc, _⟩ := docOf_eq run known
    have accepted := accepted_of_group run
      (group ▸ List.mem_cons_self : first ∈ groupOf records cell)
    obtain ⟨text, nonempty, found⟩ := accepted.hashed
    refine ⟨text, nonempty, ?_, found ▸ accepted.golden⟩
    rw [doc]
    exact found
  obtain ⟨text, nonempty, _, golden⟩ := hash ⟨benchCase, 1, .python⟩ (by cases benchCase <;> decide)
  refine ⟨text, nonempty, ?_⟩
  rintro cell known rfl
  obtain ⟨other, _, found, goldenOther⟩ := hash cell known
  -- both are equal to the checksum of the fixture, which is then a text too
  rw [eq_str] at golden goldenOther
  rw [found, ← goldenOther, golden]

omit run in
/-- The driver checks every field of a configuration but the event loop against the fixture. -/
private theorem checkedKeys {contract : Contract} {config : CaseConfig} {concurrency : Nat} :
    ∀ key ∈ configurationKeys, (key != "event_loop_mode") = true →
      key ∈ (expectedConfig contract config concurrency).map Prod.fst := by
  simp [configurationKeys, expectedConfig]

/-- The configurations of two cells of one case and concurrency differ in the event loop only. -/
private theorem configurations_eq (emitted : ∀ r ∈ records, Emitted r.adapter) {cell other : Cell}
    (known : cell ∈ allCells) (knownOther : other ∈ allCells)
    (sameCase : cell.benchCase = other.benchCase)
    (sameConcurrency : cell.concurrency = other.concurrency) :
    Json.eq
      ((((docOf session sources records cell).field "workload").fieldOr "configuration"
        (.obj [])).without "event_loop_mode")
      ((((docOf session sources records other).field "workload").fieldOr "configuration"
        (.obj [])).without "event_loop_mode") = true := by
  obtain ⟨first, _, _, group, recorded, _, _, _, doc, _⟩ := docOf_eq run known
  obtain ⟨second, _, _, group', recorded', _, _, _, doc', _⟩ := docOf_eq run knownOther
  have accepted := accepted_of_group run
    (group ▸ List.mem_cons_self : first ∈ groupOf records cell)
  have accepted' := accepted_of_group run
    (group' ▸ List.mem_cons_self : second ∈ groupOf records other)
  obtain ⟨fields, found, keys⟩ := emitted first recorded
  obtain ⟨fields', found', keys'⟩ := emitted second recorded'
  have config : ((docOf session sources records cell).field "workload").fieldOr "configuration"
      (.obj []) = .obj fields := by
    rw [doc, ← found]
    rfl
  have config' : ((docOf session sources records other).field "workload").fieldOr "configuration"
      (.obj []) = .obj fields' := by
    rw [doc', ← found']
    rfl
  rw [config, config', without, without, Json.eq]
  -- every key that is left was checked against the same expected value
  apply eqFields_filter (fun key => key != "event_loop_mode")
  · rw [keys, keys']
  · rw [keys]
    decide
  · intro key member chosen
    obtain ⟨f, listed, rfl⟩ : ∃ f ∈ expectedConfig fixture.contract
        (fixture.config cell.benchCase) cell.concurrency, f.1 = key :=
      List.mem_map.mp (checkedKeys key (keys ▸ member) chosen)
    have value := accepted.configured f listed
    have value' := accepted'.configured f (sameCase ▸ sameConcurrency ▸ listed)
    rw [found, exactValue, Bool.and_eq_true] at value
    rw [found', exactValue, Bool.and_eq_true] at value'
    exact eq_trans value.2 (eq_symm value'.2)

private theorem compareCell_ok (emitted : ∀ r ∈ records, Emitted r.adapter) (limits : Limits)
    {candidate : Variant} (named : limits.candidate = candidate.name) (latencyOf : Cell → Latency)
    {benchCase : BenchCase} {concurrency : Nat} (listed : concurrency ∈ concurrencies) :
    ∃ comparison, compareCell limits
      ((allCells.map cellKey).zip (allCells.map (docOf session sources records)))
      ((allCells.map cellKey).zip (allCells.map latencyOf)) benchCase concurrency =
        .ok comparison := by
  have known := mem_allCells benchCase listed
  have config := configurations_eq run emitted (known .python) (known candidate) rfl rfl
  obtain ⟨_, _, measured, _, _, _, _, _, doc, figures⟩ := docOf_eq run (known .python)
  obtain ⟨_, _, measured', _, _, _, _, _, doc', figures'⟩ := docOf_eq run (known candidate)
  obtain ⟨ci, foundCi⟩ := bootstrapSpeedup_ok limits.draws figures.samples figures'.samples
  obtain ⟨rss, foundRss, positiveRss⟩ := figures.peakRssPositive
  obtain ⟨rss', foundRss', _⟩ := figures'.peakRssPositive
  obtain ⟨cpu, foundCpu, positiveCpu⟩ := figures.cpuTimePositive
  obtain ⟨cpu', foundCpu', _⟩ := figures'.cpuTimePositive
  have pyDoc : docAt ((allCells.map cellKey).zip (allCells.map (docOf session sources records)))
      benchCase concurrency (.str "python") = .ok _ :=
    docAt_map (docOf session sources records) (known .python)
  have otherDoc := docAt_map (docOf session sources records) (known candidate)
  have pyLatency : docAt ((allCells.map cellKey).zip (allCells.map latencyOf)) benchCase
      concurrency (.str "python") = .ok _ :=
    docAt_map latencyOf (known .python)
  have otherLatency := docAt_map latencyOf (known candidate)
  have ratioRss : resourceRatio "peak_rss_bytes"
      (docOf session sources records ⟨benchCase, concurrency, candidate⟩)
      (docOf session sources records ⟨benchCase, concurrency, .python⟩) = .ok (rss' / rss) := by
    rw [doc, doc']
    simp [resourceRatio, List.lookup_cons, foundRss, foundRss', divide_ok positiveRss.ne']
  have ratioCpu : resourceRatio "cpu_time_ms"
      (docOf session sources records ⟨benchCase, concurrency, candidate⟩)
      (docOf session sources records ⟨benchCase, concurrency, .python⟩) = .ok (cpu' / cpu) := by
    rw [doc, doc']
    simp [resourceRatio, foundCpu, foundCpu', divide_ok positiveCpu.ne']
  have pySamples : ((docOf session sources records ⟨benchCase, concurrency, .python⟩).field
      "samples_ms").items?.getD [] = measured.samples.map .float := by
    rw [doc]
    rfl
  have otherSamples : ((docOf session sources records ⟨benchCase, concurrency, candidate⟩).field
      "samples_ms").items?.getD [] = measured'.samples.map .float := by
    rw [doc']
    rfl
  simp only [compareCell, named, pyDoc, otherDoc, config, Bool.not_true, raiseIf_false, pySamples,
    otherSamples, foundCi, ratioRss, ratioCpu, pyLatency, otherLatency, bind_ok]
  exact ⟨_, rfl⟩

/-- The result checksums of a case are one text. -/
private theorem caseHashes_ok (benchCase : BenchCase) : ∃ hashes text, text ≠ "" ∧ hashes ≠ [] ∧
    (∀ hash ∈ hashes, hash = .str text) ∧
    caseHashes ((allCells.map cellKey).zip (allCells.map (docOf session sources records)))
      (supplied (allCells.map cellKey)) benchCase = .ok hashes := by
  obtain ⟨text, nonempty, same⟩ := caseHash run benchCase
  let row (concurrency : Nat) : List Json := [Variant.c, .python, .rust].map fun variant =>
    docOf session sources records ⟨benchCase, concurrency, variant⟩
  have rows : concurrencies.mapM (fun concurrency =>
      (supplied (allCells.map cellKey)).mapM fun variant =>
        docAt ((allCells.map cellKey).zip (allCells.map (docOf session sources records)))
          benchCase concurrency variant) = .ok (concurrencies.map row) := by
    apply mapM_eq_map
    intro concurrency listed
    rw [supplied_eq, mapM_ok_iff, List.forall₂_map_left_iff, List.forall₂_map_right_iff,
      List.forall₂_same]
    exact fun variant _ =>
      docAt_map (docOf session sources records) (mem_allCells benchCase listed variant)
  refine ⟨(concurrencies.map row).flatten.map fun doc =>
    (doc.field "parity").field "result_sha256", text, nonempty, ?_, ?_, ?_⟩
  · simp [row, concurrencies]
  · intro hash member
    simp only [List.mem_map, List.mem_flatten, row] at member
    obtain ⟨doc, ⟨_, ⟨concurrency, listed, rfl⟩, inRow⟩, rfl⟩ := member
    obtain ⟨variant, _, rfl⟩ := List.mem_map.mp inRow
    exact same _ (mem_allCells benchCase listed variant) rfl
  · rw [caseHashes, rows]
    rfl

private theorem compareCase_ok (emitted : ∀ r ∈ records, Emitted r.adapter) (limits : Limits)
    {candidate : Variant} (named : limits.candidate = candidate.name) (latencyOf : Cell → Latency)
    (benchCase : BenchCase) :
    ∃ comparisons, compareCase limits
      ((allCells.map cellKey).zip (allCells.map (docOf session sources records)))
      ((allCells.map cellKey).zip (allCells.map latencyOf)) (supplied (allCells.map cellKey))
      benchCase = .ok comparisons := by
  obtain ⟨hashes, text, nonempty, listed, same, found⟩ := caseHashes_ok run benchCase
  obtain ⟨comparisons, compared, _⟩ : ∃ comparisons, concurrencies.mapM (compareCell limits
      ((allCells.map cellKey).zip (allCells.map (docOf session sources records)))
      ((allCells.map cellKey).zip (allCells.map latencyOf)) benchCase) = .ok comparisons ∧
      comparisons.length = concurrencies.length ∧ ∀ c ∈ comparisons, True := by
    apply mapM_ok_all
    intro concurrency listed
    obtain ⟨comparison, ok⟩ := compareCell_ok run emitted limits named latencyOf listed
    exact ⟨comparison, ok, trivial⟩
  have texts : (hashes.any fun value => !value.hashable) = false := by
    rw [List.any_eq_false]
    intro hash member
    rw [same hash member]
    simp [hashable]
  have golden : ((distinct Json.eq hashes).length != 1 ||
      !((hashes.head?.map truthy).getD false)) = false := by
    rw [distinct_const listed same]
    cases hashes with
    | nil => exact absurd rfl listed
    | cons hash rest =>
      rw [same hash List.mem_cons_self]
      simpa [truthy] using nonempty
  exact ⟨comparisons, by simp only [compareCase, found, bind_ok, texts, golden, raiseIf_false,
    compared]⟩

/-- When the gate decides on the documents of a run. -/
private theorem evaluate_iff (emitted : ∀ r ∈ records, Emitted r.adapter)
    (real : ∀ variant : Variant, ∀ attestation,
      valueOf attestations variant.name = .ok attestation → RealAttestation attestation)
    (draws : Draws) {candidate : Variant} (other : candidate ≠ .python) :
    (∃ report, evaluate ⟨draws, candidate.name, 1, 1⟩
        ((allCells.map (docOf session sources records)).map (resultFile session)) = .ok report) ↔
      BuildsAgree records ∧ (∀ variant, HasCommit sources variant) ∧
        ∀ benchCase, 0 < operationCount (fixture.config benchCase) := by
  have cells : checkCells (allCells.map cellKey) candidate.name = .ok () := by
    cases candidate with
    | python => exact absurd rfl other
    | c => exact checkCells_ok.1
    | rust => exact checkCells_ok.2
  have allowed : (candidate.name != "c" && candidate.name != "rust") = false := by
    cases candidate with
    | python => exact absurd rfl other
    | c => decide
    | rust => decide
  constructor
  -- a report means that every check passed; the document checks give the two other conditions
  · rintro ⟨report, decided⟩
    simp only [evaluate, bind_eq_ok] at decided
    obtain ⟨_, _, _, _, docs, loaded, keys, keyed, _, _, latency, valid, _, _, _, drift, _⟩ :=
      decided
    rw [load_ok run, Except.ok.injEq] at loaded
    subst loaded
    rw [keys_ok run, Except.ok.injEq] at keyed
    subst keyed
    have accepted (cell) (known : cell ∈ allCells) :=
      (validateDoc_iff run real known).mp (mapM_ok_mem valid _ (List.mem_map_of_mem known))
    refine ⟨(checkDrift_iff run).mp drift, fun variant => ?_, fun benchCase => ?_⟩
    · exact (accepted ⟨.redisHotPath, 1, variant⟩ (mem_allCells _ (by decide) _)).1
    · exact (accepted ⟨benchCase, 1, .python⟩ (mem_allCells _ (by decide) _)).2
  · rintro ⟨builds, commits, operations⟩
    have valid (cell) (known : cell ∈ allCells) :=
      (validateDoc_iff run real known).mpr ⟨commits cell.variant, operations cell.benchCase⟩
    -- the comparison needs the latencies as one function of the cell
    choose! latencyOf foundLatency using valid
    have latencies : (allCells.map (docOf session sources records)).mapM validateDoc =
        .ok (allCells.map latencyOf) := by
      rw [mapM_ok_iff, List.forall₂_map_left_iff, List.forall₂_map_right_iff, List.forall₂_same]
      exact foundLatency
    obtain ⟨comparisons, compared, _⟩ : ∃ comparisons, cases.mapM (compareCase
        ⟨draws, candidate.name, 1, 1⟩
        ((allCells.map cellKey).zip (allCells.map (docOf session sources records)))
        ((allCells.map cellKey).zip (allCells.map latencyOf)) (supplied (allCells.map cellKey))) =
        .ok comparisons ∧ comparisons.length = cases.length ∧ ∀ c ∈ comparisons, True := by
      apply mapM_ok_all
      intro benchCase _
      obtain ⟨comparisons, ok⟩ :=
        compareCase_ok run emitted ⟨draws, candidate.name, 1, 1⟩ rfl latencyOf benchCase
      exact ⟨comparisons, ok, trivial⟩
    have limits : (!decide ((0 : ℚ) < 1) || !decide ((0 : ℚ) < 1)) = false := by norm_num
    simp only [evaluate, allowed, limits, raiseIf_false, bind_ok, load_ok run, keys_ok run, cells,
      latencies, environments_ok run, (checkDrift_iff run).mpr builds, fixtures_ok run, compared]
    exact ⟨_, rfl⟩

end Documents

/-- What the gate returns is a decision. -/
private theorem evaluate_decision {limits : Limits} {files : List (String × Json)} {report : Report}
    (decided : evaluate limits files = .ok report) :
    report.decision = "GO" ∨ report.decision = "NO-GO" := by
  simp only [evaluate, bind_eq_ok, Except.ok.injEq] at decided
  obtain ⟨_, _, _, _, _, _, _, _, _, _, _, _, _, _, _, _, _, _, _, _, rfl⟩ := decided
  dsimp only
  split
  · exact Or.inl rfl
  · exact Or.inr rfl

/-- The documents of a run that was not refused, and when the gate decides on them. -/
theorem evaluate_executed {session : Session} {fixture : Fixture}
    {adapters : List (String × List String)} {sources : List (String × String)}
    {attestations : List (String × Json)} {minimumElapsedMs : ℚ} (draws : Draws)
    {records : List Record}
    (executed : execute session fixture adapters sources 30 attestations 30 minimumElapsedMs =
      .ok records)
    (emitted : ∀ r ∈ records, Emitted r.adapter)
    (real : ∀ variant : Variant, ∃ attestation,
      valueOf attestations variant.name = .ok attestation ∧ RealAttestation attestation) :
    ∃ docs, buildResults session sources records = .ok docs ∧
      ∀ candidate ∈ ["c", "rust"],
        ((∃ report, evaluate ⟨draws, candidate, 1, 1⟩ (docs.map (resultFile session)) =
          .ok report) ↔
        BuildsAgree records ∧ (∀ variant, HasCommit sources variant) ∧
          ∀ benchCase, 0 < operationCount (fixture.config benchCase)) := by
  have supplied : attestations ≠ [] := by
    rintro rfl
    obtain ⟨_, found, _⟩ := real .python
    cases found
  have run := execute_completed session fixture adapters attestations minimumElapsedMs supplied
    executed
  have attested (variant : Variant) (attestation) (found : valueOf attestations variant.name =
      .ok attestation) : RealAttestation attestation := by
    obtain ⟨other, foundOther, good⟩ := real variant
    rw [found, Except.ok.injEq] at foundOther
    exact foundOther ▸ good
  refine ⟨_, buildResults_eq run, fun candidate listed => ?_⟩
  simp only [List.mem_cons, List.not_mem_nil, or_false] at listed
  rcases listed with rfl | rfl
  · exact evaluate_iff run emitted attested draws (by decide : Variant.c ≠ .python)
  · exact evaluate_iff run emitted attested draws (by decide : Variant.rust ≠ .python)

/-- `build_results` makes documents of the records, and the gate decides on them for both
candidates. -/
def GateDecides (session : Session) (sources : List (String × String)) (draws : Draws)
    (records : List Record) : Prop :=
  ∃ docs, buildResults session sources records = .ok docs ∧
    ∀ candidate ∈ ["c", "rust"], ∃ report,
      evaluate ⟨draws, candidate, 1, 1⟩ (docs.map (resultFile session)) = .ok report ∧
      (report.decision = "GO" ∨ report.decision = "NO-GO")

/-- The gate decides on the documents of a run that was not refused exactly when every variant
reports one build in all its cells, every source names a commit and every case has
operations. -/
theorem gate_decides_iff (session : Session) (fixture : Fixture)
    (adapters : List (String × List String)) (sources : List (String × String))
    (attestations : List (String × Json)) (minimumElapsedMs : ℚ) (draws : Draws)
    (records : List Record)
    (executed : execute session fixture adapters sources 30 attestations 30 minimumElapsedMs =
      .ok records)
    (emitted : ∀ r ∈ records, Emitted r.adapter)
    (real : ∀ variant : Variant, ∃ attestation,
      valueOf attestations variant.name = .ok attestation ∧ RealAttestation attestation) :
    GateDecides session sources draws records ↔
      BuildsAgree records ∧ (∀ variant, HasCommit sources variant) ∧
        ∀ benchCase, 0 < operationCount (fixture.config benchCase) := by
  obtain ⟨docs, made, decides⟩ := evaluate_executed draws executed emitted real
  constructor
  · rintro ⟨others, built, decided⟩
    rw [made, Except.ok.injEq] at built
    subst built
    obtain ⟨report, found, _⟩ := decided "c" (by decide)
    exact (decides "c" (by decide)).mp ⟨report, found⟩
  · intro holds
    refine ⟨docs, made, fun candidate listed => ?_⟩
    obtain ⟨report, found⟩ := (decides candidate listed).mpr holds
    exact ⟨report, found, evaluate_decision found⟩

theorem smallOutput_emitted {machine : Session} {dependencies : Variant → BenchCase → String}
    {records : List Record}
    (printed : ∀ r ∈ records, r.adapter = smallOutput machine dependencies r.cell) :
    ∀ r ∈ records, Emitted r.adapter := by
  intro r recorded
  rw [printed r recorded]
  exact ⟨_, rfl, rfl⟩

theorem smallAttestations_real (variant : Variant) : ∃ attestation,
    valueOf smallAttestations variant.name = .ok attestation ∧ RealAttestation attestation := by
  refine ⟨smallAttestation, by cases variant <;> rfl, ?_⟩
  constructor <;> decide

/-- Adapters that report dependencies of their own and not of the case leave nothing for the gate to
raise on. -/
theorem smallRun_one_build {machine : Session} {dependency : Variant → String}
    {records : List Record}
    (printed : ∀ r ∈ records, r.adapter =
      smallOutput machine (fun variant _ => dependency variant) r.cell) :
    BuildsAgree records ∧ (∀ variant, HasCommit smallSources variant) ∧
      ∀ benchCase, 0 < operationCount ((smallFixture machine).config benchCase) := by
  refine ⟨?_, ?_, ?_⟩
  · intro r recorded r' recorded' _ _ same
    rw [printed r recorded, printed r' recorded', smallOutput, smallOutput, same]
    exact eq_refl _
  · intro variant source found
    cases variant <;> obtain rfl := Except.ok.inj found <;> decide
  · intro benchCase
    cases benchCase <;> exact Int.one_pos

/-- Adapters with the same dependencies in both cases pass the driver, and the gate decides. -/
theorem gate_decides_one_build : ∃ records,
    execute (smallSession smallHost fun variant _ => caseDependency variant .redisHotPath)
      (smallFixture smallHost) smallAdapters smallSources 30 smallAttestations 30 0 =
        .ok records ∧
    GateDecides (smallSession smallHost fun variant _ => caseDependency variant .redisHotPath)
      smallSources (fun _ _ => ⟨0, by decide⟩) records := by
  obtain ⟨records, executed, printed⟩ :=
    smallRun_ok smallHost fun variant _ => caseDependency variant .redisHotPath
  exact ⟨records, executed, (gate_decides_iff _ (smallFixture smallHost) smallAdapters
    smallSources smallAttestations 0 _ records executed (smallOutput_emitted printed)
    smallAttestations_real).mpr (smallRun_one_build printed)⟩

/-- Adapters that report the dependencies of the case they ran pass the driver, and the gate
raises on their documents. -/
theorem gate_raises_case_dependencies : ∃ records docs,
    execute (smallSession smallHost caseDependency) (smallFixture smallHost) smallAdapters
      smallSources 30 smallAttestations 30 0 = .ok records ∧
    (∀ r ∈ records, Emitted r.adapter) ∧
    (∀ variant : Variant, ∃ attestation,
      valueOf smallAttestations variant.name = .ok attestation ∧ RealAttestation attestation) ∧
    buildResults (smallSession smallHost caseDependency) smallSources records = .ok docs ∧
    ∀ candidate ∈ ["c", "rust"], ∃ error,
      evaluate ⟨fun _ _ => ⟨0, by decide⟩, candidate, 1, 1⟩
        (docs.map (resultFile (smallSession smallHost caseDependency))) = .error error := by
  obtain ⟨records, executed, printed⟩ := smallRun_ok smallHost caseDependency
  have emitted := smallOutput_emitted printed
  obtain ⟨docs, made, decides⟩ :=
    evaluate_executed (fun _ _ => ⟨0, by decide⟩) executed emitted smallAttestations_real
  have slots := (execute_completed _ _ _ _ _ (by decide) executed).slots
  -- trial 0 of Python reports another dependency in each of the two cases
  have drift : ¬BuildsAgree records := by
    intro agree
    obtain ⟨r, _, _, recorded, inCell, trial⟩ := head_groupOf slots
      (by decide : (⟨.redisHotPath, 1, .python⟩ : Cell) ∈ allCells)
    obtain ⟨r', _, _, recorded', inCell', trial'⟩ := head_groupOf slots
      (by decide : (⟨.dbReadWrite, 1, .python⟩ : Cell) ∈ allCells)
    have same := agree r recorded r' recorded' trial trial' (by rw [inCell, inCell'])
    rw [printed r recorded, printed r' recorded', inCell, inCell'] at same
    exact absurd same (by decide)
  refine ⟨records, docs, executed, emitted, smallAttestations_real, made,
    fun candidate listed => ?_⟩
  cases outcome : evaluate ⟨fun _ _ => ⟨0, by decide⟩, candidate, 1, 1⟩
      (docs.map (resultFile (smallSession smallHost caseDependency))) with
  | error error => exact ⟨error, rfl⟩
  | ok report => exact absurd ((decides candidate listed).mp ⟨report, outcome⟩).1 drift

end AlphaPipeline.Bench

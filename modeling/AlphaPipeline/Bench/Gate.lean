import AlphaPipeline.Bench.Driver

/-!
# The stop gate

`evaluate_mvp2.py`: the gate loads the result documents, checks every one of them and all of
them together, and decides. A document is the value its file parses to. The draws of the
seeded generator are given; sets are lists compared as sets.
-/
namespace AlphaPipeline.Bench

open PyJson PyJson.Json Fallible

/-- `TRIALS`. -/
def requiredTrials : Nat := 30

/-- The draws `rng.randrange(TRIALS)`: one index for each resample and position. -/
abbrev Draws := Nat → Nat → Fin requiredTrials

structure Speedup where
  speedup : ℚ
  ci95Low : ℚ
  ci95High : ℚ

/-- The samples at the indices of one resample. -/
def resample (draws : Draws) (samples : List ℚ) (round : Nat) : Except PyError (List ℚ) :=
  (List.range requiredTrials).mapM fun position => indexed samples (draws round position).val

/-- The ratio of the medians of one resample. -/
def estimate (draws : Draws) (python candidate : List ℚ) (round : Nat) : Except PyError ℚ := do
  let pythonMedian ← resample draws python round >>= median
  let candidateMedian ← resample draws candidate round >>= median
  divide pythonMedian candidateMedian

/-- `bootstrap_speedup`, without the rounding of floats. -/
def bootstrapSpeedup (draws : Draws) (python candidate : List Json) : Except PyError Speedup := do
  raiseIf (python.length != requiredTrials || candidate.length != requiredTrials)
    (.valueError "paired Python/candidate samples require exactly 30 trials")
  raiseIf ((python ++ candidate).any fun value => !positiveNumber value)
    (.valueError "samples must be finite and positive")
  let python ← python.mapM number
  let candidate ← candidate.mapM number
  let estimates ← (List.range 10000).mapM (estimate draws python candidate)
  let pythonMedian ← median python
  let candidateMedian ← median candidate
  let point ← divide pythonMedian candidateMedian
  let low ← percentile estimates (25 / 1000)
  let high ← percentile estimates (975 / 1000)
  .ok ⟨point, low, high⟩

/-- `_load`, on the parsed content of a file. -/
def load (file : String × Json) : Except PyError Json := do
  raiseIf (!file.2.isDict) (.valueError ("result must be an object: " ++ file.1))
  .ok file.2

/-- A hex digest of 64 characters. -/
def isDigest : Json → Bool
  | .str s => s.length == 64 && s.toList.all fun char => char ∈ "0123456789abcdef".toList
  | _ => false

/-- `value is not False` / `value is True`. -/
def isBool (b : Bool) : Json → Bool
  | .bool value => value == b
  | _ => false

/-- `_validate_attestation`. -/
def validateAttestation (source : Json) : Except PyError Unit := do
  raiseIf (!source.isDict || !isBool false (source.field "dirty"))
    (.valueError "dirty or malformed source fails the stop gate")
  raiseIf (!(source.field "commit").isText) (.valueError "source commit is required")
  let adapter := source.field "adapter"
  raiseIf (!adapter.isDict || !(adapter.field "artifact").isText)
    (.valueError "adapter attestation is required")
  raiseIf (!isDigest (adapter.field "command_sha256"))
    (.valueError "adapter attestation digest is invalid")
  raiseIf (!isDigest (adapter.field "artifact_sha256"))
    (.valueError "adapter attestation digest is invalid")

/-- `positions.get(variant)`. -/
def positions (variant : Json) : Json :=
  let rotation (a b c : Int) : Json :=
    .arr ((List.replicate 10 [Json.int a, .int b, .int c]).flatten)
  match variant with
  | .str "python" => rotation 0 2 1
  | .str "c" => rotation 1 0 2
  | .str "rust" => rotation 2 1 0
  | _ => .null

structure LatencySummary where
  median : ℚ
  max : ℚ
  deriving Inhabited

structure Latency where
  p95Samples : List ℚ
  p99Samples : List ℚ
  p95Summary : LatencySummary
  p99Summary : LatencySummary
  deriving Inhabited

/-- The percentiles of one trial's operation latencies. -/
def trialPercentiles (operationCount : Int) (trial : Json) : Except PyError (ℚ × ℚ) :=
  match trial with
  | .arr items => do
    raiseIf (items.length != operationCount || items.any fun value => !positiveInt value)
      (.valueError "operation latency trial is invalid")
    let values ← items.mapM number
    let p95 ← percentile values (95 / 100)
    let p99 ← percentile values (99 / 100)
    .ok (p95, p99)
  | _ => .error (.valueError "operation latency trial is invalid")

/-- The memory and CPU time of one trial. -/
def trialResources (sample : Json) : Except PyError (Json × Json) := do
  raiseIf (!sample.isDict || !positiveNumber (sample.field "peak_rss_bytes") ||
      !positiveNumber (sample.field "cpu_time_ms"))
    (.valueError "resource trial sample is invalid")
  .ok (sample.field "peak_rss_bytes", sample.field "cpu_time_ms")

/-- A list of 30 entries. -/
def thirty (value : Json) (message : String) : Except PyError (List Json) :=
  match value with
  | .arr items => do
    raiseIf (items.length != requiredTrials) (.valueError message)
    .ok items
  | _ => .error (.valueError message)

/-- `operation_count` of a configuration: a positive integer. -/
def positiveCount (config : Json) : Except PyError Int :=
  match config.field "operation_count" with
  | .int n => do
    raiseIf (n ≤ 0) (.valueError "positive operation_count is required")
    .ok n
  | _ => .error (.valueError "positive operation_count is required")

/-- The checks of `_validate_doc` before the measurements. -/
def validateHeader (doc : Json) : Except PyError Unit := do
  let workload := doc.field "workload"
  raiseIf (!workload.isDict || !(workload.field "trials").eq (.int requiredTrials) ||
      !(workload.field "rotation").eq (.str "latin-3"))
    (.valueError "workload requires exactly 30 Latin-3 trials")
  let samples ← thirty (doc.field "samples_ms")
    "samples_ms requires exactly 30 finite positive samples"
  raiseIf (samples.any fun value => !positiveNumber value)
    (.valueError "samples_ms requires exactly 30 finite positive samples")
  raiseIf (!(doc.field "trial_order_index").eq (positions (doc.field "variant")))
    (.valueError "trial order is not the required Latin-3 rotation")
  raiseIf (!isBool true (doc.field "eligible")) (.valueError "ineligible or parity-failing input")
  let passed ← (doc.fieldOr "parity" (.obj [])).get "passed"
  raiseIf (!isBool true passed) (.valueError "ineligible or parity-failing input")
  raiseIf (!(doc.field "errors").eq (.obj [("count", .int 0), ("dropped", .int 0)]))
    (.valueError "errors/drops fail the stop gate")
  validateAttestation (doc.field "source")
  let build := doc.field "build"
  raiseIf (!build.isDict ||
      ["runtime", "compiler", "flags"].any (fun key => !(build.field key).isText) ||
      !(build.field "dependencies").isDict || !(build.field "dependencies").truthy)
    (.valueError "complete build attestation is required")

/-- `_validate_doc`. -/
def validateDoc (doc : Json) : Except PyError Latency := do
  validateHeader doc
  let operationCount ← positiveCount ((doc.field "workload").field "configuration")
  let latencyTrials ← thirty (doc.field "operation_latency_ns_samples")
    "operation latency requires exactly 30 trials"
  let percentiles ← latencyTrials.mapM (trialPercentiles operationCount)
  let p95 := percentiles.map Prod.fst
  let p99 := percentiles.map Prod.snd
  let resourceSamples ← thirty (doc.field "resource_samples")
    "resources require exactly 30 trial samples"
  let resources ← resourceSamples.mapM trialResources
  let peakRss ← largest (resources.map Prod.fst)
  let cpuTime ← sumNumbers (resources.map Prod.snd)
  raiseIf (!(doc.field "resources").eq
      (.obj [("cpu_time_ms", cpuTime), ("peak_rss_bytes", peakRss)]))
    (.valueError "resource aggregate does not match trial samples")
  let p95Median ← median p95
  let p95Max ← maximum p95
  let p99Median ← median p99
  let p99Max ← maximum p99
  .ok ⟨p95, p99, ⟨p95Median, p95Max⟩, ⟨p99Median, p99Max⟩⟩

/-- The key of a document: case, concurrency and variant. -/
abbrev Key := Json × Json × Json

def Key.eq (a b : Key) : Bool := a.1.eq b.1 && a.2.1.eq b.2.1 && a.2.2.eq b.2.2

def Key.hashable (key : Key) : Bool :=
  key.1.hashable && key.2.1.hashable && key.2.2.hashable

def keyOf (doc : Json) : Except PyError Key := do
  let concurrency ← (doc.fieldOr "workload" (.obj [])).get "concurrency"
  .ok (doc.field "case", concurrency, doc.field "variant")

/-- The elements of a set, once each. -/
def distinct {α : Type} (eq : α → α → Bool) : List α → List α
  | [] => []
  | x :: xs => if xs.any (eq x) then distinct eq xs else x :: distinct eq xs

/-- Equality of sets. -/
def sameSet {α : Type} (eq : α → α → Bool) (xs ys : List α) : Bool :=
  xs.all (fun x => ys.any (eq x)) && ys.all fun y => xs.any (eq y)

/-- The variants the documents are of. -/
def supplied (keys : List Key) : List Json := distinct Json.eq (keys.map fun key => key.2.2)

def expectedKeys (supplied : List Json) : List Key :=
  cases.flatMap fun benchCase => concurrencies.flatMap fun concurrency =>
    supplied.map fun variant => (.str benchCase.name, .int concurrency, variant)

/-- The documents are those of the candidate pair or of all variants, one for each cell. -/
def checkCells (keys : List Key) (candidate : String) : Except PyError Unit := do
  raiseIf (keys.any fun key => !key.hashable) .typeError
  raiseIf (keys.length != (distinct Key.eq keys).length) (.valueError "duplicate result cell")
  raiseIf (!sameSet Json.eq (supplied keys) [.str "python", .str candidate] &&
      !sameSet Json.eq (supplied keys) [.str "python", .str "c", .str "rust"])
    (.valueError
      "results must contain the candidate pair (12 files) or full matrix (18 files)")
  raiseIf (!sameSet Key.eq keys (expectedKeys (supplied keys)))
    (.valueError "missing or unexpected result cell")

/-- All documents are of one environment. -/
def checkEnvironments (docs : List Json) : Except PyError Unit :=
  match docs.map fun doc => doc.field "environment" with
  | [] => .error (.valueError "all results must use the same environment")
  | first :: rest =>
    raiseIf (!first.isDict || !first.truthy || rest.any fun item => !first.eq item)
      (.valueError "all results must use the same environment")

/-- No document of a variant differs from its first in a field. -/
def checkField (docs : List Json) (variant : Json) (field : String) : Except PyError Unit :=
  match docs with
  | [] => .ok ()
  | first :: rest =>
    raiseIf (rest.any fun doc => !(doc.field field).eq (first.field field))
      (.valueError ((variant.str?.getD "") ++ " " ++ field ++ " attestation drift"))

/-- Each variant has one build and one source. -/
def checkDrift (supplied docs : List Json) : Except PyError Unit :=
  supplied.forM fun variant => do
    let variantDocs := docs.filter fun doc => (doc.field "variant").eq variant
    checkField variantDocs variant "build"
    checkField variantDocs variant "source"

/-- One fixture, which is the golden one. -/
def checkFixtures (docs : List Json) : Except PyError Unit := do
  let fixtures := docs.map fun doc => (doc.field "workload").field "fixture_sha256"
  let goldens := docs.map fun doc => (doc.field "parity").field "golden_sha256"
  raiseIf ((fixtures ++ goldens).any fun value => !value.hashable) .typeError
  raiseIf ((distinct Json.eq fixtures).length != 1 || !sameSet Json.eq fixtures goldens)
    (.valueError "fixture/golden attestation mismatch")

/-- `indexed[key]`. -/
def docAt {α : Type} (entries : List (Key × α)) (benchCase : BenchCase) (concurrency : Nat)
    (variant : Json) : Except PyError α :=
  let key : Key := (.str benchCase.name, .int concurrency, variant)
  match entries.find? fun entry => entry.1.eq key with
  | some entry => .ok entry.2
  | none => .error (.keyError benchCase.name)

structure Comparison where
  benchCase : BenchCase
  concurrency : Nat
  ci : Speedup
  rssRatio : ℚ
  cpuRatio : ℚ
  pythonLatency : Latency
  candidateLatency : Latency
  go : Bool

structure Report where
  candidate : String
  primaryMetric : String
  decision : String
  comparisons : List Comparison

/-- What the gate compares the documents with. -/
structure Limits where
  draws : Draws
  candidate : String
  maxRssRatio : ℚ
  maxCpuRatio : ℚ

/-- The ratio of a resource of two documents. -/
def resourceRatio (key : String) (other py : Json) : Except PyError ℚ := do
  let a ← number ((other.field "resources").field key)
  let b ← number ((py.field "resources").field key)
  divide a b

/-- One cell of the comparison. -/
def compareCell (limits : Limits) (indexed : List (Key × Json)) (latency : List (Key × Latency))
    (benchCase : BenchCase) (concurrency : Nat) : Except PyError Comparison := do
  let py ← docAt indexed benchCase concurrency (.str "python")
  let other ← docAt indexed benchCase concurrency (.str limits.candidate)
  let pyConfig := ((py.field "workload").fieldOr "configuration" (.obj [])).without
    "event_loop_mode"
  let candidateConfig := ((other.field "workload").fieldOr "configuration" (.obj [])).without
    "event_loop_mode"
  raiseIf (!pyConfig.eq candidateConfig)
    (.valueError "candidate workload configuration mismatch")
  let ci ← bootstrapSpeedup limits.draws ((py.field "samples_ms").items?.getD [])
    ((other.field "samples_ms").items?.getD [])
  let rssRatio ← resourceRatio "peak_rss_bytes" other py
  let cpuRatio ← resourceRatio "cpu_time_ms" other py
  let pythonLatency ← docAt latency benchCase concurrency (.str "python")
  let candidateLatency ← docAt latency benchCase concurrency (.str limits.candidate)
  let go := ci.ci95Low > 1 && rssRatio ≤ limits.maxRssRatio && cpuRatio ≤ limits.maxCpuRatio
  .ok { benchCase, concurrency, ci, rssRatio, cpuRatio, pythonLatency, candidateLatency, go }

/-- The result checksums of a case, over all its documents. -/
def caseHashes (indexed : List (Key × Json)) (supplied : List Json) (benchCase : BenchCase) :
    Except PyError (List Json) := do
  let docs ← concurrencies.mapM fun concurrency =>
    supplied.mapM fun variant => docAt indexed benchCase concurrency variant
  .ok (docs.flatten.map fun doc => (doc.field "parity").field "result_sha256")

/-- The comparisons of one case. -/
def compareCase (limits : Limits) (indexed : List (Key × Json)) (latency : List (Key × Latency))
    (supplied : List Json) (benchCase : BenchCase) : Except PyError (List Comparison) := do
  let hashes ← caseHashes indexed supplied benchCase
  raiseIf (hashes.any fun value => !value.hashable) .typeError
  raiseIf ((distinct Json.eq hashes).length != 1 || !((hashes.head?.map truthy).getD false))
    (.valueError (benchCase.name ++ ": result golden mismatch"))
  concurrencies.mapM (compareCell limits indexed latency benchCase)

/-- `evaluate`. -/
def evaluate (limits : Limits) (files : List (String × Json)) : Except PyError Report := do
  raiseIf (limits.candidate != "c" && limits.candidate != "rust")
    (.valueError "candidate must be c or rust")
  raiseIf (!(0 < limits.maxRssRatio) || !(0 < limits.maxCpuRatio))
    (.valueError "resource-ratio limits must be finite and positive")
  let docs ← files.mapM load
  let keys ← docs.mapM keyOf
  checkCells keys limits.candidate
  let latency ← docs.mapM validateDoc
  checkEnvironments docs
  checkDrift (supplied keys) docs
  checkFixtures docs
  let comparisons ← cases.mapM
    (compareCase limits (keys.zip docs) (keys.zip latency) (supplied keys))
  .ok
    { candidate := limits.candidate
      primaryMetric := "paired batch-throughput speedup"
      decision := if comparisons.flatten.all (·.go) then "GO" else "NO-GO"
      comparisons := comparisons.flatten }

end AlphaPipeline.Bench

import AlphaPipeline.Bench.Statistics

/-!
# The benchmark driver

`run_driver_mvp2.py`: the adapters are run in a rotating order, every output is checked, and
the checked records are grouped into result documents. Objects are written with their keys
in order. What lies outside the script is a `Session`: the hash of a text, the adapter
processes and the host.
-/
namespace AlphaPipeline.Bench

open PyJson PyJson.Json Fallible

/-- `CASES`. -/
inductive BenchCase where
  | redisHotPath
  | dbReadWrite
  deriving DecidableEq, Repr

def BenchCase.name : BenchCase → String
  | .redisHotPath => "redis-hot-path"
  | .dbReadWrite => "db-read-write"

def cases : List BenchCase := [.redisHotPath, .dbReadWrite]

/-- `CONCURRENCIES`. -/
def concurrencies : List Nat := [1, 8, 32]

/-- The adapters, in the order they must be supplied in. -/
inductive Variant where
  | python
  | c
  | rust
  deriving DecidableEq, Repr

def Variant.name : Variant → String
  | .python => "python"
  | .c => "c"
  | .rust => "rust"

/-- `EVENT_LOOPS`. -/
def Variant.eventLoop : Variant → String
  | .python => "asyncio"
  | .c => "lws"
  | .rust => "tokio"

def variants : List Variant := [.python, .c, .rust]

/-- What `host_environment` finds out. -/
structure Host where
  hostId : String
  system : String
  kernelRelease : String
  kernelVersion : String
  machine : String
  cpuModel : String
  logicalCpuCount : Option Int
  ramBytes : Option Int
  pythonRuntime : String
  runnerName : String
  runnerOs : String
  runnerArch : String
  runnerImage : String

/-- `host_environment`. -/
def hostEnvironment (host : Host) : Json :=
  let optional : Option Int → Json := fun n => (n.map Json.int).getD .null
  .obj [
    ("cpu_model", .str (if host.cpuModel = "" then "unknown" else host.cpuModel)),
    ("host_id", .str host.hostId),
    ("kernel_release", .str host.kernelRelease),
    ("kernel_version", .str host.kernelVersion),
    ("logical_cpu_count", optional host.logicalCpuCount),
    ("machine", .str host.machine),
    ("python_runtime", .str host.pythonRuntime),
    ("ram_bytes", optional host.ramBytes),
    ("runner_arch", .str host.runnerArch),
    ("runner_image", .str host.runnerImage),
    ("runner_name", .str host.runnerName),
    ("runner_os", .str host.runnerOs),
    ("system", .str host.system)]

/-- One adapter invocation. -/
structure Call where
  command : List String
  benchCase : BenchCase
  concurrency : Nat
  trial : Nat
  trialNamespace : String

/-- How an adapter process ends: with a failure code, with text that is no JSON, or with a
value. -/
inductive Process where
  | exited (returncode : Int) (stderr : String)
  | unparsable (stdout : String)
  | printed (value : Json)

/-- The outside of a benchmark run. `reprFloat` is the text of a float, `sha256` the hex digest of
a text, `display` what an f-string shows of a value. -/
structure Session where
  reprFloat : ℚ → String
  sha256 : String → String
  sha256_length : ∀ text, (sha256 text).length = 64
  display : Json → String
  stdev : List ℚ → ℚ
  fixturePath : String
  fixtureSha : String
  schemaLockSha : String
  host : Host
  process : Call → Process

/-- `canonical`. -/
def Session.canonical (session : Session) (value : Json) : String :=
  value.dumps session.reprFloat ++ "\n"

/-- The fields of a fixture's case; an operation is given by its id. -/
structure CaseConfig where
  operations : List String
  repeats : Int
  connectionCount : Json
  timeoutMs : Json
  terminal : Json
  terminalSha256 : Json

/-- The fields of a fixture's contract. -/
structure Contract where
  pipelineDepth : Json
  queueDepth : Json
  retryPolicy : Json
  saturationPolicy : Json
  serviceConfig : Json
  serviceConfigSha256 : Json
  schemaSha256 : Json

structure Fixture where
  contract : Contract
  redisHotPath : CaseConfig
  dbReadWrite : CaseConfig

def Fixture.config (fixture : Fixture) : BenchCase → CaseConfig
  | .redisHotPath => fixture.redisHotPath
  | .dbReadWrite => fixture.dbReadWrite

/-- A result cell. -/
structure Cell where
  benchCase : BenchCase
  concurrency : Nat
  variant : Variant
  deriving DecidableEq, Repr

structure Record where
  cell : Cell
  trial : Nat
  orderIndex : Nat
  adapter : Json
  attestation : Json
  environment : Json

/-- `positive_number`; every number of the model is finite. -/
def positiveNumber : Json → Bool
  | .int n => n > 0
  | .float x => x > 0
  | _ => false

/-- `positive_int`. -/
def positiveInt : Json → Bool
  | .int n => n > 0
  | _ => false

/-- `exact_value`. -/
def exactValue (actual expected : Json) : Bool := actual.sameType expected && actual.eq expected

/-- `values[key]` for a dict that is no JSON value. -/
def valueOf {α : Type} (values : List (String × α)) (key : String) : Except PyError α :=
  match values.lookup key with
  | some value => .ok value
  | none => .error (.keyError key)

def requiredFields : List String :=
  ["build", "completed_tokens", "configuration", "dropped", "elapsed_ms", "errors",
    "fixture_sha256", "operation_latency_ns", "resources", "result_sha256", "terminal"]

/-- `run_adapter`. -/
def runAdapter (session : Session) (call : Call) : Except PyError Json :=
  let argv := call.command ++ ["--fixture", session.fixturePath, "--case", call.benchCase.name,
    "--concurrency", toString call.concurrency, "--trial", toString call.trial,
    "--namespace", call.trialNamespace]
  match session.process call with
  | .exited returncode stderr =>
    .error (.runtimeError ("adapter failed (" ++ toString returncode ++ "): " ++
      " ".intercalate argv ++ "\n" ++ stderr))
  | .unparsable stdout =>
    .error (.valueError ("adapter did not emit one JSON object: " ++
      session.display (.str stdout)))
  | .printed value => do
    let missing := requiredFields.filter fun key => !value.hasKey key
    raiseIf (!value.isDict || !missing.isEmpty)
      (.valueError ("adapter output missing fields: " ++
        session.display (.arr (missing.map .str))))
    raiseIf (!positiveNumber (value.field "elapsed_ms"))
      (.valueError "elapsed_ms must be finite and positive")
    let resources := value.field "resources"
    raiseIf (!resources.isDict || !positiveInt (resources.field "peak_rss_bytes") ||
        !positiveNumber (resources.field "cpu_time_ms"))
      (.valueError "positive peak_rss_bytes and cpu_time_ms are required")
    .ok value

/-- The completion token of one operation: the iteration with six digits, and the id. -/
def token (iteration : Nat) (id : String) : String :=
  let digits := Nat.toDigits 10 iteration
  String.ofList (List.replicate (6 - digits.length) '0' ++ digits) ++ ":" ++ id

/-- `expected_tokens`. -/
def expectedTokens (config : CaseConfig) : List String :=
  (List.range config.repeats.toNat).flatMap fun iteration => config.operations.map (token iteration)

/-- The number of operations of a trial. -/
def operationCount (config : CaseConfig) : Int := config.operations.length * config.repeats

/-- `expected_config`. -/
def expectedConfig (contract : Contract) (config : CaseConfig) (concurrency : Nat) :
    List (String × Json) :=
  [("concurrency", .int concurrency),
    ("operation_count", .int (operationCount config)),
    ("pipeline_depth", contract.pipelineDepth),
    ("timeout_ms", config.timeoutMs),
    ("worker_count", .int 1),
    ("queue_depth", contract.queueDepth),
    ("connection_count", config.connectionCount),
    ("retry_policy", contract.retryPolicy),
    ("saturation_policy", contract.saturationPolicy),
    ("service_config_sha256", contract.serviceConfigSha256),
    ("schema_sha256", contract.schemaSha256)]

/-- Operation latencies: one positive integer for each token. -/
def validLatencies (latencies : Json) (count : Nat) : Bool :=
  match latencies with
  | .arr items => items.length == count && items.all positiveInt
  | _ => false

/-- The build metadata the driver asks for. -/
def completeBuild (build : Json) : Bool :=
  build.isDict && ["runtime", "compiler", "flags"].all (fun key => (build.field key).isText) &&
    match build.field "dependencies" with
    | .obj fields => !fields.isEmpty && fields.all fun f => f.2.isText
    | _ => false

/-- `type(value) is int`. -/
def isInt : Json → Bool
  | .int _ => true
  | _ => false

/-- The checks `execute` makes on one adapter output. -/
def checkOutput (session : Session) (fixture : Fixture) (minimumElapsedMs : ℚ) (cell : Cell)
    (out : Json) : Except PyError Unit := do
  let caseConfig := fixture.config cell.benchCase
  let contract := fixture.contract
  let variant := cell.variant.name
  let elapsed ← number (out.field "elapsed_ms")
  raiseIf (elapsed < minimumElapsedMs)
    (.valueError (variant ++ ": measured trial " ++ session.display (out.field "elapsed_ms") ++
      "ms is below the " ++ session.display (.float minimumElapsedMs) ++
      "ms timer-noise floor"))
  raiseIf (!(out.field "fixture_sha256").eq (.str session.fixtureSha))
    (.valueError (variant ++ ": fixture checksum mismatch"))
  let tokens := expectedTokens caseConfig
  raiseIf (!(out.field "completed_tokens").eq (.arr (tokens.map .str)))
    (.valueError (variant ++ ": completion tokens differ or are out of order"))
  raiseIf (!validLatencies (out.field "operation_latency_ns") tokens.length)
    (.valueError (variant ++ ": operation latency samples are invalid"))
  raiseIf (!(out.field "terminal").eq caseConfig.terminal)
    (.valueError (variant ++ ": terminal payload differs from committed golden"))
  raiseIf (!(out.field "result_sha256").eq caseConfig.terminalSha256)
    (.valueError (variant ++ ": terminal checksum differs from committed golden"))
  raiseIf (!Json.eq (.str (session.sha256 (session.canonical (out.field "terminal"))))
      (out.field "result_sha256"))
    (.valueError (variant ++ ": terminal payload/checksum mismatch"))
  raiseIf (!isInt (out.field "errors") || !isInt (out.field "dropped"))
    (.valueError (variant ++ ": errors/drops must be exact integers"))
  raiseIf (!(out.field "errors").eq (.int 0) || !(out.field "dropped").eq (.int 0))
    (.valueError (variant ++ ": errors/drops make the trial ineligible"))
  let config := out.field "configuration"
  raiseIf (!config.isDict || (expectedConfig contract caseConfig cell.concurrency).any fun f =>
      !exactValue (config.field f.1) f.2)
    (.valueError (variant ++ ": workload configuration mismatch"))
  raiseIf (!(config.field "event_loop_mode").eq (.str cell.variant.eventLoop))
    (.valueError (variant ++ ": event_loop_mode mismatch"))
  raiseIf (!completeBuild (out.field "build"))
    (.valueError (variant ++ ": incomplete build/dependency metadata"))

/-- The text that must not change between the trials of a cell. -/
def invariantOf (session : Session) (out : Json) : String :=
  session.canonical
    (.obj [("build", out.field "build"), ("configuration", out.field "configuration")])

/-- The variables `execute` carries from one adapter run to the next. -/
structure Progress where
  records : List Record
  invariants : List (Cell × String)

section Loops

variable (session : Session) (fixture : Fixture) (adapters : List (String × List String))
  (attestations : List (String × Json)) (minimumElapsedMs : ℚ)

/-- One adapter run of a trial; the second component is `baseline_hash`. -/
def runVariant (benchCase : BenchCase) (concurrency trial : Nat) (state : Progress × Option Json)
    (entry : Variant × Nat) : Except PyError (Progress × Option Json) := do
  let (variant, orderIndex) := entry
  let cell : Cell := ⟨benchCase, concurrency, variant⟩
  let command ← valueOf adapters variant.name
  let trialNamespace := "mvp2-" ++ benchCase.name ++ "-c" ++ toString concurrency ++ "-t" ++
    toString trial
  let out ← runAdapter session ⟨command, benchCase, concurrency, trial, trialNamespace⟩
  checkOutput session fixture minimumElapsedMs cell out
  let invariant := invariantOf session out
  raiseIf (((state.1.invariants.lookup cell).map (· != invariant)).getD false)
    (.valueError (variant.name ++ ": build/configuration drift within " ++ benchCase.name ++
      "/c" ++ toString concurrency))
  let attestation ← valueOf attestations variant.name
  let record : Record :=
    { cell, trial, orderIndex, adapter := out, attestation
      environment := hostEnvironment session.host }
  .ok (⟨state.1.records ++ [record], (cell, invariant) :: state.1.invariants⟩,
    if variant = .python then some (out.field "result_sha256") else state.2)

/-- The adapters of a trial, rotated by its number. -/
def trialOrder (trial : Nat) : List Variant :=
  variants.drop (trial % variants.length) ++ variants.take (trial % variants.length)

/-- One trial; the second component is `case_result_hash`. -/
def runTrial (benchCase : BenchCase) (concurrency : Nat) (state : Progress × Option Json)
    (trial : Nat) : Except PyError (Progress × Option Json) := do
  let (progress, baseline) ← (trialOrder trial).zipIdx.foldlM
    (runVariant session fixture adapters attestations minimumElapsedMs benchCase concurrency trial)
    (state.1, none)
  match baseline with
  | none => .error (.assertionError "Python baseline did not run")
  | some baselineHash => do
    let trialRecords := progress.records.drop (progress.records.length - variants.length)
    raiseIf (trialRecords.any fun r => !(r.adapter.field "result_sha256").eq baselineHash)
      (.valueError (benchCase.name ++ "/c" ++ toString concurrency ++ "/trial" ++
        toString trial ++ ": parity mismatch"))
    match state.2 with
    | none => .ok (progress, some baselineHash)
    | some caseResultHash => do
      raiseIf (!baselineHash.eq caseResultHash)
        (.valueError (benchCase.name ++ ": nondeterministic result checksum"))
      .ok (progress, some caseResultHash)

/-- The trials of one concurrency. -/
def runConcurrency (trials : Nat) (benchCase : BenchCase) (state : Progress × Option Json)
    (concurrency : Nat) : Except PyError (Progress × Option Json) :=
  (List.range trials).foldlM
    (runTrial session fixture adapters attestations minimumElapsedMs benchCase concurrency) state

/-- The concurrencies of one case. -/
def runCase (trials : Nat) (progress : Progress) (benchCase : BenchCase) :
    Except PyError Progress := do
  let state ← concurrencies.foldlM
    (runConcurrency session fixture adapters attestations minimumElapsedMs trials benchCase)
    (progress, none)
  .ok state.1

end Loops

/-- `value.endswith(":clean")`. -/
def isClean (source : String) : Bool := ":clean".toList.isSuffixOf source.toList

/-- The attestations used when none are given. -/
def testAttestations : List (String × Json) :=
  let test : Json := .obj [("artifact", .str "test"), ("artifact_sha256", .str "test"),
    ("command_sha256", .str "test")]
  variants.map fun variant => (variant.name, test)

/-- `execute`. -/
def execute (session : Session) (fixture : Fixture) (adapters : List (String × List String))
    (sources : List (String × String)) (trials : Nat) (attestations : List (String × Json))
    (minimumTrials : Nat) (minimumElapsedMs : ℚ) : Except PyError (List Record) := do
  raiseIf (trials < minimumTrials)
    (.valueError ("MVP-2 requires at least " ++ toString minimumTrials ++ " trials"))
  raiseIf (adapters.map Prod.fst != variants.map Variant.name)
    (.valueError "adapters must be supplied once and in python,c,rust order")
  raiseIf (!((sources.map Prod.fst).all fun key => key ∈ variants.map Variant.name) ||
      !(variants.all fun variant => variant.name ∈ sources.map Prod.fst) ||
      sources.any fun source => !isClean source.2)
    (.valueError "every adapter requires --source VARIANT=COMMIT:clean")
  let contract := fixture.contract
  raiseIf (!Json.eq (.str (session.sha256 (session.canonical contract.serviceConfig)))
      contract.serviceConfigSha256)
    (.valueError "fixture service configuration checksum mismatch")
  raiseIf (!Json.eq (.str session.schemaLockSha) contract.schemaSha256)
    (.valueError "fixture schema checksum mismatch")
  let attestations := if attestations.isEmpty then testAttestations else attestations
  let progress ← cases.foldlM
    (runCase session fixture adapters attestations minimumElapsedMs trials) ⟨[], []⟩
  .ok progress.records

/-- `summary`. -/
def summary (session : Session) (values : List ℚ) (unit : String) : Except PyError Json := do
  let maximum ← maximum values
  let middle ← median values
  let minimum ← minimum values
  let p95 ← percentile values (95 / 100)
  let p99 ← percentile values (99 / 100)
  raiseIf (values.length < 2) .statisticsError
  .ok (.obj [("max_" ++ unit, .float maximum), ("median_" ++ unit, .float middle),
    ("min_" ++ unit, .float minimum), ("p95_" ++ unit, .float p95), ("p99_" ++ unit, .float p99),
    ("sample_count", .int values.length), ("stddev_" ++ unit, .float (session.stdev values))])

/-- `source.rsplit(":", 1)`, when there is a colon. -/
def rsplitColon (source : String) : Option (String × String) :=
  let reversed := source.toList.reverse
  match reversed.dropWhile (· != ':') with
  | [] => none
  | _ :: before =>
    some (String.ofList before.reverse, String.ofList (reversed.takeWhile (· != ':')).reverse)

/-- `a + b` on numbers. -/
def addNumbers : Json → Json → Except PyError Json
  | .int a, .int b => .ok (.int (a + b))
  | a, b => do
    let x ← number a
    let y ← number b
    .ok (.float (x + y))

/-- `sum`. -/
def sumNumbers (values : List Json) : Except PyError Json := values.foldlM addNumbers (.int 0)

/-- The larger of two numbers, the first one of equals. -/
def maxNumbers (a b : Json) : Except PyError Json := do
  let x ← number a
  let y ← number b
  .ok (if y > x then b else a)

/-- `max`. -/
def largest : List Json → Except PyError Json
  | [] => .error (.valueError "max() arg is an empty sequence")
  | first :: rest => rest.foldlM maxNumbers first

/-- `item["adapter"].get("resources", {})`. -/
def Record.resources (record : Record) : Json := record.adapter.fieldOr "resources" (.obj [])

/-- What `build_results` computes from the records of a cell. -/
structure Measured where
  samples : List ℚ
  throughput : List ℚ
  commit : String
  summaryMs : Json
  summaryOps : Json
  peakRss : Json
  cpuTime : Json

/-- The figures of one cell. -/
def measure (session : Session) (sources : List (String × String)) (cell : Cell) (first : Record)
    (group : List Record) : Except PyError Measured := do
  let samples ← group.mapM fun r => number (r.adapter.field "elapsed_ms")
  let operationCount ← number ((first.adapter.field "configuration").field "operation_count")
  let throughput ← samples.mapM fun sample => divide (operationCount * 1000) sample
  let source ← valueOf sources cell.variant.name
  let commit ← match rsplitColon source with
    | some (commit, _) => .ok commit
    | none => .error (.valueError "not enough values to unpack (expected 2, got 1)")
  let summaryMs ← summary session samples "ms"
  let summaryOps ← summary session throughput "ops_s"
  let peakRss ← largest (group.map fun r => r.resources.fieldOr "peak_rss_bytes" (.int 0))
  let cpuTime ← sumNumbers (group.map fun r => r.resources.fieldOr "cpu_time_ms" (.int 0))
  .ok { samples, throughput, commit, summaryMs, summaryOps, peakRss, cpuTime }

/-- The document of one cell. -/
def resultDocument (session : Session) (cell : Cell) (first : Record) (group : List Record)
    (measured : Measured) : Json :=
  .obj [
    ("build", first.adapter.field "build"),
    ("case", .str cell.benchCase.name),
    ("eligible", .bool true),
    ("environment", first.environment),
    ("errors", .obj [("count", .int 0), ("dropped", .int 0)]),
    ("operation_latency_ns_samples",
      .arr (group.map fun r => r.adapter.field "operation_latency_ns")),
    ("parity", .obj [("golden_sha256", .str session.fixtureSha), ("passed", .bool true),
      ("result_sha256", first.adapter.field "result_sha256")]),
    ("resource_samples", .arr (group.map Record.resources)),
    ("resources", .obj [("cpu_time_ms", measured.cpuTime), ("peak_rss_bytes", measured.peakRss)]),
    ("samples_ms", .arr (measured.samples.map .float)),
    ("source", .obj [("adapter", first.attestation), ("commit", .str measured.commit),
      ("dirty", .bool false)]),
    ("summary", measured.summaryMs),
    ("throughput_ops_s_samples", .arr (measured.throughput.map .float)),
    ("throughput_summary", measured.summaryOps),
    ("trial_order_index", .arr (group.map fun r => .int r.orderIndex)),
    ("variant", .str cell.variant.name),
    ("workload", .obj [("concurrency", .int cell.concurrency),
      ("configuration", first.adapter.field "configuration"),
      ("fixture_sha256", .str session.fixtureSha), ("rotation", .str "latin-3"),
      ("trials", .int group.length)])]

/-- The loop body of `build_results`. -/
def buildResult (session : Session) (sources : List (String × String)) (cell : Cell)
    (group : List Record) : Except PyError Json :=
  match group with
  | [] => .error .indexError
  | first :: _ => do
    let measured ← measure session sources cell first group
    .ok (resultDocument session cell first group measured)

/-- The order of the result cells: by the names of the key tuple. -/
def Cell.le (a b : Cell) : Bool :=
  a.benchCase.name < b.benchCase.name ||
    (a.benchCase = b.benchCase && (a.concurrency < b.concurrency ||
      (a.concurrency = b.concurrency && a.variant.name ≤ b.variant.name)))

/-- The cells that have records, in order. -/
def resultCells (records : List Record) : List Cell :=
  (records.map Record.cell).dedup.insertionSort fun a b => a.le b = true

/-- The records of a cell, by trial. -/
def groupOf (records : List Record) (cell : Cell) : List Record :=
  (records.filter fun r => r.cell = cell).insertionSort fun a b => a.trial ≤ b.trial

/-- `build_results`. -/
def buildResults (session : Session) (sources : List (String × String)) (records : List Record) :
    Except PyError (List Json) :=
  (resultCells records).mapM fun cell => buildResult session sources cell (groupOf records cell)

/-- The file `main` writes a document to, as the gate reads it. -/
def resultFile (session : Session) (doc : Json) : String × Json :=
  (session.display (doc.field "case") ++ "-c" ++
    session.display ((doc.field "workload").field "concurrency") ++ "-" ++
    session.display (doc.field "variant") ++ ".json", doc)

end AlphaPipeline.Bench

import Mathlib
import AlphaPipeline.Apps.DriverAdapter
import AlphaPipeline.Bench.Completeness

/-!
# The C adapter as a process

`main` of `c_driver_adapter.c`, from the arguments the driver starts it with to the document the
driver checks. Much of that document is not measured or read: the adapter prints the numbers it is
built for, and the driver compares them with the fixture.
-/
namespace AlphaPipeline.DriverAdapter

open PyJson PyJson.Json Fallible
open Postgres (Position Exposure)
open Bench (BenchCase)

/-! ### Arguments -/

/-- `arg_value`, on the arguments after the name of the program. A value is read as a name too. -/
def argValue (name : Text) : List Text → Option Text
  | word :: value :: rest => if word = name then some value else argValue name (value :: rest)
  | _ => none

/-- `strtoul(text, &end, 10)`: the value, and the text at `end`. -/
def strtoul (text : Text) : Nat × Text :=
  let (negative, body) := splitSign (text.dropWhile isSpace)
  let digits := body.takeWhile Char.isDigit
  if digits.isEmpty then (0, text)
  else
    let magnitude := Nat.ofDigitChars 10 digits 0
    let value :=
      if magnitude ≥ 2 ^ 64 then 2 ^ 64 - 1
      else if negative then (2 ^ 64 - magnitude) % 2 ^ 64
      else magnitude
    (value, body.dropWhile Char.isDigit)

/-- The concurrency, if it is an admitted one. -/
def readConcurrency (text : Text) : Option Nat :=
  let (value, rest) := strtoul text
  if text = [] ∨ rest ≠ [] ∨ (value ≠ 1 ∧ value ≠ 8 ∧ value ≠ 32) then none else some value

/-- `yyjson_get_uint`: the bits of a 64-bit integer, and 0 for anything else. -/
def getUint : Json → Nat
  | .int n => if -2 ^ 63 ≤ n ∧ n < 2 ^ 64 then (n % 2 ^ 64).toNat else 0
  | _ => 0

/-- A fixture file: its checksum, what the driver reads of it, and the `pipeline_depth` of each
case, which only the adapter reads. -/
structure Document where
  sha256 : String
  fixture : Bench.Fixture
  caseDepth : BenchCase → Json

/-- What `main` takes from its arguments and the fixture. -/
structure Request where
  fixtureSha : String
  benchCase : BenchCase
  concurrency : Nat
  repeats : Nat
  namespaceText : Text
  terminal : Json
  terminalHash : String
  serviceHash : String
  schemaHash : String

/-- The first part of `main`; `documents` are the files that can be read, hashed and parsed. Where
there is no request, it returns 2. -/
def readRequest (documents : Text → Option Document) (argv : List Text) : Option Request := do
  let fixturePath ← argValue "--fixture".toList argv
  let caseName ← argValue "--case".toList argv
  let concurrencyText ← argValue "--concurrency".toList argv
  let trialText ← argValue "--trial".toList argv
  let namespaceText :=
    (argValue "--namespace".toList argv).getD (("c-trial-".toList ++ trialText).take 95)
  let concurrency ← readConcurrency concurrencyText
  let document ← documents fixturePath
  let benchCase ← Bench.cases.find? fun known => known.name.toList = caseName
  let config := document.fixture.config benchCase
  let terminalHash ← config.terminalSha256.str?
  let serviceHash ← document.fixture.contract.serviceConfigSha256.str?
  let schemaHash ← document.fixture.contract.schemaSha256.str?
  let repeats := getUint (.int config.repeats)
  if repeats = 0 ∨ getUint (document.caseDepth benchCase) ≠ 1 ∨ namespaceText.length ≥ 96 then none
  else
    some ⟨document.sha256, benchCase, concurrency, repeats, namespaceText, config.terminal,
      terminalHash, serviceHash, schemaHash⟩

/-! ### The run -/

/-- `namespace_hash`. -/
def namespaceHash (text : Text) : UInt32 :=
  text.foldl (fun hash c => (hash ^^^ c.val) * 16777619) 2166136261

/-- The format `%08x`. -/
def printHex (n : UInt32) : Text :=
  let digits := Nat.toDigits 16 n.toNat
  List.replicate (8 - digits.length) '0' ++ digits

/-- `redis_value`. -/
def redisValue : Text := "\x7b\"price\":70000,\"volume\":10\x7d".toList

/-- A row of `db_rows` as `main` fills it. -/
def firstRow (ticker : Text) (i : Nat) : Position where
  ticker := ticker
  name := "MVP-2 fixture".toList
  quantity := if i = 0 then 10 else 20
  avgPrice := 1000
  currentPrice := if i = 0 then 1000 else 1200
  isPaper := true
  accountScope := "paper".toList
  strategyId := if i = 0 then "strategy-a".toList else "strategy-b".toList

def zeroRow : Position := ⟨[], [], 0, 0, 0, false, [], []⟩

def zeroExposure : Exposure := ⟨[], 0, 0, 0, 0, 0⟩

/-- What `main` does not decide: whether its allocations succeed, the flags that the set-up and
`wait_connection` leave, the run of the loop, and what is measured. -/
structure Surroundings where
  allocated : Bool
  failed : Bool
  connected : Bool
  started : Nat
  turns : List Turn
  elapsedMs : ℚ
  cpuTimeMs : ℚ
  peakRssBytes : Int
  compiler : String

/-- `total`, a `size_t`. -/
def Request.total (request : Request) : Nat := request.repeats * opCount % 2 ^ 64

/-- The adapter that `main` sets up. -/
def Request.start (request : Request) (given : Surroundings) : World :=
  let hash := printHex (namespaceHash request.namespaceText)
  match request.benchCase with
  | .redisHotPath =>
    World.start .redis request.total given.failed given.connected ("005930:".toList ++ hash)
      request.namespaceText redisValue (fun _ => zeroRow) zeroExposure
  | .dbReadWrite =>
    World.start .db request.total given.failed given.connected ('M' :: hash)
      request.namespaceText redisValue (firstRow ('M' :: hash)) zeroExposure

def Request.driven (request : Request) (given : Surroundings) : World × Option Bool :=
  drive (given.started + 5000000000) (request.start given) given.turns

/-- `terminal_matches_service`. -/
def terminalMatchesService (a : Adapter) : Bool :=
  match a.kind with
  | .redis => a.completed = a.total
  | .db =>
    !((a.dbRows 0).strategyId != "strategy-a".toList || (a.dbRows 0).quantity != 10 ||
      (a.dbRows 0).currentPrice != 1000 || (a.dbRows 1).strategyId != "strategy-b".toList ||
      (a.dbRows 1).quantity != 20 || (a.dbRows 1).currentPrice != 1200 ||
      a.exposure.totalQuantity != 30 || a.exposure.totalMarketValue != 34000)

/-- `emit`, as the value of what it prints. -/
def emit (request : Request) (given : Surroundings) (a : Adapter) : Json :=
  .obj [
    ("build", .obj [
      ("compiler", .str given.compiler),
      ("dependencies", .obj [("hiredis", .str "linked"), ("libpq", .str "linked"),
        ("libwebsockets", .str "4.3.3-v4.3.3"), ("openssl", .str "linked")]),
      ("flags", .str "C11 -ffp-contract=off"), ("runtime", .str "C11")]),
    ("completed_ids", .arr ((List.range opCount).map fun i => .str (operationId a.kind i))),
    ("completed_tokens", .arr ((emitTokens a).map .str)),
    ("configuration", .obj [
      ("concurrency", .int request.concurrency), ("connection_count", .int 1),
      ("event_loop_mode", .str "lws"), ("operation_count", .int a.total),
      ("pipeline_depth", .int 1), ("queue_depth", .int 1), ("retry_policy", .str "none"),
      ("saturation_policy", .str "bounded_wait"), ("schema_sha256", .str request.schemaHash),
      ("service_config_sha256", .str request.serviceHash), ("timeout_ms", .int 5000),
      ("worker_count", .int 1)]),
    ("dropped", .int 0),
    ("elapsed_ms", .float given.elapsedMs),
    ("errors", .int 0),
    ("fixture_sha256", .str request.fixtureSha),
    ("operation_latency_ns", .arr ((emitLatencies a).map fun v : Nat => .int v)),
    ("resources", .obj [("cpu_time_ms", .float given.cpuTimeMs),
      ("peak_rss_bytes", .int given.peakRssBytes)]),
    ("result_sha256", .str request.terminalHash),
    ("terminal", request.terminal),
    ("trial_namespace", .str (String.ofList a.namespaceText))]

/-- How the process ends: with 2, with 1, or with 0 and a document. -/
inductive Exit where
  | refused
  | failed (submitted completed : Nat)
  | printed (out : Json)

/-- `main`, if it ends. -/
def main (documents : Text → Option Document) (argv : List Text) (given : Surroundings) :
    Option Exit :=
  match readRequest documents argv with
  | none => some .refused
  | some request =>
    if !given.allocated then some .refused
    else
      match request.driven given with
      | (_, none) => none
      | (w, some ok) =>
        if ok && terminalMatchesService w.adapter then
          some (.printed (emit request given w.adapter))
        else some (.failed w.adapter.submitted w.adapter.completed)

/-! ### What the driver starts -/

/-- The names that `main` looks for. -/
def flags : List String := ["--fixture", "--case", "--concurrency", "--trial", "--namespace"]

section Driver

variable {session : Bench.Session} {call : Bench.Call}

end Driver

/-! ### What the driver accepts -/

theorem exactValue_int {n : Int} {expected : Json} :
    Bench.exactValue (.int n) expected = true ↔ expected = .int n := by
  cases expected <;> simp [Bench.exactValue, sameType, Json.eq, number?]

section Checks

variable {document : Document} {call : Bench.Call} {request : Request} {given : Surroundings}
  {a : Adapter}

end Checks

end AlphaPipeline.DriverAdapter

import AlphaPipeline.CRuntime
import AlphaPipeline.Numeric.Round

/-!
# The PostgreSQL client

`postgres.c` over libpq. Every libpq call answers what the environment says, and a callback
may submit further requests. The client is modelled together with the trace of what it did
to the outside: queries and sync markers handed to libpq, results taken from it, callbacks
run. The text and parameter types of the SQL statements are fixed by the kind of request.
-/
namespace AlphaPipeline.Postgres

/-- `alpha_pg_state_t`. -/
inductive PgState where
  | connecting
  | ready
  | failed
  deriving DecidableEq, Repr

/-- `PostgresPollingStatusType`. -/
inductive Polling where
  | failed
  | reading
  | writing
  | ok
  deriving DecidableEq, Repr

/-- `alpha_pg_result_kind_t`. -/
inductive ResultKind where
  | position
  | exposure
  deriving DecidableEq, Repr, Inhabited

/-- `ExecStatusType`; the statuses the client does not tell apart are `other`. -/
inductive ExecStatus where
  | tuplesOk
  | pipelineSync
  | pipelineAborted
  | other (code : Nat)
  deriving DecidableEq, Repr

/-- `pending_request_t`; the initial value is the zeroed slot `calloc` leaves. -/
structure PendingRequest where
  kind : ResultKind
  callback : Option Nat
  userData : Nat
  deriving DecidableEq, Repr, Inhabited

/-- `struct alpha_pg`, without the libpq connection. -/
structure AlphaPg where
  state : PgState
  connectPoll : Polling
  flushPending : Bool
  syncSent : Bool
  fifo : List PendingRequest
  capacity : Nat
  head : Nat
  count : Nat
  error : Text
  deriving DecidableEq, Repr

/-- `alpha_pg_position_t`. -/
structure Position where
  ticker : Text
  name : Text
  quantity : Int
  avgPrice : Int
  currentPrice : Int
  isPaper : Bool
  accountScope : Text
  strategyId : Text
  deriving DecidableEq, Repr

/-- `alpha_pg_exposure_t`. -/
structure Exposure where
  ticker : Text
  totalQuantity : Int
  totalMarketValue : Int
  totalAum : Int
  strategyCount : Int
  exposurePct : ℚ
  deriving DecidableEq

inductive Value where
  | position (value : Position)
  | exposure (value : Exposure)
  deriving DecidableEq

/-- `alpha_pg_result_t`; the value is absent where the client leaves it unspecified. -/
structure PgOutcome where
  kind : ResultKind
  status : AlphaErr
  value : Option Value
  deriving DecidableEq

/-- A libpq result: its status, the rows of column texts, and its error message. -/
structure PgResult where
  status : ExecStatus
  rows : List (List Text)
  errorMessage : Text
  deriving DecidableEq, Repr

/-- What the client does to the outside. A result is recorded with the number of requests
that were pending when it was taken. -/
inductive Effect where
  | sent (request : PendingRequest) (params : List Text)
  | synced
  | took (status : ExecStatus) (pending : Nat)
  | called (callback : Nat) (outcome : PgOutcome) (userData : Nat)
  deriving DecidableEq

structure Client where
  db : AlphaPg
  trace : List Effect

def Client.emit (c : Client) (effect : Effect) : Client := { c with trace := c.trace ++ [effect] }

/-! ### Texts and rows -/

/-- `ALPHA_PG_TEXT_CAP`. -/
def textCap : Nat := 64

/-- `set_error`. -/
def setError (db : AlphaPg) (message : Option Text) : AlphaPg :=
  { db with error := (message.getD "unknown libpq error".toList).take 255 }

/-- `copy_text`. -/
def copyText (cap : Nat) : Option Text → Option Text
  | none => none
  | some src => if src.length ≥ cap then none else some src

/-- `parse_i64`. -/
def parseI64 (text : Text) : Option Int :=
  let parsed := strtoll text
  if parsed.erange || !parsed.converted || parsed.rest != [] then none else some parsed.value

/-- `parse_i32`. -/
def parseI32 (text : Text) : Option Int := do
  let value ← parseI64 text
  if value < -2147483648 ∨ value > 2147483647 then none else some value

/-- `PQgetvalue(pg, 0, column)` on a result with one row. -/
def PgResult.getValue (pg : PgResult) (column : Nat) : Option Text :=
  pg.rows.head?.bind fun row => row[column]?

/-- `parse_position`. -/
def parsePosition (pg : PgResult) : Option Position := do
  if pg.rows.length ≠ 1 then none
  let ticker ← copyText textCap (pg.getValue 0)
  let name ← copyText textCap (pg.getValue 1)
  let quantity ← (pg.getValue 2).bind parseI32
  let avgPrice ← (pg.getValue 3).bind parseI32
  let currentPrice ← (pg.getValue 4).bind parseI32
  let accountScope ← copyText textCap (pg.getValue 6)
  let strategyId ← copyText textCap (pg.getValue 7)
  some ⟨ticker, name, quantity, avgPrice, currentPrice, pg.getValue 5 == some "t".toList,
    accountScope, strategyId⟩

/-- `parse_exposure`. -/
def parseExposure (pg : PgResult) : Option Exposure := do
  if pg.rows.length ≠ 1 then none
  let ticker ← copyText textCap (pg.getValue 0)
  let totalQuantity ← (pg.getValue 1).bind parseI64
  let totalMarketValue ← (pg.getValue 2).bind parseI64
  let totalAum ← (pg.getValue 3).bind parseI64
  let strategyCount ← (pg.getValue 4).bind parseI32
  let unrounded : ℚ := if totalAum > 0 then totalMarketValue / totalAum * 100 else 0
  some ⟨ticker, totalQuantity, totalMarketValue, totalAum, strategyCount,
    alphaRoundDp unrounded 2⟩

/-! ### Submitting requests -/

/-- What libpq answers when a query is sent: whether it takes it, its error message, and
what the flush that follows returns. -/
structure SendAnswer where
  accepted : Bool
  errorMessage : Text
  flush : Int
  deriving DecidableEq, Repr

/-- `send_request`, the statement being that of the kind. -/
def sendRequest (c : Client) (kind : ResultKind) (params : List Text) (callback : Option Nat)
    (userData : Nat) (libpq : SendAnswer) : AlphaErr × Client :=
  if c.db.state ≠ .ready then (.invalidArg, c)
  else if c.db.count = c.db.capacity then (.range, c)
  else if c.db.syncSent then (.range, c)
  else if !libpq.accepted then (.db, { c with db := setError c.db (some libpq.errorMessage) })
  else
    let request : PendingRequest := ⟨kind, callback, userData⟩
    let tail := (c.db.head + c.db.count) % c.db.capacity
    let db := { c.db with
      fifo := c.db.fifo.set tail request
      count := c.db.count + 1
      flushPending := libpq.flush != 0 }
    (.ok, { c with db := db }.emit (.sent request params))

/-- A call of one of the two submission functions, with libpq's answer to it. -/
inductive Submission where
  | upsertPosition (position : Option Position) (callback : Option Nat) (userData : Nat)
      (libpq : SendAnswer)
  | queryExposure (ticker : Option Text) (callback : Option Nat) (userData : Nat)
      (libpq : SendAnswer)

/-- `alpha_pg_upsert_position`. -/
def alphaPgUpsertPosition (c : Client) (position : Option Position) (callback : Option Nat)
    (userData : Nat) (libpq : SendAnswer) : AlphaErr × Client :=
  match position with
  | none => (.invalidArg, c)
  | some p =>
    if p.ticker = [] ∨ p.name = [] ∨ p.quantity ≤ 0 ∨ p.accountScope = [] then (.invalidArg, c)
    else
      let params := [p.ticker, p.name, printDecimal p.quantity, printDecimal p.avgPrice,
        printDecimal p.currentPrice, (if p.isPaper then "true" else "false").toList,
        p.accountScope, p.strategyId]
      sendRequest c .position params callback userData libpq

/-- `alpha_pg_query_exposure`. -/
def alphaPgQueryExposure (c : Client) (ticker : Option Text) (callback : Option Nat)
    (userData : Nat) (libpq : SendAnswer) : AlphaErr × Client :=
  match ticker with
  | none => (.invalidArg, c)
  | some text =>
    if text = [] ∨ text.length ≥ textCap then (.invalidArg, c)
    else sendRequest c .exposure [text] callback userData libpq

def submit (c : Client) : Submission → AlphaErr × Client
  | .upsertPosition position callback userData libpq =>
    alphaPgUpsertPosition c position callback userData libpq
  | .queryExposure ticker callback userData libpq =>
    alphaPgQueryExposure c ticker callback userData libpq

/-! ### Draining results -/

/-- libpq before one turn of the drain loop: busy, or not busy with no result or with one.
A result comes with what the callback that receives it submits. -/
inductive Answer where
  | busy
  | null
  | result (pg : PgResult) (reaction : List Submission)

/-- `db->fifo[db->head]`. -/
def AlphaPg.front (db : AlphaPg) : PendingRequest := db.fifo.getD db.head default

/-- The head moves past its request. -/
def AlphaPg.pop (db : AlphaPg) : AlphaPg :=
  { db with head := (db.head + 1) % db.capacity, count := db.count - 1 }

/-- `complete_head`; the callback submits its reaction while it runs. -/
def completeHead (c : Client) (outcome : PgOutcome) (reaction : List Submission) : Client :=
  let request := c.db.front
  let popped := { c with db := c.db.pop }
  match request.callback with
  | none => popped
  | some callback =>
    reaction.foldl (fun c s => (submit c s).2)
      (popped.emit (.called callback outcome request.userData))

/-- The value a result is parsed to, for the kind of the request at the head. -/
def parseValue (kind : ResultKind) (pg : PgResult) : Option Value :=
  if pg.status = .tuplesOk then
    match kind with
    | .position => (parsePosition pg).map .position
    | .exposure => (parseExposure pg).map .exposure
  else none

/-- The body of the drain loop for a query result while requests are pending. -/
def deliver (c : Client) (pg : PgResult) (reaction : List Submission) : Client :=
  let kind := c.db.front.kind
  match parseValue kind pg with
  | some value => completeHead c ⟨kind, .ok, some value⟩ reaction
  | none =>
    let message := if pg.status = .pipelineAborted then
      "request aborted by an earlier pipeline statement".toList else pg.errorMessage
    completeHead { c with db := setError c.db (some message) } ⟨kind, .db, none⟩ reaction

/-- `drain_results` on the answers libpq gives turn by turn. The status is absent while the
loop still runs after the last of them. -/
def drainResults : List Answer → Client → Option AlphaErr × Client
  | [], c => (none, c)
  | .busy :: _, c => (some .ok, c)
  | .null :: rest, c =>
    if c.db.count > 0 || c.db.syncSent then drainResults rest c else (some .ok, c)
  | .result pg reaction :: rest, c =>
    let taken := c.emit (.took pg.status c.db.count)
    if pg.status = .pipelineSync then
      drainResults rest { taken with db := { c.db with syncSent := false } }
    else if c.db.count = 0 then
      let orphan := setError c.db (some "libpq result arrived without a queued request".toList)
      (some .db, { taken with db := { orphan with state := .failed } })
    else drainResults rest (deliver taken pg reaction)

/-! ### Connecting and servicing -/

/-- What the allocator and libpq answer while a connection is started. -/
structure StartAnswer where
  dbAllocated : Bool
  fifoAllocated : Bool
  started : Bool
  bad : Bool
  nonblocking : Bool
  errorMessage : Text
  deriving DecidableEq, Repr

/-- `alpha_pg_connect_start`; `out` says whether the caller passed a place for the client. -/
def alphaPgConnectStart (conninfo : Option Text) (pipelineDepth : Nat) (out : Bool)
    (env : StartAnswer) : AlphaErr × Option AlphaPg :=
  if conninfo = none ∨ out = false ∨ pipelineDepth < 1 ∨ pipelineDepth > 64 then
    (.invalidArg, none)
  else if !env.dbAllocated then (.io, none)
  else if !env.fifoAllocated then (.io, none)
  else if !env.started then (.db, none)
  else
    let db : AlphaPg := ⟨.connecting, .writing, false, false,
      List.replicate pipelineDepth default, pipelineDepth, 0, 0, []⟩
    if env.bad || !env.nonblocking then
      (.db, some { setError db (some env.errorMessage) with state := .failed })
    else (.ok, some db)

/-- What libpq answers during one call of `alpha_pg_service`. -/
structure ServiceAnswer where
  connectPoll : Polling
  pipelineMode : Bool
  sync : Bool
  flush : Int
  consumed : Bool
  errorMessage : Text
  answers : List Answer

/-- `service_connect`. -/
def serviceConnect (db : AlphaPg) (readable writable : Bool) (env : ServiceAnswer) :
    AlphaErr × AlphaPg :=
  if (db.connectPoll = .reading ∧ readable) ∨ (db.connectPoll = .writing ∧ writable) then
    let polled := { db with connectPoll := env.connectPoll }
    if env.connectPoll = .failed ∨ (env.connectPoll = .ok ∧ env.pipelineMode = false) then
      (.db, { setError polled (some env.errorMessage) with state := .failed })
    else if env.connectPoll = .ok then (.ok, { polled with state := .ready })
    else (.ok, polled)
  else (.ok, db)

/-- The sync marker, sent when the socket is writable and requests are pending. -/
def serviceSync (c : Client) (writable : Bool) (env : ServiceAnswer) : Option AlphaErr × Client :=
  if writable && decide (c.db.count > 0) && !c.db.syncSent then
    if !env.sync then
      (some .db, { c with db := { setError c.db (some env.errorMessage) with state := .failed } })
    else (none, { c with db := { c.db with syncSent := true, flushPending := true } }.emit .synced)
  else (none, c)

/-- The flush of pending output. -/
def serviceFlush (c : Client) (writable : Bool) (env : ServiceAnswer) : Option AlphaErr × Client :=
  if writable && c.db.flushPending then
    if env.flush < 0 then (some .db, { c with db := setError c.db (some env.errorMessage) })
    else (none, { c with db := { c.db with flushPending := env.flush != 0 } })
  else (none, c)

/-- `alpha_pg_service`. The status is absent while the drain loop still runs. -/
def alphaPgService (c : Client) (readable writable : Bool) (env : ServiceAnswer) :
    Option AlphaErr × Client :=
  match c.db.state with
  | .failed => (some .invalidArg, c)
  | .connecting =>
    let (status, db) := serviceConnect c.db readable writable env
    (some status, { c with db := db })
  | .ready =>
    match serviceSync c writable env with
    | (some status, c) => (some status, c)
    | (none, c) =>
      match serviceFlush c writable env with
      | (some status, c) => (some status, c)
      | (none, c) =>
        if readable then
          if !env.consumed then (some .db, { c with db := setError c.db (some env.errorMessage) })
          else drainResults env.answers c
        else (some .ok, c)

/-- `alpha_pg_is_idle`. -/
def alphaPgIsIdle (db : AlphaPg) : Bool :=
  !(decide (db.count ≠ 0) || db.syncSent || db.flushPending)

end AlphaPipeline.Postgres

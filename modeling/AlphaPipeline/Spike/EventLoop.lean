import AlphaPipeline.Cache.RedisServer

/-!
# The event-loop spike

`spike/event_loop/main.c` drives a PostgreSQL, a Redis and an HTTP client from one
libwebsockets loop and exits with success if each of them has shown what it was started for.
The model follows the callbacks; what libpq, hiredis, libcurl and `poll` answer is given with
each of them. Waking the loop up has no effect of its own and is left out. Touching a Redis
context after hiredis has freed it is undefined and recorded as a fault.
-/
namespace AlphaPipeline.Spike

open Redis (Reply)

/-- `pg_state`: 0, 2 and 3. -/
inductive PgState where
  | connecting
  | aborting
  | recovering
  deriving DecidableEq

/-- `ExecStatusType`, as far as its values are told apart. -/
inductive ExecStatus where
  | tuplesOk
  | fatalError
  | pipelineAborted
  | pipelineSync
  | other
  deriving DecidableEq

/-- What is read of a `PGresult`: its status, the number of rows and the first value. -/
structure PgResult where
  status : ExecStatus
  rows : Nat
  value : Text
  deriving DecidableEq

/-- The commands the loop sends. -/
inductive RedisCommand where
  | set
  | get
  | ping
  deriving DecidableEq

/-- `SET` is sent without a callback. -/
def RedisCommand.hasCallback : RedisCommand → Bool
  | .set => false
  | .get | .ping => true

/-- A hiredis context: whether it is connected, whether `redisAsyncDisconnect` was called, and the
commands without a reply. -/
structure Context where
  connected : Bool
  disconnecting : Bool
  pending : List RedisCommand
  deriving DecidableEq

/-- `app->redis`. -/
inductive RedisPointer where
  | null
  | live (context : Context)
  | freed
  deriving DecidableEq

/-- `CURL_POLL_NONE` to `CURL_POLL_REMOVE`. -/
inductive CurlPoll where
  | none
  | input
  | output
  | inout
  | remove
  deriving DecidableEq

def CurlPoll.reads : CurlPoll → Bool
  | .input | .inout => true
  | _ => false

def CurlPoll.writes : CurlPoll → Bool
  | .output | .inout => true
  | _ => false

/-- `watched_fd_t` of a socket of libcurl. -/
structure CurlWatch where
  fd : Int
  action : CurlPoll
  deriving DecidableEq

/-- `request_t`. -/
structure Request where
  id : Nat
  cancelled : Bool
  deriving DecidableEq

/-- `struct app`, without its handles. `assigned` is what `curl_multi_assign` keeps: the watch of a
socket by its place in `curl_watches`. -/
structure App where
  pgState : PgState
  pgRoundtrip : Bool
  pgAbortSeen : Bool
  pgSyncSeen : Bool
  pgRecovered : Bool
  redis : RedisPointer
  redisGeneration : Nat
  redisRoundtrip : Bool
  redisDisconnect : Bool
  redisRecovered : Bool
  curlWatches : List CurlWatch
  assigned : Int → Option Nat
  curlRoundtrip : Bool
  curlStatus : Int
  queue : List Request
  backpressure : Bool
  cancellation : Bool
  requestMatch : Bool
  cleanShutdown : Bool
  failed : Bool

/-- What the loop is told, asks for and reports. -/
inductive Effect where
  | failure (message : String)
  | pgInitial
  | pgResult (result : PgResult)
  | pgRecovery
  | redisConnected (generation : Nat)
  | redisReply (generation : Nat) (reply : Reply)
  | redisClosed (generation : Nat)
  | curlAction (fd : Int) (action : Nat)
  | curlSocket (fd : Int) (what : CurlPoll) (answer : Int)
  | curlDone (result status : Int)

/-- The app, what has happened, whether a tick is scheduled, and whether a freed context was
touched. -/
structure World where
  app : App
  log : List Effect
  scheduled : Bool
  fault : Bool

def World.emit (w : World) (effect : Effect) : World := { w with log := w.log ++ [effect] }

/-- `fail`. -/
def World.fail (w : World) (message : String) : World :=
  { w with app := { w.app with failed := true } }.emit (.failure message)

/-- `QUEUE_CAPACITY`. -/
def queueCapacity : Nat := 4

/-- The second loop of `exercise_queue`, over the entries and their places. -/
def matchQueue : List (Request × Nat) → World → World
  | [], w => { w with app := { w.app with requestMatch := true } }
  | (request, i) :: rest, w =>
    if request.cancelled then
      matchQueue rest { w with app := { w.app with cancellation := true } }
    else if request.id ≠ i + 1 then w.fail "request/result id mismatch"
    else matchQueue rest w

/-- `exercise_queue`. -/
def exerciseQueue (w : World) : World :=
  let queue := w.app.queue ++
    (List.range' 1 queueCapacity).map fun id => (⟨id, id = 2⟩ : Request)
  let full := w.app.backpressure || queue.length = queueCapacity
  matchQueue queue.zipIdx { w with app := { w.app with queue, backpressure := full } }

/-! ### PostgreSQL -/

/-- `PostgresPollingStatusType`. -/
inductive PollingStatus where
  | failed
  | reading
  | writing
  | ok
  deriving DecidableEq

/-- What libpq answers in a call of `pg_ready`: the connection's progress, whether the two pipelines
are enqueued, whether input is read, and what `PQgetResult` returns until `PQisBusy` says that it
would block. -/
structure PgTurn where
  poll : PollingStatus
  initialSent : Bool
  consumed : Bool
  results : List (Option PgResult)
  recoverySent : Bool

/-- `pg_send_initial`. -/
def pgSendInitial (w : World) (sent : Bool) : World :=
  if !sent then w.fail "could not enqueue PostgreSQL abort pipeline"
  else { w with app := { w.app with pgState := .aborting } }.emit .pgInitial

/-- What `pg_drain` makes of a result. -/
def App.takeResult (app : App) (result : PgResult) : App :=
  match result.status with
  | .tuplesOk =>
    if app.pgState = .aborting then { app with pgRoundtrip := true }
    else if app.pgState = .recovering ∧ result.rows = 1 ∧ cString result.value = "42".toList then
      { app with pgRecovered := true }
    else app
  | .fatalError | .pipelineAborted => { app with pgAbortSeen := true }
  | .pipelineSync => { app with pgSyncSeen := true }
  | .other => app

/-- The loop of `pg_drain`. It is left at the first boundary between the results of two
statements, and sends the second pipeline there if the first has been synchronised. -/
def drainResults (recoverySent : Bool) : List (Option PgResult) → World → World
  | [], w => w
  | none :: _, w =>
    if w.app.pgState = .aborting ∧ w.app.pgSyncSeen then
      if !recoverySent then w.fail "could not enqueue PostgreSQL recovery pipeline"
      else { w with app := { w.app with pgState := .recovering } }.emit .pgRecovery
    else w
  | some result :: rest, w =>
    drainResults recoverySent rest
      ({ w with app := w.app.takeResult result }.emit (.pgResult result))

/-- `pg_drain`. -/
def pgDrain (w : World) (turn : PgTurn) : World :=
  if !turn.consumed then w.fail "PostgreSQL consume failed"
  else drainResults turn.recoverySent turn.results w

/-- `pg_ready`; flushing the output, which is all that depends on `writable`, is libpq's. -/
def pgReady (w : World) (turn : PgTurn) : World :=
  if w.app.pgState = .connecting then
    match turn.poll with
    | .failed => w.fail "PostgreSQL nonblocking connect failed"
    | .ok => pgSendInitial w turn.initialSent
    | .reading | .writing => w
  else pgDrain w turn

/-! ### Redis -/

/-- What comes of `start_redis`: the port that `ALPHA_REDIS_PORT` reads as, and whether
`redisAsyncConnect` returns a context without error and takes the callbacks. -/
structure Start where
  port : Int
  opened : Bool
  callbacksSet : Bool

def World.setRedis (w : World) (redis : RedisPointer) : World :=
  { w with app := { w.app with redis } }

/-- `start_redis`. -/
def startRedis (w : World) (start : Start) : Bool × World :=
  if start.port ≤ 0 ∨ start.port > 65535 then (false, w)
  else if !start.opened then (false, w)
  else (start.callbacksSet, w.setRedis (.live ⟨false, false, []⟩))

/-- `redis_command_callback`; a reply is missing when the connection fails. -/
def redisCommandCallback (w : World) (context : Context) (reply : Option Reply) : World :=
  match reply with
  | none => w.fail "Redis async command failed"
  | some reply =>
    let seen := w.emit (.redisReply w.app.redisGeneration reply)
    match reply with
    | .string text =>
      if w.app.redisGeneration = 1 ∧ cString text = "alpha".toList then
        { seen with app := { w.app with
            redisRoundtrip := true, redis := .live { context with disconnecting := true } } }
      else seen
    | .status text =>
      if w.app.redisGeneration = 2 ∧ cString text = "PONG".toList then
        { seen with app := { w.app with redisRecovered := true } }
      else seen
    | _ => seen

/-- `redisAsyncCommand` for each of some commands, until hiredis refuses one. -/
def enqueue (w : World) (context : Context) : List RedisCommand → List Bool → Bool × World
  | [], _ => (true, w.setRedis (.live context))
  | command :: rest, accepted =>
    if accepted.headD false then
      enqueue w { context with pending := context.pending ++ [command] } rest accepted.tail
    else (false, w.setRedis (.live context))

/-- `redis_connect_callback` on success. -/
def redisConnected (w : World) (context : Context) (accepted : List Bool) : World :=
  let told := w.emit (.redisConnected w.app.redisGeneration)
  if w.app.redisGeneration = 1 then
    let sent := enqueue told context [.set, .get] accepted
    if !sent.1 then sent.2.fail "Redis roundtrip enqueue failed" else sent.2
  else
    let sent := enqueue told context [.ping] accepted
    if !sent.1 then sent.2.fail "Redis recovery enqueue failed" else sent.2

/-- `redis_disconnect_callback`. -/
def redisDisconnectCallback (w : World) (start : Start) : World :=
  let told := w.emit (.redisClosed w.app.redisGeneration)
  if w.app.redisGeneration = 1 ∧ w.app.redisRoundtrip then
    let restarted := startRedis { told with app := { w.app with
      redisDisconnect := true, redis := .null, redisGeneration := 2 } } start
    if !restarted.1 then restarted.2.fail "Redis reconnect setup failed" else restarted.2
  else told

/-- hiredis tears a context down: the commands without a reply are told so, the disconnect callback
runs if the context was connected, and the context is freed. Nobody touches it in between. -/
def teardown (w : World) (context : Context) (start : Start) : World :=
  let told := (context.pending.filter RedisCommand.hasCallback).foldl
    (fun w _ => redisCommandCallback w context none) (w.setRedis .freed)
  if context.connected then redisDisconnectCallback told start else told

/-- What the network brings to a context: the end of the attempt to connect, with the commands
hiredis then takes, a reply, or the loss of the connection. -/
inductive Incoming where
  | connect (ok : Bool) (accepted : List Bool)
  | reply (reply : Reply)
  | lost

/-- What hiredis does with one of them: the world, and whether the context is still there. What does
not fit the context does not happen. -/
def receive (w : World) (context : Context) (start : Start) : Incoming → World × Bool
  | .connect ok accepted =>
    if context.connected then (w, true)
    else if ok then (redisConnected w { context with connected := true } accepted, true)
    else (teardown (w.fail "Redis async connect failed") context start, false)
  | .reply reply =>
    match context.connected, context.pending with
    | true, command :: pending =>
      let popped : Context := { context with pending }
      let answered :=
        if command.hasCallback then
          redisCommandCallback (w.setRedis (.live popped)) popped (some reply)
        else w.setRedis (.live popped)
      match answered.app.redis with
      | .live after =>
        -- the disconnect that was asked for happens when nothing is left to be answered
        if after.disconnecting ∧ after.pending = [] then (teardown answered after start, false)
        else (answered, true)
      | _ => (answered, true)
    | _, _ => (w, true)
  | .lost => (teardown w context start, false)

/-- `redisAsyncHandleRead`, `redisAsyncHandleWrite` or `redisAsyncHandleTimeout` of `app->redis`. -/
def redisHandle (start : Start) : List Incoming → World → World
  | [], w => if w.app.redis = .freed then { w with fault := true } else w
  | incoming :: rest, w =>
    match w.app.redis with
    | .live context =>
      let received := receive w context start incoming
      if received.2 then redisHandle start rest received.1 else received.1
    | .freed => { w with fault := true }
    | .null => w

/-! ### HTTP -/

/-- The capacity of `curl_watches`. -/
def curlWatchCapacity : Nat := 16

/-- `on_curl_socket`: what it returns, and the app. -/
def onCurlSocket (app : App) (fd : Int) (what : CurlPoll) : Int × App :=
  if what = .remove then
    match app.assigned fd with
    | none => (0, app)
    | some i =>
      (0, { app with
        curlWatches := app.curlWatches.modify i fun watch => { watch with action := .none }
        assigned := Function.update app.assigned fd none })
  else
    match app.assigned fd with
    | none =>
      if app.curlWatches.length ≥ curlWatchCapacity then (-1, app)
      else
        (0, { app with
          curlWatches := app.curlWatches ++ [⟨fd, what⟩]
          assigned := Function.update app.assigned fd (some app.curlWatches.length) })
    | some i =>
      (0, { app with
        curlWatches := app.curlWatches.modify i fun watch => { watch with action := what } })

/-- libcurl calls `on_curl_socket`. -/
def World.curlSocket (w : World) (socket : Int × CurlPoll) : World :=
  let answered := onCurlSocket w.app socket.1 socket.2
  { w with app := answered.2 }.emit (.curlSocket socket.1 socket.2 answered.1)

/-- What `curl_multi_info_read` returns: whether it says that a transfer is done, with which result
and response code. -/
structure CurlMessage where
  done : Bool
  result : Int
  status : Int

/-- What libcurl does in a call of `curl_action`. -/
structure CurlTurn where
  sockets : List (Int × CurlPoll)
  succeeds : Bool
  messages : List CurlMessage

/-- One turn of the loop of `curl_action`. -/
def takeMessage (w : World) (message : CurlMessage) : World :=
  if !message.done then w
  else
    let roundtrip : Bool := message.result = 0 ∧ message.status = 200
    let noted := { w with app := { w.app with
      curlStatus := message.status, curlRoundtrip := roundtrip } }.emit
        (.curlDone message.result message.status)
    if !roundtrip then noted.fail "curl multi HTTP roundtrip failed" else noted

/-- `curl_action`, on the socket and the readiness that libcurl is given. -/
def curlAction (w : World) (fd : Int) (action : Nat) (turn : CurlTurn) : World :=
  let acted := turn.sockets.foldl World.curlSocket (w.emit (.curlAction fd action))
  if !turn.succeeds then acted.fail "curl multi socket action failed"
  else turn.messages.foldl takeMessage acted

/-! ### The loop -/

/-- `complete`. -/
def complete (app : App) : Bool :=
  app.pgRoundtrip && app.pgAbortSeen && app.pgSyncSeen && app.pgRecovered && app.redisRoundtrip &&
    app.redisDisconnect && app.redisRecovered && app.curlRoundtrip && app.backpressure &&
    app.cancellation && app.requestMatch

/-- Whose descriptor a `watched_fd_t` is; one of libcurl goes by its place in `curl_watches`. -/
inductive Owner where
  | pg
  | redis
  | curl (i : Nat)
  deriving DecidableEq

/-- A descriptor to poll, with the events asked for. -/
structure PollEntry where
  owner : Owner
  pollIn : Bool
  pollOut : Bool
  deriving DecidableEq

/-- The capacity of `fds`. -/
def pollCapacity : Nat := 18

/-- The descriptors `service_tick` collects. -/
def pollSet (app : App) : List PollEntry :=
  let services : List PollEntry :=
    ⟨.pg, true, true⟩ :: if app.redis = .null then [] else [⟨.redis, true, true⟩]
  app.curlWatches.zipIdx.foldl (fun entries watch =>
    if entries.length < pollCapacity ∧ watch.1.action ≠ .none then
      entries ++ [⟨.curl watch.2, watch.1.action.reads, watch.1.action.writes⟩]
    else entries) services

/-- `revents`. -/
structure Revents where
  pollIn : Bool
  pollOut : Bool
  pollErr : Bool
  pollHup : Bool
  pollNval : Bool

def Revents.any (r : Revents) : Bool :=
  r.pollIn || r.pollOut || r.pollErr || r.pollHup || r.pollNval

def Revents.readable (r : Revents) : Bool := r.pollIn || r.pollErr || r.pollHup

/-- What `poll` says about a descriptor, and what the clients do if they are called for it. -/
structure Handling where
  revents : Revents
  pg : PgTurn
  read : List Incoming
  write : List Incoming
  start : Start
  curl : CurlTurn

/-- The descriptor of a watch of libcurl. -/
def App.curlFd (app : App) (i : Nat) : Int := ((app.curlWatches[i]?).map CurlWatch.fd).getD 0

/-- `app->redis` is not null and is read from, if it is readable, and written to after that. -/
def handleRedis (w : World) (readable writable : Bool) (handling : Handling) : World :=
  if w.app.redis = .null then w
  else
    let read := if readable then redisHandle handling.start handling.read w else w
    if writable ∧ read.app.redis ≠ .null ∧ read.fault = false then
      redisHandle handling.start handling.write read
    else read

/-- The loop body of `service_tick`, for a descriptor. -/
def handleEntry (w : World) (entry : PollEntry × Handling) : World :=
  let revents := entry.2.revents
  if w.fault ∨ !revents.any then w
  else
    match entry.1.owner with
    | .pg => pgReady w entry.2.pg
    | .redis => handleRedis w revents.readable revents.pollOut entry.2
    | .curl i =>
      curlAction w (w.app.curlFd i)
        ((if revents.readable then 1 else 0) + if revents.pollOut then 2 else 0) entry.2.curl

/-- What happens in a tick: whether `poll` succeeds, what becomes of the descriptors, in order, and
what libcurl does at its timeout. -/
structure Tick where
  polled : Bool
  handlings : List Handling
  timeout : CurlTurn

/-- `service_tick`. -/
def serviceTick (w : World) (tick : Tick) : World :=
  let w := { w with scheduled := false }
  -- the descriptor of Redis is read from its context
  if w.app.redis = .freed then { w with fault := true }
  else if !tick.polled then w.fail "readiness probe failed"
  else
    let handled := ((pollSet w.app).zip tick.handlings).foldl handleEntry w
    if handled.fault then handled
    else
      let acted := curlAction handled (-1) 0 tick.timeout
      { acted with scheduled := !complete acted.app && !acted.app.failed }

/-- The reasons `raw_callback` tells apart. -/
inductive Reason where
  | rawRx
  | rawWriteable
  | timer
  | other
  deriving DecidableEq

/-- `raw_callback`, on the user data of the descriptor. -/
def rawCallback (w : World) (watch : Option Owner) (reason : Reason) (handling : Handling) :
    World :=
  match watch, reason with
  | some .pg, .rawRx | some .pg, .rawWriteable => pgReady w handling.pg
  | some .redis, .rawRx | some .redis, .timer =>
    if w.app.redis = .null then w else redisHandle handling.start handling.read w
  | some .redis, .rawWriteable =>
    if w.app.redis = .null then w else redisHandle handling.start handling.write w
  | some (.curl i), .rawRx =>
    if ((w.app.curlWatches[i]?).map fun watch => watch.action.reads).getD false then
      curlAction w (w.app.curlFd i) 1 handling.curl
    else w
  | some (.curl i), .rawWriteable =>
    if ((w.app.curlWatches[i]?).map fun watch => watch.action.writes).getD false then
      curlAction w (w.app.curlFd i) 2 handling.curl
    else w
  | _, _ => w

/-- What libwebsockets runs while it is serviced. -/
inductive Event where
  | tick (tick : Tick)
  | raw (watch : Option Owner) (reason : Reason) (handling : Handling)

/-- One callback; after a fault nothing is known any more. -/
def World.step (w : World) : Event → World
  | .tick tick => if w.fault ∨ !w.scheduled then w else serviceTick w tick
  | .raw watch reason handling => if w.fault then w else rawCallback w watch reason handling

/-- `app_t app = {0}`. -/
def App.zeroed : App where
  pgState := .connecting
  pgRoundtrip := false
  pgAbortSeen := false
  pgSyncSeen := false
  pgRecovered := false
  redis := .null
  redisGeneration := 0
  redisRoundtrip := false
  redisDisconnect := false
  redisRecovered := false
  curlWatches := []
  assigned := fun _ => none
  curlRoundtrip := false
  curlStatus := 0
  queue := []
  backpressure := false
  cancellation := false
  requestMatch := false
  cleanShutdown := false
  failed := false

/-- What the calls of `setup` come to: the context and its vhost, `PQconnectStartParams`,
`start_redis`, the handles of libcurl, and its first action. -/
structure Setup where
  context : Bool
  pgStarted : Bool
  start : Start
  curlCreated : Bool
  handleAdded : Bool
  curl : CurlTurn

/-- `setup`. -/
def setup (w : World) (given : Setup) : Bool × World :=
  if !given.context then (false, w)
  else
    let queued := exerciseQueue w
    if !given.pgStarted then (false, queued)
    else
      let started := startRedis { queued with app := { queued.app with redisGeneration := 1 } }
        given.start
      if !started.1 then (false, started.2)
      else if !given.curlCreated || !given.handleAdded then (false, started.2)
      else
        let acted := curlAction started.2 (-1) 0 given.curl
        (!acted.app.failed, { acted with scheduled := true })

/-- `RUN_TIMEOUT_SECONDS`. -/
def runTimeoutSeconds : Int := 20

/-- A turn of the loop of `main`: the clock its condition reads, what is run while the context is
serviced, and whether that succeeds. -/
structure Turn where
  clock : Int
  events : List Event
  serviced : Bool

def World.service (w : World) (turn : Turn) : World :=
  let served := turn.events.foldl World.step w
  { served with app := { served.app with failed := served.app.failed || !turn.serviced } }

/-- The loop of `main`, if it is left within the turns given and without a fault. -/
def loop (started : Int) : List Turn → World → Option World
  | [], _ => none
  | turn :: rest, w =>
    if w.fault then none
    else if w.app.failed || complete w.app || turn.clock - started ≥ runTimeoutSeconds then some w
    else loop started rest (w.service turn)

/-- The end of `main`: the failure and clean-shutdown flags. -/
def World.finish (w : World) : World :=
  let failed := w.app.failed || !complete w.app
  { w with app := { w.app with failed, cleanShutdown := !failed } }

def trueOrFalse (b : Bool) : String := if b then "true" else "false"

/-- `print_result`. -/
def printResult (app : App) : String :=
  "\x7b\"schema_version\":1,\"loop_owner\":\"libwebsockets\"," ++
    "\"service_threads\":1,\"worker_threads\":0,\"queue_capacity\":" ++ toString queueCapacity ++
    ",\"backpressure\":" ++ trueOrFalse app.backpressure ++
    ",\"cancellation\":" ++ trueOrFalse app.cancellation ++
    ",\"request_result_match\":" ++ trueOrFalse app.requestMatch ++
    ",\"postgres\":\x7b\"roundtrip\":" ++ trueOrFalse app.pgRoundtrip ++
    ",\"pipeline_abort\":" ++ trueOrFalse app.pgAbortSeen ++
    ",\"pipeline_sync\":" ++ trueOrFalse app.pgSyncSeen ++
    ",\"recovered\":" ++ trueOrFalse app.pgRecovered ++
    "\x7d,\"redis\":\x7b\"roundtrip\":" ++ trueOrFalse app.redisRoundtrip ++
    ",\"disconnect\":" ++ trueOrFalse app.redisDisconnect ++
    ",\"recovered\":" ++ trueOrFalse app.redisRecovered ++
    "\x7d,\"curl_multi\":\x7b\"roundtrip\":" ++ trueOrFalse app.curlRoundtrip ++
    ",\"status\":" ++ toString app.curlStatus ++
    "\x7d,\"alternate_event_loop\":false,\"clean_shutdown\":" ++
    trueOrFalse app.cleanShutdown ++ "\x7d\n"

/-- How the process ends: its exit status, what it prints, and the world it leaves. -/
structure Exit where
  status : Nat
  stdout : String
  world : World

/-- `main`, if it ends. -/
def main (globalInit : Bool) (given : Setup) (started : Int) (turns : List Turn) : Option Exit :=
  let zeroed : World := ⟨.zeroed, [], false, false⟩
  let ready := setup zeroed given
  if !globalInit then some ⟨1, "", zeroed⟩
  else if !ready.1 then some ⟨1, "", ready.2⟩
  else do
    let left ← loop started turns ready.2
    let final := left.finish
    some ⟨if final.app.failed then 1 else 0, printResult final.app, final⟩

end AlphaPipeline.Spike

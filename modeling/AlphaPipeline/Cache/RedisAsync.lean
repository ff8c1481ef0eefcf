import AlphaPipeline.Cache.RedisServer

/-!
# The asynchronous Redis adapter

`redis_async.c` with the parts of hiredis it relies on: contexts that connect, serve commands
in order, are torn down and freed, and the callbacks they run on the way. What hiredis and
the server do during a call is a list of activities; what the owner's callbacks do is a list
of requests. Touching a context after it was freed is undefined and recorded as a fault.
-/
namespace AlphaPipeline.RedisAsync

open Redis

/-- `alpha_redis_watch_t`, as its two bits. -/
structure Watch where
  read : Bool
  write : Bool
  deriving DecidableEq, Repr

def Watch.none : Watch := ⟨false, false⟩

/-- The life of a hiredis context; a closing one runs its last callbacks. -/
inductive Phase where
  | connecting
  | connected
  | closing
  | freed
  deriving DecidableEq, Repr

/-- A hiredis context and the user data of its commands that have no reply yet. -/
structure Context where
  phase : Phase
  fd : Int
  queue : List Nat
  deriving DecidableEq, Repr

/-- `struct alpha_redis_async`, without the callbacks the owner registered. -/
structure AlphaRedisAsync where
  context : Option Nat
  host : Text
  port : Int
  watch : Watch
  pending : Nat
  deriving DecidableEq, Repr

/-- What happens that the owner or hiredis can see; the answer to a command comes with what
`alpha_redis_async_pending` reports then. -/
inductive Effect where
  | dialed (host : Text) (port : Int)
  | started
  | connected (ok : Bool)
  | disconnected
  | watchFn (socket : Int) (watch : Watch)
  | timerFn (timeoutMs : Int)
  | connectFn (status : AlphaErr)
  | replyFn (status : AlphaErr) (text : Option Text) (integer : Int) (userData : Nat)
  | answered (status : AlphaErr) (userData : Nat) (pending : Nat)
  deriving DecidableEq, Repr

/-- The adapter, the contexts hiredis has created so far (numbered below `fresh`), what has
happened, and whether a freed context was touched. -/
structure World where
  redis : AlphaRedisAsync
  contexts : Nat → Context
  fresh : Nat
  log : List Effect
  fault : Bool

def World.emit (w : World) (effect : Effect) : World := { w with log := w.log ++ [effect] }

def World.phase (w : World) (id : Nat) : Phase := (w.contexts id).phase

def World.setPhase (w : World) (id : Nat) (phase : Phase) : World :=
  { w with contexts := Function.update w.contexts id { w.contexts id with phase := phase } }

def World.setQueue (w : World) (id : Nat) (queue : List Nat) : World :=
  { w with contexts := Function.update w.contexts id { w.contexts id with queue := queue } }

/-! ### Watching the socket -/

/-- `publish_watch`. -/
def publishWatch (w : World) : World :=
  match w.redis.context with
  | none => w.emit (.watchFn (-1) w.redis.watch)
  | some id =>
    if w.phase id = .freed then { w with fault := true }
    else w.emit (.watchFn (w.contexts id).fd w.redis.watch)

/-- The event hooks hiredis calls. -/
inductive WatchOp where
  | addRead
  | delRead
  | addWrite
  | delWrite
  | cleanup
  deriving DecidableEq, Repr

def WatchOp.apply (watch : Watch) : WatchOp → Watch
  | .addRead => { watch with read := true }
  | .delRead => { watch with read := false }
  | .addWrite => { watch with write := true }
  | .delWrite => { watch with write := false }
  | .cleanup => Watch.none

/-- `add_read`, `del_read`, `add_write`, `del_write` and `cleanup`. -/
def watchHook (w : World) (op : WatchOp) : World :=
  publishWatch { w with redis := { w.redis with watch := op.apply w.redis.watch } }

/-- `schedule_timer`, on seconds and microseconds. -/
def scheduleTimer (w : World) (seconds micros : Int) : World :=
  w.emit (.timerFn (seconds * 1000 + micros.tdiv 1000))

/-! ### Connecting -/

/-- What comes of `redisAsyncConnect` and of setting the two callbacks: no context, one with
an error, or one that connects in the background. -/
inductive Dial where
  | null
  | error (fd : Int)
  | opened (fd : Int) (callbacksSet : Bool) (hooks : List WatchOp)
  deriving DecidableEq, Repr

/-- A new context in the given phase. -/
def World.allocate (w : World) (phase : Phase) (fd : Int) : World :=
  { w with contexts := Function.update w.contexts w.fresh ⟨phase, fd, []⟩, fresh := w.fresh + 1 }

def World.setContext (w : World) (context : Option Nat) : World :=
  { w with redis := { w.redis with context := context } }

/-- `start_connection`. A context with an error, or without its callbacks, is freed again. -/
def startConnection (w : World) (dial : Dial) : AlphaErr × World :=
  let dialed := w.emit (.dialed w.redis.host w.redis.port)
  match dial with
  | .null => (.io, dialed.setContext none)
  | .error fd => (.io, (dialed.allocate .freed fd).setContext none)
  | .opened fd callbacksSet hooks =>
    let opened := hooks.foldl watchHook
      ((dialed.allocate .connecting fd).setContext (some w.fresh))
    if callbacksSet then (.ok, opened.emit .started)
    else
      -- `redisAsyncFree` runs the cleanup hook while the field still points at the context
      (.io, ((watchHook opened .cleanup).setPhase w.fresh .freed).setContext none)

/-- `alpha_redis_async_reconnect`. -/
def alphaRedisAsyncReconnect (w : World) (dial : Dial) : AlphaErr × World :=
  match w.redis.context with
  | some _ => (.range, w)
  | none => startConnection w dial

/-! ### Commands and replies -/

/-- `ALPHA_REDIS_ASYNC_MAX_PENDING`. -/
def maxPending : Nat := 64

/-- `alpha_redis_async_command`; `valid` says that the arguments are present, `accepted` that
hiredis takes the command. A context being torn down takes none. -/
def alphaRedisAsyncCommand (w : World) (argc : Int) (valid : Bool) (userData : Nat)
    (accepted : Bool) : AlphaErr × World :=
  match w.redis.context with
  | none => (.invalidArg, w)
  | some id =>
    if argc ≤ 0 || !valid then (.invalidArg, w)
    else if w.redis.pending ≥ maxPending then (.range, w)
    else if w.phase id = .freed then (.io, { w with fault := true })
    else if w.phase id = .closing || !accepted then (.io, w)
    else
      let queued := w.setQueue id ((w.contexts id).queue ++ [userData])
      (.ok, { queued with redis := { w.redis with pending := w.redis.pending + 1 } })

/-- What the owner may do from inside a callback. -/
inductive Request where
  | command (argc : Int) (valid : Bool) (userData : Nat) (accepted : Bool)
  | reconnect (dial : Dial)
  deriving DecidableEq, Repr

def World.request (w : World) : Request → World
  | .command argc valid userData accepted =>
    let (status, after) := alphaRedisAsyncCommand w argc valid userData accepted
    after.emit (.answered status userData after.redis.pending)
  | .reconnect dial => (alphaRedisAsyncReconnect w dial).2

/-- What `replied` tells the owner about a reply. -/
def replyOutcome : Option Reply → AlphaErr × Option Text × Int
  | some (.string text) => (.ok, some text, 0)
  | some (.status text) => (.ok, some text, 0)
  | some (.integer value) => (.ok, none, value)
  | some .nil => (.ok, none, 0)
  | _ => (.io, none, 0)

/-- `replied`, and what the owner does in `reply_fn`. -/
def replied (w : World) (reply : Option Reply) (userData : Nat) (reaction : List Request) : World :=
  let counted := { w with redis := { w.redis with pending := w.redis.pending - 1 } }
  let (status, text, integer) := replyOutcome reply
  reaction.foldl World.request (counted.emit (.replyFn status text integer userData))

/-- `connected`, and what the owner does in `connect_fn`. -/
def connected (w : World) (ok : Bool) (reaction : List Request) : World :=
  reaction.foldl World.request
    ((w.emit (.connected ok)).emit (.connectFn (if ok then .ok else .io)))

/-- The adapter forgets its context, and the owner is told. -/
def dropContext (w : World) (fd : Int) : World :=
  let cleared := { w with redis := { w.redis with context := none, watch := Watch.none } }
  ((cleared.emit .disconnected).emit (.watchFn fd Watch.none)).emit (.connectFn .io)

/-- `disconnected`, for a context with the given socket, and what the owner does in
`connect_fn`. -/
def disconnected (w : World) (fd : Int) (reaction : List Request) : World :=
  reaction.foldl World.request (dropContext w fd)

/-! ### hiredis at work -/

/-- Every command without a reply gets its callback with `NULL`. -/
def nullReplies (w : World) : List Nat → List (List Request) → World
  | [], _ => w
  | userData :: rest, reactions =>
    nullReplies (replied w none userData (reactions.headD [])) rest reactions.tail

/-- What hiredis can do with a context while it handles an event. -/
inductive Activity where
  | hook (op : WatchOp)
  | timer (seconds micros : Int)
  | connect (reaction : List Request)
  | connectFailure (reaction : List Request) (nulls : List (List Request)) (hooks : List WatchOp)
  | reply (reply : Reply) (reaction : List Request)
  | disconnect (nulls : List (List Request)) (hooks : List WatchOp) (reaction : List Request)

/-- The commands of a context are answered with `NULL` and its hooks removed. -/
def teardown (w : World) (id : Nat) (nulls : List (List Request)) (hooks : List WatchOp) : World :=
  let closing := w.setPhase id .closing
  let drained := nullReplies (closing.setQueue id []) (w.contexts id).queue nulls
  hooks.foldl watchHook drained

/-- One activity; one that the context's phase does not allow does not happen. A context that
fails to connect is torn down without the disconnect callback. -/
def perform (w : World) (id : Nat) : Activity → World
  | .hook op => watchHook w op
  | .timer seconds micros => scheduleTimer w seconds micros
  | .connect reaction =>
    if w.phase id = .connecting then connected (w.setPhase id .connected) true reaction else w
  | .connectFailure reaction nulls hooks =>
    if w.phase id = .connecting then
      (teardown (connected w false reaction) id nulls hooks).setPhase id .freed
    else w
  | .reply reply reaction =>
    match w.phase id, (w.contexts id).queue with
    | .connected, userData :: rest => replied (w.setQueue id rest) (some reply) userData reaction
    | _, _ => w
  | .disconnect nulls hooks reaction =>
    if w.phase id = .connected then
      (disconnected (teardown w id nulls hooks) (w.contexts id).fd reaction).setPhase id .freed
    else w

/-- hiredis handles an event on a context, until it is done or the context is freed. -/
def handle (w : World) (id : Nat) : List Activity → World
  | [] => if w.phase id = .freed then { w with fault := true } else w
  | first :: rest =>
    if w.phase id = .freed then { w with fault := true }
    else
      let after := perform w id first
      if after.phase id = .freed then after else handle after id rest

/-- `redis->context != NULL && redis->context->err == 0`, the error being hiredis's. -/
def contextStatus (w : World) (err : Bool) : AlphaErr × World :=
  match w.redis.context with
  | none => (.io, w)
  | some id =>
    if w.phase id = .freed then (.io, { w with fault := true })
    else (if err then .io else .ok, w)

/-- `alpha_redis_async_service`. -/
def alphaRedisAsyncService (w : World) (ready : Watch) (reading writing : List Activity)
    (err : Bool) : AlphaErr × World :=
  match w.redis.context with
  | none => (.invalidArg, w)
  | some id =>
    let afterRead := if ready.read then handle w id reading else w
    let afterWrite :=
      match afterRead.redis.context with
      | some id => if ready.write then handle afterRead id writing else afterRead
      | none => afterRead
    contextStatus afterWrite err

/-- `alpha_redis_async_timeout`. -/
def alphaRedisAsyncTimeout (w : World) (activities : List Activity) (err : Bool) :
    AlphaErr × World :=
  match w.redis.context with
  | none => (.invalidArg, w)
  | some id => contextStatus (handle w id activities) err

/-- `alpha_redis_async_connect`, on valid callbacks; `allocated` says whether the allocations
succeed. -/
def alphaRedisAsyncConnect (host : Option Text) (port : Int) (allocated : Bool) (dial : Dial) :
    AlphaErr × Option World :=
  match host with
  | none => (.invalidArg, none)
  | some host =>
    if port ≤ 0 then (.invalidArg, none)
    else if !allocated then (.io, none)
    else
      let fresh : World :=
        ⟨⟨none, host, port, Watch.none, 0⟩, fun _ => ⟨.freed, -1, []⟩, 0, [], false⟩
      match startConnection fresh dial with
      | (.ok, w) => (.ok, some w)
      | _ => (.io, none)

/-- `alpha_redis_async_socket`. -/
def alphaRedisAsyncSocket (w : World) : Int :=
  match w.redis.context with
  | some id => (w.contexts id).fd
  | none => -1

/-! ### Runs -/

/-- A call of the owner from outside any callback. -/
inductive Call where
  | request (request : Request)
  | service (ready : Watch) (reading writing : List Activity) (err : Bool)
  | timeout (activities : List Activity) (err : Bool)

/-- One call; after a fault nothing is known any more. -/
def World.step (w : World) (call : Call) : World :=
  if w.fault then w
  else
    match call with
    | .request request => w.request request
    | .service ready reading writing err => (alphaRedisAsyncService w ready reading writing err).2
    | .timeout activities err => (alphaRedisAsyncTimeout w activities err).2

end AlphaPipeline.RedisAsync

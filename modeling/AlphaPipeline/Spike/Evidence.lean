import AlphaPipeline.Library.Traces
import AlphaPipeline.Spike.Changes

/-!
# What a successful run shows

Each flag of the app is set by one kind of change. So the log tells, for each flag, what the clients
had answered when it was set, and in which order; a process that exits with success has been
answered all of it.
-/
namespace AlphaPipeline.Spike

open Redis (Reply)
open Traces (InOrder)

/-! ### What to look for in the log -/

namespace Effect

def isInitial : Effect → Bool
  | .pgInitial => true
  | _ => false

def isRecovery : Effect → Bool
  | .pgRecovery => true
  | _ => false

/-- A result with rows. -/
def isTuples : Effect → Bool
  | .pgResult result => result.status = .tuplesOk
  | _ => false

/-- The result of the recovery pipeline. -/
def isFortyTwo : Effect → Bool
  | .pgResult result =>
    result.status = .tuplesOk ∧ result.rows = 1 ∧ cString result.value = "42".toList
  | _ => false

/-- An error, or a statement skipped after one. -/
def isAbort : Effect → Bool
  | .pgResult result => result.status = .fatalError ∨ result.status = .pipelineAborted
  | _ => false

def isSync : Effect → Bool
  | .pgResult result => result.status = .pipelineSync
  | _ => false

def isConnected (generation : Nat) : Effect → Bool
  | .redisConnected g => g = generation
  | _ => false

def isClosed (generation : Nat) : Effect → Bool
  | .redisClosed g => g = generation
  | _ => false

/-- The reply to `GET` on the first connection. -/
def isAlpha : Effect → Bool
  | .redisReply g (.string text) => g = 1 ∧ cString text = "alpha".toList
  | _ => false

/-- The reply to `PING` on the second connection. -/
def isPong : Effect → Bool
  | .redisReply g (.status text) => g = 2 ∧ cString text = "PONG".toList
  | _ => false

/-- A transfer that ended without error and with status 200. -/
def isDelivered : Effect → Bool
  | .curlDone result status => result = 0 ∧ status = 200
  | _ => false

end Effect

open Effect

/-! ### What the flags stand for -/

/-- The fields of the app that tell of PostgreSQL. -/
structure PgFlags where
  state : PgState
  roundtrip : Bool
  abortSeen : Bool
  syncSeen : Bool
  recovered : Bool

def App.pgFlags (app : App) : PgFlags :=
  ⟨app.pgState, app.pgRoundtrip, app.pgAbortSeen, app.pgSyncSeen, app.pgRecovered⟩

/-- The fields of the app that tell of Redis. -/
structure RedisFlags where
  redis : RedisPointer
  generation : Nat
  roundtrip : Bool
  recovered : Bool

def App.redisFlags (app : App) : RedisFlags :=
  ⟨app.redis, app.redisGeneration, app.redisRoundtrip, app.redisRecovered⟩

/-- What the log shows of PostgreSQL. -/
structure PgShown (flags : PgFlags) (log : List Effect) : Prop where
  initials : log.countP isInitial = if flags.state = .connecting then 0 else 1
  recoveries : log.countP isRecovery = if flags.state = .recovering then 1 else 0
  sent : flags.state ≠ .connecting → InOrder [isInitial] log
  abort : flags.abortSeen = true → InOrder [isInitial, isAbort] log
  sync : flags.syncSeen = true → InOrder [isInitial, isSync] log
  roundtrip : flags.roundtrip = true → InOrder [isInitial, isTuples] log
  recovery : flags.state = .recovering → InOrder [isInitial, isSync, isRecovery] log ∧
    (flags.roundtrip = true → InOrder [isInitial, isTuples, isRecovery] log)
  recovered : flags.recovered = true → flags.state = .recovering ∧
    InOrder [isInitial, isSync, isRecovery, isFortyTwo] log ∧
      (flags.roundtrip = true → InOrder [isInitial, isTuples, isRecovery, isFortyTwo] log)

/-- What comes before a reply on a connection. -/
def opening (generation : Nat) : List (Effect → Bool) :=
  if generation = 1 then [isConnected 1]
  else [isConnected 1, isAlpha, isClosed 1, isConnected 2]

/-- What the log shows of Redis. -/
structure RedisShown (flags : RedisFlags) (log : List Effect) : Prop where
  generation : flags.generation = 1 ∨ flags.generation = 2
  connected : ∀ context, flags.redis = .live context → context.connected = true →
    InOrder (opening flags.generation) log
  roundtrip : flags.generation = 1 → flags.roundtrip = true →
    InOrder [isConnected 1, isAlpha] log
  switched : flags.generation = 2 → InOrder [isConnected 1, isAlpha, isClosed 1] log
  recovered : flags.recovered = true →
    InOrder [isConnected 1, isAlpha, isClosed 1, isConnected 2, isPong] log

/-- The log shows what the flags say. -/
structure Shown (w : World) : Prop where
  pg : PgShown w.app.pgFlags w.log
  redis : RedisShown w.app.redisFlags w.log
  curl : w.app.curlRoundtrip = true → InOrder [isDelivered] w.log

/-! ### PostgreSQL -/

section Pg

variable {flags : PgFlags} {log : List Effect} {effect : Effect}

/-- An effect other than the sending of a pipeline. -/
theorem PgShown.append (shown : PgShown flags log) (initial : isInitial effect = false)
    (recovery : isRecovery effect = false) : PgShown flags (log ++ [effect]) where
  initials := by simp [initial, shown.initials]
  recoveries := by simp [recovery, shown.recoveries]
  sent state := (shown.sent state).append _
  abort seen := (shown.abort seen).append _
  sync seen := (shown.sync seen).append _
  roundtrip seen := (shown.roundtrip seen).append _
  recovery state :=
    ⟨(shown.recovery state).1.append _, fun seen => ((shown.recovery state).2 seen).append _⟩
  recovered seen :=
    have before := shown.recovered seen
    ⟨before.1, before.2.1.append _, fun first => (before.2.2 first).append _⟩

theorem PgShown.initial (shown : PgShown flags log) (state : flags.state = .connecting) :
    PgShown { flags with state := .aborting } (log ++ [.pgInitial]) where
  initials := by simp [shown.initials, state, isInitial]
  recoveries := by simp [shown.recoveries, state, isRecovery]
  sent _ := (Traces.inOrder_nil log).next rfl
  abort seen := (shown.abort seen).append _
  sync seen := (shown.sync seen).append _
  roundtrip seen := (shown.roundtrip seen).append _
  recovery := nofun
  recovered seen := by
    rw [(shown.recovered seen).1] at state
    cases state

theorem PgShown.sendRecovery (shown : PgShown flags log) (state : flags.state = .aborting)
    (synced : flags.syncSeen = true) :
    PgShown { flags with state := .recovering } (log ++ [.pgRecovery]) where
  initials := by simp [shown.initials, state, isInitial]
  recoveries := by simp [shown.recoveries, state, isRecovery]
  sent _ := (shown.sent (by rw [state]; decide)).append _
  abort seen := (shown.abort seen).append _
  sync seen := (shown.sync seen).append _
  roundtrip seen := (shown.roundtrip seen).append _
  recovery _ := ⟨(shown.sync synced).next rfl, fun seen => (shown.roundtrip seen).next rfl⟩
  recovered seen := by
    rw [(shown.recovered seen).1] at state
    cases state

/-- What a result adds to the flags. -/
theorem PgShown.result {app : App} (shown : PgShown app.pgFlags log) (result : PgResult)
    (state : app.pgState ≠ .connecting) :
    PgShown (app.takeResult result).pgFlags (log ++ [.pgResult result]) := by
  have kept : PgShown app.pgFlags (log ++ [.pgResult result]) := shown.append rfl rfl
  have sent := shown.sent state
  unfold App.takeResult
  cases status : result.status with
  | tuplesOk =>
    dsimp only
    split
    next aborting =>
      exact
        { kept with
          roundtrip := fun _ => sent.next (by simp [isTuples, status])
          recovery := fun recovering => by
            rw [show app.pgState = _ from recovering] at aborting
            cases aborting
          recovered := fun seen => by
            rw [show app.pgState = _ from (shown.recovered seen).1] at aborting
            cases aborting }
    · split
      next recovering =>
        have before := shown.recovery recovering.1
        have fits : isFortyTwo (.pgResult result) = true := by
          simp [isFortyTwo, status, recovering.2]
        exact
          { kept with
            recovered := fun _ =>
              ⟨recovering.1, before.1.next fits, fun seen => (before.2 seen).next fits⟩ }
      · exact kept
  | fatalError => exact { kept with abort := fun _ => sent.next (by simp [isAbort, status]) }
  | pipelineAborted => exact { kept with abort := fun _ => sent.next (by simp [isAbort, status]) }
  | pipelineSync => exact { kept with sync := fun _ => sent.next (by simp [isSync, status]) }
  | other => exact kept

end Pg

/-! ### Redis -/

section Redis

variable {flags : RedisFlags} {log : List Effect} {effect : Effect}

theorem RedisShown.append (shown : RedisShown flags log) (more : List Effect) :
    RedisShown flags (log ++ more) where
  generation := shown.generation
  connected context here open_ := (shown.connected context here open_).append more
  roundtrip first seen := (shown.roundtrip first seen).append more
  switched second := (shown.switched second).append more
  recovered seen := (shown.recovered seen).append more

/-- The pointer matters only if it is to a context that is connected. -/
theorem RedisShown.setRedis (shown : RedisShown flags log) {redis : RedisPointer}
    (connected : ∀ context, redis = .live context → context.connected = true →
      InOrder (opening flags.generation) log) : RedisShown { flags with redis } log :=
  { shown with connected }

/-- A connection is opened. -/
theorem RedisShown.open (shown : RedisShown flags log) :
    InOrder (opening flags.generation) (log ++ [.redisConnected flags.generation]) := by
  rcases shown.generation with first | second
  · rw [first]
    exact (Traces.inOrder_nil log).next rfl
  · rw [second]
    exact (shown.switched second).next rfl

theorem RedisShown.switch (shown : RedisShown flags log) (first : flags.generation = 1)
    (seen : flags.roundtrip = true) :
    RedisShown { flags with redis := .null, generation := 2 }
      (log ++ [.redisClosed flags.generation]) where
  generation := Or.inr rfl
  connected := nofun
  roundtrip := nofun
  switched _ := (shown.roundtrip first seen).next (by simp [isClosed, first])
  recovered seen := (shown.recovered seen).append _

theorem RedisShown.reply {w : World} (shown : RedisShown w.app.redisFlags w.log)
    {context : Context} (here : w.app.redis = .live context) (connected : context.connected = true)
    (reply : Reply) :
    RedisShown (redisCommandCallback w context (some reply)).app.redisFlags
      (w.log ++ [.redisReply w.app.redisGeneration reply]) := by
  have opened : InOrder (opening w.app.redisGeneration) w.log :=
    shown.connected context here connected
  have kept := shown.append [.redisReply w.app.redisGeneration reply]
  unfold redisCommandCallback
  cases reply with
  | string text =>
    dsimp only
    split
    next alpha =>
      have first : InOrder [isConnected 1] w.log := by simpa [opening, alpha.1] using opened
      exact
        { kept with
          connected := fun _ _ _ => opened.append _
          roundtrip := fun _ _ => first.next (by simp [isAlpha, alpha]) }
    · exact kept
  | status text =>
    dsimp only
    split
    next pong =>
      have second : InOrder [isConnected 1, isAlpha, isClosed 1, isConnected 2] w.log := by
        simpa [opening, pong.1] using opened
      exact { kept with recovered := fun _ => second.next (by simp [isPong, pong]) }
    · exact kept
  | nil => exact kept
  | error text => exact kept
  | integer value => exact kept
  | array elements => exact kept
  | other type => exact kept

end Redis

/-! ### Runs -/

/-- An effect that no flag is about. -/
theorem Shown.emit {w : World} (shown : Shown w) {effect : Effect}
    (initial : isInitial effect = false) (recovery : isRecovery effect = false) :
    Shown (w.emit effect) where
  pg := shown.pg.append initial recovery
  redis := shown.redis.append _
  curl seen := (shown.curl seen).append _

theorem Shown.fail {w : World} (shown : Shown w) (message : String) : Shown (w.fail message) :=
  Shown.emit (⟨shown.pg, shown.redis, shown.curl⟩ :
    Shown { w with app := { w.app with failed := true } }) rfl rfl

/-- The flag of libcurl is set by a transfer that was delivered, and taken back by one that was
not. -/
theorem Shown.message {w : World} (shown : Shown w) (message : CurlMessage) :
    Shown (takeMessage w message) := by
  have noted (roundtrip : Bool) (delivered : roundtrip = true →
      isDelivered (.curlDone message.result message.status) = true) :
      Shown ({ w with app := { w.app with
        curlStatus := message.status, curlRoundtrip := roundtrip } }.emit
          (.curlDone message.result message.status)) :=
    ⟨shown.pg.append rfl rfl, shown.redis.append _,
      fun seen => (Traces.inOrder_nil w.log).next (delivered seen)⟩
  unfold takeMessage
  split
  · exact shown
  · have told := noted (message.result = 0 ∧ message.status = 200) fun seen => by
      simpa [isDelivered] using seen
    dsimp only
    split
    · exact told.fail _
    · exact told

/-- `on_curl_socket` changes the watches and what is assigned to the sockets. -/
theorem onCurlSocket_eq (app : App) (fd : Int) (what : CurlPoll) :
    ∃ curlWatches assigned, (onCurlSocket app fd what).2 = { app with curlWatches, assigned } := by
  unfold onCurlSocket
  split
  · split
    · exact ⟨_, _, rfl⟩
    · exact ⟨_, _, rfl⟩
  · split
    · split
      · exact ⟨_, _, rfl⟩
      · exact ⟨_, _, rfl⟩
    · exact ⟨_, _, rfl⟩

/-- A change keeps the log and the flags together. -/
theorem Shown.change {w after : World} (shown : Shown w) (change : Change w after) :
    Shown after := by
  have curl (effect : Effect) (seen : w.app.curlRoundtrip = true) :
      InOrder [isDelivered] (w.log ++ [effect]) := (shown.curl seen).append _
  cases change with
  | failure message => exact shown.fail message
  | acted fd action => exact shown.emit rfl rfl
  | socket socket =>
    obtain ⟨curlWatches, assigned, eq⟩ := onCurlSocket_eq w.app socket.1 socket.2
    rw [World.curlSocket, eq]
    exact ⟨shown.pg.append rfl rfl, shown.redis.append _, curl _⟩
  | message message => exact shown.message message
  | initial state => exact ⟨shown.pg.initial state, shown.redis.append _, curl _⟩
  | result result state =>
    have pg := shown.pg.result result state
    obtain ⟨_, _, _, _, eq⟩ := takeResult_eq w.app result
    rw [eq] at pg ⊢
    exact ⟨pg, shown.redis.append _, curl _⟩
  | recovery state synced =>
    exact ⟨shown.pg.sendRecovery state synced, shown.redis.append _, curl _⟩
  | started => exact ⟨shown.pg, shown.redis.setRedis (by rintro _ ⟨⟩ ⟨⟩), shown.curl⟩
  | connected context =>
    exact ⟨shown.pg.append rfl rfl,
      (shown.redis.append _).setRedis fun _ _ _ => shown.redis.open, curl _⟩
  | pending context after here same =>
    refine ⟨shown.pg, shown.redis.setRedis ?_, shown.curl⟩
    rintro _ ⟨⟩ connected
    exact shown.redis.connected context here (same.symm.trans connected)
  | reply context here connected reply =>
    have told := shown.redis.reply here connected reply
    obtain ⟨redis, redisRoundtrip, redisRecovered, eq⟩ := redisCommandCallback_eq w context reply
    rw [eq] at told ⊢
    exact ⟨shown.pg.append rfl rfl, told, curl _⟩
  | freed => exact ⟨shown.pg, shown.redis.setRedis nofun, shown.curl⟩
  | closed => exact shown.emit rfl rfl
  | switched first roundtrip =>
    exact ⟨shown.pg.append rfl rfl, shown.redis.switch first roundtrip, curl _⟩
  | scheduled scheduled => exact ⟨shown.pg, shown.redis, shown.curl⟩
  | serviced failed => exact ⟨shown.pg, shown.redis, shown.curl⟩
  | fault => exact ⟨shown.pg, shown.redis, shown.curl⟩

theorem Shown.reaches {w after : World} (shown : Shown w) (reaches : Reaches w after) :
    Shown after := by
  induction reaches with
  | refl => exact shown
  | tail _ change ih => exact ih.change change

/-- A process that is set up has shown nothing yet, or what its first transfer came to. -/
theorem shown_setup {given : Setup} {w : World}
    (ready : setup ⟨.zeroed, [], false, false⟩ given = (true, w)) : Shown w := by
  have zeroed : Shown ⟨{ (exerciseQueue ⟨.zeroed, [], false, false⟩).app with
      redisGeneration := 1 }, [], false, false⟩ := by
    refine ⟨⟨rfl, rfl, fun state => absurd rfl state, nofun, nofun, nofun, nofun, nofun⟩,
      ⟨Or.inl rfl, nofun, nofun, nofun, nofun⟩, nofun⟩
  exact zeroed.reaches (reaches_setup ready)

/-- A process that exits with success has been answered by its three clients, in this order: each of
the two pipelines was sent once, rows and a synchronisation came before the second one and its
result after it, an error or an aborted statement came, the first Redis connection answered, was
closed, and the second one answered, and the transfer was delivered with status 200. -/
theorem success_shows {globalInit : Bool} {given : Setup} {started : Int} {turns : List Turn}
    {exit : Exit} (exits : main globalInit given started turns = some exit)
    (success : exit.status = 0) :
    InOrder [isInitial, isTuples, isRecovery, isFortyTwo] exit.world.log ∧
      InOrder [isInitial, isSync, isRecovery, isFortyTwo] exit.world.log ∧
      InOrder [isInitial, isAbort] exit.world.log ∧
      exit.world.log.countP isInitial = 1 ∧ exit.world.log.countP isRecovery = 1 ∧
      InOrder [isConnected 1, isAlpha, isClosed 1, isConnected 2, isPong] exit.world.log ∧
      InOrder [isDelivered] exit.world.log ∧ exit.world.app.cleanShutdown = true := by
  unfold main at exits
  dsimp only at exits
  split at exits
  · obtain rfl := Option.some.inj exits
    cases success
  · split at exits
    · obtain rfl := Option.some.inj exits
      cases success
    next ready =>
      obtain ⟨left, leaves, ends⟩ := Option.bind_eq_some_iff.mp exits
      obtain rfl := Option.some.inj ends
      have shown : Shown left := (shown_setup (Prod.ext (by simpa using ready) rfl)).reaches
        (reaches_loop leaves)
      have passed : left.finish.app.failed = false := by
        cases failed : left.finish.app.failed with
        | false => rfl
        | true => simp [failed] at success
      have done : complete left.app = true := by
        simp only [World.finish, Bool.or_eq_false_iff, Bool.not_eq_false'] at passed
        exact passed.2
      simp only [complete, Bool.and_eq_true] at done
      obtain ⟨⟨⟨⟨⟨⟨⟨⟨⟨⟨roundtrip, abort⟩, -⟩, recovered⟩, -⟩, -⟩, pong⟩, delivered⟩, -⟩, -⟩, -⟩ :=
        done
      obtain ⟨state, synced, rows⟩ := shown.pg.recovered recovered
      have initials := shown.pg.initials
      have recoveries := shown.pg.recoveries
      rw [state] at initials recoveries
      refine ⟨rows roundtrip, synced, shown.pg.abort abort, initials, recoveries,
        shown.redis.recovered pong, shown.curl delivered, ?_⟩
      simpa [World.finish] using passed

/-- A descriptor that is ready, with what PostgreSQL and Redis answer then. -/
def answering (results : List (Option PgResult)) (incoming : List Incoming) : Handling :=
  ⟨⟨true, false, false, false, false⟩, ⟨.ok, true, true, results, true⟩, incoming, [],
    ⟨56379, true, true⟩, ⟨[], true, []⟩⟩

/-- A tick in which both answer. -/
def answeringTick (results : List (Option PgResult)) (incoming : List Incoming) : Event :=
  .tick ⟨true, [answering results incoming, answering results incoming],
    ⟨[], true, [⟨true, 0, 200⟩]⟩⟩

/-- Three ticks are enough: the connections and the first Redis round trip, the first pipeline, and
both recoveries. -/
theorem success_in_three_ticks :
    ∃ exit, main true ⟨true, true, ⟨56379, true, true⟩, true, true, ⟨[], true, []⟩⟩ 0
        [⟨0, [answeringTick [] [.connect true [true, true], .reply (.status "OK".toList),
            .reply (.string "alpha".toList)],
          answeringTick [some ⟨.tuplesOk, 1, "1".toList⟩, some ⟨.fatalError, 0, []⟩,
            some ⟨.pipelineSync, 0, []⟩, none] [.connect true [true]],
          answeringTick [some ⟨.tuplesOk, 1, "42".toList⟩] [.reply (.status "PONG".toList)]], true⟩,
        ⟨1, [], true⟩] = some exit ∧
      InOrder [isConnected 1, isAlpha, isClosed 1, isConnected 2, isPong] exit.world.log := by
  generalize run : main _ _ _ _ = result
  have status : result.map Exit.status = some 0 := by
    rw [← run]
    decide +kernel
  obtain ⟨exit, ended, success⟩ := Option.map_eq_some_iff.mp status
  rw [ended] at run
  exact ⟨exit, ended, (success_shows run success).2.2.2.2.2.1⟩

end AlphaPipeline.Spike

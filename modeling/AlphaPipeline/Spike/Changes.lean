import AlphaPipeline.Spike.EventLoop

/-!
# The changes of the event loop

Every callback is a sequence of the changes listed here, so what every change keeps holds along
every run.
-/
namespace AlphaPipeline.Spike

open Redis (Reply)

/-- The changes the callbacks are made of. -/
inductive Change (w : World) : World → Prop
  | failure (message : String) : Change w (w.fail message)
  | acted (fd : Int) (action : Nat) : Change w (w.emit (.curlAction fd action))
  | socket (socket : Int × CurlPoll) : Change w (w.curlSocket socket)
  | message (message : CurlMessage) : Change w (takeMessage w message)
  | initial (state : w.app.pgState = .connecting) :
    Change w ({ w with app := { w.app with pgState := .aborting } }.emit .pgInitial)
  | result (result : PgResult) (state : w.app.pgState ≠ .connecting) :
    Change w ({ w with app := w.app.takeResult result }.emit (.pgResult result))
  | recovery (state : w.app.pgState = .aborting) (synced : w.app.pgSyncSeen = true) :
    Change w ({ w with app := { w.app with pgState := .recovering } }.emit .pgRecovery)
  | started : Change w (w.setRedis (.live ⟨false, false, []⟩))
  | connected (context : Context) :
    Change w ((w.emit (.redisConnected w.app.redisGeneration)).setRedis (.live context))
  | pending (context after : Context) (here : w.app.redis = .live context)
      (same : after.connected = context.connected) : Change w (w.setRedis (.live after))
  | reply (context : Context) (here : w.app.redis = .live context)
      (connected : context.connected = true) (reply : Reply) :
    Change w (redisCommandCallback w context (some reply))
  | freed : Change w (w.setRedis .freed)
  | closed : Change w (w.emit (.redisClosed w.app.redisGeneration))
  | switched (first : w.app.redisGeneration = 1) (roundtrip : w.app.redisRoundtrip = true) :
    Change w { w.emit (.redisClosed w.app.redisGeneration) with app := { w.app with
      redisDisconnect := true, redis := .null, redisGeneration := 2 } }
  | scheduled (scheduled : Bool) : Change w { w with scheduled }
  | serviced (failed : Bool) : Change w { w with app := { w.app with failed } }
  | fault : Change w { w with fault := true }

def Reaches : World → World → Prop := Relation.ReflTransGen Change

theorem Reaches.refl (w : World) : Reaches w w := Relation.ReflTransGen.refl

theorem Reaches.trans {u v w : World} (first : Reaches u v) (second : Reaches v w) : Reaches u w :=
  Relation.ReflTransGen.trans first second

theorem Change.reaches {v w : World} (change : Change v w) : Reaches v w := .single change

theorem reaches_foldl {α : Type} {step : World → α → World}
    (reaches : ∀ w a, Reaches w (step w a)) (list : List α) (w : World) :
    Reaches w (list.foldl step w) := by
  induction list generalizing w with
  | nil => exact .refl w
  | cons a list ih => exact (reaches w a).trans (ih _)

/-! ### PostgreSQL -/

/-- A result sets flags of PostgreSQL, and nothing else. -/
theorem takeResult_eq (app : App) (result : PgResult) :
    ∃ pgRoundtrip pgAbortSeen pgSyncSeen pgRecovered, app.takeResult result =
      { app with pgRoundtrip, pgAbortSeen, pgSyncSeen, pgRecovered } := by
  unfold App.takeResult
  split
  · split
    · exact ⟨_, _, _, _, rfl⟩
    · split
      · exact ⟨_, _, _, _, rfl⟩
      · exact ⟨_, _, _, _, rfl⟩
  all_goals exact ⟨_, _, _, _, rfl⟩

theorem reaches_drainResults (sent : Bool) (results : List (Option PgResult)) (w : World)
    (state : w.app.pgState ≠ .connecting) : Reaches w (drainResults sent results w) := by
  induction results generalizing w with
  | nil => exact .refl w
  | cons result rest ih =>
    cases result with
    | none =>
      rw [drainResults]
      split
      next synced =>
        split
        · exact (Change.failure _).reaches
        · exact (Change.recovery synced.1 synced.2).reaches
      · exact .refl w
    | some result =>
      obtain ⟨_, _, _, _, eq⟩ := takeResult_eq w.app result
      refine (Change.result result state).reaches.trans (ih _ ?_)
      rw [eq]
      exact state

theorem reaches_pgReady (w : World) (turn : PgTurn) : Reaches w (pgReady w turn) := by
  unfold pgReady
  split
  next state =>
    split
    · exact (Change.failure _).reaches
    · unfold pgSendInitial
      split
      · exact (Change.failure _).reaches
      · exact (Change.initial state).reaches
    · exact .refl w
    · exact .refl w
  next state =>
    unfold pgDrain
    split
    · exact (Change.failure _).reaches
    · exact reaches_drainResults _ _ w state

/-! ### Redis -/

theorem reaches_startRedis (w : World) (start : Start) : Reaches w (startRedis w start).2 := by
  unfold startRedis
  split
  · exact .refl w
  · split
    · exact .refl w
    · exact Change.started.reaches

theorem reaches_enqueue (w : World) (context : Context) (commands : List RedisCommand)
    (accepted : List Bool) :
    Reaches (w.setRedis (.live context)) (enqueue w context commands accepted).2 := by
  induction commands generalizing context accepted with
  | nil => exact .refl _
  | cons command rest ih =>
    rw [enqueue]
    split
    · exact (Change.pending context { context with pending := context.pending ++ [command] } rfl
        rfl).reaches.trans (ih _ _)
    · exact .refl _

theorem reaches_redisConnected (w : World) (context : Context) (accepted : List Bool) :
    Reaches w (redisConnected w context accepted) := by
  have sends (commands : List RedisCommand) (message : String) :
      let sent := enqueue (w.emit (.redisConnected w.app.redisGeneration)) context commands accepted
      Reaches w (if !sent.1 then sent.2.fail message else sent.2) := by
    have reached := (Change.connected (w := w) context).reaches.trans
      (reaches_enqueue _ context commands accepted)
    dsimp only
    split
    · exact reached.trans (Change.failure _).reaches
    · exact reached
  unfold redisConnected
  dsimp only
  split
  · exact sends [.set, .get] _
  · exact sends [.ping] _

theorem reaches_redisDisconnectCallback (w : World) (start : Start) :
    Reaches w (redisDisconnectCallback w start) := by
  unfold redisDisconnectCallback
  dsimp only
  split
  next expected =>
    have switched := (Change.switched expected.1 expected.2).reaches.trans
      (reaches_startRedis _ start)
    split
    · exact switched.trans (Change.failure _).reaches
    · exact switched
  · exact Change.closed.reaches

/-- What a reply changes. -/
theorem redisCommandCallback_eq (w : World) (context : Context) (reply : Reply) :
    ∃ redis redisRoundtrip redisRecovered,
      redisCommandCallback w context (some reply) =
        { w.emit (.redisReply w.app.redisGeneration reply) with
          app := { w.app with redis, redisRoundtrip, redisRecovered } } := by
  unfold redisCommandCallback
  dsimp only
  split
  · split
    · exact ⟨_, _, _, rfl⟩
    · exact ⟨_, _, _, rfl⟩
  · split
    · exact ⟨_, _, _, rfl⟩
    · exact ⟨_, _, _, rfl⟩
  · exact ⟨_, _, _, rfl⟩

theorem reaches_teardown (w : World) (context : Context) (start : Start) :
    Reaches w (teardown w context start) := by
  have fails (w : World) (_ : RedisCommand) : Reaches w (redisCommandCallback w context none) :=
    (Change.failure "Redis async command failed").reaches
  have told := (Change.freed (w := w)).reaches.trans
    (reaches_foldl fails (context.pending.filter RedisCommand.hasCallback) _)
  unfold teardown
  dsimp only
  split
  · exact told.trans (reaches_redisDisconnectCallback _ start)
  · exact told

theorem reaches_receive (w : World) (context : Context) (here : w.app.redis = .live context)
    (start : Start) (incoming : Incoming) : Reaches w (receive w context start incoming).1 := by
  cases incoming with
  | connect ok accepted =>
    rw [receive]
    split
    · exact .refl w
    · split
      · exact reaches_redisConnected w _ accepted
      · exact (Change.failure _).reaches.trans (reaches_teardown _ context start)
  | lost => exact reaches_teardown w context start
  | reply reply =>
    rw [receive]
    split
    next command pending connected queued =>
      have popped := (Change.pending (w := w) context { context with pending } here rfl).reaches
      have answered : Reaches w (if command.hasCallback then
          redisCommandCallback (w.setRedis (.live { context with pending }))
            { context with pending } (some reply)
          else w.setRedis (.live { context with pending })) := by
        split
        · exact popped.trans (Change.reply { context with pending } rfl connected reply).reaches
        · exact popped
      dsimp only
      split
      · split
        · exact answered.trans (reaches_teardown _ _ start)
        · exact answered
      · exact answered
    · exact .refl w

theorem reaches_redisHandle (start : Start) (incoming : List Incoming) (w : World) :
    Reaches w (redisHandle start incoming w) := by
  induction incoming generalizing w with
  | nil =>
    rw [redisHandle]
    split
    · exact Change.fault.reaches
    · exact .refl w
  | cons first rest ih =>
    rw [redisHandle]
    split
    next context here =>
      have received := reaches_receive w context here start first
      dsimp only
      split
      · exact received.trans (ih _)
      · exact received
    · exact Change.fault.reaches
    · exact .refl w

/-! ### HTTP -/

theorem reaches_curlAction (w : World) (fd : Int) (action : Nat) (turn : CurlTurn) :
    Reaches w (curlAction w fd action turn) := by
  have acted := (Change.acted (w := w) fd action).reaches.trans
    (reaches_foldl (fun w socket => (Change.socket socket).reaches) turn.sockets _)
  unfold curlAction
  dsimp only
  split
  · exact acted.trans (Change.failure _).reaches
  · exact acted.trans (reaches_foldl (fun w message => (Change.message message).reaches) _ _)

/-! ### The loop -/

theorem reaches_handleRedis (w : World) (readable writable : Bool) (handling : Handling) :
    Reaches w (handleRedis w readable writable handling) := by
  have reads : Reaches w (if readable then redisHandle handling.start handling.read w else w) := by
    split
    · exact reaches_redisHandle _ _ w
    · exact .refl w
  unfold handleRedis
  dsimp only
  generalize (if readable = true then redisHandle handling.start handling.read w else w) = read
    at reads ⊢
  split
  · exact .refl w
  · split
    · exact reads.trans (reaches_redisHandle _ _ _)
    · exact reads

theorem reaches_handleEntry (w : World) (entry : PollEntry × Handling) :
    Reaches w (handleEntry w entry) := by
  unfold handleEntry
  dsimp only
  split
  · exact .refl w
  · split
    · exact reaches_pgReady w _
    · exact reaches_handleRedis w _ _ _
    · exact reaches_curlAction w _ _ _

theorem reaches_serviceTick (w : World) (tick : Tick) : Reaches w (serviceTick w tick) := by
  have fired := (Change.scheduled (w := w) false).reaches
  unfold serviceTick
  dsimp only
  split
  · exact fired.trans Change.fault.reaches
  · split
    · exact fired.trans (Change.failure _).reaches
    · have handled := fired.trans (reaches_foldl reaches_handleEntry
        ((pollSet w.app).zip tick.handlings) _)
      split
      · exact handled
      · exact (handled.trans (reaches_curlAction _ (-1) 0 tick.timeout)).trans
          (Change.scheduled _).reaches

theorem reaches_rawCallback (w : World) (watch : Option Owner) (reason : Reason)
    (handling : Handling) : Reaches w (rawCallback w watch reason handling) := by
  have handles (incoming : List Incoming) :
      Reaches w (if w.app.redis = .null then w
        else redisHandle handling.start incoming w) := by
    split
    · exact .refl w
    · exact reaches_redisHandle _ _ w
  have acts (asked : Bool) (i action : Nat) :
      Reaches w (if asked then curlAction w (w.app.curlFd i) action handling.curl else w) := by
    split
    · exact reaches_curlAction w _ _ _
    · exact .refl w
  unfold rawCallback
  split
  · exact reaches_pgReady w _
  · exact reaches_pgReady w _
  · exact handles _
  · exact handles _
  · exact handles _
  · exact acts _ _ _
  · exact acts _ _ _
  · exact .refl w

theorem reaches_step (w : World) (event : Event) : Reaches w (w.step event) := by
  cases event with
  | tick tick =>
    rw [World.step]
    split
    · exact .refl w
    · exact reaches_serviceTick w tick
  | raw watch reason handling =>
    rw [World.step]
    split
    · exact .refl w
    · exact reaches_rawCallback w watch reason handling

theorem reaches_service (w : World) (turn : Turn) : Reaches w (w.service turn) :=
  (reaches_foldl reaches_step turn.events w).trans (Change.serviced _).reaches

theorem reaches_loop {started : Int} {turns : List Turn} {w left : World}
    (leaves : loop started turns w = some left) : Reaches w left := by
  induction turns generalizing w with
  | nil => cases leaves
  | cons turn rest ih =>
    rw [loop] at leaves
    split at leaves
    · cases leaves
    · split at leaves
      · obtain rfl := Option.some.inj leaves
        exact .refl w
      · exact (reaches_service w turn).trans (ih leaves)

/-- A `setup` that succeeds, from where the queue has been exercised. -/
theorem reaches_setup {w after : World} {given : Setup} (ready : setup w given = (true, after)) :
    Reaches { exerciseQueue w with app := { (exerciseQueue w).app with redisGeneration := 1 } }
      after := by
  unfold setup at ready
  split at ready
  · cases ready
  · dsimp only at ready
    split at ready
    · cases ready
    · split at ready
      · cases ready
      · split at ready
        · cases ready
        · obtain ⟨-, rfl⟩ := Prod.mk.inj ready
          exact ((reaches_startRedis _ given.start).trans
            (reaches_curlAction _ (-1) 0 given.curl)).trans (Change.scheduled true).reaches

end AlphaPipeline.Spike

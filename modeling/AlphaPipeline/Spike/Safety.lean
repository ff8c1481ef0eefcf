import AlphaPipeline.Spike.Changes

/-!
# The Redis context of the event loop

hiredis frees a context when its connection ends, and `app->redis` is only cleared by the disconnect
callback, and only where the first connection had its answer. The pointer is therefore good as long
as connections end in no other way.
-/
namespace AlphaPipeline.Spike

open Redis (Reply)

/-- The attempt to connect succeeds, or a reply comes. -/
def Incoming.orderly : Incoming → Bool
  | .connect ok _ => ok
  | .reply _ => true
  | .lost => false

/-- No connection is refused or lost. -/
def Handling.orderly (handling : Handling) : Bool :=
  handling.read.all Incoming.orderly && handling.write.all Incoming.orderly

def Event.orderly : Event → Bool
  | .tick given => given.handlings.all Handling.orderly
  | .raw _ _ handling => handling.orderly

/-- A disconnect is only asked for where the disconnect callback starts the second connection. -/
def Context.Sound (app : App) (context : Context) : Prop :=
  context.disconnecting = true →
    context.connected = true ∧ app.redisGeneration = 1 ∧ app.redisRoundtrip = true

/-- `app->redis` is null or a context in use. -/
structure Sound (w : World) : Prop where
  unharmed : w.fault = false
  allocated : w.app.redis ≠ .freed
  live : ∀ context, w.app.redis = .live context → context.Sound w.app

/-! ### What leaves Redis alone -/

/-- All that the invariant speaks of is as it was. -/
structure Aside (w after : World) : Prop where
  fault : after.fault = w.fault
  redis : after.app.redis = w.app.redis
  generation : after.app.redisGeneration = w.app.redisGeneration
  roundtrip : after.app.redisRoundtrip = w.app.redisRoundtrip

theorem Aside.refl (w : World) : Aside w w := ⟨rfl, rfl, rfl, rfl⟩

theorem Aside.trans {u v w : World} (first : Aside u v) (second : Aside v w) : Aside u w where
  fault := second.fault.trans first.fault
  redis := second.redis.trans first.redis
  generation := second.generation.trans first.generation
  roundtrip := second.roundtrip.trans first.roundtrip

theorem Aside.foldl {α : Type} {step : World → α → World} (aside : ∀ w a, Aside w (step w a))
    (list : List α) (w : World) : Aside w (list.foldl step w) := by
  induction list generalizing w with
  | nil => exact .refl w
  | cons a list ih => exact (aside w a).trans (ih _)

theorem aside_fail (w : World) (message : String) : Aside w (w.fail message) := ⟨rfl, rfl, rfl, rfl⟩

theorem aside_curlSocket (w : World) (socket : Int × CurlPoll) : Aside w (w.curlSocket socket) := by
  unfold World.curlSocket onCurlSocket
  dsimp only
  split
  · split <;> exact ⟨rfl, rfl, rfl, rfl⟩
  · split
    · split <;> exact ⟨rfl, rfl, rfl, rfl⟩
    · exact ⟨rfl, rfl, rfl, rfl⟩

theorem aside_takeMessage (w : World) (message : CurlMessage) :
    Aside w (takeMessage w message) := by
  unfold takeMessage
  dsimp only
  split
  · exact .refl w
  · split <;> exact ⟨rfl, rfl, rfl, rfl⟩

theorem aside_curlAction (w : World) (fd : Int) (action : Nat) (turn : CurlTurn) :
    Aside w (curlAction w fd action turn) := by
  have told : Aside w (w.emit (.curlAction fd action)) := ⟨rfl, rfl, rfl, rfl⟩
  have acted := told.trans (Aside.foldl aside_curlSocket turn.sockets _)
  unfold curlAction
  dsimp only
  split
  · exact acted.trans (aside_fail _ _)
  · exact acted.trans (Aside.foldl aside_takeMessage turn.messages _)

theorem aside_takeResult (w : World) (result : PgResult) :
    Aside w ({ w with app := w.app.takeResult result }.emit (.pgResult result)) := by
  obtain ⟨_, _, _, _, eq⟩ := takeResult_eq w.app result
  rw [eq]
  exact ⟨rfl, rfl, rfl, rfl⟩

theorem aside_drainResults (sent : Bool) (results : List (Option PgResult)) (w : World) :
    Aside w (drainResults sent results w) := by
  induction results generalizing w with
  | nil => exact .refl w
  | cons result rest ih =>
    cases result with
    | none =>
      rw [drainResults]
      split
      · split
        · exact aside_fail w _
        · exact ⟨rfl, rfl, rfl, rfl⟩
      · exact .refl w
    | some result => exact (aside_takeResult w result).trans (ih _)

theorem aside_pgReady (w : World) (turn : PgTurn) : Aside w (pgReady w turn) := by
  unfold pgReady
  split
  · split
    · exact aside_fail w _
    · unfold pgSendInitial
      split
      · exact aside_fail w _
      · exact ⟨rfl, rfl, rfl, rfl⟩
    all_goals exact .refl w
  · unfold pgDrain
    split
    · exact aside_fail w _
    · exact aside_drainResults _ _ w

variable {w : World}

theorem Sound.aside {after : World} (sound : Sound w) (aside : Aside w after) : Sound after where
  unharmed := aside.fault.trans sound.unharmed
  allocated := aside.redis ▸ sound.allocated
  live context here := by
    intro disconnecting
    rw [aside.generation, aside.roundtrip]
    exact sound.live context (aside.redis ▸ here) disconnecting

/-! ### hiredis -/

theorem Sound.setLive (sound : Sound w) {context : Context} (kept : context.Sound w.app) :
    Sound (w.setRedis (.live context)) where
  unharmed := sound.unharmed
  allocated := nofun
  live := by
    rintro _ ⟨⟩
    exact kept

theorem Sound.enqueue (sound : Sound w) {context : Context} (kept : context.Sound w.app)
    (commands : List RedisCommand) (accepted : List Bool) :
    Sound (enqueue w context commands accepted).2 := by
  induction commands generalizing context accepted with
  | nil => exact sound.setLive kept
  | cons command rest ih =>
    rw [Spike.enqueue]
    split
    · have queued : Context.Sound w.app
          { context with pending := context.pending ++ [command] } := kept
      exact ih queued _
    · exact sound.setLive kept

theorem Sound.redisConnected (sound : Sound w) {context : Context} (kept : context.Sound w.app)
    (accepted : List Bool) : Sound (redisConnected w context accepted) := by
  have told : Sound (w.emit (.redisConnected w.app.redisGeneration)) :=
    sound.aside ⟨rfl, rfl, rfl, rfl⟩
  unfold Spike.redisConnected
  dsimp only
  split
  · split
    · exact (told.enqueue kept _ _).aside (aside_fail _ _)
    · exact told.enqueue kept _ _
  · split
    · exact (told.enqueue kept _ _).aside (aside_fail _ _)
    · exact told.enqueue kept _ _

/-- The answer that ends the first connection is the only one that asks for a disconnect. -/
theorem Sound.redisCommandCallback (sound : Sound w) {context : Context}
    (connected : context.connected = true) (reply : Reply) :
    Sound (redisCommandCallback w context (some reply)) := by
  have seen : Sound (w.emit (.redisReply w.app.redisGeneration reply)) :=
    sound.aside ⟨rfl, rfl, rfl, rfl⟩
  unfold Spike.redisCommandCallback
  dsimp only
  split
  · split
    next text answer =>
      refine ⟨sound.unharmed, nofun, ?_⟩
      rintro _ ⟨⟩ -
      exact ⟨connected, answer.1, rfl⟩
    next => exact seen
  · split
    · exact seen.aside ⟨rfl, rfl, rfl, rfl⟩
    · exact seen
  · exact seen

theorem sound_startRedis (unharmed : w.fault = false) (null : w.app.redis = .null)
    (start : Start) : Sound (startRedis w start).2 := by
  have idle : Sound w := ⟨unharmed, by rw [null]; exact nofun, by rw [null]; exact nofun⟩
  unfold startRedis
  split
  · exact idle
  · split
    · exact idle
    · exact idle.setLive nofun

theorem sound_redisDisconnectCallback (unharmed : w.fault = false)
    (first : w.app.redisGeneration = 1) (roundtrip : w.app.redisRoundtrip = true)
    (start : Start) : Sound (redisDisconnectCallback w start) := by
  unfold redisDisconnectCallback
  dsimp only
  rw [if_pos ⟨first, roundtrip⟩]
  generalize cleared : World.mk _ _ _ _ = restarting
  have restarted : Sound (startRedis restarting start).2 := by
    subst cleared
    refine sound_startRedis ?_ ?_ start
    · exact unharmed
    · rfl
  split
  · exact restarted.aside (aside_fail _ _)
  · exact restarted

/-- The context of the first connection is freed, and the second one is started in its place. -/
theorem sound_teardown (unharmed : w.fault = false) {context : Context}
    (kept : context.Sound w.app) (disconnecting : context.disconnecting = true)
    (answered : context.pending = []) (start : Start) : Sound (teardown w context start) := by
  obtain ⟨connected, first, roundtrip⟩ := kept disconnecting
  unfold teardown
  rw [answered, connected]
  exact sound_redisDisconnectCallback (w := w.setRedis .freed) unharmed first roundtrip start

theorem Sound.receive (sound : Sound w) {context : Context} (here : w.app.redis = .live context)
    (start : Start) {incoming : Incoming} (orderly : incoming.orderly = true) :
    Sound (receive w context start incoming).1 := by
  have kept := sound.live context here
  cases incoming with
  | lost => cases orderly
  | connect ok accepted =>
    cases ok with
    | false => cases orderly
    | true =>
      rw [Spike.receive, if_pos rfl]
      split
      · exact sound
      next fresh =>
        refine sound.redisConnected (fun asked => ?_) accepted
        exact absurd (kept asked).1 fresh
  | reply reply =>
    unfold Spike.receive
    dsimp only
    split
    next command pending connected waiting =>
      have popped : Context.Sound w.app { context with pending } := kept
      have set := sound.setLive popped
      generalize eq : (if command.hasCallback = true then _ else _ : World) = answered
      have sound : Sound answered := by
        rw [← eq]
        split
        · refine set.redisCommandCallback ?_ reply
          exact connected
        · exact set
      split
      next after there =>
        split
        next done =>
          exact sound_teardown sound.unharmed (sound.live after there) done.1 done.2 start
        next => exact sound
      next => exact sound
    next => exact sound

theorem Sound.redisHandle (sound : Sound w) (start : Start) {incoming : List Incoming}
    (orderly : incoming.all Incoming.orderly = true) : Sound (redisHandle start incoming w) := by
  induction incoming generalizing w with
  | nil =>
    rw [Spike.redisHandle, if_neg sound.allocated]
    exact sound
  | cons first rest ih =>
    rw [List.all_cons, Bool.and_eq_true] at orderly
    rw [Spike.redisHandle]
    split
    next context here =>
      have received := sound.receive here start orderly.1
      dsimp only
      split
      · exact ih received orderly.2
      · exact received
    next freed => exact absurd freed sound.allocated
    next => exact sound

/-! ### The loop -/

theorem Sound.handleRedis (sound : Sound w) (readable writable : Bool) {handling : Handling}
    (orderly : handling.orderly = true) : Sound (handleRedis w readable writable handling) := by
  rw [Handling.orderly, Bool.and_eq_true] at orderly
  have read : Sound (if readable = true then
      Spike.redisHandle handling.start handling.read w else w) := by
    split
    · exact sound.redisHandle _ orderly.1
    · exact sound
  unfold Spike.handleRedis
  dsimp only
  generalize (if readable = true then _ else _ : World) = after at read ⊢
  split
  · exact sound
  · split
    · exact read.redisHandle _ orderly.2
    · exact read

theorem Sound.handleEntry (sound : Sound w) (entry : PollEntry × Handling)
    (orderly : entry.2.orderly = true) : Sound (handleEntry w entry) := by
  unfold Spike.handleEntry
  dsimp only
  split
  · exact sound
  · split
    · exact sound.aside (aside_pgReady w _)
    · exact sound.handleRedis _ _ orderly
    · exact sound.aside (aside_curlAction w _ _ _)

theorem Sound.handleEntries (sound : Sound w) (entries : List (PollEntry × Handling))
    (orderly : ∀ entry ∈ entries, entry.2.orderly = true) :
    Sound (entries.foldl Spike.handleEntry w) := by
  induction entries generalizing w with
  | nil => exact sound
  | cons entry rest ih =>
    rw [List.forall_mem_cons] at orderly
    exact ih (sound.handleEntry entry orderly.1) orderly.2

theorem Sound.serviceTick (sound : Sound w) {tick : Tick}
    (orderly : tick.handlings.all Handling.orderly = true) : Sound (serviceTick w tick) := by
  have fired : Sound { w with scheduled := false } := sound.aside ⟨rfl, rfl, rfl, rfl⟩
  have handled := fired.handleEntries ((pollSet w.app).zip tick.handlings) fun entry here =>
    List.all_eq_true.mp orderly entry.2 (List.of_mem_zip here).2
  unfold Spike.serviceTick
  dsimp only
  split
  · exact absurd ‹_› sound.allocated
  · split
    · exact fired.aside (aside_fail _ _)
    · split
      · exact handled
      · exact (handled.aside (aside_curlAction _ _ _ _)).aside ⟨rfl, rfl, rfl, rfl⟩

theorem Sound.rawCallback (sound : Sound w) (watch : Option Owner) (reason : Reason)
    {handling : Handling} (orderly : handling.orderly = true) :
    Sound (rawCallback w watch reason handling) := by
  rw [Handling.orderly, Bool.and_eq_true] at orderly
  unfold Spike.rawCallback
  split
  · exact sound.aside (aside_pgReady w _)
  · exact sound.aside (aside_pgReady w _)
  · split
    · exact sound
    · exact sound.redisHandle _ orderly.1
  · split
    · exact sound
    · exact sound.redisHandle _ orderly.1
  · split
    · exact sound
    · exact sound.redisHandle _ orderly.2
  · split
    · exact sound.aside (aside_curlAction w _ _ _)
    · exact sound
  · split
    · exact sound.aside (aside_curlAction w _ _ _)
    · exact sound
  · exact sound

theorem Sound.step (sound : Sound w) {event : Event} (orderly : event.orderly = true) :
    Sound (w.step event) := by
  cases event with
  | tick tick =>
    rw [World.step]
    split
    · exact sound
    · exact sound.serviceTick orderly
  | raw watch reason handling =>
    rw [World.step]
    split
    · exact sound
    · exact sound.rawCallback watch reason orderly

theorem sound_setup {given : Setup}
    (ready : setup ⟨.zeroed, [], false, false⟩ given = (true, w)) : Sound w := by
  have started := sound_startRedis (w := ⟨{ (exerciseQueue ⟨.zeroed, [], false, false⟩).app with
    redisGeneration := 1 }, [], false, false⟩) rfl rfl given.start
  unfold setup at ready
  split at ready
  · cases ready
  · dsimp only at ready
    split at ready
    · cases ready
    · split at ready
      · cases ready
      · split at ready
        · cases ready
        · obtain ⟨-, rfl⟩ := Prod.mk.inj ready
          exact (started.aside (aside_curlAction _ (-1) 0 given.curl)).aside ⟨rfl, rfl, rfl, rfl⟩

/-- No freed context is touched in any run in which no connection is refused or lost, whatever is
answered and in whichever order the callbacks come. -/
theorem context_in_use_of_orderly {given : Setup} {ready : World}
    (started : setup ⟨.zeroed, [], false, false⟩ given = (true, ready)) (events : List Event)
    (orderly : ∀ event ∈ events, event.orderly = true) :
    (events.foldl World.step ready).fault = false ∧
      (events.foldl World.step ready).app.redis ≠ .freed := by
  have kept : Sound (events.foldl World.step ready) := by
    have sound := sound_setup started
    clear started
    induction events generalizing ready with
    | nil => exact sound
    | cons event rest ih =>
      rw [List.forall_mem_cons] at orderly
      exact ih orderly.2 (sound.step orderly.1)
  exact ⟨kept.unharmed, kept.allocated⟩

/-- A process that is set up, its transfer still running. -/
def plainSetup : Setup :=
  ⟨true, true, ⟨56379, true, true⟩, true, true, ⟨[], true, []⟩⟩

/-- Nothing comes from PostgreSQL, Redis is ready as `revents` says. -/
def redisTick (revents : Revents) (read write : List Incoming) : Event :=
  .tick ⟨true, [⟨⟨false, false, false, false, false⟩, ⟨.reading, false, false, [], false⟩, [], [],
      ⟨56379, true, true⟩, ⟨[], true, []⟩⟩,
    ⟨revents, ⟨.reading, false, false, [], false⟩, read, write, ⟨56379, true, true⟩,
      ⟨[], true, []⟩⟩], ⟨[], true, []⟩⟩

/-- The first connection is closed and the second one opened with the pointer good throughout. -/
theorem context_in_use_across_reconnect :
    ([redisTick ⟨true, true, false, false, false⟩ [.connect true [true, true],
        .reply (.status "OK".toList), .reply (.string "alpha".toList)] [],
      redisTick ⟨false, true, false, false, false⟩ [] [.connect true [true]]].foldl World.step
        (setup ⟨.zeroed, [], false, false⟩ plainSetup).2).app.redis ≠ .freed := by
  have ready : setup ⟨.zeroed, [], false, false⟩ plainSetup =
      (true, (setup ⟨.zeroed, [], false, false⟩ plainSetup).2) := rfl
  exact (context_in_use_of_orderly ready _ (by decide +kernel)).2

-- A refused connection is readable and writable at once: the read frees the context that
-- `redisAsyncHandleWrite` is then given.
example : ([redisTick ⟨true, true, true, false, false⟩ [.connect false []] []].foldl World.step
    (setup ⟨.zeroed, [], false, false⟩ plainSetup).2).fault = true := by
  decide +kernel

end AlphaPipeline.Spike

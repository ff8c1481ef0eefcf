import AlphaPipeline.Bench.Driver
import AlphaPipeline.Db.Postgres

/-!
# The C adapter of the benchmark

`c_driver_adapter.c` drives one operation at a time. All operations share one token, and what
happens to them is recorded by callbacks that run while the event loop is serviced. The clients and
the loop are given by what they do during each turn. A client answers a command it has accepted at
most once, and not before the call that submits it has returned.
-/
namespace AlphaPipeline.DriverAdapter

open Postgres (Position Exposure)

/-- `case_kind_t`. -/
inductive CaseKind where
  | redis
  | db
  deriving DecidableEq, Repr

/-- `token_t`. -/
structure Token where
  index : Nat
  startedNs : Nat

/-- `struct adapter`, without its handles. An entry of `latency_ns` is the list of the values
written to it. -/
structure Adapter where
  kind : CaseKind
  total : Nat
  submitted : Nat
  completed : Nat
  connected : Bool
  inflight : Bool
  failed : Bool
  latencyNs : Nat → List Nat
  token : Token
  ticker : Text
  namespaceText : Text
  redisValue : Text
  dbRows : Nat → Position
  exposure : Exposure

/-- `OP_COUNT`. -/
def opCount : Nat := 3

/-! ### Callbacks -/

/-- A failure is only recorded. -/
def failUnless (a : Adapter) (ok : Bool) : Adapter := { a with failed := a.failed || !ok }

/-- `ready`, by what the client answers it in the end. -/
def ready (a : Adapter) (status : AlphaErr) : Adapter := failUnless a (status = .ok)

/-- `redis_watch`, by the descriptor, whether there is anything to watch, and what the registry of
watches answers. -/
def redisWatch (a : Adapter) (fd : Int) (flags : Bool) (status : AlphaErr) : Adapter :=
  if fd < 0 || !flags then a else failUnless a (status = .ok)

/-- `redis_timer`; `watched` says whether there is a watch. -/
def redisTimer (a : Adapter) (watched : Bool) (status : AlphaErr) : Adapter :=
  failUnless a (!watched || status = .ok)

/-- `redis_connect`. -/
def redisConnect (a : Adapter) (status : AlphaErr) : Adapter :=
  failUnless { a with connected := status = .ok } (status = .ok)

inductive Callback where
  | ready (status : AlphaErr)
  | watch (fd : Int) (flags : Bool) (status : AlphaErr)
  | timer (watched : Bool) (status : AlphaErr)
  | connect (status : AlphaErr)

def Callback.apply (a : Adapter) : Callback → Adapter
  | .ready status => DriverAdapter.ready a status
  | .watch fd flags status => redisWatch a fd flags status
  | .timer watched status => redisTimer a watched status
  | .connect status => redisConnect a status

/-! ### Replies -/

/-- What a client hands to the callback of a command: a text and an integer from Redis, and from
PostgreSQL what the members of the result read as. -/
structure Reply where
  status : AlphaErr
  text : Option Text
  integer : Int
  position : Position
  exposure : Exposure

/-- `finish_operation`, at a reading of the clock. -/
def finishOperation (a : Adapter) (ok : Bool) (ended : Nat) : Adapter :=
  let index := a.token.index
  let noted :=
    -- a clock that has not moved counts as a failure, so that no latency is zero
    if !ok || ended ≤ a.token.startedNs || index ≥ a.total then { a with failed := true }
    else
      let written := a.latencyNs index ++ [ended - a.token.startedNs]
      { a with latencyNs := Function.update a.latencyNs index written }
  { noted with completed := noted.completed + 1, inflight := false }

/-- `strcmp(text, expected) == 0` for a text that may be missing. -/
def textIs (text : Option Text) (expected : Text) : Bool :=
  match text with
  | none => false
  | some bytes => cString bytes = expected

/-- `redis_reply`. -/
def redisReply (a : Adapter) (reply : Reply) (ended : Nat) : Adapter :=
  let operation := a.token.index % opCount
  let ok := decide (reply.status = .ok) &&
    if operation = 0 then textIs reply.text "OK".toList
    else if operation = 1 then textIs reply.text a.redisValue
    else reply.integer = 0
  finishOperation a ok ended

/-- `pg_reply`. -/
def pgReply (a : Adapter) (reply : Reply) (ended : Nat) : Adapter :=
  let operation := a.token.index % opCount
  if reply.status ≠ .ok then finishOperation a false ended
  else if operation < 2 then
    finishOperation { a with dbRows := Function.update a.dbRows operation reply.position } true
      ended
  else
    finishOperation { a with exposure := reply.exposure }
      (!(reply.exposure.totalQuantity != 30 || reply.exposure.totalMarketValue != 34000)) ended

/-- The callback that a client calls with a reply. -/
def replied (a : Adapter) (reply : Reply) (ended : Nat) : Adapter :=
  match a.kind with
  | .redis => redisReply a reply ended
  | .db => pgReply a reply ended

/-! ### Submissions -/

/-- What is asked of a client. -/
inductive Command where
  | redis (words : List Text)
  | upsertPosition (position : Position)
  | queryExposure (ticker : Text)

/-- The command of the next operation. -/
def nextCommand (a : Adapter) : Command :=
  let operation := a.submitted % opCount
  match a.kind with
  | .redis =>
    let key := (if operation < 2 then "redis:cache:latest_ticks:".toList ++ a.ticker
      else "hard_stop:lockout:".toList ++ a.namespaceText).take 159
    if operation = 0 then
      .redis ["SET".toList, key, a.redisValue, "EX".toList, "60".toList]
    else .redis [(if operation = 1 then "GET" else "EXISTS").toList, key]
  | .db =>
    if operation < 2 then .upsertPosition (a.dbRows operation) else .queryExposure a.ticker

/-- What happens in `submit_one`: a reading of the clock, the callbacks that the client runs before
it returns, its answer, and that of the registry of watches. -/
structure SubmitTurn where
  clock : Nat
  callbacks : List Callback
  status : AlphaErr
  setWrite : AlphaErr

/-- `submit_one`. -/
def submitOne (a : Adapter) (env : SubmitTurn) : AlphaErr × Adapter :=
  -- there is one token, which is written whether or not the command is accepted
  let a := { a with token := ⟨a.submitted, env.clock⟩ }
  let a := env.callbacks.foldl Callback.apply a
  if env.status = .ok then
    let a := { a with submitted := a.submitted + 1, inflight := true }
    if a.kind = .db ∧ env.setWrite ≠ .ok then (.io, a) else (.ok, a)
  else (env.status, a)

/-! ### The loop -/

/-- The adapter, and what has happened so far: the accepted commands that have no reply, all
accepted commands, the replies to each operation, and how many commands were without reply at
once. -/
structure World where
  adapter : Adapter
  outstanding : List Nat
  submissions : List (Nat × Command)
  answers : Nat → List Reply
  peak : Nat

def World.submit (w : World) (env : SubmitTurn) : AlphaErr × World :=
  let result := submitOne w.adapter env
  (result.1,
    if env.status = .ok then
      { w with
        adapter := result.2
        outstanding := w.outstanding ++ [w.adapter.submitted]
        submissions := w.submissions ++ [(w.adapter.submitted, nextCommand w.adapter)]
        peak := max w.peak (w.outstanding.length + 1) }
    else { w with adapter := result.2 })

/-- What happens while the loop is serviced. A reply is one to the oldest command without one. -/
inductive Event where
  | callback (callback : Callback)
  | reply (reply : Reply) (clock : Nat)

def World.event (w : World) : Event → World
  | .callback callback => { w with adapter := callback.apply w.adapter }
  | .reply reply clock =>
    match w.outstanding with
    | [] => w
    | index :: rest =>
      { w with
        adapter := replied w.adapter reply clock
        outstanding := rest
        answers := Function.update w.answers index (w.answers index ++ [reply]) }

/-- What happens in a turn of `drive`: whether the PostgreSQL client is idle, the submission if
there is one, the events of the service call, its answer, and the clock after it. -/
structure Turn where
  idle : Bool
  submit : SubmitTurn
  events : List Event
  service : AlphaErr
  clock : Nat

def World.fail (w : World) : World := { w with adapter := { w.adapter with failed := true } }

/-- The first statement of the loop body: whether it breaks, and the state after it. -/
def World.offer (w : World) (turn : Turn) : Bool × World :=
  if !w.adapter.inflight && (w.adapter.kind = .redis || turn.idle) then
    let result := w.submit turn.submit
    if result.1 ≠ .ok then (true, result.2.fail) else (false, result.2)
  else (false, w)

/-- The second one. -/
def World.service (w : World) (deadline : Nat) (turn : Turn) : World :=
  let served := turn.events.foldl World.event w
  if turn.service ≠ .ok || turn.clock > deadline then served.fail else served

/-- The condition of the loop does not hold any more. -/
def World.finished (w : World) : Bool :=
  w.adapter.failed || w.adapter.completed ≥ w.adapter.total

/-- `drive`, over the turns it takes: the state it leaves, and what it returns if it does. -/
def drive (deadline : Nat) (w : World) : List Turn → World × Option Bool
  | [] => (w, if w.finished then some (!w.adapter.failed) else none)
  | turn :: rest =>
    -- a failure during a service call ends the loop when its condition is read again
    if w.finished then (w, some (!w.adapter.failed))
    else
      let offered := w.offer turn
      if offered.1 then (offered.2, some (!offered.2.adapter.failed))
      else drive deadline (offered.2.service deadline turn) rest

/-- The state in which `main` calls `drive`: nothing submitted, and `latency_ns` allocated. What
the callbacks did before is in `failed` and `connected`. -/
def World.start (kind : CaseKind) (total : Nat) (failed connected : Bool)
    (ticker namespaceText redisValue : Text) (dbRows : Nat → Position) (exposure : Exposure) :
    World where
  adapter :=
    { kind, total, failed, connected, ticker, namespaceText, redisValue, dbRows, exposure
      submitted := 0, completed := 0, inflight := false, latencyNs := fun _ => [], token := ⟨0, 0⟩ }
  outstanding := []
  submissions := []
  answers := fun _ => []
  peak := 0

/-! ### What is printed -/

/-- The id of an operation under the format `%c%03zu`. -/
def operationId (kind : CaseKind) (operation : Nat) : String :=
  let digits := Nat.toDigits 10 (operation + 1)
  String.ofList ((if kind = .redis then 'r' else 'd') ::
    (List.replicate (3 - digits.length) '0' ++ digits))

/-- The token of an operation under the format `%06zu:%c%03zu`. -/
def operationToken (kind : CaseKind) (index : Nat) : String :=
  Bench.token (index / opCount) (operationId kind (index % opCount))

/-- The `completed_tokens` that `emit` prints. -/
def emitTokens (a : Adapter) : List String := (List.range a.total).map (operationToken a.kind)

/-- The `operation_latency_ns` that `emit` prints; `calloc` left zeros. -/
def emitLatencies (a : Adapter) : List Nat :=
  (List.range a.total).map fun i => (a.latencyNs i).getLastD 0

/-! ### What holds in every state -/

/-- The reply that an operation requires. -/
def Required (kind : CaseKind) (redisValue : Text) (index : Nat) (reply : Reply) : Prop :=
  reply.status = .ok ∧
    match kind, index % opCount with
    | .redis, 0 => ∃ text, reply.text = some text ∧ cString text = "OK".toList
    | .redis, 1 => ∃ text, reply.text = some text ∧ cString text = redisValue
    | .redis, _ => reply.integer = 0
    | .db, 0 => True
    | .db, 1 => True
    | .db, _ => reply.exposure.totalQuantity = 30 ∧ reply.exposure.totalMarketValue = 34000

/-- What is fixed while the loop runs. -/
structure Setting where
  kind : CaseKind
  total : Nat
  redisValue : Text

/-- An operation that is complete was answered once, and as required if no failure is recorded;
its latency was written then. -/
def Settled (setting : Setting) (w : World) (i : Nat) : Prop :=
  ∃ reply, w.answers i = [reply] ∧
    (w.adapter.failed = false →
      Required setting.kind setting.redisValue i reply ∧ ∃ v > 0, w.adapter.latencyNs i = [v])

/-- The invariant: the operations below `completed` are settled, the next one may be in flight with
the token of its own, and the others have not been touched. -/
structure Inv (setting : Setting) (w : World) : Prop where
  kind : w.adapter.kind = setting.kind
  total : w.adapter.total = setting.total
  redisValue : w.adapter.redisValue = setting.redisValue
  submissions : w.submissions.map Prod.fst = List.range w.adapter.submitted
  bound : w.adapter.submitted ≤ setting.total
  flight : w.adapter.inflight = true ∧ w.outstanding = [w.adapter.completed] ∧
      w.adapter.submitted = w.adapter.completed + 1 ∧ w.adapter.token.index = w.adapter.completed ∨
    w.adapter.inflight = false ∧ w.outstanding = [] ∧ w.adapter.submitted = w.adapter.completed
  peak : w.peak ≤ 1
  settled : ∀ i < w.adapter.completed, Settled setting w i
  untouched : ∀ i ≥ w.adapter.completed, w.answers i = [] ∧ w.adapter.latencyNs i = []

variable {setting : Setting} {w : World}

/-! ### Callbacks and submissions -/

/-- A callback changes two flags, and takes no failure back. -/
theorem Callback.apply_eq (a : Adapter) (callback : Callback) :
    ∃ failed connected, (failed = false → a.failed = false) ∧
      callback.apply a = { a with failed := failed, connected := connected } := by
  have recorded (a : Adapter) (ok : Bool) : (a.failed || !ok) = false → a.failed = false :=
    fun unfailed => (Bool.or_eq_false_iff.mp unfailed).1
  cases callback with
  | ready status => exact ⟨_, _, recorded a _, rfl⟩
  | watch fd flags status =>
    change ∃ failed connected, _ ∧ redisWatch a fd flags status = _
    rw [redisWatch]
    split
    · exact ⟨a.failed, a.connected, id, rfl⟩
    · exact ⟨_, _, recorded a _, rfl⟩
  | timer watched status => exact ⟨_, _, recorded a _, rfl⟩
  | connect status => exact ⟨_, _, recorded a _, rfl⟩

theorem foldl_apply_eq (callbacks : List Callback) (a : Adapter) :
    ∃ failed connected, (failed = false → a.failed = false) ∧
      callbacks.foldl Callback.apply a = { a with failed := failed, connected := connected } := by
  induction callbacks generalizing a with
  | nil => exact ⟨a.failed, a.connected, id, rfl⟩
  | cons callback callbacks ih =>
    obtain ⟨failed, connected, kept, applied⟩ := callback.apply_eq a
    obtain ⟨failed', connected', kept', rest⟩ := ih (callback.apply a)
    refine ⟨failed', connected', fun unfailed => kept ?_, ?_⟩
    · have before := kept' unfailed
      rwa [applied] at before
    · rw [List.foldl_cons, rest, applied]

theorem submitOne_eq (a : Adapter) (env : SubmitTurn) :
    ∃ failed connected, (failed = false → a.failed = false) ∧
      (submitOne a env).2 =
        if env.status = .ok then
          { a with token := ⟨a.submitted, env.clock⟩, failed := failed, connected := connected,
                   submitted := a.submitted + 1, inflight := true }
        else { a with token := ⟨a.submitted, env.clock⟩, failed := failed,
                      connected := connected } := by
  obtain ⟨failed, connected, kept, applied⟩ :=
    foldl_apply_eq env.callbacks { a with token := ⟨a.submitted, env.clock⟩ }
  refine ⟨failed, connected, kept, ?_⟩
  rw [submitOne, applied]
  split
  · dsimp only
    split <;> rfl
  · rfl

/-- Recording a failure keeps the invariant. -/
theorem Inv.record (inv : Inv setting w) {failed connected : Bool}
    (kept : failed = false → w.adapter.failed = false) :
    Inv setting
      { w with adapter := { w.adapter with failed := failed, connected := connected } } where
  __ := inv
  settled i below := by
    obtain ⟨reply, answered, required⟩ := inv.settled i below
    exact ⟨reply, answered, fun unfailed => required (kept unfailed)⟩

theorem Inv.fail (inv : Inv setting w) : Inv setting w.fail := by
  have recorded : Inv setting { w with adapter :=
      { w.adapter with failed := true, connected := w.adapter.connected } } := inv.record nofun
  exact recorded

/-- The step of a submission: it is made when nothing is in flight and there is an operation
left, and the operation takes its turn. -/
theorem Inv.submit (inv : Inv setting w) (landed : w.adapter.inflight = false)
    (left : w.adapter.completed < w.adapter.total) (env : SubmitTurn) :
    Inv setting (w.submit env).2 := by
  obtain ⟨failed, connected, kept, result⟩ := submitOne_eq w.adapter env
  -- the flag is the adapter's only guard; by the invariant no command is without reply then
  obtain ⟨flying, -⟩ | ⟨-, none, counted⟩ := inv.flight
  · rw [flying] at landed
    cases landed
  have recorded : Inv setting { w with adapter :=
      { w.adapter with failed := failed, connected := connected } } := inv.record kept
  rw [World.submit, result]
  dsimp only
  split
  · exact { recorded with
      submissions := by
        rw [List.map_append, inv.submissions, List.range_succ]
        rfl
      bound := by
        change w.adapter.submitted + 1 ≤ setting.total
        rw [← inv.total]
        omega
      flight := by
        refine Or.inl ⟨rfl, ?_, ?_, counted⟩
        · rw [none, counted]
          rfl
        · rw [counted]
      peak := by
        rw [none]
        exact max_le inv.peak le_rfl }
  · exact { recorded with flight := Or.inr ⟨landed, none, counted⟩ }

/-! ### Replies -/

theorem textIs_iff {text : Option Text} {expected : Text} :
    textIs text expected = true ↔ ∃ bytes, text = some bytes ∧ cString bytes = expected := by
  cases text <;> simp [textIs]

theorem required_redis {redisValue : Text} {index : Nat} {reply : Reply}
    (ok : (decide (reply.status = .ok) &&
      if index % opCount = 0 then textIs reply.text "OK".toList
      else if index % opCount = 1 then textIs reply.text redisValue
      else reply.integer = 0) = true) : Required .redis redisValue index reply := by
  obtain ⟨status, checked⟩ := Bool.and_eq_true_iff.mp ok
  refine ⟨of_decide_eq_true status, ?_⟩
  split at checked
  next first =>
    rw [first]
    exact textIs_iff.mp checked
  next notFirst =>
    split at checked
    next second =>
      rw [second]
      exact textIs_iff.mp checked
    next notSecond =>
      have third : index % opCount = 2 := by
        have below : index % opCount < 3 := Nat.mod_lt _ (by decide)
        omega
      have integer : reply.integer = 0 := of_decide_eq_true checked
      rw [third]
      exact integer

/-- A reply finishes the operation of the token, well only if it is the required one. -/
theorem replied_eq (a : Adapter) (reply : Reply) (ended : Nat) :
    ∃ dbRows exposure ok, (ok = true → Required a.kind a.redisValue a.token.index reply) ∧
      replied a reply ended =
        finishOperation { a with dbRows := dbRows, exposure := exposure } ok ended := by
  have below : a.token.index % opCount < 3 := Nat.mod_lt _ (by decide)
  rw [replied]
  split
  next kind =>
    rw [kind]
    exact ⟨a.dbRows, a.exposure, _, required_redis, by rw [← kind]; rfl⟩
  next kind =>
    rw [pgReply]
    split
    · exact ⟨a.dbRows, a.exposure, false, nofun, rfl⟩
    next status =>
      have status := not_not.mp status
      split
      next early =>
        refine ⟨_, a.exposure, true, fun _ => ⟨status, ?_⟩, rfl⟩
        rw [kind]
        have either : a.token.index % opCount = 0 ∨ a.token.index % opCount = 1 := by omega
        rcases either with zero | one
        · rw [zero]
          trivial
        · rw [one]
          trivial
      next late =>
        refine ⟨a.dbRows, _, _, fun ok => ⟨status, ?_⟩, rfl⟩
        rw [kind, show a.token.index % opCount = 2 by omega]
        simpa using ok

/-- What finishing an operation changes: it fails, or its latency is written once more. -/
theorem finishOperation_eq (a : Adapter) (ok : Bool) (ended : Nat) :
    finishOperation a ok ended =
        { a with failed := true, completed := a.completed + 1, inflight := false } ∨
      ok = true ∧ ∃ v > 0, finishOperation a ok ended =
        { a with
          latencyNs := Function.update a.latencyNs a.token.index (a.latencyNs a.token.index ++ [v])
          completed := a.completed + 1, inflight := false } := by
  rw [finishOperation]
  dsimp only
  split
  · exact Or.inl rfl
  next passed =>
    simp only [Bool.or_eq_true, Bool.not_eq_true', decide_eq_true_eq, not_or, not_le] at passed
    obtain ⟨⟨good, later⟩, -⟩ := passed
    exact Or.inr ⟨by simpa using good, _, Nat.sub_pos_of_lt later, rfl⟩

/-- The operation in flight lands with a reply. A failure is recorded, or the reply was the required
one and the latency is written. -/
theorem Inv.land (inv : Inv setting w) (reply : Reply) {dbRows : Nat → Position}
    {exposure : Exposure} {failed : Bool} {latencyNs : Nat → List Nat}
    (counted : w.adapter.submitted = w.adapter.completed + 1)
    (kept : failed = false → w.adapter.failed = false)
    (others : ∀ i ≠ w.adapter.completed, latencyNs i = w.adapter.latencyNs i)
    (required : failed = false →
      Required setting.kind setting.redisValue w.adapter.completed reply ∧
        ∃ v > 0, latencyNs w.adapter.completed = [v]) :
    Inv setting { w with
      adapter := { w.adapter with
        dbRows := dbRows
        exposure := exposure
        failed := failed
        latencyNs := latencyNs
        completed := w.adapter.completed + 1
        inflight := false }
      outstanding := []
      answers := Function.update w.answers w.adapter.completed [reply] } where
  __ := inv
  flight := Or.inr ⟨rfl, rfl, counted⟩
  settled i below := by
    rcases Nat.lt_succ_iff_lt_or_eq.mp below with earlier | rfl
    · obtain ⟨earlierReply, answered, was⟩ := inv.settled i earlier
      refine ⟨earlierReply, (Function.update_of_ne earlier.ne _ _).trans answered, ?_⟩
      intro unfailed
      obtain ⟨right, v, positive, once⟩ := was (kept unfailed)
      exact ⟨right, v, positive, (others i earlier.ne).trans once⟩
    · exact ⟨reply, Function.update_self _ _ _, required⟩
  untouched i above := by
    have other := (Nat.lt_of_succ_le above).ne'
    obtain ⟨answers, latency⟩ := inv.untouched i (Nat.le_of_succ_le above)
    exact ⟨(Function.update_of_ne other _ _).trans answers, (others i other).trans latency⟩

/-- The step of a reply: the operation in flight is settled. -/
theorem Inv.reply (inv : Inv setting w) (reply : Reply) (clock : Nat) :
    Inv setting (w.event (.reply reply clock)) := by
  obtain ⟨dbRows, exposure, ok, required, result⟩ := replied_eq w.adapter reply clock
  obtain ⟨-, flying, counted, token⟩ | ⟨-, none, -⟩ := inv.flight
  · obtain ⟨unanswered, unwritten⟩ := inv.untouched w.adapter.completed le_rfl
    rw [token, inv.kind, inv.redisValue] at required
    rw [World.event, flying]
    dsimp only
    rw [result, unanswered, List.nil_append]
    obtain failed | ⟨good, v, positive, written⟩ := finishOperation_eq
      { w.adapter with dbRows := dbRows, exposure := exposure } ok clock
    · rw [failed]
      exact inv.land reply counted nofun (fun _ _ => rfl) nofun
    · rw [written]
      dsimp only
      rw [token, unwritten, List.nil_append]
      exact inv.land reply counted id (fun _ other => Function.update_of_ne other _ _) fun _ =>
        ⟨required good, v, positive, Function.update_self _ _ _⟩
  · rw [World.event, none]
    exact inv

/-! ### Turns and runs -/

theorem Inv.event (inv : Inv setting w) (event : Event) : Inv setting (w.event event) := by
  cases event with
  | callback callback =>
    obtain ⟨failed, connected, kept, applied⟩ := callback.apply_eq w.adapter
    rw [World.event, applied]
    exact inv.record kept
  | reply reply clock => exact inv.reply reply clock

theorem Inv.offer (inv : Inv setting w) (left : w.finished = false) (turn : Turn) :
    Inv setting (w.offer turn).2 := by
  have below : w.adapter.completed < w.adapter.total := by
    have going := (Bool.or_eq_false_iff.mp left).2
    simpa using going
  rw [World.offer]
  split
  next free =>
    have landed : w.adapter.inflight = false := by
      simpa using (Bool.and_eq_true_iff.mp free).1
    have submitted := inv.submit landed below turn.submit
    dsimp only
    split
    · exact submitted.fail
    · exact submitted
  · exact inv

theorem Inv.service (inv : Inv setting w) (deadline : Nat) (turn : Turn) :
    Inv setting (w.service deadline turn) := by
  have served : Inv setting (turn.events.foldl World.event w) := by
    induction turn.events generalizing w with
    | nil => exact inv
    | cons event events ih => exact ih (inv.event event)
  rw [World.service]
  split
  · exact served.fail
  · exact served

/-- The run: the invariant holds where the loop is left, or where it is after the turns. -/
theorem Inv.drive (inv : Inv setting w) (deadline : Nat) (turns : List Turn) :
    Inv setting (DriverAdapter.drive deadline w turns).1 := by
  induction turns generalizing w with
  | nil => exact inv
  | cons turn rest ih =>
    rw [DriverAdapter.drive]
    split
    · exact inv
    next going =>
      have offered := inv.offer (Bool.not_eq_true _ ▸ going) turn
      dsimp only
      split
      · exact offered
      · exact ih (offered.service deadline turn)

theorem offer_breaks {turn : Turn} (breaks : (w.offer turn).1 = true) :
    (w.offer turn).2.adapter.failed = true := by
  rw [World.offer] at breaks ⊢
  split at breaks
  next free =>
    rw [if_pos free]
    dsimp only at breaks ⊢
    split at breaks
    next refused =>
      rw [if_pos refused]
      rfl
    · cases breaks
  · cases breaks

/-- The loop is left with success only if no failure is recorded and nothing is missing. -/
theorem drive_true {deadline : Nat} {turns : List Turn}
    (success : (drive deadline w turns).2 = some true) :
    (drive deadline w turns).1.adapter.failed = false ∧
      (drive deadline w turns).1.adapter.total ≤
        (drive deadline w turns).1.adapter.completed := by
  have ended {w : World} (finished : w.finished = true) (success : (!w.adapter.failed) = true) :
      w.adapter.failed = false ∧ w.adapter.total ≤ w.adapter.completed := by
    rw [Bool.not_eq_true'] at success
    rw [World.finished, success, Bool.false_or] at finished
    exact ⟨success, of_decide_eq_true finished⟩
  induction turns generalizing w with
  | nil =>
    rw [drive] at success ⊢
    dsimp only at success ⊢
    split at success
    next finished => exact ended finished (Option.some.inj success)
    · cases success
  | cons turn rest ih =>
    rw [drive] at success ⊢
    split at success
    next finished =>
      rw [if_pos finished]
      exact ended finished (Option.some.inj success)
    next going =>
      rw [if_neg going]
      dsimp only at success ⊢
      split at success
      next breaks =>
        -- the way out by `break` has recorded a failure
        rw [offer_breaks breaks] at success
        cases success
      next serviced =>
        rw [if_neg serviced]
        exact ih success

/-- A turn in which the service fails or the deadline passes is the last one. -/
theorem drive_returns {deadline : Nat} {turns : List Turn} {turn : Turn} (member : turn ∈ turns)
    (last : turn.service ≠ .ok ∨ deadline < turn.clock) :
    (drive deadline w turns).2 ≠ none := by
  induction turns generalizing w with
  | nil => cases member
  | cons first rest ih =>
    rw [drive]
    split
    · exact nofun
    · dsimp only
      split
      · exact nofun
      · rcases List.mem_cons.mp member with rfl | later
        · -- the loop is left before the turns that follow
          have failed : ((w.offer turn).2.service deadline turn).finished = true := by
            rw [World.service, if_pos (by simpa using last)]
            rfl
          cases rest with
          | nil => rw [drive, if_pos failed]; exact nofun
          | cons next rest => rw [drive, if_pos failed]; exact nofun
        · exact ih later

theorem inv_start (kind : CaseKind) (total : Nat) (failed connected : Bool)
    (ticker namespaceText redisValue : Text) (dbRows : Nat → Position) (exposure : Exposure) :
    Inv ⟨kind, total, redisValue⟩ (World.start kind total failed connected ticker namespaceText
      redisValue dbRows exposure) where
  kind := rfl
  total := rfl
  redisValue := rfl
  submissions := rfl
  bound := Nat.zero_le _
  flight := Or.inr ⟨rfl, rfl, rfl⟩
  peak := Nat.zero_le _
  settled := nofun
  untouched _ _ := ⟨rfl, rfl⟩

/-- What is printed of a run that has settled all operations. -/
theorem emitLatencies_pos (inv : Inv setting w) (unfailed : w.adapter.failed = false)
    (all : w.adapter.completed = setting.total) : ∀ v ∈ emitLatencies w.adapter, 0 < v := by
  intro v member
  obtain ⟨i, below, rfl⟩ := List.mem_map.mp member
  rw [List.mem_range, inv.total, ← all] at below
  obtain ⟨_, -, settled⟩ := inv.settled i below
  obtain ⟨-, u, positive, once⟩ := settled unfailed
  rw [once]
  exact positive

/-- In every run of `drive`, at most one operation is in flight and operations are submitted once
and in order. If it returns true, all were submitted and completed, each was answered once with
the reply it requires, and each latency was written once and is positive, so what `emit` prints is
what happened. -/
theorem drive_truthful (kind : CaseKind) (total : Nat) (failed connected : Bool)
    (ticker namespaceText redisValue : Text) (dbRows : Nat → Position) (exposure : Exposure)
    (deadline : Nat) (turns : List Turn) {w : World} {result : Option Bool}
    (run : drive deadline (World.start kind total failed connected ticker namespaceText redisValue
      dbRows exposure) turns = (w, result)) :
    w.peak ≤ 1 ∧ w.outstanding.length ≤ 1 ∧
      w.submissions.map Prod.fst = List.range w.adapter.submitted ∧ w.adapter.submitted ≤ total ∧
      (result = some true →
        w.adapter.submitted = total ∧ w.adapter.completed = total ∧
        (∀ i < total, (∃ reply, w.answers i = [reply] ∧ Required kind redisValue i reply) ∧
          ∃ v > 0, w.adapter.latencyNs i = [v]) ∧
        emitTokens w.adapter = w.submissions.map (fun s => operationToken kind s.1) ∧
        (emitLatencies w.adapter).length = total ∧ ∀ v ∈ emitLatencies w.adapter, 0 < v) := by
  have inv : Inv ⟨kind, total, redisValue⟩ w := by
    have kept := (inv_start kind total failed connected ticker namespaceText redisValue dbRows
      exposure).drive deadline turns
    rwa [run] at kept
  have ended (success : result = some true) :
      w.adapter.failed = false ∧ w.adapter.total ≤ w.adapter.completed := by
    have returned := (congrArg Prod.snd run).trans success
    have ended := drive_true returned
    rwa [run] at ended
  refine ⟨inv.peak, ?_, inv.submissions, inv.bound, fun success => ?_⟩
  · obtain ⟨-, flying, -⟩ | ⟨-, none, -⟩ := inv.flight
    · rw [flying]
      rfl
    · rw [none]
      exact Nat.zero_le _
  · obtain ⟨unfailed, reached⟩ := ended success
    -- `completed` is at most `submitted`, which is at most the total that it has reached
    have bound := inv.bound
    rw [inv.total] at reached
    have both : w.adapter.submitted = total ∧ w.adapter.completed = total := by
      dsimp only at bound reached
      obtain ⟨-, -, counted, -⟩ | ⟨-, -, counted⟩ := inv.flight <;> omega
    refine ⟨both.1, both.2, fun i below => ?_, ?_, ?_, emitLatencies_pos inv unfailed both.2⟩
    · obtain ⟨reply, answered, settled⟩ := inv.settled i (both.2.symm ▸ below)
      obtain ⟨required, written⟩ := settled unfailed
      exact ⟨⟨reply, answered, required⟩, written⟩
    · rw [emitTokens, inv.total, inv.kind, ← both.1, ← inv.submissions, List.map_map]
      rfl
    · rw [emitLatencies, List.length_map, List.length_range, inv.total]

/-- A turn in which the next operation is submitted and answered by a text. -/
def answeredTurn (clock : Nat) (text : Option Text) : Turn where
  idle := true
  submit := ⟨clock, [.timer true .ok], .ok, .ok⟩
  events := [.callback (.ready .ok),
    .reply ⟨.ok, text, 0, ⟨[], [], 0, 0, 0, true, [], []⟩, ⟨[], 0, 0, 0, 0, 0⟩⟩ (clock + 2)]
  service := .ok
  clock := clock + 3

/-- A start with three operations on Redis. -/
def redisStart : World :=
  World.start .redis 3 false true "005930".toList "trial".toList "v".toList
    (fun _ => ⟨[], [], 0, 0, 0, true, [], []⟩) ⟨[], 0, 0, 0, 0, 0⟩

theorem drive_truthful_redis :
    let run := drive 100 redisStart
      [answeredTurn 10 (some "OK".toList), answeredTurn 20 (some "v".toList), answeredTurn 30 none]
    run.2 = some true ∧ run.1.submissions.map Prod.fst = List.range 3 ∧
      run.1.adapter.completed = 3 := by
  have returned : (drive 100 redisStart [answeredTurn 10 (some "OK".toList),
      answeredTurn 20 (some "v".toList), answeredTurn 30 none]).2 = some true := by
    decide +kernel
  obtain ⟨-, -, ordered, -, truthful⟩ := drive_truthful .redis 3 false true "005930".toList
    "trial".toList "v".toList (fun _ => ⟨[], [], 0, 0, 0, true, [], []⟩) ⟨[], 0, 0, 0, 0, 0⟩ 100 _
    Prod.mk.eta.symm
  obtain ⟨submitted, completed, -⟩ := truthful returned
  rw [submitted] at ordered
  exact ⟨returned, ordered, completed⟩

end AlphaPipeline.DriverAdapter

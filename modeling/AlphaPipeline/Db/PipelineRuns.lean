import AlphaPipeline.Library.Runs
import AlphaPipeline.Library.RingBuffer
import AlphaPipeline.Db.Postgres

/-!
# Runs of the PostgreSQL pipeline

Submissions and service calls in any order, under any answers of libpq that keep its
promise: one result for each query and one sync result for each sync marker, in the order
they were sent. Then every result meets the request it belongs to.
-/
namespace AlphaPipeline.Postgres

inductive Action where
  | submit (submission : Submission)
  | service (readable writable : Bool) (env : ServiceAnswer)

/-- The client between calls; once a drain loop does not return, nothing else happens. -/
structure Machine where
  client : Client
  spinning : Bool

def Machine.step (m : Machine) (action : Action) : Machine :=
  if m.spinning then m
  else
    match action with
    | .submit submission => ⟨(submit m.client submission).2, false⟩
    | .service readable writable env =>
      let (status, client) := alphaPgService m.client readable writable env
      ⟨client, status.isNone⟩

/-- A freshly started client that nothing has been asked of. -/
def Machine.start (db : AlphaPg) : Machine := ⟨⟨db, []⟩, false⟩

/-! ### Reading a trace -/

/-- The requests accepted, in order. -/
def accepted (trace : List Effect) : List PendingRequest :=
  trace.filterMap fun
    | .sent request _ => some request
    | _ => none

/-- The number of query results taken. -/
def taken (trace : List Effect) : Nat :=
  trace.countP fun
    | .took status _ => status != .pipelineSync
    | _ => false

/-- The callbacks run, with the kind of the result and the user data they got. -/
def calls (trace : List Effect) : List (Nat × ResultKind × Nat) :=
  trace.filterMap fun
    | .called callback outcome userData => some (callback, outcome.kind, userData)
    | _ => none

/-- The callback a request asks for. -/
def PendingRequest.invocation (request : PendingRequest) : Option (Nat × ResultKind × Nat) :=
  request.callback.map fun callback => (callback, request.kind, request.userData)

inductive WireItem where
  | query
  | sync
  deriving DecidableEq, Repr

/-- libpq's promise: what was sent and not yet answered is answered in order, a query by one
result of any other status and a sync marker by one sync result. -/
def wireStep (wire : List WireItem) : Effect → Option (List WireItem)
  | .sent _ _ => some (wire ++ [.query])
  | .synced => some (wire ++ [.sync])
  | .took .pipelineSync _ =>
    match wire with
    | .sync :: rest => some rest
    | _ => none
  | .took _ _ =>
    match wire with
    | .query :: rest => some rest
    | _ => none
  | .called _ _ _ => some wire

theorem wireStep_sync_iff (wire rest : List WireItem) (n : Nat) :
    wireStep wire (.took .pipelineSync n) = some rest ↔ wire = .sync :: rest := by
  rcases wire with _ | ⟨_ | _, tail⟩ <;> simp [wireStep]

theorem wireStep_query_iff (wire rest : List WireItem) (status : ExecStatus) (n : Nat)
    (query : status ≠ .pipelineSync) :
    wireStep wire (.took status n) = some rest ↔ wire = .query :: rest := by
  rcases wire with _ | ⟨_ | _, tail⟩ <;> cases status <;> simp_all [wireStep]

/-- The trace is one that libpq's promise allows. -/
def Lawful (trace : List Effect) : Prop := (Runs.watch wireStep [] trace).isSome

instance (trace : List Effect) : Decidable (Lawful trace) :=
  inferInstanceAs (Decidable (_ = true))

/-! ### What a call can do

Every call is a sequence of six kinds of moves. Invariants are checked against the moves. -/

/-- The fields of the client that decide which result meets which request. -/
def SamePipeline (before after : AlphaPg) : Prop :=
  after.fifo = before.fifo ∧ after.capacity = before.capacity ∧ after.head = before.head ∧
    after.count = before.count ∧ after.syncSent = before.syncSent

/-- A request handed to libpq and stored behind the last one. -/
def Client.enqueue (c : Client) (request : PendingRequest) (params : List Text) (flush : Bool) :
    Client :=
  let tail := (c.db.head + c.db.count) % c.db.capacity
  { c with db := { c.db with
    fifo := c.db.fifo.set tail request
    count := c.db.count + 1
    flushPending := flush } }.emit (.sent request params)

def Client.markSynced (c : Client) : Client :=
  { c with db := { c.db with syncSent := true, flushPending := true } }.emit .synced

def Client.takeSync (c : Client) : Client :=
  { c.emit (.took .pipelineSync c.db.count) with db := { c.db with syncSent := false } }

/-- A result taken for the request at the head, and its callback run. -/
def Client.complete (c : Client) (status : ExecStatus) (outcome : PgOutcome) : Client :=
  let popped : Client := ⟨c.db.pop, c.trace ++ [.took status c.db.count]⟩
  match c.db.front.callback with
  | none => popped
  | some callback => popped.emit (.called callback outcome c.db.front.userData)

inductive Move : Client → Client → Prop where
  | quiet (c : Client) (db : AlphaPg) (same : SamePipeline c.db db) : Move c ⟨db, c.trace⟩
  | send (c : Client) (request : PendingRequest) (params : List Text) (flush : Bool)
      (room : c.db.count ≠ c.db.capacity) (unsynced : c.db.syncSent = false) :
      Move c (c.enqueue request params flush)
  | sync (c : Client) (pending : 0 < c.db.count) (unsynced : c.db.syncSent = false) :
      Move c c.markSynced
  | takeSync (c : Client) : Move c c.takeSync
  | orphan (c : Client) (status : ExecStatus) (query : status ≠ .pipelineSync)
      (empty : c.db.count = 0) : Move c (c.emit (.took status c.db.count))
  | complete (c : Client) (status : ExecStatus) (outcome : PgOutcome)
      (query : status ≠ .pipelineSync) (pending : 0 < c.db.count)
      (kind : outcome.kind = c.db.front.kind) : Move c (c.complete status outcome)

abbrev Moves : Client → Client → Prop := Relation.ReflTransGen Move

theorem Moves.quiet (c : Client) (db : AlphaPg) (same : SamePipeline c.db db) :
    Moves c ⟨db, c.trace⟩ :=
  .single (.quiet c db same)

theorem samePipeline_setError (db : AlphaPg) (message : Option Text) :
    SamePipeline db (setError db message) :=
  ⟨rfl, rfl, rfl, rfl, rfl⟩

/-- The answer of libpq that a submission comes with. -/
def Submission.libpq : Submission → SendAnswer
  | .upsertPosition _ _ _ libpq | .queryExposure _ _ _ libpq => libpq

/-- The client after a rejection: only where libpq refuses the query, its message is kept. -/
def Client.rejected (c : Client) (libpq : SendAnswer) (err : AlphaErr) : Client :=
  if err = .db then { c with db := setError c.db (some libpq.errorMessage) } else c

theorem rejected_moves (c : Client) (libpq : SendAnswer) (err : AlphaErr) :
    Moves c (c.rejected libpq err) := by
  unfold Client.rejected
  split
  · exact .quiet c _ (samePipeline_setError c.db _)
  · exact .refl

/-- What a submission does: it is rejected and changes at most the error text, or it is
accepted and stored behind the last one. -/
def Submits (c : Client) (libpq : SendAnswer) (result : AlphaErr × Client) : Prop :=
  (result.1 ≠ .ok ∧ result.2 = c.rejected libpq result.1) ∨
  (result.1 = .ok ∧ c.db.state = .ready ∧ c.db.count ≠ c.db.capacity ∧ c.db.syncSent = false ∧
    ∃ request params flush, result.2 = c.enqueue request params flush)

theorem sendRequest_cases (c : Client) (kind : ResultKind) (params : List Text)
    (callback : Option Nat) (userData : Nat) (libpq : SendAnswer) :
    Submits c libpq (sendRequest c kind params callback userData libpq) := by
  -- not ready, full, behind an unanswered marker, or refused by libpq; else stored
  unfold sendRequest
  split
  · exact Or.inl ⟨nofun, rfl⟩
  next ready =>
    split
    · exact Or.inl ⟨nofun, rfl⟩
    next room =>
      split
      · exact Or.inl ⟨nofun, rfl⟩
      next unsynced =>
        split
        · exact Or.inl ⟨nofun, rfl⟩
        · exact Or.inr ⟨rfl, not_not.mp ready, room, Bool.eq_false_iff.mpr unsynced, _, _, _, rfl⟩

theorem submit_cases (c : Client) (submission : Submission) :
    Submits c submission.libpq (submit c submission) := by
  cases submission with
  | upsertPosition position callback userData libpq =>
    simp only [submit, alphaPgUpsertPosition]
    split
    · exact Or.inl ⟨nofun, rfl⟩
    · split
      · exact Or.inl ⟨nofun, rfl⟩
      · exact sendRequest_cases ..
  | queryExposure ticker callback userData libpq =>
    simp only [submit, alphaPgQueryExposure]
    split
    · exact Or.inl ⟨nofun, rfl⟩
    · split
      · exact Or.inl ⟨nofun, rfl⟩
      · exact sendRequest_cases ..

theorem submit_moves (c : Client) (submission : Submission) : Moves c (submit c submission).2 := by
  rcases submit_cases c submission with
    ⟨_, same⟩ | ⟨_, _, room, unsynced, request, params, flush, stored⟩
  · rw [same]
    exact rejected_moves c _ _
  · rw [stored]
    exact .single (.send c request params flush room unsynced)

theorem reaction_moves (reaction : List Submission) (c : Client) :
    Moves c (reaction.foldl (fun c s => (submit c s).2) c) := by
  induction reaction generalizing c with
  | nil => exact .refl
  | cons first rest ih => exact (submit_moves c first).trans (ih _)

/-- A result is delivered to the request at the head with its kind, and at most the error
text changes before. -/
theorem deliver_eq (c : Client) (pg : PgResult) (reaction : List Submission) :
    ∃ db outcome, SamePipeline c.db db ∧ outcome.kind = c.db.front.kind ∧
      deliver c pg reaction = completeHead ⟨db, c.trace⟩ outcome reaction := by
  unfold deliver
  simp only
  split
  · exact ⟨c.db, _, ⟨rfl, rfl, rfl, rfl, rfl⟩, rfl, rfl⟩
  · exact ⟨_, _, samePipeline_setError c.db _, rfl, rfl⟩

/-- Taking a query result: the error text, the completion, then what the callback submits. -/
theorem deliver_moves (c : Client) (pg : PgResult) (reaction : List Submission)
    (query : pg.status ≠ .pipelineSync) (pending : 0 < c.db.count) :
    Moves c (deliver (c.emit (.took pg.status c.db.count)) pg reaction) := by
  obtain ⟨db, outcome, same, kind, delivered⟩ :=
    deliver_eq (c.emit (.took pg.status c.db.count)) pg reaction
  obtain ⟨fifo, capacity, head, count, syncSent⟩ : SamePipeline c.db db := same
  have front : db.front = c.db.front := by simp [AlphaPg.front, fifo, head]
  -- the error text first, so that the completion starts from a client with the same pipeline
  have taken : Moves c (Client.complete ⟨db, c.trace⟩ pg.status outcome) :=
    (Moves.quiet c db ⟨fifo, capacity, head, count, syncSent⟩).tail
      (.complete ⟨db, c.trace⟩ pg.status outcome query (by simpa [count] using pending)
        (by rw [front]; exact kind))
  rw [delivered]
  simp only [completeHead]
  split
  next noCallback =>
    simp only [Client.complete, noCallback, count] at taken
    exact taken
  next callback found =>
    -- the callback submits on a client whose head is already popped
    refine Relation.ReflTransGen.trans ?_ (reaction_moves reaction _)
    simp only [Client.complete, found, count] at taken
    exact taken

theorem drainResults_moves (answers : List Answer) (c : Client) :
    Moves c (drainResults answers c).2 := by
  -- one answer of libpq at a time
  induction answers generalizing c with
  | nil => exact .refl
  | cons answer rest ih =>
    cases answer with
    | busy => exact .refl
    | null =>
      simp only [drainResults]
      split
      · exact ih c
      · exact .refl
    | result pg reaction =>
      simp only [drainResults]
      split
      next sync =>
        rw [sync]
        exact Relation.ReflTransGen.head (.takeSync c) (ih c.takeSync)
      next query =>
        split
        next empty =>
          -- the source takes the result, finds no request, and fails the client
          refine Relation.ReflTransGen.tail (.single (.orphan c pg.status query empty)) ?_
          exact .quiet _ _ ⟨rfl, rfl, rfl, rfl, rfl⟩
        next pending =>
          exact (deliver_moves c pg reaction query (Nat.pos_of_ne_zero pending)).trans (ih _)

theorem serviceConnect_same (db : AlphaPg) (readable writable : Bool) (env : ServiceAnswer) :
    SamePipeline db (serviceConnect db readable writable env).2 := by
  unfold serviceConnect
  split
  · simp only
    split
    · exact ⟨rfl, rfl, rfl, rfl, rfl⟩
    · split <;> exact ⟨rfl, rfl, rfl, rfl, rfl⟩
  · exact ⟨rfl, rfl, rfl, rfl, rfl⟩

theorem serviceSync_moves (c : Client) (writable : Bool) (env : ServiceAnswer) :
    Moves c (serviceSync c writable env).2 := by
  unfold serviceSync
  split
  next due =>
    simp only [Bool.and_eq_true, decide_eq_true_eq, Bool.not_eq_true'] at due
    split
    · exact .quiet c _ ⟨rfl, rfl, rfl, rfl, rfl⟩
    · exact .single (.sync c due.1.2 due.2)
  · exact .refl

theorem serviceFlush_moves (c : Client) (writable : Bool) (env : ServiceAnswer) :
    Moves c (serviceFlush c writable env).2 := by
  unfold serviceFlush
  split
  · split
    · exact .quiet c _ (samePipeline_setError c.db _)
    · exact .quiet c _ ⟨rfl, rfl, rfl, rfl, rfl⟩
  · exact .refl

theorem service_moves (c : Client) (readable writable : Bool) (env : ServiceAnswer) :
    Moves c (alphaPgService c readable writable env).2 := by
  have synced := serviceSync_moves c writable env
  unfold alphaPgService
  -- marker, flush, read: each stops the call when it fails
  split
  · exact .refl
  · exact .quiet c _ (serviceConnect_same c.db readable writable env)
  · split
    next status after stopped =>
      rw [stopped] at synced
      exact synced
    next after went =>
      rw [went] at synced
      have flushed := serviceFlush_moves after writable env
      split
      next status last stopped =>
        rw [stopped] at flushed
        exact synced.trans flushed
      next last went =>
        rw [went] at flushed
        refine (synced.trans flushed).trans ?_
        split
        · split
          · exact Moves.quiet last _ (samePipeline_setError last.db _)
          · exact drainResults_moves env.answers last
        · exact .refl

theorem step_moves (m : Machine) (action : Action) : Moves m.client (m.step action).client := by
  unfold Machine.step
  split
  · exact .refl
  · cases action with
    | submit submission => exact submit_moves m.client submission
    | service readable writable env => exact service_moves m.client readable writable env

theorem Moves.preserve {c after : Client} (moves : Moves c after) (inv : Client → Prop)
    (preserves : ∀ c after, Move c after → inv c → inv after) (holds : inv c) : inv after := by
  induction moves with
  | refl => exact holds
  | tail _ move ih => exact preserves _ _ move ih

/-- What every move preserves holds after every run. -/
theorem run_of_moves (inv : Client → Prop) (preserves : ∀ c after, Move c after → inv c → inv after)
    (m : Machine) (actions : List Action) (holds : inv m.client) :
    inv (Runs.run Machine.step m actions).client := by
  apply Runs.run_preserves Machine.step (fun m => inv m.client) _ m actions holds
  intro m action before
  exact (step_moves m action).preserve inv preserves before

/-! ### The pipeline invariant -/

/-- The queries and the sync marker libpq still has to answer. -/
def expectedWire (db : AlphaPg) : List WireItem :=
  List.replicate db.count .query ++ if db.syncSent then [.sync] else []

/-- What the ring buffer, the flags and the trace have to do with each other. -/
structure PipelineIdentity (c : Client) : Prop where
  slots : c.db.fifo.length = c.db.capacity
  head : c.db.head < c.db.capacity
  bound : c.db.count ≤ c.db.capacity
  -- every accepted request is completed or in the buffer
  total : (accepted c.trace).length = taken c.trace + c.db.count
  queue : RingBuffer.contents c.db.fifo c.db.head c.db.count =
    (accepted c.trace).drop (taken c.trace)
  -- the callbacks run so far are those of the completed requests, in order
  calls : calls c.trace =
    ((accepted c.trace).take (taken c.trace)).filterMap PendingRequest.invocation
  sync : ∀ n, .took .pipelineSync n ∈ c.trace → n = 0
  orphan : ∀ status n, .took status n ∈ c.trace → status ≠ .pipelineSync → 0 < n

/-- The invariant, as long as libpq keeps its promise. -/
def Inv (c : Client) : Prop :=
  ∀ wire, Runs.watch wireStep [] c.trace = some wire →
    wire = expectedWire c.db ∧ PipelineIdentity c

section Invariant

variable {c : Client}

private theorem quiet_inv (db : AlphaPg) (same : SamePipeline c.db db) (inv : Inv c) :
    Inv ⟨db, c.trace⟩ := by
  obtain ⟨fifo, capacity, head, count, syncSent⟩ := same
  intro wire lawful
  obtain ⟨expected, identity⟩ := inv wire lawful
  refine ⟨by simp only [expectedWire, count, syncSent] at *; exact expected, ?_⟩
  constructor
  · simpa [fifo, capacity] using identity.slots
  · simpa [head, capacity] using identity.head
  · simpa [count, capacity] using identity.bound
  · simpa [count] using identity.total
  · simpa [fifo, head, count] using identity.queue
  · exact identity.calls
  · exact identity.sync
  · exact identity.orphan

private theorem send_inv (request : PendingRequest) (params : List Text) (flush : Bool)
    (room : c.db.count ≠ c.db.capacity) (unsynced : c.db.syncSent = false) (inv : Inv c) :
    Inv (c.enqueue request params flush) := by
  intro wire lawful
  obtain ⟨before, watched, allowed⟩ := (Runs.watch_append_singleton _).mp lawful
  obtain ⟨expected, identity⟩ := inv before watched
  have space : c.db.count < c.db.fifo.length := by
    have := identity.bound
    have := identity.slots
    omega
  -- one more accepted request, none completed
  have grown : accepted (c.enqueue request params flush).trace = accepted c.trace ++ [request] := by
    simp [Client.enqueue, Client.emit, accepted]
  have sameTaken : taken (c.enqueue request params flush).trace = taken c.trace := by
    simp [Client.enqueue, Client.emit, taken]
  have sameCalls : calls (c.enqueue request params flush).trace = calls c.trace := by
    simp [Client.enqueue, Client.emit, calls]
  have completed : taken c.trace ≤ (accepted c.trace).length := by
    have := identity.total
    omega
  constructor
  -- the marker is not out, so the new query goes behind the others
  · cases allowed
    rw [expected]
    simp [expectedWire, Client.enqueue, Client.emit, unsynced, List.replicate_succ']
  · constructor
    · simpa [Client.enqueue, Client.emit] using identity.slots
    · exact identity.head
    · simp only [Client.enqueue, Client.emit]
      have := identity.slots
      omega
    · rw [grown, sameTaken]
      simp only [Client.enqueue, Client.emit, List.length_append, List.length_singleton,
        identity.total]
      omega
    · rw [grown, sameTaken, List.drop_append_of_le_length completed, ← identity.queue]
      simp only [Client.enqueue, Client.emit, ← identity.slots]
      exact RingBuffer.contents_push _ _ _ request space
    · rw [grown, sameTaken, sameCalls, List.take_append_of_le_length completed]
      exact identity.calls
    · intro n member
      simp [Client.enqueue, Client.emit] at member
      exact identity.sync n member
    · intro status n member
      simp [Client.enqueue, Client.emit] at member
      exact identity.orphan status n member

private theorem sync_inv (unsynced : c.db.syncSent = false) (inv : Inv c) : Inv c.markSynced := by
  intro wire lawful
  obtain ⟨before, watched, allowed⟩ := (Runs.watch_append_singleton _).mp lawful
  obtain ⟨expected, identity⟩ := inv before watched
  constructor
  · cases allowed
    rw [expected]
    simp [expectedWire, Client.markSynced, Client.emit, unsynced]
  · constructor
    · exact identity.slots
    · exact identity.head
    · exact identity.bound
    · simpa [Client.markSynced, Client.emit, accepted, taken] using identity.total
    · simpa [Client.markSynced, Client.emit, accepted, taken] using identity.queue
    · simpa [Client.markSynced, Client.emit, accepted, taken, calls] using identity.calls
    · simpa [Client.markSynced, Client.emit] using identity.sync
    · simpa [Client.markSynced, Client.emit] using identity.orphan

/-- A sync result answers the marker behind every query, so nothing is pending. -/
private theorem takeSync_inv (inv : Inv c) : Inv c.takeSync := by
  intro wire lawful
  obtain ⟨before, watched, allowed⟩ := (Runs.watch_append_singleton _).mp lawful
  obtain ⟨expected, identity⟩ := inv before watched
  -- libpq answers the marker only when every query before it is answered
  obtain ⟨empty, rest⟩ : c.db.count = 0 ∧ wire = [] := by
    rw [wireStep_sync_iff, expected, expectedWire] at allowed
    cases count : c.db.count with
    | zero =>
      rw [count] at allowed
      cases sent : c.db.syncSent <;> simp_all
    | succ n => simp [count, List.replicate_succ] at allowed
  constructor
  · simp [expectedWire, Client.takeSync, Client.emit, empty, rest]
  · constructor
    · exact identity.slots
    · exact identity.head
    · exact identity.bound
    · simpa [Client.takeSync, Client.emit, accepted, taken] using identity.total
    · simpa [Client.takeSync, Client.emit, accepted, taken] using identity.queue
    · simpa [Client.takeSync, Client.emit, accepted, taken, calls] using identity.calls
    · intro n member
      simp only [Client.takeSync, Client.emit, List.mem_append, List.mem_singleton,
        Effect.took.injEq, true_and] at member
      rcases member with earlier | rfl
      · exact identity.sync n earlier
      · exact empty
    · intro status n member query
      simp only [Client.takeSync, Client.emit, List.mem_append, List.mem_singleton,
        Effect.took.injEq] at member
      rcases member with earlier | ⟨same, _⟩
      · exact identity.orphan status n earlier query
      · exact absurd same query

/-- With nothing pending libpq owes no query result. -/
private theorem orphan_inv (status : ExecStatus) (query : status ≠ .pipelineSync)
    (empty : c.db.count = 0) (inv : Inv c) : Inv (c.emit (.took status c.db.count)) := by
  intro wire lawful
  obtain ⟨before, watched, allowed⟩ := (Runs.watch_append_singleton _).mp lawful
  obtain ⟨expected, _⟩ := inv before watched
  rw [wireStep_query_iff _ _ _ _ query, expected, expectedWire, empty] at allowed
  -- what libpq owes is the marker at most
  cases sent : c.db.syncSent <;> simp [sent] at allowed

/-- What the trace and the buffer say after the request at the head is completed, whether or
not it has a callback. -/
private theorem complete_identity (identity : PipelineIdentity c) (status : ExecStatus)
    (query : status ≠ .pipelineSync) (pending : 0 < c.db.count) (trace : List Effect)
    (sameAccepted : accepted trace = accepted c.trace)
    (oneMore : taken trace = taken c.trace + 1)
    (called : calls trace = calls c.trace ++ c.db.front.invocation.toList)
    (took : ∀ s n, Effect.took s n ∈ trace →
      Effect.took s n ∈ c.trace ∨ (s = status ∧ n = c.db.count)) :
    PipelineIdentity ⟨c.db.pop, trace⟩ := by
  obtain ⟨n, count⟩ : ∃ n, c.db.count = n + 1 := ⟨c.db.count - 1, by omega⟩
  have slots := identity.slots
  have head := identity.head
  have total := identity.total
  -- the buffer loses its first request, which is the next accepted one
  have popped := RingBuffer.contents_pop c.db.fifo c.db.head n (by omega)
  rw [← count, identity.queue] at popped
  have rest : (accepted c.trace).drop (taken c.trace + 1) =
      RingBuffer.contents c.db.fifo ((c.db.head + 1) % c.db.fifo.length) n := by
    rw [← List.tail_drop, popped, List.tail_cons]
  have next : (accepted c.trace).take (taken c.trace + 1) =
      (accepted c.trace).take (taken c.trace) ++ [c.db.front] := by
    rw [List.take_add_one, ← List.head?_drop, popped]
    rfl
  constructor
  · exact slots
  · exact Nat.mod_lt _ (by omega)
  · have := identity.bound
    simp only [AlphaPg.pop]
    omega
  · rw [sameAccepted, oneMore]
    simp only [AlphaPg.pop]
    omega
  · rw [sameAccepted, oneMore, rest]
    simp [AlphaPg.pop, count, slots]
  · rw [called, sameAccepted, oneMore, next, List.filterMap_append, ← identity.calls]
    cases invoked : c.db.front.invocation <;> simp [invoked]
  · intro m member
    rcases took _ _ member with earlier | ⟨same, _⟩
    · exact identity.sync m earlier
    · exact absurd same.symm query
  · intro s m member notSync
    rcases took _ _ member with earlier | ⟨_, rfl⟩
    · exact identity.orphan s m earlier notSync
    · exact pending

private theorem complete_inv (status : ExecStatus) (outcome : PgOutcome)
    (query : status ≠ .pipelineSync) (pending : 0 < c.db.count)
    (kind : outcome.kind = c.db.front.kind) (inv : Inv c) : Inv (c.complete status outcome) := by
  -- libpq's promise at the result itself; a callback does not concern libpq
  have popped (wire : List WireItem)
      (lawful : Runs.watch wireStep [] (c.trace ++ [.took status c.db.count]) = some wire) :
      wire = expectedWire c.db.pop ∧ PipelineIdentity c := by
    obtain ⟨before, watched, allowed⟩ := (Runs.watch_append_singleton _).mp lawful
    obtain ⟨expected, identity⟩ := inv before watched
    refine ⟨?_, identity⟩
    rw [wireStep_query_iff _ _ _ _ query, expected, expectedWire] at allowed
    obtain ⟨n, count⟩ : ∃ n, c.db.count = n + 1 := ⟨c.db.count - 1, by omega⟩
    rw [count, List.replicate_succ, List.cons_append, List.cons.injEq] at allowed
    simp [expectedWire, AlphaPg.pop, count, ← allowed.2]
  have counted : (status != .pipelineSync) = true := by simpa using query
  unfold Client.complete
  cases callback : c.db.front.callback with
  | none =>
    intro wire lawful
    obtain ⟨expected, identity⟩ := popped wire lawful
    refine ⟨expected, complete_identity identity status query pending _ ?_ ?_ ?_ ?_⟩
    · simp [accepted]
    · simp [taken, counted]
    · simp [calls, PendingRequest.invocation, callback]
    · simp
  | some receiver =>
    intro wire lawful
    obtain ⟨before, watched, allowed⟩ := (Runs.watch_append_singleton _).mp lawful
    cases allowed
    obtain ⟨expected, identity⟩ := popped wire watched
    refine ⟨expected, complete_identity identity status query pending _ ?_ ?_ ?_ ?_⟩
    · simp [accepted]
    · simp [taken, counted]
    · simp [calls, PendingRequest.invocation, callback, kind]
    · simp

theorem move_inv (before after : Client) (move : Move before after) (inv : Inv before) :
    Inv after := by
  cases move with
  | quiet db same => exact quiet_inv db same inv
  | send request params flush room unsynced =>
    exact send_inv request params flush room unsynced inv
  | sync pending unsynced => exact sync_inv unsynced inv
  | takeSync => exact takeSync_inv inv
  | orphan status query empty => exact orphan_inv status query empty inv
  | complete status outcome query pending kind =>
    exact complete_inv status outcome query pending kind inv

end Invariant

/-- A started client has an empty buffer of the requested depth. -/
theorem connectStart_fresh (conninfo : Option Text) (depth : Nat) (out : Bool) (env : StartAnswer)
    (db : AlphaPg) (started : (alphaPgConnectStart conninfo depth out env).2 = some db) :
    0 < depth ∧ db.capacity = depth ∧ db.fifo.length = depth ∧ db.head = 0 ∧ db.count = 0 ∧
      db.syncSent = false := by
  unfold alphaPgConnectStart at started
  split at started
  · cases started
  next valid =>
    split at started
    · cases started
    · split at started
      · cases started
      · split at started
        · cases started
        · simp only at started
          split at started <;> cases started <;>
            exact ⟨by omega, rfl, by simp [setError], rfl, rfl, rfl⟩

theorem start_inv (conninfo : Option Text) (depth : Nat) (out : Bool) (env : StartAnswer)
    (db : AlphaPg) (started : (alphaPgConnectStart conninfo depth out env).2 = some db) :
    Inv (Machine.start db).client := by
  obtain ⟨positive, capacity, slots, head, count, syncSent⟩ :=
    connectStart_fresh conninfo depth out env db started
  intro wire lawful
  -- nothing was sent yet
  cases lawful
  refine ⟨by simp [Machine.start, expectedWire, count, syncSent], ?_⟩
  constructor
  · simp [Machine.start, slots, capacity]
  · simp [Machine.start, head, capacity, positive]
  · simp [Machine.start, count]
  · simp [Machine.start, count, accepted, taken]
  · simp [Machine.start, count, accepted]
  · rfl
  · simp [Machine.start]
  · simp [Machine.start]

/-- A submission that is not accepted leaves the client as it was, but for the message of libpq. -/
theorem submit_rejected (c : Client) (submission : Submission)
    (rejected : (submit c submission).1 ≠ .ok) :
    (submit c submission).2 = c.rejected submission.libpq (submit c submission).1 := by
  rcases submit_cases c submission with ⟨_, same⟩ | ⟨accepted, _⟩
  · exact same
  · exact absurd accepted rejected

/-- Along any run in which libpq keeps its promise every result meets its own request: the
callbacks run are those of the accepted requests, each at most once and in order; what is
accepted is completed or pending; a sync result comes when nothing is pending and no result
comes without a request. A rejected submission changes nothing, except where the status is
`ALPHA_ERR_DB`: then the error text is the message of libpq. -/
theorem pipeline_identity (conninfo : Option Text) (depth : Nat) (out : Bool) (env : StartAnswer)
    (db : AlphaPg) (started : (alphaPgConnectStart conninfo depth out env).2 = some db)
    (actions : List Action)
    (lawful : Lawful (Runs.run Machine.step (Machine.start db) actions).client.trace) :
    PipelineIdentity (Runs.run Machine.step (Machine.start db) actions).client ∧
    ∀ (c : Client) (submission : Submission), (submit c submission).1 ≠ .ok →
      (submit c submission).2 =
        if (submit c submission).1 = .db then
          { c with db := setError c.db (some submission.libpq.errorMessage) }
        else c := by
  -- the promise holds of the whole trace, so the invariant speaks
  obtain ⟨wire, watched⟩ := Option.isSome_iff_exists.mp lawful
  have inv := run_of_moves Inv move_inv (Machine.start db) actions
    (start_inv conninfo depth out env db started)
  exact ⟨(inv wire watched).2, submit_rejected⟩

/-- libpq answers for a connection that opens at once. -/
def opened (answers : List Answer) : ServiceAnswer := ⟨.ok, true, true, 0, true, [], answers⟩

def depthTwo : AlphaPg :=
  ⟨.connecting, .writing, false, false, List.replicate 2 default, 2, 0, 0, []⟩

def query (userData : Nat) (reply : SendAnswer) : Submission :=
  .queryExposure (some "005930".toList) (some 7) userData reply

def errorResult : PgResult := ⟨.other 7, [], "ERROR".toList⟩

def syncResult : PgResult := ⟨.pipelineSync, [], []⟩

/-- Two requests fill the buffer and a third is rejected; the first fails and aborts the
second; after the sync a fourth is accepted. -/
theorem pipeline_identity_abort_and_reuse :
    let actions := [.service false true (opened []), .submit (query 1 ⟨true, [], 0⟩),
      .submit (query 2 ⟨true, [], 0⟩), .submit (query 3 ⟨true, [], 0⟩),
      .service true true (opened [.result errorResult [], .null,
        .result ⟨.pipelineAborted, [], []⟩ [], .null, .result syncResult [], .null]),
      .submit (query 4 ⟨true, [], 0⟩)]
    let c := (Runs.run Machine.step (Machine.start depthTwo) actions).client
    calls c.trace = [(7, .exposure, 1), (7, .exposure, 2)] ∧ c.db.count = 1 ∧
      PipelineIdentity c := by
  intro actions c
  have lawful : Lawful c.trace := by decide +kernel
  exact ⟨by decide +kernel, by decide +kernel,
    (pipeline_identity (some []) 2 true ⟨true, true, true, false, true, []⟩ depthTwo (by decide)
      actions lawful).1⟩

/-- A submission that libpq refuses is rejected, yet the error text changes. -/
theorem refused_submission_sets_error :
    let c := (Runs.run Machine.step (Machine.start depthTwo)
      [.service false true (opened [])]).client
    let refused := submit c (query 1 ⟨false, "no memory".toList, 0⟩)
    refused.1 = .db ∧ c.db.error = [] ∧ refused.2.db.error = "no memory".toList := by
  decide +kernel

end AlphaPipeline.Postgres

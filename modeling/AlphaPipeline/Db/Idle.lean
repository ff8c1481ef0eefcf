import AlphaPipeline.Db.PipelineRuns

/-!
# Idle and the sync boundary

A client is meant to be idle only when every accepted request lies behind a sync marker whose
result has been taken: a request sent then cannot be aborted by an earlier failure. The sync
marker is sent on a writable event, results are taken on readable ones, and nothing orders
the two.
-/
namespace AlphaPipeline.Postgres

def Effect.isSyncResult : Effect → Bool
  | .took status _ => status == .pipelineSync
  | _ => false

def syncsSent (trace : List Effect) : Nat := trace.countP (· == .synced)

def syncsTaken (trace : List Effect) : Nat := trace.countP Effect.isSyncResult

@[simp] theorem syncsSent_append_singleton (trace : List Effect) (effect : Effect) :
    syncsSent (trace ++ [effect]) = syncsSent trace + if effect == .synced then 1 else 0 := by
  simp [syncsSent, List.countP_singleton]

@[simp] theorem syncsTaken_append_singleton (trace : List Effect) (effect : Effect) :
    syncsTaken (trace ++ [effect]) = syncsTaken trace + if effect.isSyncResult then 1 else 0 := by
  simp [syncsTaken, List.countP_singleton]

/-- Behind every accepted request a sync marker was sent whose result has been taken; markers
are answered in order, so the marker sent as number `k` is answered once more than `k` sync
results are taken. -/
def Covered (trace : List Effect) : Prop :=
  ∀ before request params after, trace = before ++ .sent request params :: after →
    ∃ between rest, after = between ++ .synced :: rest ∧
      syncsSent (before ++ between) < syncsTaken trace

/-- The last pending result is not taken before the sync marker has been sent. -/
def orderStep (outstanding : Bool) : Effect → Option Bool
  | .synced => some true
  | .took .pipelineSync _ => some false
  | .took _ pending => if outstanding || decide (1 < pending) then some outstanding else none
  | _ => some outstanding

def SyncFirst (trace : List Effect) : Prop := (Runs.watch orderStep false trace).isSome

instance (trace : List Effect) : Decidable (SyncFirst trace) :=
  inferInstanceAs (Decidable (_ = true))

/-- Some sync marker was sent after every accepted request. -/
def Followed (trace : List Effect) : Prop :=
  ∀ before request params after, trace = before ++ .sent request params :: after →
    .synced ∈ after

/-- The part of the invariant about sync markers. -/
def SyncInv (c : Client) : Prop :=
  Inv c ∧ ∀ wire outstanding, Runs.watch wireStep [] c.trace = some wire →
    Runs.watch orderStep false c.trace = some outstanding →
    outstanding = c.db.syncSent ∧
    syncsSent c.trace = syncsTaken c.trace + c.db.syncSent.toNat ∧
    (c.db.syncSent = true ∨ c.db.count = 0 → Followed c.trace)

/-- An accepted request is found before a new last entry, unless it is that entry. -/
private theorem split_last {trace before after : List Effect} {last : Effect}
    {request : PendingRequest} {params : List Text}
    (split : trace ++ [last] = before ++ .sent request params :: after) :
    (after = [] ∧ last = .sent request params) ∨
      ∃ earlier, after = earlier ++ [last] ∧ trace = before ++ .sent request params :: earlier := by
  -- on what follows the request: nothing, or something with a last entry
  rcases List.eq_nil_or_concat' after with rfl | ⟨earlier, final, rfl⟩
  · left
    have := List.append_inj_right' split rfl
    simpa using this
  · right
    rw [← List.cons_append, ← List.append_assoc] at split
    obtain ⟨same, isLast⟩ := List.append_inj' split rfl
    cases isLast
    exact ⟨earlier, rfl, same⟩

private theorem Followed.append {trace : List Effect} (followed : Followed trace) (last : Effect)
    (other : ∀ request params, last ≠ .sent request params) : Followed (trace ++ [last]) := by
  intro before request params after split
  rcases split_last split with ⟨_, same⟩ | ⟨earlier, rfl, same⟩
  · exact absurd same (other request params)
  · have := followed before request params earlier same
    simp [this]

private theorem followed_synced (trace : List Effect) : Followed (trace ++ [.synced]) := by
  intro before request params after split
  rcases split_last split with ⟨_, same⟩ | ⟨earlier, rfl, _⟩
  · cases same
  · simp

private theorem orderStep_query {outstanding after : Bool} {status : ExecStatus} {pending : Nat}
    (query : status ≠ .pipelineSync)
    (allowed : orderStep outstanding (.took status pending) = some after) :
    after = outstanding ∧ (outstanding = true ∨ 1 < pending) := by
  cases status with
  | pipelineSync => exact absurd rfl query
  | tuplesOk | pipelineAborted | other =>
    simp only [orderStep, Bool.or_eq_true, decide_eq_true_eq] at allowed
    split at allowed
    next either => exact ⟨(Option.some.inj allowed).symm, either⟩
    next => cases allowed

section Moves

variable {c : Client}

private theorem send_syncInv (request : PendingRequest) (params : List Text) (flush : Bool)
    (room : c.db.count ≠ c.db.capacity) (unsynced : c.db.syncSent = false) (inv : SyncInv c) :
    SyncInv (c.enqueue request params flush) := by
  refine ⟨move_inv _ _ (.send c request params flush room unsynced) inv.1, ?_⟩
  intro wire outstanding lawful ordered
  obtain ⟨_, watched, _⟩ := (Runs.watch_append_singleton _).mp lawful
  obtain ⟨_, orderly, same⟩ := (Runs.watch_append_singleton _).mp ordered
  cases same
  obtain ⟨flag, counts, _⟩ := inv.2 _ _ watched orderly
  refine ⟨flag, by simpa [Client.enqueue, Client.emit, Effect.isSyncResult] using counts, ?_⟩
  -- a request has just been added and no marker is out
  intro settled
  simp [Client.enqueue, Client.emit, unsynced] at settled

private theorem sync_syncInv (pending : 0 < c.db.count) (unsynced : c.db.syncSent = false)
    (inv : SyncInv c) : SyncInv c.markSynced := by
  refine ⟨move_inv _ _ (.sync c pending unsynced) inv.1, ?_⟩
  intro wire outstanding lawful ordered
  obtain ⟨_, watched, _⟩ := (Runs.watch_append_singleton _).mp lawful
  obtain ⟨_, orderly, now⟩ := (Runs.watch_append_singleton _).mp ordered
  cases now
  obtain ⟨_, counts, _⟩ := inv.2 _ _ watched orderly
  refine ⟨rfl, ?_, fun _ => followed_synced c.trace⟩
  simpa [Client.markSynced, Client.emit, Effect.isSyncResult, unsynced] using counts

private theorem takeSync_syncInv (inv : SyncInv c) : SyncInv c.takeSync := by
  refine ⟨move_inv _ _ (.takeSync c) inv.1, ?_⟩
  intro wire outstanding lawful ordered
  obtain ⟨before, watched, answered⟩ := (Runs.watch_append_singleton _).mp lawful
  obtain ⟨_, orderly, now⟩ := (Runs.watch_append_singleton _).mp ordered
  cases now
  obtain ⟨_, counts, followed⟩ := inv.2 _ _ watched orderly
  -- libpq answers a sync marker only if one is outstanding
  have sent : c.db.syncSent = true := by
    rw [wireStep_sync_iff, (inv.1 before watched).1, expectedWire] at answered
    cases flag : c.db.syncSent with
    | true => rfl
    | false => cases count : c.db.count <;> simp [flag, count, List.replicate_succ] at answered
  refine ⟨rfl, ?_, fun _ => (followed (Or.inl sent)).append _ (by simp)⟩
  simpa [Client.takeSync, Client.emit, Effect.isSyncResult, sent] using counts

private theorem complete_syncInv (status : ExecStatus) (outcome : PgOutcome)
    (query : status ≠ .pipelineSync) (pending : 0 < c.db.count)
    (kind : outcome.kind = c.db.front.kind) (inv : SyncInv c) :
    SyncInv (c.complete status outcome) := by
  refine ⟨move_inv _ _ (.complete c status outcome query pending kind) inv.1, ?_⟩
  -- the result itself; a callback entry after it changes none of the three
  have popped (wire : List WireItem) (outstanding : Bool)
      (lawful : Runs.watch wireStep [] (c.trace ++ [.took status c.db.count]) = some wire)
      (ordered : Runs.watch orderStep false (c.trace ++ [.took status c.db.count]) =
        some outstanding) :
      outstanding = c.db.syncSent ∧
      syncsSent c.trace = syncsTaken c.trace + c.db.syncSent.toNat ∧
      (c.db.syncSent = true ∨ c.db.count - 1 = 0 →
        Followed (c.trace ++ [.took status c.db.count])) := by
    obtain ⟨_, watched, _⟩ := (Runs.watch_append_singleton _).mp lawful
    obtain ⟨_, orderly, allowed⟩ := (Runs.watch_append_singleton _).mp ordered
    obtain ⟨rfl, first⟩ := orderStep_query query allowed
    obtain ⟨flag, counts, followed⟩ := inv.2 _ _ watched orderly
    refine ⟨flag, counts, fun settled => ?_⟩
    refine (followed (Or.inl ?_)).append _ (by simp)
    rw [flag] at first
    -- the last pending result is taken only behind its marker
    rcases settled with sent | last
    · exact sent
    · exact first.resolve_right (by omega)
  unfold Client.complete
  cases callback : c.db.front.callback with
  | none =>
    intro wire outstanding lawful ordered
    obtain ⟨flag, counts, followed⟩ := popped wire outstanding lawful ordered
    exact ⟨flag, by simpa [AlphaPg.pop, Effect.isSyncResult, query] using counts, followed⟩
  | some receiver =>
    intro wire outstanding lawful ordered
    obtain ⟨_, watched, same⟩ := (Runs.watch_append_singleton _).mp lawful
    cases same
    obtain ⟨_, orderly, same⟩ := (Runs.watch_append_singleton _).mp ordered
    cases same
    obtain ⟨flag, counts, followed⟩ := popped _ _ watched orderly
    refine ⟨flag, ?_, fun settled => (followed settled).append _ (by simp)⟩
    simp only [Client.emit, syncsSent_append_singleton, syncsTaken_append_singleton]
    simpa [AlphaPg.pop, Effect.isSyncResult, query] using counts

theorem move_syncInv (before after : Client) (move : Move before after) (inv : SyncInv before) :
    SyncInv after := by
  cases move with
  | quiet db same =>
    refine ⟨move_inv _ _ (.quiet _ db same) inv.1, ?_⟩
    obtain ⟨_, _, _, count, syncSent⟩ := same
    simpa only [count, syncSent] using inv.2
  | send request params flush room unsynced =>
    exact send_syncInv request params flush room unsynced inv
  | sync pending unsynced => exact sync_syncInv pending unsynced inv
  | takeSync => exact takeSync_syncInv inv
  | orphan status query empty =>
    refine ⟨move_inv _ _ (.orphan _ status query empty) inv.1, ?_⟩
    intro wire outstanding lawful ordered
    obtain ⟨_, _, allowed⟩ := (Runs.watch_append_singleton _).mp ordered
    -- a result without a request breaks the promise
    have := (move_inv _ _ (.orphan _ status query empty) inv.1 wire lawful).2.orphan status
      before.db.count (by simp [Client.emit]) query
    omega
  | complete status outcome query pending kind =>
    exact complete_syncInv status outcome query pending kind inv

end Moves

/-- A request that some sync marker follows is covered once as many sync results are taken as
markers were sent. -/
private theorem Followed.covered {trace : List Effect} (followed : Followed trace)
    (answered : syncsSent trace = syncsTaken trace) : Covered trace := by
  intro before request params after split
  obtain ⟨between, rest, found⟩ := List.append_of_mem (followed before request params after split)
  -- the first marker behind the request has a smaller number than markers were answered
  refine ⟨between, rest, found, ?_⟩
  rw [← answered, split, found]
  simp [syncsSent, List.countP_append]

/-- Along any run in which libpq keeps its promise and the last pending result is never taken
before the sync marker is sent, a ready client that reports idle has every accepted request
behind an answered sync marker. -/
theorem idle_covered (conninfo : Option Text) (depth : Nat) (out : Bool) (env : StartAnswer)
    (db : AlphaPg) (started : (alphaPgConnectStart conninfo depth out env).2 = some db)
    (actions : List Action)
    (lawful : Lawful (Runs.run Machine.step (Machine.start db) actions).client.trace)
    (ordered : SyncFirst (Runs.run Machine.step (Machine.start db) actions).client.trace)
    (idle : alphaPgIsIdle (Runs.run Machine.step (Machine.start db) actions).client.db = true) :
    Covered (Runs.run Machine.step (Machine.start db) actions).client.trace := by
  have start : SyncInv (Machine.start db).client := by
    obtain ⟨_, _, _, _, _, syncSent⟩ := connectStart_fresh conninfo depth out env db started
    refine ⟨start_inv conninfo depth out env db started, ?_⟩
    intro wire outstanding _ order
    cases order
    refine ⟨by simp [Machine.start, syncSent], by simp [Machine.start, syncSent, syncsSent,
      syncsTaken], fun _ => ?_⟩
    intro before request params after split
    simp [Machine.start] at split
  have inv := run_of_moves SyncInv move_syncInv (Machine.start db) actions start
  obtain ⟨wire, watched⟩ := Option.isSome_iff_exists.mp lawful
  obtain ⟨outstanding, orderly⟩ := Option.isSome_iff_exists.mp ordered
  obtain ⟨_, counts, followed⟩ := inv.2 wire outstanding watched orderly
  simp only [alphaPgIsIdle, Bool.not_eq_true', Bool.or_eq_false_iff, decide_eq_false_iff_not,
    ne_eq, not_not] at idle
  obtain ⟨⟨empty, unsynced⟩, _⟩ := idle
  apply (followed (Or.inr empty)).covered
  simpa [unsynced] using counts

theorem idle_covered_sync_first :
    let actions := [.service false true (opened []), .submit (query 1 ⟨true, [], 0⟩),
      .service false true (opened []),
      .service true false (opened [.result errorResult [], .null, .result syncResult [], .null])]
    let c := (Runs.run Machine.step (Machine.start depthTwo) actions).client
    accepted c.trace ≠ [] ∧ alphaPgIsIdle c.db = true ∧ Covered c.trace := by
  intro actions c
  have lawful : Lawful c.trace := by decide +kernel
  have ordered : SyncFirst c.trace := by decide +kernel
  have idle : alphaPgIsIdle c.db = true := by decide +kernel
  exact ⟨by decide +kernel, idle, idle_covered (some []) 2 true
    ⟨true, true, true, false, true, []⟩ depthTwo (by decide) actions lawful ordered idle⟩

/-- The error result of a request is readable before the socket is reported writable: it is
taken, the client is ready and idle, and no sync marker was ever sent. -/
theorem idle_without_sync :
    let actions := [.service false true (opened []), .submit (query 1 ⟨true, [], 0⟩),
      .service true false (opened [.result errorResult [], .null])]
    let c := (Runs.run Machine.step (Machine.start depthTwo) actions).client
    Lawful c.trace ∧ c.db.state = .ready ∧ alphaPgIsIdle c.db = true ∧ ¬ Covered c.trace := by
  intro actions c
  refine ⟨by decide +kernel, by decide +kernel, by decide +kernel, fun covered => ?_⟩
  obtain ⟨before, rest, found⟩ : ∃ before rest, c.trace =
      before ++ .sent ⟨.exposure, some 7, 1⟩ ["005930".toList] :: rest ∧ .synced ∉ rest :=
    ⟨[], c.trace.tail, by decide +kernel, by decide +kernel⟩
  obtain ⟨between, after, split, _⟩ := covered before _ _ rest found.1
  exact found.2 (by simp [split])

end AlphaPipeline.Postgres

import AlphaPipeline.Db.PipelineRuns

/-!
# Failing for good

A failed client stays failed: it refuses every call and runs no callback. A service call
reports a database error from six points. Four of them fail the client; a failing `PQflush` and
a failing `PQconsumeInput` leave it ready.
-/
namespace AlphaPipeline.Postgres

/-- What a call returns, if it does. -/
def Machine.answer (m : Machine) (action : Action) : Option AlphaErr :=
  if m.spinning then none
  else
    match action with
    | .submit submission => some (submit m.client submission).1
    | .service readable writable env => (alphaPgService m.client readable writable env).1

/-- From here on the client is failed and runs no callback, and every call returns an error. -/
def FailStop (m : Machine) : Prop :=
  ∀ later : List Action,
    (Runs.run Machine.step m later).client.db.state = .failed ∧
      calls (Runs.run Machine.step m later).client.trace = calls m.client.trace ∧
      ∀ action, ∃ status, (Runs.run Machine.step m later).answer action = some status ∧ status ≠ .ok

/-! ### A failed client -/

/-- Failed, with the callbacks run so far. -/
structure Stopped (invoked : List (Nat × ResultKind × Nat)) (m : Machine) : Prop where
  failed : m.client.db.state = .failed
  returned : m.spinning = false
  invoked : calls m.client.trace = invoked

theorem submit_failed (c : Client) (failed : c.db.state = .failed) (submission : Submission) :
    (submit c submission).1 ≠ .ok ∧ (submit c submission).2.db.state = .failed ∧
      (submit c submission).2.trace = c.trace := by
  rcases submit_cases c submission with ⟨refused, same⟩ | ⟨_, ready, _⟩
  · rw [same]
    unfold Client.rejected
    split
    · exact ⟨refused, failed, rfl⟩
    · exact ⟨refused, failed, rfl⟩
  · rw [failed] at ready
    cases ready

theorem service_failed (c : Client) (failed : c.db.state = .failed) (readable writable : Bool)
    (env : ServiceAnswer) :
    alphaPgService c readable writable env = (some .invalidArg, c) := by
  unfold alphaPgService
  rw [failed]

theorem Stopped.step {invoked : List (Nat × ResultKind × Nat)} (m : Machine) (action : Action)
    (stopped : Stopped invoked m) : Stopped invoked (m.step action) := by
  unfold Machine.step
  rw [if_neg (by rw [stopped.returned]; decide)]
  cases action with
  | submit submission =>
    obtain ⟨_, failed, trace⟩ := submit_failed m.client stopped.failed submission
    exact ⟨failed, rfl, (congrArg calls trace).trans stopped.invoked⟩
  | service readable writable env =>
    dsimp only
    rw [service_failed m.client stopped.failed]
    exact ⟨stopped.failed, rfl, stopped.invoked⟩

theorem Stopped.answer {invoked : List (Nat × ResultKind × Nat)} {m : Machine}
    (stopped : Stopped invoked m) (action : Action) :
    ∃ status, m.answer action = some status ∧ status ≠ .ok := by
  unfold Machine.answer
  rw [if_neg (by rw [stopped.returned]; decide)]
  cases action with
  | submit submission =>
    exact ⟨_, rfl, (submit_failed m.client stopped.failed submission).1⟩
  | service readable writable env =>
    dsimp only
    rw [service_failed m.client stopped.failed]
    exact ⟨.invalidArg, rfl, by decide⟩

/-- Being failed is enough, whatever is asked of the client and whatever libpq answers. -/
theorem failStop_of_failed (m : Machine) (failed : m.client.db.state = .failed)
    (returned : m.spinning = false) : FailStop m := by
  intro later
  have stopped : Stopped (calls m.client.trace) (Runs.run Machine.step m later) :=
    Runs.run_preserves Machine.step _ Stopped.step m later ⟨failed, returned, rfl⟩
  exact ⟨stopped.failed, stopped.invoked, stopped.answer⟩

/-! ### The six points of failure -/

/-- `PQflush` fails in the call. -/
def FlushFails (c : Client) (writable : Bool) (env : ServiceAnswer) : Prop :=
  c.db.state = .ready ∧ (serviceSync c writable env).1 = none ∧
    (serviceFlush (serviceSync c writable env).2 writable env).1 ≠ none

/-- `PQconsumeInput` fails in the call. -/
def ConsumeFails (c : Client) (readable writable : Bool) (env : ServiceAnswer) : Prop :=
  c.db.state = .ready ∧ (serviceSync c writable env).1 = none ∧
    (serviceFlush (serviceSync c writable env).2 writable env).1 = none ∧
    readable = true ∧ env.consumed = false

theorem serviceConnect_failed (db : AlphaPg) (readable writable : Bool) (env : ServiceAnswer)
    (reported : (serviceConnect db readable writable env).1 = .db) :
    (serviceConnect db readable writable env).2.state = .failed := by
  unfold serviceConnect at reported ⊢
  split at reported
  next expected =>
    rw [if_pos expected]
    dsimp only at reported ⊢
    split at reported
    next broken => rw [if_pos broken]
    · split at reported <;> cases reported
  · cases reported

/-- A sync marker that cannot be sent fails the client; otherwise its state stays. -/
theorem serviceSync_state (c : Client) (writable : Bool) (env : ServiceAnswer) :
    (serviceSync c writable env).2.db.state =
      if (serviceSync c writable env).1 = none then c.db.state else .failed := by
  unfold serviceSync
  split
  · split <;> rfl
  · rfl

/-- Flushing never changes the state, also when it fails. -/
theorem serviceFlush_state (c : Client) (writable : Bool) (env : ServiceAnswer) :
    (serviceFlush c writable env).2.db.state = c.db.state := by
  unfold serviceFlush
  split
  · split <;> rfl
  · rfl

theorem drainResults_failed (answers : List Answer) (c : Client)
    (reported : (drainResults answers c).1 = some .db) :
    (drainResults answers c).2.db.state = .failed := by
  -- only a result that no request waits for ends the loop with an error
  induction answers generalizing c with
  | nil => cases reported
  | cons answer rest ih =>
    cases answer with
    | busy => cases reported
    | null =>
      unfold drainResults at reported ⊢
      split at reported
      next waits =>
        rw [if_pos waits]
        exact ih c reported
      · cases reported
    | result pg reaction =>
      unfold drainResults at reported ⊢
      dsimp only at reported ⊢
      split at reported
      next sync =>
        rw [if_pos sync]
        exact ih _ reported
      next query =>
        rw [if_neg query]
        split at reported
        next empty => rw [if_pos empty]
        next pending =>
          rw [if_neg pending]
          exact ih _ reported

/-! ### A call on a ready client -/

section Ready

variable {c : Client} (readable : Bool) {writable : Bool} {env : ServiceAnswer}
  (ready : c.db.state = .ready)
include ready

theorem service_sync_stopped {status : AlphaErr}
    (stopped : (serviceSync c writable env).1 = some status) :
    alphaPgService c readable writable env = (some status, (serviceSync c writable env).2) := by
  unfold alphaPgService
  rw [ready]
  cases sync : serviceSync c writable env with
  | mk answer after =>
    rw [sync] at stopped
    dsimp only at stopped ⊢
    rw [stopped]

variable (synced : (serviceSync c writable env).1 = none)
include synced

theorem service_flush_stopped {status : AlphaErr}
    (stopped : (serviceFlush (serviceSync c writable env).2 writable env).1 = some status) :
    alphaPgService c readable writable env =
      (some status, (serviceFlush (serviceSync c writable env).2 writable env).2) := by
  unfold alphaPgService
  rw [ready]
  cases sync : serviceSync c writable env with
  | mk answer after =>
    rw [sync] at synced stopped
    dsimp only at synced stopped ⊢
    cases flush : serviceFlush after writable env with
    | mk answer last =>
      rw [flush] at stopped
      dsimp only at stopped
      simp only [synced, flush, stopped]

theorem service_reads
    (flushed : (serviceFlush (serviceSync c writable env).2 writable env).1 = none) :
    alphaPgService c readable writable env =
      let last := (serviceFlush (serviceSync c writable env).2 writable env).2
      if readable then
        if !env.consumed then
          (some .db, { last with db := setError last.db (some env.errorMessage) })
        else drainResults env.answers last
      else (some .ok, last) := by
  unfold alphaPgService
  rw [ready]
  cases sync : serviceSync c writable env with
  | mk answer after =>
    rw [sync] at synced flushed
    dsimp only at synced flushed ⊢
    cases flush : serviceFlush after writable env with
    | mk answer last =>
      rw [flush] at flushed
      dsimp only at flushed
      simp only [synced, flush, flushed]

/-- The marker and the flush leave a ready client ready. -/
theorem flushed_ready :
    (serviceFlush (serviceSync c writable env).2 writable env).2.db.state = .ready := by
  rw [serviceFlush_state, serviceSync_state, if_pos synced, ready]

end Ready

/-- A service call that reports a database error leaves the client failed, unless it was the
flush or the read that failed. -/
theorem service_failed_iff (c : Client) (readable writable : Bool) (env : ServiceAnswer)
    (reported : (alphaPgService c readable writable env).1 = some .db) :
    (alphaPgService c readable writable env).2.db.state = .failed ↔
      ¬ FlushFails c writable env ∧ ¬ ConsumeFails c readable writable env := by
  unfold FlushFails ConsumeFails
  cases state : c.db.state with
  | failed =>
    rw [service_failed c state] at reported
    cases reported
  | connecting =>
    -- a failed poll and a refused pipeline mode both fail the client
    unfold alphaPgService at reported ⊢
    rw [state] at reported ⊢
    refine iff_of_true ?_ ⟨nofun, nofun⟩
    exact serviceConnect_failed c.db readable writable env (Option.some.inj reported)
  | ready =>
    cases sync : (serviceSync c writable env).1 with
    | some status =>
      rw [service_sync_stopped readable state sync, serviceSync_state, sync]
      refine iff_of_true rfl ⟨?_, ?_⟩
      · exact fun fails => (nomatch fails.2.1)
      · exact fun fails => (nomatch fails.2.1)
    | none =>
      have stays := flushed_ready state sync
      cases flush : (serviceFlush (serviceSync c writable env).2 writable env).1 with
      | some status =>
        -- `PQflush` has failed, and the call returns with the client still ready
        rw [service_flush_stopped readable state sync flush, stays]
        exact iff_of_false nofun fun fine => fine.1 ⟨rfl, rfl, nofun⟩
      | none =>
        rw [service_reads readable state sync flush] at reported ⊢
        dsimp only at reported ⊢
        split at reported
        next reads =>
          rw [if_pos reads]
          split at reported
          next unread =>
            -- `PQconsumeInput` has failed: an error text, but no change of state
            rw [if_pos unread]
            refine iff_of_false ?_ fun fine => fine.2 ⟨rfl, rfl, rfl, reads, by simpa using unread⟩
            exact fun failed => nomatch (failed.symm.trans stays)
          next consumed =>
            rw [if_neg consumed]
            refine iff_of_true (drainResults_failed env.answers _ reported) ⟨?_, ?_⟩
            · exact fun fails => fails.2.2 rfl
            · rintro ⟨_, _, _, _, unread⟩
              simp [unread] at consumed
        · cases reported

/-- For every run, from whatever client it starts, and every service call that returns
`ALPHA_ERR_DB` after it: the client is fail-stop from then on exactly when neither `PQflush` nor
`PQconsumeInput` was what failed. -/
theorem fail_stop_iff (db : AlphaPg) (actions : List Action) (readable writable : Bool)
    (libpq : ServiceAnswer)
    (reported : (Runs.run Machine.step (Machine.start db) actions).answer
      (.service readable writable libpq) = some .db) :
    FailStop (Runs.run Machine.step (Machine.start db)
        (actions ++ [.service readable writable libpq])) ↔
      ¬ FlushFails (Runs.run Machine.step (Machine.start db) actions).client writable libpq ∧
        ¬ ConsumeFails (Runs.run Machine.step (Machine.start db) actions).client readable writable
          libpq := by
  rw [Runs.run_append]
  generalize Runs.run Machine.step (Machine.start db) actions = m at reported ⊢
  unfold Machine.answer at reported
  split at reported
  · cases reported
  next returned =>
    have after : m.step (.service readable writable libpq) =
        ⟨(alphaPgService m.client readable writable libpq).2, false⟩ := by
      unfold Machine.step
      rw [if_neg returned]
      dsimp only at reported ⊢
      rw [reported]
      rfl
    rw [← service_failed_iff m.client readable writable libpq reported, Runs.run_cons,
      Runs.run_nil, after]
    -- the state right after the call decides: with no further action, or with any
    exact ⟨fun stops => (stops []).1, fun failed => failStop_of_failed _ failed rfl⟩

/-- A sync marker that libpq does not take fails the client for good. -/
theorem fail_stop_sync_refused :
    FailStop (Runs.run Machine.step (Machine.start depthTwo)
      ([.service false true (opened []), .submit (query 1 ⟨true, [], 0⟩)] ++
        [.service true true ⟨.ok, true, false, 0, true, "lost".toList, []⟩])) := by
  refine (fail_stop_iff depthTwo _ true true _ (by decide +kernel)).mpr ⟨?_, ?_⟩
  · rintro ⟨_, sent, _⟩
    revert sent
    decide +kernel
  · rintro ⟨_, sent, _⟩
    revert sent
    decide +kernel

/-- When `PQconsumeInput` fails the call returns `ALPHA_ERR_DB`, yet the client stays ready: it
takes the next request, and the next service call runs the callback of the first one. -/
theorem ready_after_failed_read :
    let m := Runs.run Machine.step (Machine.start depthTwo)
      [.service false true (opened []), .submit (query 1 ⟨true, [], 0⟩)]
    let lost : Action := .service true false ⟨.ok, true, true, 0, false, "lost".toList, []⟩
    m.answer lost = some .db ∧ (m.step lost).client.db.state = .ready ∧
      (m.step lost).answer (.submit (query 2 ⟨true, [], 0⟩)) = some .ok ∧
      calls ((m.step lost).step (.service true false (opened [.result errorResult [],
        .busy]))).client.trace = [(7, .exposure, 1)] ∧ ¬ FailStop (m.step lost) := by
  intro m lost
  have ready : (m.step lost).client.db.state = .ready := by decide +kernel
  refine ⟨by decide +kernel, ready, by decide +kernel, by decide +kernel, fun stops => ?_⟩
  cases (stops []).1.symm.trans ready

end AlphaPipeline.Postgres

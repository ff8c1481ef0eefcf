import AlphaPipeline.Db.PipelineRuns

/-!
# When the drain loop returns

libpq may answer anything for a while; an idle or lost connection then answers forever that it
is not busy and has no result. The loop treats a missing result as a boundary while requests
or a sync marker are outstanding, so it returns only if libpq was busy once, or delivered
enough results.
-/
namespace AlphaPipeline.Postgres

def Answer.isBusy : Answer → Bool
  | .busy => true
  | _ => false

def Answer.isQuery : Answer → Bool
  | .result pg _ => pg.status != .pipelineSync
  | _ => false

def Answer.isSync : Answer → Bool
  | .result pg _ => pg.status == .pipelineSync
  | _ => false

/-- The number of query results among the answers. -/
def queries (answers : List Answer) : Nat := answers.countP Answer.isQuery

/-- How many of these submissions are accepted, made one after the other. -/
def admitted : List Submission → Client → Nat
  | [], _ => 0
  | submission :: rest, c =>
    (if (submit c submission).1 = .ok then 1 else 0) + admitted rest (submit c submission).2

/-- How many submissions are accepted in the callback of the request at the head. -/
def admittedAtHead (reaction : List Submission) (c : Client) : Nat :=
  if c.db.front.callback = none then 0 else admitted reaction { c with db := c.db.pop }

/-- How many submissions are accepted from callbacks while the answers are read. -/
def added : List Answer → Client → Nat
  | [], _ | .busy :: _, _ => 0
  | .null :: rest, c => if c.db.count > 0 || c.db.syncSent then added rest c else 0
  | .result pg reaction :: rest, c =>
    if pg.status = .pipelineSync then added rest c.takeSync
    else if c.db.count = 0 then 0
    else admittedAtHead reaction c +
      added rest (deliver (c.emit (.took pg.status c.db.count)) pg reaction)

/-- The results the loop waits for: those of the requests pending when it starts and of the
ones accepted from callbacks while it reads the answers. -/
def owed (answers : List Answer) (c : Client) : Nat := c.db.count + added answers c

/-- The answers settle the loop: libpq is busy once, or there are more query results than
owed, or just as many and the result of an outstanding sync marker. -/
def Settles (answers : List Answer) (c : Client) : Prop :=
  answers.any Answer.isBusy = true ∨ owed answers c < queries answers ∨
    (owed answers c = queries answers ∧
      (c.db.syncSent = true → answers.any Answer.isSync = true))

/-- The loop returns when the answers are followed by missing results forever. -/
def Returns (answers : List Answer) (c : Client) : Prop :=
  ∃ n, (drainResults (answers ++ List.replicate n .null) c).1 ≠ none

/-! ### What the loop does to the counts -/

/-- The same client, but for its error text and its trace. -/
def SameDb (c d : Client) : Prop := ∃ error, d.db = { c.db with error := error }

/-- Neither plays a part in what is accepted. -/
theorem sendRequest_sameDb {c d : Client} (same : SameDb c d) (kind : ResultKind)
    (params : List Text) (callback : Option Nat) (userData : Nat) (libpq : SendAnswer) :
    (sendRequest d kind params callback userData libpq).1 =
        (sendRequest c kind params callback userData libpq).1 ∧
      SameDb (sendRequest c kind params callback userData libpq).2
        (sendRequest d kind params callback userData libpq).2 := by
  obtain ⟨db, trace⟩ := d
  obtain ⟨error, eq⟩ := same
  obtain rfl : db = { c.db with error := error } := eq
  unfold sendRequest
  split_ifs
  all_goals exact ⟨rfl, _, rfl⟩

theorem submit_sameDb {c d : Client} (same : SameDb c d) (submission : Submission) :
    (submit d submission).1 = (submit c submission).1 ∧
      SameDb (submit c submission).2 (submit d submission).2 := by
  cases submission with
  | upsertPosition position callback userData libpq =>
    simp only [submit, alphaPgUpsertPosition]
    split
    · exact ⟨rfl, same⟩
    · split
      · exact ⟨rfl, same⟩
      · exact sendRequest_sameDb same ..
  | queryExposure ticker callback userData libpq =>
    simp only [submit, alphaPgQueryExposure]
    split
    · exact ⟨rfl, same⟩
    · split
      · exact ⟨rfl, same⟩
      · exact sendRequest_sameDb same ..

theorem rejected_sameDb (c : Client) (libpq : SendAnswer) (err : AlphaErr) :
    SameDb c (c.rejected libpq err) := by
  unfold Client.rejected
  split
  · exact ⟨_, rfl⟩
  · exact ⟨c.db.error, rfl⟩

theorem admitted_sameDb {c d : Client} (same : SameDb c d) (reaction : List Submission) :
    admitted reaction d = admitted reaction c := by
  induction reaction generalizing c d with
  | nil => rfl
  | cons first rest ih =>
    obtain ⟨status, after⟩ := submit_sameDb same first
    rw [admitted, admitted, status, ih after]

theorem admittedAtHead_emit (reaction : List Submission) (c : Client) (effect : Effect) :
    admittedAtHead reaction (c.emit effect) = admittedAtHead reaction c := by
  have same : SameDb { c with db := c.db.pop } { c.emit effect with db := c.db.pop } :=
    ⟨c.db.pop.error, rfl⟩
  exact if_congr Iff.rfl rfl (admitted_sameDb same reaction)

theorem reaction_account (reaction : List Submission) (c : Client) :
    (reaction.foldl (fun c s => (submit c s).2) c).db.count = c.db.count + admitted reaction c ∧
      (reaction.foldl (fun c s => (submit c s).2) c).db.syncSent = c.db.syncSent := by
  induction reaction generalizing c with
  | nil => exact ⟨rfl, rfl⟩
  | cons first rest ih =>
    obtain ⟨count, flag⟩ := ih (submit c first).2
    rw [List.foldl_cons, count, flag, admitted]
    rcases submit_cases c first with ⟨refused, same⟩ | ⟨ok, _, _, _, request, params, flush, stored⟩
    · obtain ⟨error, db⟩ := rejected_sameDb c first.libpq (submit c first).1
      rw [if_neg refused, same, db, zero_add]
      exact ⟨rfl, rfl⟩
    · rw [if_pos ok, stored, ← add_assoc]
      exact ⟨rfl, rfl⟩

/-- Delivering a result completes one request and adds those its callback gets accepted. -/
theorem deliver_account (c : Client) (pg : PgResult) (reaction : List Submission)
    (pending : c.db.count ≠ 0) :
    (deliver c pg reaction).db.count + 1 = c.db.count + admittedAtHead reaction c ∧
      (deliver c pg reaction).db.syncSent = c.db.syncSent := by
  have head (error : Text) (outcome : PgOutcome) :
      (completeHead { c with db := { c.db with error } } outcome reaction).db.count + 1 =
          c.db.count + admittedAtHead reaction c ∧
        (completeHead { c with db := { c.db with error } } outcome reaction).db.syncSent =
          c.db.syncSent := by
    have front : AlphaPg.front { c.db with error } = c.db.front := rfl
    simp only [completeHead, admittedAtHead, front]
    cases callback : c.db.front.callback with
    | none =>
      refine ⟨?_, rfl⟩
      simp only [AlphaPg.pop, if_true]
      omega
    | some registered =>
      -- the requests the callback adds come on top of the completed one
      have popped (called : Effect) : SameDb { c with db := c.db.pop }
          (Client.emit ⟨AlphaPg.pop { c.db with error }, c.trace⟩ called) := ⟨error, rfl⟩
      obtain ⟨grown, flag⟩ := reaction_account reaction
        (Client.emit ⟨AlphaPg.pop { c.db with error }, c.trace⟩
          (.called registered outcome c.db.front.userData))
      refine ⟨?_, flag⟩
      rw [admitted_sameDb (popped _)] at grown
      simp only [reduceCtorEq, if_false]
      rw [grown]
      simp only [Client.emit, AlphaPg.pop]
      omega
  unfold deliver
  simp only
  split
  · exact head c.db.error _
  · exact head _ _

/-- A loop that still runs after the answers: libpq was never busy, every query result
completed a request, and the sync flag is down once its result came. -/
def StillRuns (answers : List Answer) (c : Client) : Prop :=
  (drainResults answers c).1 = none ∧ answers.any Answer.isBusy = false ∧
    (drainResults answers c).2.db.count + queries answers = owed answers c ∧
    ((drainResults answers c).2.db.syncSent = true ↔
      c.db.syncSent = true ∧ answers.any Answer.isSync = false)

/-- One turn that takes a sync result. -/
private theorem account_sync (pg : PgResult) (reaction : List Submission) (rest : List Answer)
    (c : Client) (sync : pg.status = .pipelineSync)
    (ih : StillRuns rest c.takeSync ∨
      ((drainResults rest c.takeSync).1 ≠ none ∧ Settles rest c.takeSync)) :
    StillRuns (.result pg reaction :: rest) c ∨
      ((drainResults (.result pg reaction :: rest) c).1 ≠ none ∧
        Settles (.result pg reaction :: rest) c) := by
  have turn : drainResults (.result pg reaction :: rest) c = drainResults rest c.takeSync := by
    simp only [drainResults, sync, if_true, Client.takeSync]
  -- a marker counts for no request, on either side
  have same : owed (.result pg reaction :: rest) c = owed rest c.takeSync := by
    rw [owed, added, if_pos sync]
    rfl
  have down : c.takeSync.db.syncSent = false := rfl
  rcases ih with ⟨runs, busy, count, flag⟩ | ⟨stops, settles⟩
  · left
    refine ⟨by rw [turn, runs], by simpa [Answer.isBusy] using busy, ?_, ?_⟩
    · simpa [turn, same, queries, Answer.isQuery, sync] using count
    · simpa [turn, down, Answer.isSync, sync] using flag
  · right
    refine ⟨by rwa [turn], ?_⟩
    simp only [Settles, same, queries, List.countP_cons, List.any_cons, Answer.isBusy,
      Answer.isQuery, Answer.isSync, sync] at settles ⊢
    rcases settles with busy | more | ⟨enough, _⟩
    · exact Or.inl (by simpa using busy)
    · exact Or.inr (Or.inl (by simpa using more))
    · exact Or.inr (Or.inr ⟨by simpa using enough, by simp⟩)

/-- One turn that delivers a result to the request at the head. -/
private theorem account_query (pg : PgResult) (reaction : List Submission) (rest : List Answer)
    (c : Client) (query : pg.status ≠ .pipelineSync) (pending : c.db.count ≠ 0)
    (ih : ∀ c, StillRuns rest c ∨ ((drainResults rest c).1 ≠ none ∧ Settles rest c)) :
    StillRuns (.result pg reaction :: rest) c ∨
      ((drainResults (.result pg reaction :: rest) c).1 ≠ none ∧
        Settles (.result pg reaction :: rest) c) := by
  obtain ⟨next, isNext⟩ : ∃ next,
    next = deliver (c.emit (.took pg.status c.db.count)) pg reaction := ⟨_, rfl⟩
  have turn : drainResults (.result pg reaction :: rest) c = drainResults rest next := by
    simp only [drainResults, query, pending, if_false, isNext]
  obtain ⟨count, flag⟩ :=
    deliver_account (c.emit (.took pg.status c.db.count)) pg reaction pending
  rw [← isNext] at count flag
  -- what the callback accepts is owed already, the completed request no longer
  have oneMore : owed (.result pg reaction :: rest) c = owed rest next + 1 := by
    rw [admittedAtHead_emit] at count
    simp only [owed, added, if_neg query, if_neg pending, ← isNext]
    simp only [Client.emit] at count
    omega
  have counted : queries (.result pg reaction :: rest) = queries rest + 1 := by
    simp [queries, List.countP_cons, Answer.isQuery, query]
  have sameFlag : next.db.syncSent = c.db.syncSent := flag
  have notSync : (pg.status == .pipelineSync) = false := by simpa using query
  rcases ih next with ⟨runs, busy, total, down⟩ | ⟨stops, settles⟩
  · left
    refine ⟨by rw [turn, runs], by simpa [Answer.isBusy] using busy, ?_, ?_⟩
    · rw [turn, counted, oneMore]
      omega
    · simpa [turn, sameFlag, Answer.isSync, notSync] using down
  · right
    refine ⟨by rwa [turn], ?_⟩
    unfold Settles at settles ⊢
    rw [oneMore, counted]
    rcases settles with busy | more | ⟨enough, sync⟩
    · exact Or.inl (by simpa [Answer.isBusy] using busy)
    · exact Or.inr (Or.inl (by omega))
    · rw [sameFlag] at sync
      exact Or.inr (Or.inr
        ⟨by omega, fun sent => by simpa [Answer.isSync, notSync] using sync sent⟩)

theorem drainResults_account (answers : List Answer) (c : Client) :
    StillRuns answers c ∨ ((drainResults answers c).1 ≠ none ∧ Settles answers c) := by
  -- answer by answer; callbacks change the client, so for every client
  induction answers generalizing c with
  | nil => exact Or.inl (by simp [StillRuns, drainResults, queries, owed, added])
  | cons answer rest ih =>
    cases answer with
    | busy => exact Or.inr ⟨by simp [drainResults], Or.inl (by simp [Answer.isBusy])⟩
    | null =>
      -- a missing result is asked for again as long as anything is outstanding
      by_cases waits : (decide (c.db.count > 0) || c.db.syncSent) = true
      · have same : drainResults (.null :: rest) c = drainResults rest c := by
          rw [drainResults, if_pos waits]
        have owing : owed (.null :: rest) c = owed rest c := by
          rw [owed, added, if_pos waits]
          rfl
        simpa [StillRuns, Settles, owing, same, queries, Answer.isBusy, Answer.isQuery,
          Answer.isSync] using ih c
      · have stops : drainResults (.null :: rest) c = (some .ok, c) := by
          rw [drainResults, if_neg waits]
        have nothing : added (.null :: rest) c = 0 := by rw [added, if_neg waits]
        simp only [Bool.or_eq_true, decide_eq_true_eq, not_or, not_lt] at waits
        have nothing : owed (.null :: rest) c = 0 := by
          rw [owed, nothing]
          omega
        refine Or.inr ⟨by simp [stops], Or.inr ?_⟩
        rw [nothing]
        rcases Nat.eq_zero_or_pos (queries (.null :: rest)) with zero | positive
        · exact Or.inr ⟨zero.symm, fun sync => absurd sync waits.2⟩
        · exact Or.inl positive
    | result pg reaction =>
      by_cases sync : pg.status = .pipelineSync
      · exact account_sync pg reaction rest c sync (ih c.takeSync)
      · by_cases empty : c.db.count = 0
        · -- a result without a request ends the loop with an error
          have stops : (drainResults (.result pg reaction :: rest) c).1 = some .db := by
            simp [drainResults, sync, empty]
          have nothing : owed (.result pg reaction :: rest) c = 0 := by
            rw [owed, added, if_neg sync, if_pos empty, empty]
          refine Or.inr ⟨by simp [stops], Or.inr (Or.inl ?_)⟩
          rw [nothing]
          simp [queries, Answer.isQuery, sync]
        · exact account_query pg reaction rest c sync empty ih

/-! ### The loop on a connection that has gone quiet -/

theorem drainResults_append (first second : List Answer) (c : Client) :
    drainResults (first ++ second) c =
      match drainResults first c with
      | (none, after) => drainResults second after
      | stopped => stopped := by
  induction first generalizing c with
  | nil => rfl
  | cons answer rest ih =>
    cases answer with
    | busy => rfl
    | null =>
      simp only [List.cons_append, drainResults]
      split
      · exact ih c
      · rfl
    | result pg reaction =>
      simp only [List.cons_append, drainResults]
      split
      · exact ih _
      · split
        · rfl
        · exact ih _

/-- Missing results change nothing while something is outstanding. -/
theorem drainResults_null (n : Nat) (c : Client) (waits : 0 < c.db.count ∨ c.db.syncSent = true) :
    drainResults (List.replicate n .null) c = (none, c) := by
  induction n with
  | zero => rfl
  | succ n ih =>
    rw [List.replicate_succ, drainResults, if_pos (by simpa using waits)]
    exact ih

/-- For every client and every finite sequence of answers followed by missing results forever,
the loop returns exactly when the answers settle it. -/
theorem drainResults_returns_iff (answers : List Answer) (c : Client) :
    Returns answers c ↔ Settles answers c := by
  unfold Returns
  simp only [drainResults_append]
  rcases drainResults_account answers c with ⟨runs, busy, total, flag⟩ | ⟨stops, settles⟩
  · obtain ⟨after, isAfter⟩ : ∃ after, drainResults answers c = (none, after) :=
      ⟨_, Prod.ext runs rfl⟩
    rw [isAfter] at total flag
    simp only [isAfter]
    constructor
    · rintro ⟨n, returned⟩
      -- after the answers there is something left to wait for, or there is not
      by_cases waits : 0 < after.db.count ∨ after.db.syncSent = true
      · rw [drainResults_null n after waits] at returned
        exact absurd rfl returned
      · rw [not_or] at waits
        refine Or.inr (Or.inr ⟨by simp only at total; omega, fun sent => ?_⟩)
        by_contra missing
        exact waits.2 (flag.mpr ⟨sent, by simpa using missing⟩)
    · rintro (wasBusy | more | ⟨enough, sync⟩)
      · rw [busy] at wasBusy
        cases wasBusy
      · simp only at total
        omega
      · have empty : after.db.count = 0 := by simp only at total; omega
        have down : after.db.syncSent = false := by
          by_contra up
          obtain ⟨sent, missing⟩ := flag.mp (by simpa using up)
          rw [sync sent] at missing
          cases missing
        -- the next missing result finds nothing outstanding
        exact ⟨1, by simp [drainResults, empty, down]⟩
  · obtain ⟨status, isStatus⟩ := Option.ne_none_iff_exists'.mp stops
    refine ⟨fun _ => settles, fun _ => ⟨0, ?_⟩⟩
    rw [show drainResults answers c = (some status, _) from Prod.ext isStatus rfl]
    simp

/-- A lost connection: one request pending, never busy, no result ever. -/
theorem drainResults_spins :
    let c := (Runs.run Machine.step (Machine.start depthTwo)
      [.service false true (opened []), .submit (query 1 ⟨true, [], 0⟩)]).client
    c.db.count = 1 ∧ (∀ n, drainResults (List.replicate n .null) c = (none, c)) ∧
      ¬ Returns [] c := by
  intro c
  have one : c.db.count = 1 := by decide +kernel
  have spins (n : Nat) := drainResults_null n c (Or.inl (by omega))
  refine ⟨one, spins, ?_⟩
  rintro ⟨n, returned⟩
  exact returned (by rw [List.nil_append, spins n])

end AlphaPipeline.Postgres

import AlphaPipeline.Cache.Breaker

/-!
# Setting and reading a lockout

What one call of `alpha_redis_set_breaker_lockout` stores, and what a call of
`alpha_redis_is_breaker_locked` reports: against arbitrary replies, and against a server
that holds a lockout just set.
-/
namespace AlphaPipeline.RedisCache

open Interaction Interaction.Prog Redis

/-! ### The key of a scope -/

theorem length_lockoutPrefix : lockoutPrefix.length = 18 := by decide

section Keys

variable (printer : Printer) (scope : Text)

theorem breakerKey_cases :
    (∃ status, status ≠ .ok ∧ breakerKey printer scope = .error status) ∨
      ∃ key, breakerKey printer scope = .ok key := by
  simp only [breakerKey]
  split
  · exact Or.inl ⟨.invalidArg, by decide, rfl⟩
  · split
    · exact Or.inr ⟨_, rfl⟩
    · split
      · exact Or.inl ⟨.range, by decide, rfl⟩
      · exact Or.inr ⟨_, rfl⟩

/-- A text whose length is an `int` is printed, so the key of the scope is the only one used. -/
theorem breakerKey_printable (printable : scope.length + 18 ≤ intMax) (key : Text)
    (valid : breakerKey printer scope = .ok key) : key = lockoutPrefix ++ scope := by
  have length : (lockoutPrefix ++ scope).length ≤ intMax := by
    rw [List.length_append, length_lockoutPrefix]
    omega
  have prints := printer.ordinary keyCap _ (by decide) length
  simp only [breakerKey, Snprintf.written, prints] at valid
  split at valid
  · cases valid
  · simp only [Bool.false_eq_true, if_false] at valid
    split at valid
    · cases valid
    · cases valid
      rfl

/-- The length of a longer text is no `int`; what the buffer holds then is used as the key. -/
theorem breakerKey_overlong (overlong : intMax < scope.length + 18) :
    breakerKey printer scope = .ok (printer.left (lockoutPrefix ++ scope)) := by
  have length : intMax < (lockoutPrefix ++ scope).length := by
    rw [List.length_append, length_lockoutPrefix]
    omega
  have nonempty : scope ≠ [] := by
    rintro rfl
    exact absurd overlong (by decide)
  simp only [breakerKey, nonempty, if_false, Snprintf.written, printer.overlong keyCap _ length,
    if_true]

end Keys

/-! ### Reading the server -/

/-- A printed number passes `parse_epoch` when it is positive and fits 64 bits. -/
theorem parseEpoch_printDecimal (n : Int) :
    parseEpoch (printDecimal n) = if 0 < n ∧ n ≤ int64Max then some n else none :=
  parseEpoch_of_strtoll (strtoll_printDecimal n)

/-- The time read from a `TIME` that was answered is the server's, in whole seconds. -/
theorem serverTime_meet (turn : Turn) (store : Store) (serverNow : Int)
    (read : serverTimeOf (meet turn .time store).1 = .ok serverNow) :
    serverNow = turn.clock / 1000 ∧ 0 < serverNow := by
  unfold serverTimeOf at read
  split at read
  next seconds micros reply =>
    obtain ⟨answer, _⟩ := meet_reply turn store .time _ reply (by simp)
    simp only [exec, Reply.array.injEq, List.cons.injEq, Reply.string.injEq] at answer
    rw [← answer.1, cString_printDecimal, parseEpoch_printDecimal] at read
    split at read
    next epoch parsed =>
      split at parsed
      next range =>
        cases parsed
        cases read
        exact ⟨rfl, range.1⟩
      next => cases parsed
    next => cases read
  next => cases read

section OneClient

variable (printer : Printer) (turns : Nat → Turn)

theorem redisServerTime_run (s : Session) :
    run (serve turns) redisServerTime s =
      (serverTimeOf (meet (turns s.sent) .time s.store).1, ⟨s.store, s.sent + 1⟩) := by
  simp [redisServerTime]

/-- A `SET` answered with a plain OK has been applied; any other reply, when the command is
not applied behind the client's back, leaves the store alone. -/
theorem meet_setExat (turn : Turn) (store : Store) (key value : Text) (expiry : Int) :
    (replyIsOk (meet turn (.setExat key value expiry) store).1 = false ∧
      (turn.fate ≠ .unheard → (meet turn (.setExat key value expiry) store).2 = store)) ∨
    (replyIsOk (meet turn (.setExat key value expiry) store).1 = true ∧ turn.fate = .served ∧
      acceptsExpiry expiry = true ∧ (meet turn (.setExat key value expiry) store).2 =
        Function.update store key (some ⟨value, some (1000 * expiry)⟩)) := by
  unfold meet
  split
  next fate =>
    by_cases accepts : acceptsExpiry expiry = true
    · right
      simp only [exec, accepts, if_true]
      exact ⟨by decide, fate, trivial, trivial⟩
    · left
      simp only [exec, accepts, if_false, Bool.false_eq_true]
      exact ⟨rfl, fun _ => trivial⟩
  next => exact Or.inl ⟨rfl, fun _ => rfl⟩
  next => exact Or.inl ⟨rfl, fun _ => rfl⟩
  next fate => exact Or.inl ⟨rfl, fun heard => absurd fate heard⟩

/-- What a call that sets a lockout does: it fails, storing nothing unless a reply was lost
after the fact, or it stores the expiry under the scope's key, as text and as expiry, after
reading an earlier server time. -/
def SetsLockout (scope : Text) (expiry : Int) (s after : Session) (status : AlphaErr) : Prop :=
  (status ≠ .ok ∧ ((∀ i, (turns i).fate ≠ .unheard) → after.store = s.store)) ∨
  (status = .ok ∧ acceptsExpiry expiry = true ∧ after.sent = s.sent + 2 ∧
    0 < (turns s.sent).clock / 1000 ∧ (turns s.sent).clock / 1000 < expiry ∧
    ∃ key, breakerKey printer scope = .ok key ∧ after.store =
      Function.update s.store key (some ⟨printDecimal expiry, some (1000 * expiry)⟩))

theorem serverTimeOf_error (reply : Option Reply) (status : AlphaErr)
    (failed : serverTimeOf reply = .error status) : status = .io := by
  unfold serverTimeOf at failed
  split at failed
  · split at failed <;> cases failed
    rfl
  · cases failed
    rfl

theorem setBreakerLockout_run (redis : AlphaRedis) (scope : Text) (nowEpoch expiry : Int)
    (s after : Session) (status : AlphaErr)
    (returned : run (serve turns) (alphaRedisSetBreakerLockout printer (some redis) (some scope)
      nowEpoch expiry) s = (status, after)) :
    SetsLockout printer turns scope expiry s after status := by
  simp only [alphaRedisSetBreakerLockout] at returned
  split at returned
  · cases returned
    exact Or.inl ⟨by decide, fun _ => rfl⟩
  · rcases breakerKey_cases printer scope with ⟨err, bad, refused⟩ | ⟨key, valid⟩
    · rw [refused] at returned
      cases returned
      exact Or.inl ⟨bad, fun _ => rfl⟩
    · rw [valid] at returned
      simp only [run_bind, redisServerTime_run] at returned
      split at returned
      next err failed =>
        cases returned
        rw [serverTimeOf_error _ _ failed]
        exact Or.inl ⟨by decide, fun _ => rfl⟩
      next serverNow read =>
        -- the expiry is compared with the time the server gave, not the caller
        have time := serverTime_meet _ _ _ read
        split at returned
        · cases returned
          exact Or.inl ⟨by decide, fun _ => rfl⟩
        next later =>
          simp only [run_bind, run_ask, run_pure, serve] at returned
          cases returned
          -- only a plain OK makes the call succeed
          rcases meet_setExat (turns (s.sent + 1)) s.store key (printDecimal expiry)
            expiry with ⟨reply, kept⟩ | ⟨reply, _, accepts, stored⟩
          · exact Or.inl ⟨by simp [reply], fun applied => kept (applied _)⟩
          · exact Or.inr ⟨by simp [reply], accepts, rfl, by omega, by omega, key, valid, stored⟩

end OneClient

/-! ### Reading against arbitrary replies -/

/-- A read that does not report a lock was told by `GET` that there is none, and a read that
fails reports a lock. -/
def FailsClosed (getReply : Option Reply) (probe : Probe) : Prop :=
  (probe.locked = some false → probe.status = .ok ∧ getReply = some .nil) ∧
  (probe.status = .io → probe.locked = some true)

/-- `GET` was answered, with nothing or with a stored string. -/
def GetAnswered (reply : Option Reply) : Prop :=
  reply = some .nil ∨ ∃ bytes, reply = some (.string bytes)

section Replies

variable (printer : Printer) (replies : Nat → Command → Option Reply)

/-- After `GET` has answered with a string, `locked` is true on every path. -/
private theorem isBreakerLocked_string (redis : AlphaRedis) (scope key : Text) (before : Bool)
    (expiresAtOut : Option Int) (valid : breakerKey printer scope = .ok key) (bytes : Text)
    (stored : replies 0 (.get key) = some (.string bytes)) :
    (run (scripted replies) (alphaRedisIsBreakerLocked printer (some redis) (some scope)
      (some before) expiresAtOut) 0).1.locked = some true := by
  simp only [alphaRedisIsBreakerLocked, valid, run_bind, run_ask, scripted_eq, stored]
  split
  · rfl
  · simp only [run_bind, redisServerTime, run_ask, scripted_eq, run_pure]
    split
    next => rfl
    next => simp only [run_bind, run_ask, run_pure, lockedProbe_locked]

/-- A read of a valid scope fails closed exactly when the flag was true before the call or
`GET` was answered: the paths of a lost or unexpected reply to `GET` do not write the flag. -/
theorem isBreakerLocked_failsClosed_iff (redis : AlphaRedis) (scope key : Text) (before : Bool)
    (expiresAtOut : Option Int) (valid : breakerKey printer scope = .ok key) :
    FailsClosed (replies 0 (.get key)) (run (scripted replies) (alphaRedisIsBreakerLocked printer
      (some redis) (some scope) (some before) expiresAtOut) 0).1 ↔
    before = true ∨ GetAnswered (replies 0 (.get key)) := by
  by_cases stored : ∃ bytes, replies 0 (.get key) = some (.string bytes)
  · obtain ⟨bytes, stored⟩ := stored
    have locked := isBreakerLocked_string printer replies redis scope key before expiresAtOut valid
      bytes stored
    refine ⟨fun _ => Or.inr (Or.inr ⟨bytes, stored⟩), fun _ => ⟨?_, fun _ => locked⟩⟩
    rw [locked]
    simp
  · simp only [alphaRedisIsBreakerLocked, valid, run_bind, run_ask, scripted_eq]
    split
    next lost => cases before <;> simp [FailsClosed, GetAnswered, lost]
    next absent => simp [FailsClosed, GetAnswered, absent]
    next bytes found => exact absurd ⟨bytes, found⟩ stored
    next reply notNil notString found =>
      have unanswered : ¬ GetAnswered (some reply) := by
        rintro (isNil | ⟨bytes, isString⟩)
        · exact notNil (Option.some.inj isNil)
        · exact notString bytes (Option.some.inj isString)
      cases before <;> simp [FailsClosed, found, unanswered]

end Replies

/-- An unreachable server and a caller whose flag starts false: the call fails, and the flag
still says unlocked. -/
theorem isBreakerLocked_lost_get :
    breakerKey fillingPrinter "paper".toList = .ok (lockoutPrefix ++ "paper".toList) ∧
    (run (scripted fun _ _ => none) (alphaRedisIsBreakerLocked fillingPrinter (some ⟨0⟩)
      (some "paper".toList) (some false) none) 0).1 = ⟨.io, some false, none⟩ ∧
    ¬ FailsClosed none (run (scripted fun _ _ => none) (alphaRedisIsBreakerLocked fillingPrinter
      (some ⟨0⟩) (some "paper".toList) (some false) none) 0).1 := by
  refine ⟨by decide, by decide, ?_⟩
  rintro ⟨_, failed⟩
  exact absurd (failed (by decide)) (by decide)

theorem isBreakerLocked_failsClosed_flag_set :
    FailsClosed none (run (scripted fun _ _ => none) (alphaRedisIsBreakerLocked fillingPrinter
      (some ⟨0⟩) (some "paper".toList) (some true) none) 0).1 :=
  (isBreakerLocked_failsClosed_iff fillingPrinter (fun _ _ => none) ⟨0⟩ "paper".toList
    (lockoutPrefix ++ "paper".toList) true none (by decide)).mpr (Or.inl rfl)

/-! ### Reading a lockout just set -/

section AfterSet

variable (printer : Printer) (turns : Nat → Turn)

/-- While the key is alive `GET` finds the stored text, which parses back. -/
private theorem get_lockout (key : Text) (store : Store) (expiry now : Int)
    (alive : now < 1000 * expiry)
    (stored : store key = some ⟨printDecimal expiry, some (1000 * expiry)⟩) :
    (exec now store (.get key)).1 = .string (printDecimal expiry) := by
  simp [exec, store.find_expiring now key _ _ stored, alive]

/-- `TTL` rounds the remaining time to whole seconds, and is negative once the key is gone. -/
private theorem ttl_lockout (key : Text) (store : Store) (expiry now : Int)
    (stored : store key = some ⟨printDecimal expiry, some (1000 * expiry)⟩) :
    (exec now store (.ttl key)).1 = .integer (if now < 1000 * expiry then
      (1000 * expiry - now + 500) / 1000 else -2) := by
  by_cases alive : now < 1000 * expiry <;>
    simp [exec, store.find_expiring now key _ _ stored, alive, ttlAnswer]

private theorem serverTimeOf_served (turn : Turn) (store : Store) (served : turn.fate = .served) :
    serverTimeOf (meet turn .time store).1 =
      if 0 < turn.clock / 1000 ∧ turn.clock / 1000 ≤ int64Max then .ok (turn.clock / 1000)
      else .error .io := by
  simp only [meet, served, exec, serverTimeOf, cString_printDecimal, parseEpoch_printDecimal]
  -- the second is printed by the server and parsed back
  split <;> rename_i parsed <;> split at parsed <;> simp_all

/-- The three readings agree exactly when at least half a second is left and the server second
that was read is at most a second and a half old. -/
private theorem consistentTtl_iff (expiry time ttlTime : Int) (forward : time ≤ ttlTime) :
    consistentTtl expiry (time / 1000) (some (.integer (if ttlTime < 1000 * expiry then
      (1000 * expiry - ttlTime + 500) / 1000 else -2))) = true ↔
    500 ≤ 1000 * expiry - ttlTime ∧ ttlTime - 1000 * (time / 1000) ≤ 1500 := by
  simp only [consistentTtl, Bool.not_eq_true', Bool.or_eq_false_iff, decide_eq_false_iff_not]
  split <;> omega

/-- The read, once `GET` has found the stored expiry. -/
private theorem isBreakerLocked_read (redis : AlphaRedis) (scope key : Text) (expiry : Int)
    (s : Session) (valid : breakerKey printer scope = .ok key)
    (stored : s.store key = some ⟨printDecimal expiry, some (1000 * expiry)⟩)
    (positive : 0 < expiry) (fits : expiry ≤ int64Max)
    (served : ∀ i, s.sent ≤ i → (turns i).fate = .served)
    (alive : (turns s.sent).clock < 1000 * expiry)
    (started : 0 < (turns (s.sent + 1)).clock / 1000)
    (forward : (turns (s.sent + 1)).clock ≤ (turns (s.sent + 2)).clock)
    (before : Bool) (expiresAtOut : Option Int) :
    (run (serve turns) (alphaRedisIsBreakerLocked printer (some redis) (some scope) (some before)
      expiresAtOut) s).1 =
    lockedProbe (decide (500 ≤ 1000 * expiry - (turns (s.sent + 2)).clock ∧
      (turns (s.sent + 2)).clock - 1000 * ((turns (s.sent + 1)).clock / 1000) ≤ 1500))
      expiry expiresAtOut := by
  have found : (meet (turns s.sent) (.get key) s.store).1 =
      some (.string (printDecimal expiry)) := by
    simp only [meet, served s.sent le_rfl, get_lockout _ _ _ _ alive stored]
  have parsed : parseEpoch (cString (printDecimal expiry)) = some expiry := by
    rw [cString_printDecimal, parseEpoch_printDecimal, if_pos ⟨positive, fits⟩]
  have left : (meet (turns (s.sent + 2)) (.ttl key) s.store).1 =
      some (.integer (if (turns (s.sent + 2)).clock < 1000 * expiry then
        (1000 * expiry - (turns (s.sent + 2)).clock + 500) / 1000 else -2)) := by
    simp only [meet, served (s.sent + 2) (by omega), ttl_lockout _ _ _ _ stored]
  simp only [alphaRedisIsBreakerLocked, valid, run_bind, run_ask, serve_reply, serve_get, found,
    parsed, redisServerTime_run]
  rw [serverTimeOf_served _ _ (served (s.sent + 1) (by omega))]
  by_cases representable : (turns (s.sent + 1)).clock / 1000 ≤ int64Max
  · rw [if_pos ⟨started, representable⟩]
    simp only [run_bind, run_ask, run_pure, serve_reply, left]
    congr 1
    rw [Bool.eq_iff_iff, consistentTtl_iff _ _ _ forward, decide_eq_true_iff]
  · -- a server second past 64 bits cannot be read, and is past every expiry
    have expired : ¬ 500 ≤ 1000 * expiry - (turns (s.sent + 2)).clock := by omega
    rw [if_neg fun range => representable range.2]
    simp only [run_pure, expired, false_and, decide_false, lockedProbe]
    rfl

/-- A read of a lockout that was just set, at server times `t₀ ≤ t₁ ≤ t₂` of its `GET`, `TIME`
and `TTL` with `t₀` before the expiry, always reports the lock; it confirms it, with the stored
expiry, exactly when half a second is left at `t₂` and the second read at `t₁` is at most a
second and a half old. -/
theorem isBreakerLocked_after_set (writer reader : AlphaRedis) (scope : Text)
    (nowEpoch expiry : Int) (store : Store) (forward : Monotone fun i => (turns i).clock)
    (after : Session)
    (set : run (serve turns) (alphaRedisSetBreakerLockout printer (some writer) (some scope)
      nowEpoch expiry) ⟨store, 0⟩ = (.ok, after))
    (served : ∀ i, 2 ≤ i → (turns i).fate = .served)
    (alive : (turns 2).clock < 1000 * expiry) (before : Bool) (expiresAtOut : Option Int) :
    (run (serve turns) (alphaRedisIsBreakerLocked printer (some reader) (some scope) (some before)
      expiresAtOut) after).1 =
    if 500 ≤ 1000 * expiry - (turns 4).clock ∧
        (turns 4).clock - 1000 * ((turns 3).clock / 1000) ≤ 1500 then
      ⟨.ok, some true, expiresAtOut.map fun _ => expiry⟩
    else ⟨.io, some true, expiresAtOut⟩ := by
  rcases setBreakerLockout_run printer turns writer scope nowEpoch expiry _ after .ok set with
    ⟨failed, _⟩ | ⟨_, accepts, sent, started, _, key, valid, stored⟩
  · exact absurd rfl failed
  · simp only [acceptsExpiry, decide_eq_true_eq] at accepts
    -- the set used turns 0 and 1, so the read uses 2, 3 and 4
    have sentTwo : after.sent = 2 := sent
    have running : 0 < (turns 3).clock / 1000 := by
      have clock : (turns 0).clock ≤ (turns 3).clock := forward (by omega)
      simp only at started
      omega
    rw [isBreakerLocked_read printer turns reader scope key expiry after valid
      (by rw [stored]; simp) accepts.1 (by unfold int64Max at *; omega)
      (fun i later => served i (by omega))
      (by rw [sentTwo]; exact alive) (by rw [sentTwo]; exact running)
      (forward (by omega)) before expiresAtOut, sentTwo]
    simp only [lockedProbe, decide_eq_true_eq]

end AfterSet

theorem isBreakerLocked_after_set_in_time :
    let turns : Nat → Turn := fun i => ⟨1798700000000 + 300 * i, .served⟩
    let after := (run (serve turns) (alphaRedisSetBreakerLockout fillingPrinter (some ⟨0⟩)
      (some "paper".toList) 1798700000 1798700002) ⟨fun _ => none, 0⟩).2
    (run (serve turns) (alphaRedisIsBreakerLocked fillingPrinter (some ⟨1⟩) (some "paper".toList)
      (some false) (some 0)) after).1 = ⟨.ok, some true, some 1798700002⟩ := by
  intro turns after
  have set : run (serve turns) (alphaRedisSetBreakerLockout fillingPrinter (some ⟨0⟩)
      (some "paper".toList) 1798700000 1798700002) ⟨fun _ => none, 0⟩ = (.ok, after) :=
    Prod.ext (by decide) rfl
  have forward : Monotone fun i => (turns i).clock := by
    intro i j le
    simp only [turns]
    omega
  exact isBreakerLocked_after_set fillingPrinter turns ⟨0⟩ ⟨1⟩ "paper".toList 1798700000 1798700002
    (fun _ => none) forward after set (fun _ _ => rfl) (by decide) false (some 0)

end AlphaPipeline.RedisCache

import AlphaPipeline.Library.Interaction
import AlphaPipeline.Calendar.MarketHours
import AlphaPipeline.Cache.RedisServer
import AlphaPipeline.Cache.HolidayCalendar

/-!
# The breaker lockout

The lockout functions of `redis_cache.c` as programs over Redis commands. A pointer that
may be `NULL` is an `Option`; an out-parameter is passed in with the value it held before
the call and returned with the value it holds after.
-/
namespace AlphaPipeline.RedisCache

open Interaction Interaction.Prog Redis MarketHours

/-- A computation that sends Redis commands; a lost reply is `none`. -/
abbrev Client := Prog Command (Option Reply)

/-- `alpha_redis_t`: the connection the commands go through. -/
structure AlphaRedis where
  ctx : Nat
  deriving DecidableEq, Repr

/-- `KEY_CAP`. -/
def keyCap : Nat := 96

def lockoutPrefix : Text := "hard_stop:lockout:".toList

/-- `breaker_key`. A negative result of `snprintf` passes the check, and the key is what the buffer
holds then. -/
def breakerKey (printer : Printer) (scope : Text) : Except AlphaErr Text :=
  if scope = [] then .error .invalidArg
  else
    let text := lockoutPrefix ++ scope
    match printer.written keyCap text with
    | none => .ok (printer.left text)
    | some written => if written ≥ keyCap then .error .range else .ok text

/-- A platform whose failing `snprintf` fills the buffer up to the terminator. -/
def fillingPrinter : Printer := { plainSnprintf with left := fun text => text.take (keyCap - 1) }

/-- `parse_epoch`. -/
def parseEpoch (text : Text) : Option Int :=
  let parsed := strtoll text
  if parsed.erange || !parsed.converted || parsed.rest != [] || decide (parsed.value ≤ 0) then none
  else some parsed.value

/-- A text that is converted as a whole passes when its number is positive and fits. -/
theorem parseEpoch_of_strtoll {text : Text} {n : Int} (converted : strtoll text = saturate n []) :
    parseEpoch text = if 0 < n ∧ n ≤ int64Max then some n else none := by
  simp only [parseEpoch, converted, saturate]
  unfold int64Max
  grind

/-- `redis_server_time`, on the reply to `TIME`. -/
def serverTimeOf : Option Reply → Except AlphaErr Int
  | some (.array [.string seconds, _]) =>
    match parseEpoch (cString seconds) with
    | some epoch => .ok epoch
    | none => .error .io
  | _ => .error .io

def redisServerTime : Client (Except AlphaErr Int) := do
  let reply ← ask .time
  return serverTimeOf reply

def holidaysKey (year : Int) : Text := "krx:holidays:".toList ++ printDecimal year

/-- `load_calendar`. -/
def loadCalendar (year : Int) : Client (Except AlphaErr (List Int)) := do
  let key := holidaysKey year
  if key.length ≥ keyCap then return .error .range
  match ← ask (.get key) with
  | some (.string bytes) =>
    match parseHolidayJson (cString bytes) year with
    | some days =>
      match ← ask (.ttl key) with
      | some (.integer ttl) => return if ttl > 0 then .ok days else .error .io
      | _ => return .error .io
    | none => return .error .io
  | _ => return .error .io

/-- `reply_is_ok`. -/
def replyIsOk : Option Reply → Bool
  | some (.status text) => cString text == statusOk
  | _ => false

/-- `alpha_redis_set_breaker_lockout`. -/
def alphaRedisSetBreakerLockout (printer : Printer) (redis : Option AlphaRedis)
    (scope : Option Text) (nowEpoch expiresAtEpoch : Int) : Client AlphaErr :=
  match redis, scope with
  | some _, some scope =>
    -- never set a lockout that is already expired
    if expiresAtEpoch ≤ nowEpoch then return .invalidArg
    else
      match breakerKey printer scope with
      | .error status => return status
      | .ok key => do
        match ← redisServerTime with
        | .error status => return status
        | .ok serverNow =>
          if expiresAtEpoch ≤ serverNow then return .invalidArg
          let reply ← ask (.setExat key (printDecimal expiresAtEpoch) expiresAtEpoch)
          return if replyIsOk reply then .ok else .io
  | _, _ => return .invalidArg

/-- The session after `nowEpoch`, from the calendar of its year and, when that one does not
reach far enough, the next year's appended to it. -/
def nextSessionExpiry (nowEpoch : Int) : Client (Except AlphaErr Int) := do
  let kstDay := (nowEpoch + kstOffsetSeconds).tdiv secondsPerDay
  let year := civilYearFromDays kstDay
  match ← loadCalendar year with
  | .error status => return .error status
  | .ok holidays =>
    let expiry := alphaNextTradingSessionStartHolidayAware nowEpoch holidays
      (daysFromCivil year 12 31)
    if expiry ≠ calendarInsufficient then return .ok expiry
    match ← loadCalendar (year + 1) with
    | .error _ => return .error .io
    | .ok nextHolidays =>
      if holidays.length + nextHolidays.length > maxHolidays then return .error .io
      return .ok (alphaNextTradingSessionStartHolidayAware nowEpoch (holidays ++ nextHolidays)
        (daysFromCivil (year + 1) 12 31))

/-- `alpha_redis_set_breaker_lockout_next_session`; returns the status and what
`expires_at_out` points at. -/
def alphaRedisSetBreakerLockoutNextSession (printer : Printer) (redis : Option AlphaRedis)
    (scope : Option Text) (nowEpoch : Int) (expiresAtOut : Option Int) :
    Client (AlphaErr × Option Int) :=
  match redis, scope with
  | some redis, some scope => do
    match ← redisServerTime with
    | .error status => return (status, expiresAtOut)
    | .ok serverNow =>
      -- reject materially stale or future caller timestamps
      if nowEpoch < serverNow - 5 ∨ nowEpoch > serverNow + 5 then
        return (.invalidArg, expiresAtOut)
      match ← nextSessionExpiry nowEpoch with
      | .error status => return (status, expiresAtOut)
      | .ok expiry =>
        if expiry = calendarInsufficient ∨ expiry ≤ serverNow then return (.io, expiresAtOut)
        let status ← alphaRedisSetBreakerLockout printer (some redis) (some scope) nowEpoch expiry
        return (status, if status = .ok then expiresAtOut.map fun _ => expiry else expiresAtOut)
  | _, _ => return (.invalidArg, expiresAtOut)

/-- What `alpha_redis_is_breaker_locked` returns and leaves in its out-parameters. -/
structure Probe where
  status : AlphaErr
  locked : Option Bool
  expiresAtOut : Option Int
  deriving DecidableEq, Repr

/-- The stored expiry agrees with the key's remaining seconds at the server time. -/
def consistentTtl (expiry serverNow : Int) : Option Reply → Bool
  | some (.integer ttl) =>
    !(decide (ttl ≤ 0) || decide (expiry ≤ serverNow) || decide (expiry - serverNow < ttl) ||
      decide (expiry - serverNow > ttl + 1))
  | _ => false

/-- The report on a stored lockout whose value and server time could be read. -/
def lockedProbe (consistent : Bool) (expiry : Int) (expiresAtOut : Option Int) : Probe :=
  if consistent then ⟨.ok, some true, expiresAtOut.map fun _ => expiry⟩
  else ⟨.io, some true, expiresAtOut⟩

@[simp] theorem lockedProbe_locked (consistent : Bool) (expiry : Int) (expiresAtOut : Option Int) :
    (lockedProbe consistent expiry expiresAtOut).locked = some true := by
  cases consistent <;> rfl

/-- `alpha_redis_is_breaker_locked`. A lost reply to `GET`, or one that is neither nil nor a
string, leaves `locked` as it was. -/
def alphaRedisIsBreakerLocked (printer : Printer) (redis : Option AlphaRedis) (scope : Option Text)
    (locked : Option Bool) (expiresAtOut : Option Int) : Client Probe :=
  match redis, scope, locked with
  | some _, some scope, some before =>
    match breakerKey printer scope with
    | .error status => return ⟨status, some before, expiresAtOut⟩
    | .ok key => do
      match ← ask (.get key) with
      | none => return ⟨.io, some before, expiresAtOut⟩
      | some .nil => return ⟨.ok, some false, expiresAtOut⟩
      | some (.string bytes) =>
        match parseEpoch (cString bytes) with
        | none => return ⟨.io, some true, expiresAtOut⟩
        | some expiry =>
          match ← redisServerTime with
          | .error _ => return ⟨.io, some true, expiresAtOut⟩
          | .ok serverNow =>
            let reply ← ask (.ttl key)
            return lockedProbe (consistentTtl expiry serverNow reply) expiry expiresAtOut
      | some _ => return ⟨.io, some before, expiresAtOut⟩
  | _, _, _ => return ⟨.invalidArg, locked, expiresAtOut⟩

/-- `alpha_redis_clear_breaker_lockout`. -/
def alphaRedisClearBreakerLockout (printer : Printer) (redis : Option AlphaRedis)
    (scope : Option Text) : Client AlphaErr :=
  match redis, scope with
  | some _, some scope =>
    match breakerKey printer scope with
    | .error status => return status
    | .ok key => do
      match ← ask (.del key) with
      | none => return .io
      | some _ => return .ok
  | _, _ => return .invalidArg

end AlphaPipeline.RedisCache

import AlphaPipeline.Cache.Breaker
import AlphaPipeline.Cache.RedisAsync
import AlphaPipeline.MarketData.InstrumentId

/-!
# The latest tick

The key of a ticker is built twice: `redis_cache.c` prints it into 96 bytes, and `redis_async.c`
copies it into 256. Where both accept a ticker, the same command goes to the server, and a tick
written through one path is read through the other.
-/
namespace AlphaPipeline.LatestTick

open Interaction Interaction.Prog Redis RedisCache MarketData

/-- The words of a command, as hiredis sends them. -/
abbrev Words := List Text

/-- `ALPHA_TTL_LATEST_TICKS`. -/
def ttlLatestTicks : Int := 60

def tickPrefix : Text := "redis:cache:latest_ticks:".toList

def setWords (key payload : Text) : Words :=
  ["SET".toList, key, payload, "EX".toList, printDecimal ttlLatestTicks]

def getWords (key : Text) : Words := ["GET".toList, key]

/-! ### The synchronous path -/

/-- The key that is printed. A negative result of `snprintf` passes the check; `left` is what
the buffer holds then. -/
def printedKey (snprintf : Snprintf) (left ticker : Text) : Except AlphaErr Text :=
  let text := tickPrefix ++ ticker
  match snprintf.written keyCap text with
  | none => .ok left
  | some written => if written ≥ keyCap then .error .range else .ok text

/-- `alpha_redis_set_latest_tick`. -/
def alphaRedisSetLatestTick (snprintf : Snprintf) (left : Text) (redis : Option AlphaRedis)
    (ticker payload : Option Text) : Prog Words (Option Reply) AlphaErr :=
  match redis, ticker, payload with
  | some _, some ticker, some payload =>
    match printedKey snprintf left ticker with
    | .error status => return status
    | .ok key => do
      let reply ← ask (setWords key payload)
      return if replyIsOk reply then .ok else .io
  | _, _, _ => return .invalidArg

/-- What `alpha_redis_get_latest_tick` returns and leaves in its out-parameters, where it writes
them. -/
structure TickRead where
  status : AlphaErr
  hasValue : Option Bool
  out : Option Text
  deriving DecidableEq

/-- `alpha_redis_get_latest_tick`; `out` and `hasValue` say whether the pointers are given. -/
def alphaRedisGetLatestTick (snprintf : Snprintf) (left : Text) (redis : Option AlphaRedis)
    (ticker : Option Text) (out : Bool) (n : Nat) (hasValue : Bool) :
    Prog Words (Option Reply) TickRead :=
  match redis, ticker with
  | some _, some ticker =>
    if !out || !hasValue || n == 0 then return ⟨.invalidArg, none, none⟩
    else
      match printedKey snprintf left ticker with
      | .error status => return ⟨status, none, none⟩
      | .ok key => do
        match ← ask (getWords key) with
        | some .nil => return ⟨.ok, some false, none⟩
        | some (.string bytes) =>
          let len := if bytes.length ≥ n then n - 1 else bytes.length
          return ⟨.ok, some true, some (bytes.take len)⟩
        | _ => return ⟨.io, none, none⟩
  | _, _ => return ⟨.invalidArg, none, none⟩

/-! ### The asynchronous path -/

/-- `latest_key`; the size of the prefix counts its terminator. -/
def latestKey (ticker : Option Text) (capacity : Nat) : Except AlphaErr Text :=
  match ticker with
  | none => .error .invalidArg
  | some ticker =>
    if ticker = [] then .error .invalidArg
    else if ticker.length > (capacity + 2 ^ 64 - (tickPrefix.length + 1)) % 2 ^ 64 then
      .error .range
    else .ok (tickPrefix ++ ticker)

/-- The words that `alpha_redis_async_command` is called with, if it is, and what it does. -/
structure AsyncCall where
  words : Option Words
  status : AlphaErr
  world : RedisAsync.World

/-- `alpha_redis_async_set_latest_tick`. -/
def alphaRedisAsyncSetLatestTick (w : RedisAsync.World) (ticker jsonPayload : Option Text)
    (userData : Nat) (accepted : Bool) : AsyncCall :=
  match latestKey ticker 256 with
  | .error status => ⟨none, status, w⟩
  | .ok key =>
    match jsonPayload with
    | none => ⟨none, .invalidArg, w⟩
    | some payload =>
      let answer := RedisAsync.alphaRedisAsyncCommand w 5 true userData accepted
      ⟨some (setWords key payload), answer.1, answer.2⟩

/-- `alpha_redis_async_get_latest_tick`. -/
def alphaRedisAsyncGetLatestTick (w : RedisAsync.World) (ticker : Option Text) (userData : Nat)
    (accepted : Bool) : AsyncCall :=
  match latestKey ticker 256 with
  | .error status => ⟨none, status, w⟩
  | .ok key =>
    let answer := RedisAsync.alphaRedisAsyncCommand w 2 true userData accepted
    ⟨some (getWords key), answer.1, answer.2⟩

/-! ### The four calls -/

inductive Path where
  | set
  | get
  | asyncSet
  | asyncGet
  deriving DecidableEq

/-- The other arguments of the calls, all of them valid, and the platform they run on. -/
structure Calls where
  snprintf : Snprintf
  left : Text
  redis : AlphaRedis
  payload : Text
  n : Nat
  room : 0 < n
  world : RedisAsync.World
  userData : Nat
  accepted : Bool

/-- The command that a call makes of a ticker; a ticker that is not accepted makes none. -/
def Calls.words (calls : Calls) (ticker : Text) : Path → Option Words
  | .set => (alphaRedisSetLatestTick calls.snprintf calls.left (some calls.redis) (some ticker)
      (some calls.payload)).first
  | .get => (alphaRedisGetLatestTick calls.snprintf calls.left (some calls.redis) (some ticker) true
      calls.n true).first
  | .asyncSet => (alphaRedisAsyncSetLatestTick calls.world (some ticker) (some calls.payload)
      calls.userData calls.accepted).words
  | .asyncGet => (alphaRedisAsyncGetLatestTick calls.world (some ticker) calls.userData
      calls.accepted).words

def Calls.Accepts (calls : Calls) (ticker : Text) (path : Path) : Prop :=
  (calls.words ticker path).isSome

/-- The key is the second word of both commands. -/
def Calls.key (calls : Calls) (ticker : Text) (path : Path) : Option Text :=
  (calls.words ticker path).bind fun words => words[1]?

/-- The four calls accept a ticker together, under the key that the contract gives it. -/
def Calls.Agree (calls : Calls) (ticker : Text) : Prop :=
  (∀ path path', calls.Accepts ticker path ↔ calls.Accepts ticker path') ∧
    ∀ path key, calls.key ticker path = some key → key = tickPrefix ++ ticker

/-! ### The keys -/

theorem length_tickPrefix : tickPrefix.length = 25 := by decide

section Keys

variable {ticker : Text}

/-- What both paths make of a ticker: the key of each, or its refusal. -/
theorem printedKey_eq (snprintf : Snprintf) (left : Text)
    (printable : ticker.length + 25 ≤ intMax) :
    printedKey snprintf left ticker =
      if ticker.length ≤ 70 then .ok (tickPrefix ++ ticker) else .error .range := by
  have length : (tickPrefix ++ ticker).length = ticker.length + 25 := by
    rw [List.length_append, length_tickPrefix, Nat.add_comm]
  have prints := snprintf.ordinary keyCap _ (by decide) (length ▸ printable)
  rw [printedKey, Snprintf.written, prints, length]
  by_cases short : ticker.length ≤ 70
  · rw [if_pos short]
    exact if_neg (by unfold keyCap; omega)
  · rw [if_neg short]
    exact if_pos (by unfold keyCap; omega)

/-- A text that is too long for the result of `snprintf` passes the check. -/
theorem printedKey_overlong (snprintf : Snprintf) (left : Text)
    (overlong : intMax < ticker.length + 25) : printedKey snprintf left ticker = .ok left := by
  have length : (tickPrefix ++ ticker).length = ticker.length + 25 := by
    rw [List.length_append, length_tickPrefix, Nat.add_comm]
  have fails := snprintf.overlong keyCap _ (length ▸ overlong)
  rw [printedKey, Snprintf.written, fails]
  rfl

theorem latestKey_eq (ticker : Text) :
    latestKey (some ticker) 256 =
      if ticker = [] then .error .invalidArg
      else if 230 < ticker.length then .error .range
      else .ok (tickPrefix ++ ticker) := by
  rw [latestKey, length_tickPrefix]
  rfl

end Keys

/-! ### The commands -/

/-- The key that a call builds. -/
def Calls.builtKey (calls : Calls) (ticker : Text) : Path → Except AlphaErr Text
  | .set | .get => printedKey calls.snprintf calls.left ticker
  | .asyncSet | .asyncGet => latestKey (some ticker) 256

/-- The command of a call under a key. -/
def Calls.command (calls : Calls) (key : Text) : Path → Words
  | .set | .asyncSet => setWords key calls.payload
  | .get | .asyncGet => getWords key

section Commands

variable {calls : Calls} {ticker key : Text} {path : Path}

/-- A call sends its command under the key it builds, and nothing if it builds none. -/
theorem Calls.words_eq (calls : Calls) (ticker : Text) (path : Path) :
    calls.words ticker path =
      (calls.builtKey ticker path).toOption.map fun key => calls.command key path := by
  have room : (calls.n == 0) = false := beq_false_of_ne calls.room.ne'
  cases path with
  | set =>
    rw [Calls.words, alphaRedisSetLatestTick, Calls.builtKey]
    cases printedKey calls.snprintf calls.left ticker <;> rfl
  | get =>
    rw [Calls.words, alphaRedisGetLatestTick, Calls.builtKey, room]
    cases printedKey calls.snprintf calls.left ticker <;> rfl
  | asyncSet =>
    rw [Calls.words, alphaRedisAsyncSetLatestTick, Calls.builtKey]
    cases latestKey (some ticker) 256 <;> rfl
  | asyncGet =>
    rw [Calls.words, alphaRedisAsyncGetLatestTick, Calls.builtKey]
    cases latestKey (some ticker) 256 <;> rfl

theorem Calls.key_eq (calls : Calls) (ticker : Text) (path : Path) :
    calls.key ticker path = (calls.builtKey ticker path).toOption := by
  rw [Calls.key, calls.words_eq]
  cases calls.builtKey ticker path with
  | error status => rfl
  | ok key => cases path <;> rfl

theorem Calls.accepts_iff (calls : Calls) (ticker : Text) (path : Path) :
    calls.Accepts ticker path ↔ (calls.builtKey ticker path).toOption.isSome := by
  rw [Calls.Accepts, calls.words_eq, Option.isSome_map]

theorem Calls.accepts_set (calls : Calls) (printable : ticker.length + 25 ≤ intMax) :
    calls.Accepts ticker .set ↔ ticker.length ≤ 70 := by
  rw [calls.accepts_iff, Calls.builtKey, printedKey_eq _ _ printable]
  split <;> simp_all [Except.toOption]

theorem Calls.accepts_get (calls : Calls) (ticker : Text) :
    calls.Accepts ticker .get ↔ calls.Accepts ticker .set := by
  rw [calls.accepts_iff, calls.accepts_iff]
  rfl

theorem Calls.accepts_asyncSet (calls : Calls) (ticker : Text) :
    calls.Accepts ticker .asyncSet ↔ ticker ≠ [] ∧ ticker.length ≤ 230 := by
  rw [calls.accepts_iff, Calls.builtKey, latestKey_eq]
  split
  · simp_all [Except.toOption]
  · split <;> simp_all [Except.toOption]

theorem Calls.accepts_asyncGet (calls : Calls) (ticker : Text) :
    calls.Accepts ticker .asyncGet ↔ calls.Accepts ticker .asyncSet := by
  rw [calls.accepts_iff, calls.accepts_iff]
  rfl

/-- A key that is built of a ticker that can be printed is whole. -/
theorem Calls.key_whole (printable : ticker.length + 25 ≤ intMax)
    (built : calls.key ticker path = some key) : key = tickPrefix ++ ticker := by
  rw [calls.key_eq] at built
  cases path with
  | set | get =>
    rw [Calls.builtKey, printedKey_eq _ _ printable] at built
    split at built
    · exact (Option.some.inj built).symm
    · cases built
  | asyncSet | asyncGet =>
    rw [Calls.builtKey, latestKey_eq] at built
    split at built
    · cases built
    · split at built
      · cases built
      · exact (Option.some.inj built).symm

/-- The two paths agree on a ticker if their keys are accepted together. -/
theorem Calls.agree_of_accepts (printable : ticker.length + 25 ≤ intMax)
    (same : calls.Accepts ticker .set ↔ calls.Accepts ticker .asyncSet) : calls.Agree ticker := by
  have one (path : Path) : calls.Accepts ticker path ↔ calls.Accepts ticker .set := by
    cases path with
    | set => exact Iff.rfl
    | get => exact calls.accepts_get ticker
    | asyncSet => exact same.symm
    | asyncGet => exact (calls.accepts_asyncGet ticker).trans same.symm
  exact ⟨fun path path' => (one path).trans (one path').symm, fun _ _ => Calls.key_whole printable⟩

/-- A key that is built of a ticker too long to print is not refused by the synchronous path. -/
theorem Calls.accepts_overlong (calls : Calls) (overlong : intMax < ticker.length + 25) :
    calls.Accepts ticker .set ∧ ¬calls.Accepts ticker .asyncSet := by
  refine ⟨?_, ?_⟩
  · rw [calls.accepts_iff, Calls.builtKey, printedKey_overlong _ _ overlong]
    rfl
  · rw [calls.accepts_asyncSet]
    unfold intMax at overlong
    omega

end Commands

/-- The synchronous and the asynchronous path accept a ticker together, under the key of the
contract, exactly if it is not empty and not of 71 to 230 bytes and can be printed. Tickers that
can be printed have different keys, whichever paths build them. -/
theorem latestTick_paths_agree_iff (calls : Calls) (ticker : Text) :
    (calls.Agree ticker ↔
      ticker ≠ [] ∧ (ticker.length ≤ 70 ∨ 230 < ticker.length) ∧ ticker.length + 25 ≤ intMax) ∧
    ∀ other path path' key, ticker.length + 25 ≤ intMax → other.length + 25 ≤ intMax →
      calls.key ticker path = some key → calls.key other path' = some key →
        ticker = other ∧ key = tickPrefix ++ ticker := by
  refine ⟨⟨fun agree => ?_, fun ⟨nonempty, size, printable⟩ => ?_⟩, ?_⟩
  · rcases Nat.lt_or_ge intMax (ticker.length + 25) with overlong | printable
    · obtain ⟨accepted, refused⟩ := calls.accepts_overlong overlong
      exact absurd ((agree.1 .set .asyncSet).mp accepted) refused
    · have same := agree.1 .set .asyncSet
      rw [calls.accepts_set printable, calls.accepts_asyncSet] at same
      have nonempty : ticker ≠ [] := by
        rintro rfl
        exact (same.mp (Nat.zero_le _)).1 rfl
      refine ⟨nonempty, ?_, printable⟩
      rcases Nat.lt_or_ge 230 ticker.length with long | short
      · exact Or.inr long
      · exact Or.inl (same.mpr ⟨nonempty, short⟩)
  · apply Calls.agree_of_accepts printable
    rw [calls.accepts_set printable, calls.accepts_asyncSet]
    constructor
    · exact fun short => ⟨nonempty, by omega⟩
    · rintro ⟨_, short⟩
      omega
  · intro other path path' key printable printable' built built'
    have whole := Calls.key_whole printable built
    have whole' := Calls.key_whole printable' built'
    exact ⟨List.append_cancel_left (whole.symm.trans whole'), whole⟩

theorem idle_room : 0 < 8 := by decide

/-- Calls without a connection, where `snprintf` fails on nothing it can print. -/
def idleCalls : Calls where
  snprintf := plainSnprintf
  left := []
  redis := ⟨0⟩
  payload := ['1']
  n := 8
  room := idle_room
  world := ⟨⟨none, [], 0, .none, 0⟩, fun _ => ⟨.freed, -1, []⟩, 0, [], false⟩
  userData := 0
  accepted := false

theorem latestTick_paths_agree_samsung : idleCalls.Agree "005930".toList :=
  (latestTick_paths_agree_iff idleCalls "005930".toList).1.mpr (by decide)

/-- A ticker of 71 bytes is accepted by the asynchronous path only, and the empty one by the
synchronous path only. -/
theorem latestTick_paths_disagree :
    ¬idleCalls.Agree (List.replicate 71 'A') ∧ ¬idleCalls.Agree [] := by
  constructor
  · intro agree
    have accepted := (idleCalls.accepts_asyncSet (List.replicate 71 'A')).mpr (by decide)
    have short := (idleCalls.accepts_set (by decide)).mp ((agree.1 .asyncSet .set).mp accepted)
    exact absurd short (by decide)
  · intro agree
    have accepted : idleCalls.Accepts [] .set :=
      (idleCalls.accepts_set (by decide)).mpr (Nat.zero_le _)
    have nonempty := (idleCalls.accepts_asyncSet []).mp ((agree.1 .set .asyncSet).mp accepted)
    exact nonempty.1 rfl

/-! ### The server -/

/-- The two commands at the server, which reads their words. -/
def execWords (now : Int) (store : Store) : Words → Reply × Store
  | [verb, key] =>
    if verb = "GET".toList then exec now store (.get key)
    else (.error "ERR unknown command".toList, store)
  | [verb, key, value, option, seconds] =>
    if verb = "SET".toList ∧ option = "EX".toList ∧ 0 < (strtoll seconds).value then
      (.status statusOk, Function.update store key
        (some ⟨value, some (now + 1000 * (strtoll seconds).value)⟩))
    else (.error "ERR syntax error".toList, store)
  | _ => (.error "ERR unknown command".toList, store)

theorem execWords_setWords (now : Int) (store : Store) (key payload : Text) :
    execWords now store (setWords key payload) =
      (.status statusOk, Function.update store key (some ⟨payload, some (now + 60000)⟩)) := by
  have seconds : (strtoll (printDecimal ttlLatestTicks)).value = 60 := by decide
  rw [setWords, execWords, seconds]
  rfl

theorem execWords_getWords {later expiry : Int} {store : Store} {key value : Text}
    (stored : store key = some ⟨value, some expiry⟩) (alive : later < expiry) :
    (execWords later store (getWords key)).1 = .string value := by
  have found := store.find_expiring later key value expiry stored
  rw [if_pos alive] at found
  change (exec later store (.get key)).1 = _
  rw [exec, found]

/-- A tick that one path writes is what the other path reads for a minute, where both accept its
ticker. -/
theorem tick_read_back {calls : Calls} {ticker : Text} (printable : ticker.length + 25 ≤ intMax)
    {path path' : Path} (sets : path = .set ∨ path = .asyncSet)
    (gets : path' = .get ∨ path' = .asyncGet) {written read : Words}
    (writes : calls.words ticker path = some written) (reads : calls.words ticker path' = some read)
    {now later : Int} (soon : later < now + 60000) (store : Store) :
    (execWords later (execWords now store written).2 read).1 = .string calls.payload := by
  have whole {path : Path} {words : Words} (sent : calls.words ticker path = some words) :
      words = calls.command (tickPrefix ++ ticker) path := by
    rw [calls.words_eq] at sent
    obtain ⟨key, built, rfl⟩ := Option.map_eq_some_iff.mp sent
    rw [Calls.key_whole printable ((calls.key_eq ticker path).trans built)]
  have writes' : written = setWords (tickPrefix ++ ticker) calls.payload := by
    rw [whole writes]
    rcases sets with rfl | rfl <;> rfl
  have reads' : read = getWords (tickPrefix ++ ticker) := by
    rw [whole reads]
    rcases gets with rfl | rfl <;> rfl
  rw [writes', reads', execWords_setWords]
  exact execWords_getWords (Function.update_self _ _ _) soon

end AlphaPipeline.LatestTick

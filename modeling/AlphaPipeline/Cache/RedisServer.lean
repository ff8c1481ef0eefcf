import AlphaPipeline.CRuntime

/-!
# The Redis server

The commands the drivers send, executed atomically at a server time in milliseconds.
An entry is visible strictly before its expiry. A command meets one of four fates: it is
served, its reply is lost, it is refused, or it is executed and only the reply is lost.
-/
namespace AlphaPipeline.Redis

/-- A hiredis reply, by its type. -/
inductive Reply where
  | nil
  | string (bytes : Text)
  | status (text : Text)
  | error (text : Text)
  | integer (value : Int)
  | array (elements : List Reply)
  | other (type : Nat)

inductive Command where
  | time
  | get (key : Text)
  | ttl (key : Text)
  | setExat (key value : Text) (expiry : Int)
  | del (key : Text)
  deriving DecidableEq, Repr

/-- A value and the millisecond it expires at, if it does. -/
structure Entry where
  value : Text
  expireAt : Option Int
  deriving DecidableEq, Repr

abbrev Store := Text → Option Entry

def Entry.alive (entry : Entry) (now : Int) : Bool :=
  match entry.expireAt with
  | none => true
  | some expiry => decide (now < expiry)

/-- The entry a command at `now` finds. -/
def Store.find (store : Store) (now : Int) (key : Text) : Option Entry :=
  (store key).filter fun entry => entry.alive now

theorem Store.find_expiring (store : Store) (now : Int) (key value : Text) (expiry : Int)
    (stored : store key = some ⟨value, some expiry⟩) :
    store.find now key = if now < expiry then some ⟨value, some expiry⟩ else none := by
  by_cases alive : now < expiry <;> simp [Store.find, stored, Option.filter, Entry.alive, alive]

/-- The answer to `TTL`: seconds left, rounded to the nearest; -1 without expiry, -2 without key. -/
def ttlAnswer (now : Int) : Option Entry → Int
  | none => -2
  | some entry =>
    match entry.expireAt with
    | none => -1
    | some expiry => (expiry - now + 500) / 1000

def statusOk : Text := "OK".toList

/-- Expiries are kept in 64-bit milliseconds; `SET` refuses one that is not positive or
does not fit. -/
def acceptsExpiry (expiry : Int) : Bool := decide (0 < expiry ∧ expiry ≤ int64Max / 1000)

def exec (now : Int) (store : Store) : Command → Reply × Store
  | .time => (.array [.string (printDecimal (now / 1000)),
      .string (printDecimal (now % 1000 * 1000))], store)
  | .get key =>
    match store.find now key with
    | none => (.nil, store)
    | some entry => (.string entry.value, store)
  | .ttl key => (.integer (ttlAnswer now (store.find now key)), store)
  | .setExat key value expiry =>
    if acceptsExpiry expiry then
      (.status statusOk, Function.update store key (some ⟨value, some (1000 * expiry)⟩))
    else (.error "ERR invalid expire time".toList, store)
  | .del key =>
    (.integer (if (store.find now key).isSome then 1 else 0), Function.update store key none)

/-- What becomes of a command on its way to the server and back. -/
inductive Fate where
  | served
  | lost
  | refused (text : Text)
  | unheard
  deriving DecidableEq, Repr

/-- The command reached the server. -/
def Fate.executes : Fate → Bool
  | .served | .unheard => true
  | .lost | .refused _ => false

/-- The server time a command meets, and its fate. -/
structure Turn where
  clock : Int
  fate : Fate
  deriving DecidableEq, Repr

/-- The reply the client sees (none when it is lost) and the store afterwards. -/
def meet (turn : Turn) (c : Command) (store : Store) : Option Reply × Store :=
  match turn.fate with
  | .served => (some (exec turn.clock store c).1, (exec turn.clock store c).2)
  | .lost => (none, store)
  | .refused text => (some (.error text), store)
  | .unheard => (none, (exec turn.clock store c).2)

theorem meet_store (turn : Turn) (c : Command) (store : Store) :
    (meet turn c store).2 = if turn.fate.executes then (exec turn.clock store c).2 else store := by
  unfold meet
  split <;> simp_all [Fate.executes]

/-- A client's view of the server: the store and how many commands it has sent. -/
structure Session where
  store : Store
  sent : Nat

/-- One client alone, its commands meeting the given turns in order. -/
def serve (turns : Nat → Turn) (c : Command) (s : Session) : Option Reply × Session :=
  ((meet (turns s.sent) c s.store).1, ⟨(meet (turns s.sent) c s.store).2, s.sent + 1⟩)

/-- Only `SET` and `DEL` write. -/
def Command.reads : Command → Bool
  | .time | .get _ | .ttl _ => true
  | .setExat .. | .del _ => false

theorem exec_reads (now : Int) (store : Store) (c : Command) (reads : c.reads = true) :
    (exec now store c).2 = store := by
  cases c with
  | time => rfl
  | get key => simp only [exec]; split <;> rfl
  | ttl key => rfl
  | setExat key value expiry => simp [Command.reads] at reads
  | del key => simp [Command.reads] at reads

theorem meet_reads (turn : Turn) (store : Store) (c : Command) (reads : c.reads = true) :
    (meet turn c store).2 = store := by
  unfold meet
  split <;> first | rfl | exact exec_reads _ _ _ reads

theorem serve_reads (turns : Nat → Turn) (c : Command) (s : Session)
    (reads : c.reads = true) : (serve turns c s).2 = ⟨s.store, s.sent + 1⟩ := by
  rw [serve, meet_reads _ _ _ reads]

@[simp] theorem serve_time (turns : Nat → Turn) (s : Session) :
    (serve turns .time s).2 = ⟨s.store, s.sent + 1⟩ := serve_reads _ _ _ rfl

@[simp] theorem serve_get (turns : Nat → Turn) (key : Text) (s : Session) :
    (serve turns (.get key) s).2 = ⟨s.store, s.sent + 1⟩ := serve_reads _ _ _ rfl

@[simp] theorem serve_ttl (turns : Nat → Turn) (key : Text) (s : Session) :
    (serve turns (.ttl key) s).2 = ⟨s.store, s.sent + 1⟩ := serve_reads _ _ _ rfl

@[simp] theorem serve_reply (turns : Nat → Turn) (c : Command) (s : Session) :
    (serve turns c s).1 = (meet (turns s.sent) c s.store).1 := rfl

/-- A reply that is neither lost nor an error comes from executing the command. -/
theorem meet_reply (turn : Turn) (store : Store) (c : Command) (reply : Reply)
    (answered : (meet turn c store).1 = some reply) (sound : ∀ text, reply ≠ .error text) :
    (exec turn.clock store c).1 = reply ∧ turn.fate = .served := by
  unfold meet at answered
  split at answered
  next fate => exact ⟨Option.some.inj answered, fate⟩
  · cases answered
  next text fate => exact absurd (Option.some.inj answered).symm (sound text)
  · cases answered

end AlphaPipeline.Redis

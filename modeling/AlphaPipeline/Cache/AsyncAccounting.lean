import AlphaPipeline.Cache.AsyncContext

/-!
# The commands in flight

The adapter counts the commands that hiredis took and has not called back. The owner can
check the count against what it has seen: the commands answered with `ALPHA_OK` and the
replies, which come in the order of the commands, also across reconnects, because a context
is drained before the owner can start the next one.
-/
namespace AlphaPipeline.RedisAsync

open Redis

/-! ### What the owner sees -/

def Effect.acceptedData : Effect → Option Nat
  | .answered .ok userData _ => some userData
  | _ => none

def Effect.repliedData : Effect → Option Nat
  | .replyFn _ _ _ userData => some userData
  | _ => none

/-- The user data of the accepted commands, in order. -/
def accepted (log : List Effect) : List Nat := log.filterMap Effect.acceptedData

/-- The user data `reply_fn` was called with, in order. -/
def replies (log : List Effect) : List Nat := log.filterMap Effect.repliedData

/-- Whether a disconnect counts as reported after one more entry of the log. -/
def reportedAfter (last : Bool) : Effect → Bool
  | .disconnected => true
  | .started => false
  | _ => last

/-- A disconnect was reported, and no connection has been started since. -/
def disconnectReported (log : List Effect) : Bool := log.foldl reportedAfter false

/-- The accounts of an adapter that has touched no freed context. `observed` is about the count
the owner was shown with an answer, which may have been inside a callback. -/
structure Accounted (w : World) : Prop where
  defined : w.fault = false
  pending : w.redis.pending + (replies w.log).length = (accepted w.log).length
  bounded : w.redis.pending ≤ maxPending
  ownData : ∀ seen, seen <+: w.log → replies seen <+: accepted seen
  observed : ∀ seen status userData shown, seen ++ [.answered status userData shown] <+: w.log →
    shown + (replies seen).length =
      (accepted (seen ++ [.answered status userData shown])).length ∧
    shown ≤ maxPending ∧ (disconnectReported seen = true → shown = 0)
  idle : disconnectReported w.log = true → w.redis.pending = 0
  refused : ∀ argc valid userData taken,
    (alphaRedisAsyncCommand w argc valid userData taken).1 ≠ .ok →
    (alphaRedisAsyncCommand w argc valid userData taken).2.redis.pending = w.redis.pending

/-! ### The accounts as a monitor -/

/-- The user data of the commands in flight, oldest first, and whether a disconnect was
reported. -/
structure Account where
  inFlight : List Nat
  down : Bool
  deriving DecidableEq

def Account.opening : Account := ⟨[], false⟩

/-- One more entry of the log. -/
def Account.enter (account : Account) : Effect → Option Account
  | .answered status userData shown =>
    let inFlight := if status = .ok then account.inFlight ++ [userData] else account.inFlight
    if shown = inFlight.length ∧ shown ≤ maxPending ∧ (account.down = true → shown = 0) then
      some { account with inFlight }
    else none
  | .replyFn _ _ _ userData =>
    match account.inFlight with
    | [] => none
    | oldest :: rest => if oldest = userData then some { account with inFlight := rest } else none
  | .disconnected => if account.inFlight = [] then some { account with down := true } else none
  | .started => some { account with down := false }
  | _ => some account

/-- What the accounts say after a log. -/
def Audited (log : List Effect) (account : Account) : Prop :=
  Runs.watch Account.enter .opening log = some account

/-- What hiredis has queued for the adapter's context. -/
def queued (w : World) : List Nat :=
  match w.redis.context with
  | some id => (w.contexts id).queue
  | none => []

/-- The adapter agrees with the accounts. `owed` are the commands of a context being torn down
whose callbacks are still to be run. -/
structure Balanced (owed : List Nat) (account : Account) (w : World) : Prop where
  audited : Audited w.log account
  flights : account.inFlight = owed ++ queued w
  pending : w.redis.pending = account.inFlight.length
  bounded : w.redis.pending ≤ maxPending
  known : ∀ id, w.redis.context = some id → id < w.fresh
  drained : ∀ id, w.redis.context = some id → w.phase id = .closing ∨ w.phase id = .freed →
    (w.contexts id).queue = []
  down : account.down = true → account.inFlight = [] ∧ w.redis.context = none

/-- Nothing that the accounts are about changes. -/
structure Silent (w after : World) : Prop where
  audit : ∀ account, Audited w.log account → Audited after.log account
  pending : after.redis.pending = w.redis.pending
  context : after.redis.context = w.redis.context
  contexts : after.contexts = w.contexts
  fresh : after.fresh = w.fresh

theorem Silent.refl (w : World) : Silent w w := ⟨fun _ audited => audited, rfl, rfl, rfl, rfl⟩

theorem Silent.trans {first second third : World} (left : Silent first second)
    (right : Silent second third) : Silent first third where
  audit account audited := right.audit account (left.audit account audited)
  pending := right.pending.trans left.pending
  context := right.context.trans left.context
  contexts := right.contexts.trans left.contexts
  fresh := right.fresh.trans left.fresh

theorem Silent.foldl {α : Type} (step : World → α → World) (silent : ∀ w a, Silent w (step w a))
    (list : List α) (w : World) : Silent w (list.foldl step w) := by
  induction list generalizing w with
  | nil => exact .refl w
  | cons first rest ih => exact (silent w first).trans (ih _)

theorem Silent.queued {w after : World} (silent : Silent w after) :
    queued after = RedisAsync.queued w := by
  rw [RedisAsync.queued, RedisAsync.queued, silent.context, silent.contexts]

theorem Silent.balanced {w after : World} (silent : Silent w after) {owed : List Nat}
    {account : Account} (balanced : Balanced owed account w) : Balanced owed account after := by
  obtain ⟨audited, flights, pending, bounded, known, drained, down⟩ := balanced
  refine ⟨silent.audit account audited, by rw [silent.queued, flights], ?_, ?_, ?_, ?_, ?_⟩
  · rw [silent.pending, pending]
  · rw [silent.pending]
    exact bounded
  · rw [silent.context, silent.fresh]
    exact known
  · simp only [World.phase, silent.context, silent.contexts]
    exact drained
  · rw [silent.context]
    exact down

/-- The adapter agrees with some accounts. -/
def Balance (owed : List Nat) (w : World) : Prop := ∃ account, Balanced owed account w

section Perform

variable {w : World} {id : Nat} (here : w.redis.context = some id)
include here

end Perform

/-- `alpha_redis_async_close`, called outside any callback, up to the `free` of the adapter:
hiredis runs the callbacks of the commands in flight, and the disconnect callback if the
context was connected. -/
def alphaRedisAsyncClose (w : World) (nulls : List (List Request)) (hooks : List WatchOp)
    (reaction : List Request) : World :=
  match w.redis.context with
  | none => w
  | some id =>
    match w.phase id with
    | .freed => { w with fault := true }
    | .connected =>
      (disconnected (teardown w id nulls hooks) (w.contexts id).fd reaction).setPhase id .freed
    | _ => (teardown w id nulls hooks).setPhase id .freed

/-- A step of the owner; nothing follows a close. -/
inductive Move where
  | call (call : Call)
  | close (nulls : List (List Request)) (hooks : List WatchOp) (reaction : List Request)

/-- The adapter as its owner holds it. -/
structure Adapter where
  world : World
  closed : Bool

def Adapter.step (adapter : Adapter) (move : Move) : Adapter :=
  if adapter.closed || adapter.world.fault then adapter
  else
    match move with
    | .call call => { adapter with world := adapter.world.step call }
    | .close nulls hooks reaction =>
      ⟨alphaRedisAsyncClose adapter.world nulls hooks reaction, true⟩

/-- A connection attempt that failed is one whose context was touched after it was freed. -/
private def FailureFaults (w : World) : Prop := w.fault = true ↔ .connected false ∈ w.log

/-- While the adapter is open its states are those of the runs without a close. -/
private def Sound (adapter : Adapter) : Prop :=
  Balance [] adapter.world ∧ FailureFaults adapter.world ∧
    (adapter.closed = false → Settled adapter.world)

end AlphaPipeline.RedisAsync

import AlphaPipeline.Bench.Workers
import AlphaPipeline.Cache.RedisServer

/-!
# The Redis case

All workers write and read one key, and check one lockout that nobody sets. The server takes their
commands in any order; each meets the clock of the server, and may be lost or refused.

Of Redis it is assumed that it executes a command at once and as a whole, that it evicts nothing
before it expires, and that an error reply leaves its keys as they were; of the clients, that they
send a command once and never take the reply of another one for its own.
-/
namespace AlphaPipeline.Bench.HotPath

open Interaction (Prog together)
open Redis (Reply Store Entry Fate statusOk ttlAnswer)

/-! ### The server -/

/-- The commands of both adapters. -/
inductive Command where
  | setEx (key value : Text) (seconds : Int)
  | get (key : Text)
  | exist (key : Text)
  | ttl (key : Text)
  | del (keys : List Text)
  | ping
  | info

/-- What Redis does with a command at a time. The text of `INFO` is left out: only the version in
it is used, which is printed. -/
def exec (now : Int) (store : Store) : Command → Reply × Store
  | .setEx key value seconds =>
    if 0 < seconds then
      (.status statusOk, Function.update store key (some ⟨value, some (now + 1000 * seconds)⟩))
    else (.error "ERR invalid expire time in 'set' command".toList, store)
  | .get key =>
    match store.find now key with
    | none => (.nil, store)
    | some entry => (.string entry.value, store)
  | .exist key => (.integer (if (store.find now key).isSome then 1 else 0), store)
  | .ttl key => (.integer (ttlAnswer now (store.find now key)), store)
  | .del keys =>
    (.integer (keys.dedup.countP fun key => (store.find now key).isSome),
      fun key => if key ∈ keys then none else store key)
  | .ping => (.status "PONG".toList, store)
  | .info => (.string [], store)

/-- The reply the client sees and the store afterwards. Of a command without a reply it is not
known whether it came to the server; one that is refused changes nothing. -/
def meet (turn : Redis.Turn) (c : Command) (store : Store) : Option Reply × Store :=
  match turn.fate with
  | .served => (some (exec turn.clock store c).1, (exec turn.clock store c).2)
  | .lost => (none, store)
  | .refused text => (some (.error text), store)
  | .unheard => (none, (exec turn.clock store c).2)

/-- The client gets no reply, or an error. -/
def unserved (turn : Redis.Turn) : Bool := turn.fate ≠ .served

/-- One client alone, its commands meeting the given turns in order. -/
def serial (c : Command) (s : List Redis.Turn × Store) :
    Option Reply × (List Redis.Turn × Store) :=
  match s.1 with
  | [] => (none, s)
  | turn :: rest => ((meet turn c s.2).1, rest, (meet turn c s.2).2)

/-! ### The adapters -/

/-- What an operation of the fixture asks for. -/
inductive Op where
  | setLatestTick (value : Text)
  | getLatestTick (expected : Option Text)
  | breakerCheck (expected : Bool)
  | other
  deriving DecidableEq

/-- `tick_key` and `breaker_key`. -/
structure Keys where
  tick : Text
  breaker : Text

/-- The keys of a namespace, by the first digits of its checksum. -/
def keysOf (suffix : Text) : Keys :=
  ⟨"redis:cache:latest_ticks:M2".toList ++ suffix, "hard_stop:lockout:mvp2-".toList ++ suffix⟩

/-- The clients raise an error for a reply that is missing or one. -/
def readDone : Option Reply → Option Unit
  | none | some (.error _) => none
  | some _ => some ()

def readText : Option Reply → Option (Option Text)
  | some .nil => some none
  | some (.string value) => some (some value)
  | _ => none

def readInteger : Option Reply → Option Int
  | some (.integer value) => some value
  | _ => none

/-- How both adapters perform an operation; they differ in what they make of one they do not
know. -/
def perform (unknown : Answer) (keys : Keys) (elapsed : Nat) :
    Op → Prog Command (Option Reply) Answer
  | .setLatestTick value => do
    let reply ← Prog.ask (.setEx keys.tick value 60)
    pure (settle elapsed ((readDone reply).map fun _ => true))
  | .getLatestTick expected => do
    let reply ← Prog.ask (.get keys.tick)
    pure (settle elapsed ((readText reply).map fun actual => actual = expected))
  | .breakerCheck expected => do
    let reply ← Prog.ask (.exist keys.breaker)
    pure (settle elapsed ((readInteger reply).map fun locked => decide (locked ≠ 0) = expected))
  | .other => pure unknown

/-- What a case of the fixture says, with what its operations ask for. -/
structure Case where
  config : CaseConfig
  ops : List Op
  paired : ops.length = config.operations.length

/-- The operation at a place, timed. -/
def Case.performs (case : Case) (unknown : Nat → Answer) (keys : Keys) (timer : Nat → Nat → Nat)
    (iteration place : Nat) : Prog Command (Option Reply) Answer :=
  match case.ops[place]? with
  | some op => perform (unknown (timer iteration place)) keys (timer iteration place) op
  | none => pure .failed

/-- Before the workers: both keys are deleted, and the server is asked for what follows. -/
def prologue (keys : Keys) : List Command → Prog Command (Option Reply) (Option Unit) :=
  fun greetings => .reading readDone (.del [keys.tick, keys.breaker]) fun _ => greet greetings
where
  greet : List Command → Prog Command (Option Reply) (Option Unit)
    | [] => pure (some ())
    | c :: rest => .reading readDone c fun _ => greet rest

/-- What the Rust adapter asks for before its workers. -/
def rustGreetings : List Command := [.ping]

/-- The Python adapter also asks for the version of the server. -/
def pythonGreetings : List Command := [.ping, .info]

/-- `terminal`: what the keys hold in the end. -/
structure Terminal where
  stored : Option Text
  ttlPositive : Bool
  locked : Bool
  deriving DecidableEq

/-- After the workers. -/
def epilogue (keys : Keys) : Prog Command (Option Reply) (Option Terminal) :=
  .reading readText (.get keys.tick) fun stored =>
    .reading readInteger (.ttl keys.tick) fun ttl =>
      .reading readInteger (.exist keys.breaker) fun locked =>
        pure (some ⟨stored, 0 < ttl, locked ≠ 0⟩)

/-- What the commands of a case meet: before the workers, those of the workers by the order in which
they are served, and after them. -/
structure Service where
  before : List Redis.Turn
  during : List (Nat × Redis.Turn)
  after : List Redis.Turn

/-- A case of either adapter. -/
def redisCase (keys : Keys) (greetings : List Command) (service : Service)
    (workers : List (Prog Command (Option Reply) (List Completion × Nat)))
    (collect : List (List Completion × Nat) → Option CaseRun) (store : Store) :
    Option (CaseRun × Terminal) := do
  let opened := (prologue keys greetings).run serial (service.before, store)
  let _ ← opened.1
  let (outs, last) ← together meet service.during workers opened.2.2
  let terminal ← ((epilogue keys).run serial (service.after, last)).1
  let out ← collect outs
  some (out, terminal)

/-- `redis_case` of the Rust adapter, which refuses an operation it does not know. -/
def rustRedisCase (case : Case) (concurrency : Nat) (keys : Keys) (timer : Nat → Nat → Nat)
    (service : Service) : Store → Option (CaseRun × Terminal) :=
  redisCase keys rustGreetings service
    (workersOn (rustValuesOn (case.performs (fun _ => .failed) keys timer) case.config.operations)
      (rustRanges (distribute case.config.repeats.toNat concurrency)))
    fun outs => some (rustCollect outs)

/-- `redis_case` of the Python adapter, which skips an operation it does not know. -/
def pythonRedisCase (case : Case) (concurrency : Nat) (keys : Keys) (timer : Nat → Nat → Nat)
    (service : Service) (appends : List Nat) : Store → Option (CaseRun × Terminal) :=
  redisCase keys pythonGreetings service
    (workersOn (pythonValuesOn (case.performs .expected keys timer) case.config.operations)
      (pythonRanges (distribute case.config.repeats.toNat concurrency) concurrency))
    (pythonCollect appends)

/-! ### One value under one key -/

def Op.sets : Op → Bool
  | .setLatestTick _ => true
  | _ => false

/-- A worker only reads what it has written before in the iteration, all write the same, and no
lockout is expected. -/
def Case.consistent (case : Case) (value : Text) : Bool :=
  case.ops.zipIdx.all fun (op, place) =>
    match op with
    | .setLatestTick written => written = value
    | .getLatestTick expected => expected = some value ∧ (case.ops.take place).any Op.sets
    | .breakerCheck expected => !expected
    | .other => false

/-- The value is stored and lives until the deadline. -/
def Ready (keys : Keys) (value : Text) (deadline : Int) (store : Store) : Prop :=
  ∃ expiry, store keys.tick = some ⟨value, some expiry⟩ ∧ deadline ≤ expiry

/-- What holds before the operation at a place. -/
def facts (case : Case) (keys : Keys) (value : Text) (deadline : Int) (place : Nat)
    (store : Store) : Prop :=
  store keys.breaker = none ∧
    ((case.ops.take place).any Op.sets = true → Ready keys value deadline store)

/-- The minute before the deadline. -/
def Timely (deadline : Int) (turn : Redis.Turn) : Prop :=
  deadline - 60000 ≤ turn.clock ∧ turn.clock < deadline

variable {case : Case} {keys : Keys} {value : Text} {deadline : Int} {store : Store}
  {turn : Redis.Turn}

theorem length_keysOf (suffix : Text) :
    (keysOf suffix).tick.length = 27 + suffix.length ∧
      (keysOf suffix).breaker.length = 23 + suffix.length := by
  constructor
  · exact List.length_append
  · exact List.length_append

theorem keysOf_ne (suffix : Text) : (keysOf suffix).tick ≠ (keysOf suffix).breaker := by
  intro same
  obtain ⟨tick, breaker⟩ := length_keysOf suffix
  rw [same] at tick
  omega

theorem facts_mono {earlier place : Nat} (before : earlier ≤ place)
    (holds : facts case keys value deadline place store) :
    facts case keys value deadline earlier store := by
  refine ⟨holds.1, fun written => holds.2 ?_⟩
  obtain ⟨op, member, sets⟩ := List.any_eq_true.mp written
  exact List.any_eq_true.mpr ⟨op, (List.take_sublist_take_left before).subset member, sets⟩

/-- Writing the value keeps the lockout away and leaves the value there for the minute. -/
theorem exec_set (distinct : keys.tick ≠ keys.breaker) (timely : Timely deadline turn)
    (clear : store keys.breaker = none) (place : Nat) :
    facts case keys value deadline place
      (exec turn.clock store (.setEx keys.tick value 60)).2 := by
  refine ⟨?_, fun _ => ⟨turn.clock + 1000 * 60, ?_, ?_⟩⟩
  · exact (Function.update_of_ne (Ne.symm distinct) ..).trans clear
  · exact Function.update_self ..
  · have late := timely.1
    omega

theorem meet_set_keeps (distinct : keys.tick ≠ keys.breaker) (timely : Timely deadline turn) :
    Keeps (facts case keys value deadline) store
      (meet turn (.setEx keys.tick value 60) store).2 := by
  intro place holds
  unfold meet
  split
  · exact exec_set distinct timely holds.1 place
  · exact holds
  · exact holds
  · exact exec_set distinct timely holds.1 place

theorem exec_get_store (now : Int) (key : Text) : (exec now store (.get key)).2 = store := by
  rw [exec]
  split <;> rfl

theorem meet_get_store (key : Text) : (meet turn (.get key) store).2 = store := by
  unfold meet
  split <;> first | rfl | exact exec_get_store turn.clock key

theorem meet_exist_store (key : Text) : (meet turn (.exist key) store).2 = store := by
  unfold meet
  split <;> rfl

theorem find_ready {now : Int} (ready : Ready keys value deadline store) (early : now < deadline) :
    ∃ expiry, store.find now keys.tick = some ⟨value, some expiry⟩ ∧ deadline ≤ expiry := by
  obtain ⟨expiry, stored, lives⟩ := ready
  refine ⟨expiry, ?_, lives⟩
  rw [Store.find_expiring store now keys.tick value expiry stored, if_pos (by omega)]

theorem find_clear {now : Int} (clear : store keys.breaker = none) :
    store.find now keys.breaker = none := by
  rw [Store.find, clear]
  rfl

/-! ### Operations -/

theorem meet_served (served : unserved turn = false) (c : Command) :
    meet turn c store = (some (exec turn.clock store c).1, (exec turn.clock store c).2) := by
  have fate : turn.fate = .served := by simpa [unserved] using served
  rw [meet, fate]

/-- A command that is not served is an error for whoever reads its reply. -/
theorem meet_unserved {α : Type} {read : Option Reply → Option α} (fails : read none = none)
    (refuses : ∀ text, read (some (.error text)) = none) (failed : unserved turn = true)
    (c : Command) : read (meet turn c store).1 = none := by
  unfold meet
  split
  next fate => simp [unserved, fate] at failed
  · exact fails
  · exact refuses _
  · exact fails

/-- The workers of a consistent case withstand each other for a minute. -/
theorem serves (distinct : keys.tick ≠ keys.breaker) (consistent : case.consistent value = true)
    (deadline : Int) (unknown : Nat → Answer) (timer : Nat → Nat → Nat) :
    Serves meet (Timely deadline) unserved (facts case keys value deadline)
      (case.performs unknown keys timer) case.config.operations.length where
  base place s holds := facts_mono (Nat.zero_le _) holds
  performs iteration place s errors inside here := by
    rw [← case.paired] at inside
    have ops := List.getElem?_eq_getElem inside
    have agrees := List.all_eq_true.mp consistent (case.ops[place], place)
      (List.mem_zipIdx_iff_getElem?.mpr ops)
    have take : case.ops.take (place + 1) = case.ops.take place ++ [case.ops[place]] := by
      rw [List.take_add_one, ops]
      rfl
    rw [Case.performs, ops]
    cases op : case.ops[place] with
    | setLatestTick written =>
      rw [op] at agrees
      obtain rfl : written = value := by simpa using agrees
      refine withstands_ask here (fun _ => facts_mono (Nat.zero_le _))
        (fun turn store timely => meet_set_keeps distinct timely)
        (fun turn store failed =>
          Option.map_eq_none_iff.mpr (meet_unserved rfl (fun _ => rfl) failed _)) ?_
      intro turn store timely served holds
      rw [meet_served served]
      exact ⟨rfl, exec_set distinct timely holds.1 _⟩
    | getLatestTick expected =>
      rw [op] at agrees take
      obtain ⟨rfl, written⟩ : expected = some value ∧ (case.ops.take place).any Op.sets = true := by
        simpa using agrees
      refine withstands_ask here (fun _ => facts_mono (Nat.zero_le _)) (fun turn store _ => ?_)
        (fun turn store failed =>
          Option.map_eq_none_iff.mpr (meet_unserved rfl (fun _ => rfl) failed _)) ?_
      · rw [meet_get_store]
        exact Keeps.refl store
      · intro turn store timely served holds
        rw [meet_served served]
        obtain ⟨expiry, found, -⟩ := find_ready (holds.2 written) timely.2
        simp only [exec, found]
        refine ⟨by simp [readText], holds.1, fun _ => holds.2 written⟩
    | breakerCheck expected =>
      rw [op] at agrees take
      obtain rfl : expected = false := by simpa using agrees
      refine withstands_ask here (fun _ => facts_mono (Nat.zero_le _)) (fun turn store _ => ?_)
        (fun turn store failed =>
          Option.map_eq_none_iff.mpr (meet_unserved rfl (fun _ => rfl) failed _)) ?_
      · rw [meet_exist_store]
        exact Keeps.refl store
      · intro turn store timely served holds
        rw [meet_served served]
        refine ⟨by simp [exec, readInteger, find_clear holds.1], holds.1, fun written => holds.2 ?_⟩
        rw [take, List.any_append] at written
        simpa [Op.sets] using written
    | other =>
      rw [op] at agrees
      cases agrees

/-! ### Before and after the workers -/

/-- A command whose reply is read was served. -/
private theorem serial_served {α : Type} {read : Option Reply → Option α} {c : Command}
    {s : List Redis.Turn × Store} {x : α} (fails : read none = none)
    (refuses : ∀ text, read (some (.error text)) = none) (got : read (serial c s).1 = some x) :
    ∃ turn ∈ s.1, serial c s =
      (some (exec turn.clock s.2 c).1, s.1.tail, (exec turn.clock s.2 c).2) := by
  obtain ⟨turns, store⟩ := s
  cases turns with
  | nil =>
    rw [serial, fails] at got
    cases got
  | cons turn rest =>
    change read (meet turn c store).1 = some x at got
    have served : unserved turn = false := by
      by_contra failed
      rw [Bool.not_eq_false] at failed
      cases (meet_unserved fails refuses failed c).symm.trans got
    refine ⟨turn, List.mem_cons_self, ?_⟩
    change ((meet turn c store).1, rest, (meet turn c store).2) = _
    rw [meet_served served]
    rfl

/-- The server is only asked. -/
def Asks (greetings : List Command) : Prop :=
  ∀ c ∈ greetings, ∀ now store, (exec now store c).2 = store

theorem rustGreetings_ask : Asks rustGreetings := by
  intro c member now store
  obtain rfl := List.mem_singleton.mp member
  rfl

theorem pythonGreetings_ask : Asks pythonGreetings := by
  intro c member now store
  rcases List.mem_cons.mp member with rfl | last
  · rfl
  · obtain rfl := List.mem_singleton.mp last
    rfl

theorem greet_store {greetings : List Command} (asks : Asks greetings)
    {s : List Redis.Turn × Store}
    (opened : ((prologue.greet greetings).run serial s).1 = some ()) :
    ((prologue.greet greetings).run serial s).2.2 = s.2 := by
  induction greetings generalizing s with
  | nil => rfl
  | cons c rest ih =>
    obtain ⟨first, others⟩ := List.forall_mem_cons.mp asks
    obtain ⟨done, answered, next⟩ := Prog.run_reading_some serial opened
    obtain ⟨turn, -, served⟩ := serial_served rfl (fun _ => rfl) answered
    rw [prologue.greet, next] at opened ⊢
    rw [ih others opened, served]
    exact first _ _

/-- No lockout is there when the workers start. -/
theorem prologue_facts {greetings : List Command} (asks : Asks greetings)
    {turns : List Redis.Turn}
    (opened : ((prologue keys greetings).run serial (turns, store)).1 = some ()) :
    facts case keys value deadline 0
      ((prologue keys greetings).run serial (turns, store)).2.2 := by
  obtain ⟨done, deleted, rest⟩ := Prog.run_reading_some serial opened
  obtain ⟨turn, -, served⟩ := serial_served rfl (fun _ => rfl) deleted
  rw [prologue, rest] at opened ⊢
  rw [greet_store asks opened, served]
  refine ⟨?_, fun written => ?_⟩
  · simp [exec]
  · simp at written

/-- What is reported in the end is what the keys hold. -/
theorem epilogue_reports {turns : List Redis.Turn} {terminal : Terminal}
    (ended : ((epilogue keys).run serial (turns, store)).1 = some terminal)
    (early : ∀ turn ∈ turns, turn.clock + 500 ≤ deadline) (clear : store keys.breaker = none) :
    terminal.locked = false ∧
      (Ready keys value deadline store → terminal = ⟨some value, true, false⟩) := by
  obtain ⟨text, stored, rest⟩ := Prog.run_reading_some serial ended
  obtain ⟨first, member, served⟩ := serial_served rfl (fun _ => rfl) stored
  rw [exec_get_store] at served
  rw [epilogue, rest, served] at ended
  obtain ⟨ttl, left, rest'⟩ := Prog.run_reading_some serial ended
  obtain ⟨second, member', served'⟩ := serial_served rfl (fun _ => rfl) left
  rw [rest', served'] at ended
  obtain ⟨locked, checked, rest''⟩ := Prog.run_reading_some serial ended
  obtain ⟨third, -, served''⟩ := serial_served rfl (fun _ => rfl) checked
  rw [rest''] at ended
  obtain rfl : ⟨text, decide (0 < ttl), decide (locked ≠ 0)⟩ = terminal := Option.some.inj ended
  rw [served] at stored
  rw [served'] at left
  rw [served''] at checked
  have unlocked : locked = 0 := by
    simp only [exec, find_clear clear, readInteger, Option.some.injEq] at checked
    exact checked.symm
  refine ⟨by simp [unlocked], fun ready => ?_⟩
  have soon := early first member
  have soon' := early second (List.mem_of_mem_tail member')
  obtain ⟨expiry, found, -⟩ := find_ready ready (by omega : first.clock < deadline)
  obtain ⟨expiry', found', lives⟩ := find_ready ready (by omega : second.clock < deadline)
  simp only [exec, found, readText, Option.some.injEq] at stored
  simp only [exec, found', readInteger, ttlAnswer, Option.some.injEq] at left
  have positive : 0 < ttl := by omega
  simp [← stored, positive, unlocked]

/-! ### The case -/

/-- What is reported of a case: an error for each command that failed, and for nothing else. Without
errors, all that is expected. -/
structure Faithful (case : Case) (value : Text) (service : Service) (out : CaseRun × Terminal) :
    Prop where
  errors : out.1.errors = service.during.countP fun entry => unserved entry.2
  unlocked : out.2.locked = false
  complete : out.1.errors = 0 →
    out.1.tokens = expectedTokens case.config ∧ out.2 = ⟨some value, true, false⟩

section Cases

variable {total concurrency : Nat} {service : Service}
  (repeats : case.config.repeats = total) (iterates : 0 < total) (bound : total ≤ 1000000)
  (workers : 1 ≤ concurrency) (ascending : case.config.operations.Pairwise (· < ·))
  (writes : case.ops.any Op.sets = true)
  (during : ∀ entry ∈ service.during, Timely deadline entry.2)
  (after : ∀ turn ∈ service.after, turn.clock + 500 ≤ deadline)

include repeats iterates writes during after

private theorem redisCase_faithful {greetings : List Command} {ranges : List (Nat × Nat)}
    {values : Nat → Prog Command (Option Reply) (List Completion × Nat)}
    {collect : List (List Completion × Nat) → Option CaseRun} {out : CaseRun × Terminal}
    (asks : Asks greetings)
    (reports : Reports values case.config.operations meet (Timely deadline) unserved
      (facts case keys value deadline))
    (cover : ranges.flatMap (fun range => List.range' range.1 range.2) = List.range total)
    (errors : ∀ outs run, collect outs = some run → run.errors = (outs.map Prod.snd).sum)
    (tokens : ∀ outs run, collect outs = some run →
      (outs.flatMap Prod.fst).map Prod.fst = tokensOf case.config.operations (List.range total) →
        run.tokens = tokensOf case.config.operations (List.range total))
    (ran : redisCase keys greetings service (workersOn values ranges) collect store = some out) :
    Faithful case value service out := by
  unfold redisCase at ran
  dsimp only at ran
  obtain ⟨⟨⟩, opened, ran⟩ := Option.bind_eq_some_iff.mp ran
  obtain ⟨⟨outs, last⟩, run, ran⟩ := Option.bind_eq_some_iff.mp ran
  obtain ⟨terminal, ended, ran⟩ := Option.bind_eq_some_iff.mp ran
  obtain ⟨caseRun, collected, ran⟩ := Option.bind_eq_some_iff.mp ran
  obtain rfl := Option.some.inj ran
  obtain ⟨counted, base, complete⟩ := reports.workers cover run during (prologue_facts asks opened)
  obtain ⟨unlocked, golden⟩ := epilogue_reports ended after base.1
  refine ⟨(errors outs caseRun collected).trans counted, unlocked, fun none => ?_⟩
  obtain ⟨all, reached⟩ := complete ((errors outs caseRun collected).symm.trans none)
  refine ⟨?_, golden ((reached iterates).2 ?_)⟩
  · rw [expectedTokens, repeats, Int.toNat_natCast]
    exact tokens outs caseRun collected all
  · rw [← case.paired, List.take_length]
    exact writes

include bound workers ascending

/-- In whichever order the server takes the commands of the workers within a minute, both adapters
count an error for each command that fails and for nothing else: no worker ever reads what it does
not expect. Without errors they complete every operation and leave the value there. -/
theorem workers_read_what_they_wrote {suffix : Text}
    (consistent : case.consistent value = true) (timer : Nat → Nat → Nat) (store : Store) :
    (∀ out, rustRedisCase case concurrency (keysOf suffix) timer service store = some out →
        Faithful case value service out) ∧
      ∀ appends out,
        pythonRedisCase case concurrency (keysOf suffix) timer service appends store = some out →
          Faithful case value service out := by
  obtain ⟨same, cover⟩ := ranges_partition total workers
  have serves := serves (keysOf_ne suffix) consistent deadline
  constructor
  · intro out ran
    rw [rustRedisCase, repeats, Int.toNat_natCast] at ran
    refine redisCase_faithful repeats iterates writes during after rustGreetings_ask
      (serves _ timer).rust cover ?_ ?_ ran
    · rintro outs run ⟨⟩
      rfl
    · rintro outs run ⟨⟩ all
      exact rustCollect_tokens bound ascending all
  · intro appends out ran
    rw [pythonRedisCase, repeats, Int.toNat_natCast, same] at ran
    exact redisCase_faithful repeats iterates writes during after pythonGreetings_ask
      (serves _ timer).python cover (fun outs run => pythonCollect_errors)
      (fun outs run collected all => pythonCollect_tokens bound ascending all collected) ran

end Cases

/-- The Redis case of the fixture, shortened to so many iterations. -/
def fixtureCase (repeats : Int) : Case where
  config := ⟨["r001", "r002", "r003"], repeats, .int 1, .int 5000, .null, .null⟩
  ops := [.setLatestTick "tick".toList, .getLatestTick (some "tick".toList), .breakerCheck false]
  paired := rfl

/-- A command that is served at a time. -/
def servedAt (clock : Int) : Redis.Turn := ⟨clock, .served⟩

/-- Two workers whose commands alternate; the second one's read is lost. -/
def lossyService : Service where
  before := [servedAt 0, servedAt 1, servedAt 1]
  during := [(0, servedAt 2), (1, servedAt 3), (0, servedAt 4), (1, ⟨5, .lost⟩), (0, servedAt 6)]
  after := [servedAt 7, servedAt 8, servedAt 9]

/-- The one command that is lost is the one error of either adapter. -/
theorem lost_read_is_one_error :
    (∃ out, rustRedisCase (fixtureCase 2) 2 (keysOf "0a1b2c3d".toList) (fun _ _ => 5) lossyService
        (fun _ => none) = some out ∧ out.1.errors = 1) ∧
    ∃ out, pythonRedisCase (fixtureCase 2) 2 (keysOf "0a1b2c3d".toList) (fun _ _ => 5) lossyService
        [1, 0, 0, 0] (fun _ => none) = some out ∧ out.1.errors = 1 := by
  have rust : (rustRedisCase (fixtureCase 2) 2 (keysOf "0a1b2c3d".toList) (fun _ _ => 5)
      lossyService (fun _ => none)).isSome = true := by decide +kernel
  have python : (pythonRedisCase (fixtureCase 2) 2 (keysOf "0a1b2c3d".toList) (fun _ _ => 5)
      lossyService [1, 0, 0, 0] (fun _ => none)).isSome = true := by decide +kernel
  obtain ⟨out, eq⟩ := Option.isSome_iff_exists.mp rust
  obtain ⟨out', eq'⟩ := Option.isSome_iff_exists.mp python
  have repeats : (fixtureCase 2).config.repeats = ((2 : Nat) : Int) := rfl
  have during : ∀ entry ∈ lossyService.during, Timely 60000 entry.2 := by
    unfold Timely
    decide
  have faithful := @workers_read_what_they_wrote _ "tick".toList _ _ 2 lossyService repeats
    (by decide) (by decide) (by decide) (by decide) (by decide) during (by decide)
    "0a1b2c3d".toList (by decide) (fun _ _ => 5) (fun _ => none)
  exact ⟨⟨out, eq, (faithful.1 out eq).errors⟩, out', eq', (faithful.2 _ out' eq').errors⟩

end AlphaPipeline.Bench.HotPath

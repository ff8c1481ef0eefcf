import AlphaPipeline.Library.Runs
import AlphaPipeline.Cache.RedisAsync

/-!
# The context of the asynchronous adapter

The adapter's context field is cleared by the disconnect callback only. hiredis frees a
context that fails to connect without running it, so the field then points at freed memory
for good; as long as no connection attempt fails, it never does.
-/
namespace AlphaPipeline.RedisAsync

open Redis

/-- What the owner was last told about the connection that was started last. -/
def told (log : List Effect) : Option AlphaErr :=
  log.foldl (fun last effect =>
    match effect with
    | .connectFn status => some status
    | .started => none
    | _ => last) none

/-- The context field is `NULL` or points at a context that has not been freed. -/
def ContextValid (w : World) : Prop := ∀ id, w.redis.context = some id → w.phase id ≠ .freed

/-- After the owner was told of an error the socket is gone and a reconnect is permitted. -/
def ReconnectPermitted (w : World) : Prop :=
  told w.log = some .io →
    alphaRedisAsyncSocket w = -1 ∧ ∀ dial, (alphaRedisAsyncReconnect w dial).1 ≠ .range

/-! ### Steps that do not connect or tear down -/

/-- The context field, the phases of the contexts that exist and what the owner was told stay,
unless a new connection is started. -/
structure Calm (w after : World) : Prop where
  fresh : w.fresh ≤ after.fresh
  phase : ∀ id, id < w.fresh ∨ w.redis.context = some id → after.phase id = w.phase id
  context : (after.redis.context = w.redis.context ∧ told after.log = told w.log) ∨
    (w.redis.context = none ∧ told after.log = none ∧ ∃ id, after.redis.context = some id ∧
      w.fresh ≤ id ∧ id < after.fresh ∧ after.phase id = .connecting)
  failures : .connected false ∈ after.log ↔ .connected false ∈ w.log
  fault : after.fault = true → w.fault = true ∨ ¬ ContextValid w

theorem Calm.refl (w : World) : Calm w w where
  fresh := le_rfl
  phase _ _ := rfl
  context := Or.inl ⟨rfl, rfl⟩
  failures := Iff.rfl
  fault := Or.inl

theorem Calm.trans {first second third : World} (left : Calm first second)
    (right : Calm second third) : Calm first third := by
  constructor
  · exact left.fresh.trans right.fresh
  · intro id known
    have same := left.phase id known
    rcases known with old | here
    · rw [right.phase id (Or.inl (old.trans_le left.fresh)), same]
    · rcases left.context with ⟨kept, _⟩ | ⟨empty, _⟩
      · rw [right.phase id (Or.inr (kept.trans here)), same]
      · rw [empty] at here
        cases here
  · rcases left.context with ⟨kept, told⟩ | ⟨empty, told, id, started, later, exists_, connecting⟩
    · rcases right.context with ⟨kept', told'⟩ | ⟨empty', told', id, started, later, rest⟩
      · exact Or.inl ⟨kept'.trans kept, told'.trans told⟩
      · exact Or.inr ⟨kept.symm.trans empty', told', id, started, left.fresh.trans later, rest⟩
    · rcases right.context with ⟨kept', told'⟩ | ⟨empty', _⟩
      · refine Or.inr ⟨empty, told'.trans told, id, kept'.trans started, later,
          exists_.trans_le right.fresh, ?_⟩
        rw [right.phase id (Or.inl exists_), connecting]
      · rw [started] at empty'
        cases empty'
  · exact right.failures.trans left.failures
  · intro faulty
    rcases right.fault faulty with before | invalid
    · exact left.fault before
    · -- a context that is freed after a calm step was freed before it
      right
      intro valid
      apply invalid
      intro id here
      rcases left.context with ⟨kept, _⟩ | ⟨_, _, new, started, _, _, connecting⟩
      · rw [left.phase id (Or.inr (kept.symm.trans here))]
        exact valid id (kept.symm.trans here)
      · rw [started] at here
        cases here
        rw [connecting]
        decide

theorem Calm.foldl {α : Type} (step : World → α → World) (calm : ∀ w a, Calm w (step w a))
    (list : List α) (w : World) : Calm w (list.foldl step w) := by
  induction list generalizing w with
  | nil => exact .refl w
  | cons first rest ih => exact (calm w first).trans (ih _)

/-- An entry of the log that tells the owner nothing about the connection. -/
def Effect.quiet : Effect → Bool
  | .connectFn _ | .started | .connected _ => false
  | _ => true

theorem told_emit_quiet (w : World) (effect : Effect) (quiet : effect.quiet = true) :
    told (w.emit effect).log = told w.log := by
  cases effect <;> simp_all [Effect.quiet, told, World.emit]

theorem calm_emit (w : World) (effect : Effect) (quiet : effect.quiet = true) :
    Calm w (w.emit effect) where
  fresh := le_rfl
  phase _ _ := rfl
  context := Or.inl ⟨rfl, told_emit_quiet w effect quiet⟩
  failures := by
    have other : effect ≠ .connected false := by
      rintro rfl
      cases quiet
    simp [World.emit, Ne.symm other]
  fault := Or.inl

/-- The other fields of the adapter and the queues of the contexts play no part. -/
theorem calm_fields (w : World) (watch : Watch) (pending : Nat) :
    Calm w { w with redis := { w.redis with watch := watch, pending := pending } } where
  fresh := le_rfl
  phase _ _ := rfl
  context := Or.inl ⟨rfl, rfl⟩
  failures := Iff.rfl
  fault := Or.inl

theorem phase_setQueue (w : World) (id other : Nat) (queue : List Nat) :
    (w.setQueue id queue).phase other = w.phase other := by
  by_cases same : other = id
  · subst same
    simp [World.phase, World.setQueue]
  · simp [World.phase, World.setQueue, Function.update_of_ne same]

theorem calm_setQueue (w : World) (id : Nat) (queue : List Nat) : Calm w (w.setQueue id queue) where
  fresh := le_rfl
  phase other _ := phase_setQueue w id other queue
  context := Or.inl ⟨rfl, rfl⟩
  failures := Iff.rfl
  fault := Or.inl

/-- Touching a freed context is a fault, and changes nothing else. -/
theorem calm_fault (w : World) (id : Nat) (here : w.redis.context = some id)
    (freed : w.phase id = .freed) : Calm w { w with fault := true } where
  fresh := le_rfl
  phase _ _ := rfl
  context := Or.inl ⟨rfl, rfl⟩
  failures := Iff.rfl
  fault _ := Or.inr fun valid => valid id here freed

theorem calm_publishWatch (w : World) : Calm w (publishWatch w) := by
  unfold publishWatch
  split
  · exact calm_emit w _ rfl
  next id here =>
    split
    next freed => exact calm_fault w id here freed
    next => exact calm_emit w _ rfl

theorem calm_watchHook (w : World) (op : WatchOp) : Calm w (watchHook w op) :=
  (calm_fields w (op.apply w.redis.watch) w.redis.pending).trans (calm_publishWatch _)

theorem calm_hooks (hooks : List WatchOp) (w : World) : Calm w (hooks.foldl watchHook w) :=
  Calm.foldl watchHook calm_watchHook hooks w

theorem calm_command (w : World) (argc : Int) (valid : Bool) (userData : Nat) (accepted : Bool) :
    Calm w (alphaRedisAsyncCommand w argc valid userData accepted).2 := by
  unfold alphaRedisAsyncCommand
  split
  · exact .refl w
  next id here =>
    split
    · exact .refl w
    · split
      · exact .refl w
      · split
        next freed => exact calm_fault w id here freed
        next =>
          split
          · exact .refl w
          · exact (calm_setQueue w id _).trans (calm_fields _ w.redis.watch _)

theorem phase_allocate (w : World) (phase : Phase) (fd : Int) (id : Nat) :
    (w.allocate phase fd).phase id = if id = w.fresh then phase else w.phase id := by
  by_cases same : id = w.fresh
  · subst same
    simp [World.phase, World.allocate]
  · simp [World.phase, World.allocate, same]

theorem phase_setPhase (w : World) (id other : Nat) (phase : Phase) :
    (w.setPhase id phase).phase other = if other = id then phase else w.phase other := by
  by_cases same : other = id
  · subst same
    simp [World.phase, World.setPhase]
  · simp [World.phase, World.setPhase, same]

/-- A context that is allocated and dropped again leaves the adapter without one. -/
private theorem calm_dropped (w after : World) (empty : w.redis.context = none)
    (grown : w.fresh ≤ after.fresh) (phases : ∀ id, id < w.fresh → after.phase id = w.phase id)
    (log : told after.log = told w.log)
    (failures : .connected false ∈ after.log ↔ .connected false ∈ w.log)
    (fault : after.fault = true → w.fault = true) : Calm w (after.setContext none) where
  fresh := grown
  phase id known := by
    rcases known with old | here
    · exact phases id old
    · rw [empty] at here
      cases here
  context := Or.inl ⟨empty.symm, log⟩
  failures := failures
  fault faulty := Or.inl (fault faulty)

/-- The world after a new context was opened and its hooks have run: only the new context is
new. -/
private theorem opened_hooked (w : World) (fd : Int) (hooks : List WatchOp) {after : World}
    (ran : hooks.foldl watchHook (((w.emit (.dialed w.redis.host w.redis.port)).allocate
      .connecting fd).setContext (some w.fresh)) = after) :
    after.redis.context = some w.fresh ∧ told after.log = told w.log ∧
      (∀ id < w.fresh, after.phase id = w.phase id) ∧ after.phase w.fresh = .connecting ∧
      (.connected false ∈ after.log ↔ .connected false ∈ w.log) ∧
      (after.fault = true → w.fault = true) ∧ w.fresh < after.fresh := by
  obtain ⟨opened, isOpened⟩ : ∃ opened, opened =
    ((w.emit (.dialed w.redis.host w.redis.port)).allocate .connecting fd).setContext
      (some w.fresh) := ⟨_, rfl⟩
  have context : opened.redis.context = some w.fresh := by simp [isOpened, World.setContext]
  have next : opened.fresh = w.fresh + 1 := by rw [isOpened]; rfl
  have phases (id : Nat) :
      opened.phase id = if id = w.fresh then .connecting else w.phase id := by
    rw [isOpened]
    exact phase_allocate (w.emit _) .connecting fd id
  have live : ContextValid opened := by
    intro id here
    rw [context] at here
    cases here
    simp [phases]
  have hooked := calm_hooks hooks opened
  rw [← isOpened] at ran
  rw [ran] at hooked
  have grown := hooked.fresh
  -- hooks never start a connection, so the context is still the one just opened
  have kept : after.redis.context = some w.fresh ∧ told after.log = told w.log := by
    rcases hooked.context with ⟨same, log⟩ | ⟨none, _⟩
    · refine ⟨same.trans context, log.trans ?_⟩
      rw [isOpened]
      exact told_emit_quiet w _ rfl
    · rw [context] at none
      cases none
  refine ⟨kept.1, kept.2, fun id known => ?_, ?_, ?_, fun faulty => ?_, by omega⟩
  · rw [hooked.phase id (Or.inl (by omega)), phases, if_neg (by omega)]
  · rw [hooked.phase w.fresh (Or.inr context), phases, if_pos rfl]
  · rw [hooked.failures, isOpened]
    simp [World.setContext, World.allocate, World.emit]
  · rcases hooked.fault faulty with before | invalid
    · rw [isOpened] at before
      exact before
    · exact absurd live invalid

theorem calm_startConnection (w : World) (dial : Dial) (empty : w.redis.context = none) :
    Calm w (startConnection w dial).2 := by
  have dialed : told (w.emit (.dialed w.redis.host w.redis.port)).log = told w.log :=
    told_emit_quiet w _ rfl
  cases dial with
  | null =>
    exact calm_dropped w _ empty le_rfl (fun _ _ => rfl) dialed (by simp [World.emit]) id
  | error fd =>
    refine calm_dropped w _ empty (Nat.le_succ _) (fun id old => ?_) dialed
      (by simp [World.emit, World.allocate]) id
    rw [phase_allocate, if_neg (by simp only [World.emit]; omega)]
    rfl
  | opened fd callbacksSet hooks =>
    cases callbacksSet with
    | true =>
      simp only [startConnection]
      generalize ran : hooks.foldl watchHook _ = after
      obtain ⟨context, log, old, new, failures, fault, grown⟩ := opened_hooked w fd hooks ran
      refine ⟨by simp only [if_true, World.emit]; omega, ?_, ?_, ?_,
        fun faulty => Or.inl (fault faulty)⟩
      · rintro id (known | here)
        · exact old id known
        · rw [empty] at here
          cases here
      · exact Or.inr ⟨empty, by simp [World.emit, told], w.fresh, context, le_rfl, grown, new⟩
      · simpa [World.emit] using failures
    | false =>
      -- without its callbacks the context is freed again, after one more hook
      simp only [startConnection, Bool.false_eq_true, if_false, ← List.foldl_concat]
      generalize ran : (hooks ++ [WatchOp.cleanup]).foldl watchHook _ = after
      obtain ⟨_, log, old, _, failures, fault, grown⟩ := opened_hooked w fd _ ran
      refine calm_dropped w _ empty grown.le (fun id known => ?_) log failures fault
      rw [phase_setPhase, if_neg (by omega), old id known]

theorem calm_request (w : World) (request : Request) : Calm w (w.request request) := by
  cases request with
  | command argc valid userData accepted =>
    exact (calm_command w argc valid userData accepted).trans (calm_emit _ _ rfl)
  | reconnect dial =>
    simp only [World.request, alphaRedisAsyncReconnect]
    split
    · exact .refl w
    next empty => exact calm_startConnection w dial empty

theorem calm_requests (requests : List Request) (w : World) :
    Calm w (requests.foldl World.request w) :=
  Calm.foldl World.request calm_request requests w

theorem calm_replied (w : World) (reply : Option Reply) (userData : Nat) (reaction : List Request) :
    Calm w (replied w reply userData reaction) := by
  unfold replied
  refine ((calm_fields w w.redis.watch (w.redis.pending - 1)).trans ?_).trans
    (calm_requests reaction _)
  exact calm_emit _ _ rfl

theorem calm_nullReplies (queue : List Nat) (nulls : List (List Request)) (w : World) :
    Calm w (nullReplies w queue nulls) := by
  induction queue generalizing nulls w with
  | nil => exact .refl w
  | cons userData rest ih => exact (calm_replied w none userData _).trans (ih nulls.tail _)

/-! ### The two kinds of reachable states -/

/-- No connection attempt has failed. -/
structure Good (w : World) : Prop where
  failures : .connected false ∉ w.log
  known : ∀ id, w.redis.context = some id → id < w.fresh
  valid : ContextValid w
  told : told w.log = some .io → w.redis.context = none
  fault : w.fault = false

/-- One has: the context field points at the freed context and stays so. -/
def Doomed (w : World) : Prop :=
  .connected false ∈ w.log ∧ ∃ id, w.redis.context = some id ∧ w.phase id = .freed

theorem Calm.good {w after : World} (calm : Calm w after) (good : Good w) : Good after := by
  have failures : .connected false ∉ after.log := fun member =>
    good.failures (calm.failures.mp member)
  have fault : after.fault = false := by
    by_contra faulty
    rcases calm.fault (by simpa using faulty) with before | invalid
    · rw [good.fault] at before
      cases before
    · exact invalid good.valid
  -- the context is the old one, or a new one that is connecting
  rcases calm.context with ⟨same, log⟩ | ⟨_, log, new, started, _, exists_, connecting⟩
  · refine ⟨failures, fun id here => ?_, fun id here => ?_, fun io => ?_, fault⟩
    · exact (good.known id (same.symm.trans here)).trans_le calm.fresh
    · rw [calm.phase id (Or.inr (same.symm.trans here))]
      exact good.valid id (same.symm.trans here)
    · exact same.trans (good.told (log.symm.trans io))
  · refine ⟨failures, fun id here => ?_, fun id here => ?_, fun io => ?_, fault⟩
    · rw [started] at here
      cases here
      exact exists_
    · rw [started] at here
      cases here
      rw [connecting]
      decide
    · rw [log] at io
      cases io

theorem Calm.doomed {w after : World} (calm : Calm w after) (doomed : Doomed w) :
    Doomed after := by
  obtain ⟨failed, id, here, freed⟩ := doomed
  refine ⟨calm.failures.mpr failed, id, ?_, by rw [calm.phase id (Or.inr here), freed]⟩
  rcases calm.context with ⟨same, _⟩ | ⟨empty, _⟩
  · exact same.trans here
  · rw [here] at empty
    cases empty

/-- A calm step keeps a context that is there. -/
theorem Calm.keeps {w after : World} (calm : Calm w after) {id : Nat}
    (here : w.redis.context = some id) : after.redis.context = some id := by
  rcases calm.context with ⟨same, _⟩ | ⟨empty, _⟩
  · exact same.trans here
  · rw [here] at empty
    cases empty

/-- While a context is torn down the field still points at it. -/
theorem teardown_spec (w : World) (id : Nat) (nulls : List (List Request)) (hooks : List WatchOp)
    (here : w.redis.context = some id) :
    (teardown w id nulls hooks).redis.context = some id ∧
      w.fresh ≤ (teardown w id nulls hooks).fresh ∧
      (.connected false ∈ (teardown w id nulls hooks).log ↔ .connected false ∈ w.log) ∧
      ((teardown w id nulls hooks).fault = true → w.fault = true) := by
  -- the phase and the queue change first; the rest of the teardown is calm
  obtain ⟨closing, isClosing⟩ : ∃ closing, closing = (w.setPhase id .closing).setQueue id [] :=
    ⟨_, rfl⟩
  have context : closing.redis.context = some id := by rw [isClosing]; exact here
  have calm : Calm closing (teardown w id nulls hooks) := by
    simp only [teardown, ← isClosing]
    exact (calm_nullReplies _ nulls closing).trans (calm_hooks hooks _)
  refine ⟨calm.keeps context, ?_, ?_, fun faulty => ?_⟩
  · have := calm.fresh
    rwa [isClosing] at this
  · have := calm.failures
    rwa [isClosing] at this
  · rcases calm.fault faulty with before | invalid
    · rwa [isClosing] at before
    · refine absurd (fun other isHere => ?_) invalid
      rw [context] at isHere
      cases isHere
      rw [isClosing, phase_setQueue, phase_setPhase, if_pos rfl]
      decide

section Perform

variable {w : World} {id : Nat}

private theorem connect_good (good : Good w) (here : w.redis.context = some id)
    (reaction : List Request) :
    Good (connected (w.setPhase id .connected) true reaction) ∧
      (connected (w.setPhase id .connected) true reaction).redis.context = some id := by
  have calm := calm_requests reaction
    (((w.setPhase id .connected).emit (.connected true)).emit (.connectFn .ok))
  refine ⟨calm.good ⟨?_, good.known, fun other isHere => ?_, ?_, good.fault⟩, calm.keeps here⟩
  · have := good.failures
    simpa [World.emit, World.setPhase] using this
  · have same : other = id := Option.some.inj (isHere.symm.trans here)
    change (w.setPhase id .connected).phase other ≠ .freed
    rw [phase_setPhase, if_pos same]
    decide
  · simp [World.emit, told]

private theorem connectFailure_doomed (here : w.redis.context = some id) (reaction : List Request)
    (nulls : List (List Request)) (hooks : List WatchOp) :
    Doomed ((teardown (connected w false reaction) id nulls hooks).setPhase id .freed) := by
  -- the owner is told while the field still points at the context, so a reconnect is refused
  have calm := calm_requests reaction ((w.emit (.connected false)).emit (.connectFn .io))
  have context : (connected w false reaction).redis.context = some id := calm.keeps here
  have failed : .connected false ∈ (connected w false reaction).log :=
    calm.failures.mpr (by simp [World.emit])
  obtain ⟨still, _, failures, _⟩ := teardown_spec _ id nulls hooks context
  refine ⟨failures.mpr failed, id, still, ?_⟩
  rw [phase_setPhase, if_pos rfl]

theorem disconnect_good (good : Good w) (here : w.redis.context = some id) (fd : Int)
    (nulls : List (List Request)) (hooks : List WatchOp) (reaction : List Request) :
    Good ((disconnected (teardown w id nulls hooks) fd reaction).setPhase id .freed) := by
  obtain ⟨_, grown, failures, fault⟩ := teardown_spec w id nulls hooks here
  have old : id < w.fresh := good.known id here
  generalize teardown w id nulls hooks = torn at *
  -- the field is cleared before the owner is told, so a reconnect gets a new context
  have cleared : (dropContext torn fd).redis.context = none := rfl
  have goodCleared : Good (dropContext torn fd) := by
    refine ⟨?_, ?_, ?_, fun _ => rfl, ?_⟩
    · have absent : .connected false ∉ torn.log := fun member => good.failures (failures.mp member)
      simpa [dropContext, World.emit] using absent
    · intro other isHere
      rw [cleared] at isHere
      cases isHere
    · intro other isHere
      rw [cleared] at isHere
      cases isHere
    · change torn.fault = false
      by_contra faulty
      have before := fault (by simpa using faulty)
      rw [good.fault] at before
      cases before
  have calm : Calm (dropContext torn fd) (disconnected torn fd reaction) := calm_requests reaction _
  have after := calm.good goodCleared
  refine ⟨after.failures, after.known, fun other isHere => ?_, after.told, after.fault⟩
  -- a context the owner started in the callback has a new number
  have distinct : other ≠ id := by
    rintro rfl
    rcases calm.context with ⟨same, _⟩ | ⟨_, _, new, started, later, _⟩
    · rw [cleared] at same
      cases same.symm.trans isHere
    · cases started.symm.trans isHere
      have sameFresh : (dropContext torn fd).fresh = torn.fresh := rfl
      omega
  rw [phase_setPhase, if_neg distinct]
  exact after.valid other isHere

/-- One activity of hiredis on the adapter's context. -/
theorem perform_spec (good : Good w) (here : w.redis.context = some id) (activity : Activity) :
    (Good (perform w id activity) ∧ ((perform w id activity).redis.context = some id ∨
      (perform w id activity).phase id = .freed)) ∨
    (Doomed (perform w id activity) ∧ (perform w id activity).phase id = .freed) := by
  -- most activities are calm and keep the context
  have calm {after : World} (step : Calm w after) :
      (Good after ∧ (after.redis.context = some id ∨ after.phase id = .freed)) ∨
        (Doomed after ∧ after.phase id = .freed) :=
    Or.inl ⟨step.good good, Or.inl (step.keeps here)⟩
  cases activity with
  | hook op => exact calm (calm_watchHook w op)
  | timer seconds micros => exact calm (calm_emit w _ rfl)
  | connect reaction =>
    simp only [perform]
    split
    · obtain ⟨after, kept⟩ := connect_good good here reaction
      exact Or.inl ⟨after, Or.inl kept⟩
    · exact calm (.refl w)
  | connectFailure reaction nulls hooks =>
    simp only [perform]
    split
    · refine Or.inr ⟨connectFailure_doomed here reaction nulls hooks, ?_⟩
      rw [phase_setPhase, if_pos rfl]
    · exact calm (.refl w)
  | reply reply reaction =>
    simp only [perform]
    split
    · exact calm ((calm_setQueue w id _).trans (calm_replied _ _ _ reaction))
    · exact calm (.refl w)
  | disconnect nulls hooks reaction =>
    simp only [perform]
    split
    · refine Or.inl ⟨disconnect_good good here _ nulls hooks reaction, Or.inr ?_⟩
      rw [phase_setPhase, if_pos rfl]
    · exact calm (.refl w)

end Perform

/-- The states a run can be in while hiredis is at work. -/
def Inv (w : World) : Prop := Good w ∨ Doomed w

theorem Calm.inv {w after : World} (calm : Calm w after) (inv : Inv w) : Inv after :=
  inv.imp calm.good calm.doomed

theorem handle_inv (activities : List Activity) (w : World) (id : Nat)
    (here : w.redis.context = some id) (inv : Inv w) : Inv (handle w id activities) := by
  induction activities generalizing w with
  | nil =>
    simp only [handle]
    split
    next freed => exact (calm_fault w id here freed).inv inv
    next => exact inv
  | cons first rest ih =>
    simp only [handle]
    split
    next freed => exact (calm_fault w id here freed).inv inv
    next live =>
      -- after a failure the context is freed and hiredis does nothing more with it
      rcases inv with good | ⟨_, other, isHere, freed⟩
      · rcases perform_spec good here first with ⟨after, kept⟩ | ⟨doomed, freed⟩
        · split
          next => exact Or.inl after
          next alive => exact ih _ (kept.resolve_right alive) (Or.inl after)
        · rw [if_pos freed]
          exact Or.inr doomed
      · cases here.symm.trans isHere
        exact absurd freed live

theorem calm_contextStatus (w : World) (err : Bool) : Calm w (contextStatus w err).2 := by
  unfold contextStatus
  split
  · exact .refl w
  next id here =>
    split
    next freed => exact calm_fault w id here freed
    next => exact .refl w

/-- The states a run can be in between two calls: one that saw its connection fail has touched
the freed context. -/
def Settled (w : World) : Prop := Good w ∨ (Doomed w ∧ w.fault = true)

theorem Settled.inv {w : World} (settled : Settled w) : Inv w := settled.imp_right And.left

theorem settled_contextStatus (w : World) (err : Bool) (inv : Inv w) :
    Settled (contextStatus w err).2 := by
  rcases inv with good | doomed
  · exact Or.inl ((calm_contextStatus w err).good good)
  · refine Or.inr ⟨(calm_contextStatus w err).doomed doomed, ?_⟩
    obtain ⟨_, id, here, freed⟩ := doomed
    simp only [contextStatus, here, freed, if_true]

theorem settled_service (w : World) (ready : Watch) (reading writing : List Activity) (err : Bool)
    (good : Good w) : Settled (alphaRedisAsyncService w ready reading writing err).2 := by
  unfold alphaRedisAsyncService
  split
  · exact Or.inl good
  next id here =>
    -- the read comes first and may leave the adapter with another context, or with none
    have afterRead : Inv (if ready.read then handle w id reading else w) := by
      split
      · exact handle_inv reading w id here (Or.inl good)
      · exact Or.inl good
    apply settled_contextStatus
    split
    next other isHere =>
      split
      · exact handle_inv writing _ other isHere afterRead
      · exact afterRead
    next => exact afterRead

theorem settled_step (w : World) (call : Call) (settled : Settled w) : Settled (w.step call) := by
  unfold World.step
  split
  · exact settled
  next defined =>
    have good : Good w := settled.resolve_right fun doomed => defined doomed.2
    cases call with
    | request request => exact Or.inl ((calm_request w request).good good)
    | service ready reading writing err => exact settled_service w ready reading writing err good
    | timeout activities err =>
      simp only [alphaRedisAsyncTimeout]
      split
      · exact Or.inl good
      next id here =>
        exact settled_contextStatus _ err (handle_inv activities w id here (Or.inl good))

/-- A new adapter is one whose first connection attempt was started. -/
theorem connect_started {host : Option Text} {port : Int} {allocated : Bool} {dial : Dial}
    {w : World} (created : (alphaRedisAsyncConnect host port allocated dial).2 = some w) :
    ∃ text, startConnection
      ⟨⟨none, text, port, Watch.none, 0⟩, fun _ => ⟨.freed, -1, []⟩, 0, [], false⟩ dial =
        (.ok, w) := by
  unfold alphaRedisAsyncConnect at created
  split at created
  · cases created
  next text =>
    split at created
    · cases created
    · split at created
      · cases created
      · simp only at created
        split at created
        next after started =>
          cases created
          exact ⟨text, started⟩
        next => cases created

/-- A new adapter has a context that is connecting. -/
theorem good_created (host : Option Text) (port : Int) (allocated : Bool) (dial : Dial) (w : World)
    (created : (alphaRedisAsyncConnect host port allocated dial).2 = some w) : Good w := by
  obtain ⟨text, started⟩ := connect_started created
  have calm := calm_startConnection
    ⟨⟨none, text, port, Watch.none, 0⟩, fun _ => ⟨.freed, -1, []⟩, 0, [], false⟩ dial rfl
  rw [started] at calm
  apply calm.good
  constructor
  · simp
  · exact fun _ none => by cases none
  · exact fun _ none => by cases none
  · exact fun _ => rfl
  · rfl

/-- After any run of calls, whatever hiredis and the owner's callbacks do, the context field
is `NULL` or points at a context that was not freed, and an owner told of an error may
reconnect, exactly when no connection attempt has failed. -/
theorem contextValid_iff (host : Option Text) (port : Int) (allocated : Bool) (dial : Dial)
    (w : World) (created : (alphaRedisAsyncConnect host port allocated dial).2 = some w)
    (calls : List Call) :
    (ContextValid (Runs.run World.step w calls) ∧
      ReconnectPermitted (Runs.run World.step w calls)) ↔
    .connected false ∉ (Runs.run World.step w calls).log := by
  have settled : Settled (Runs.run World.step w calls) :=
    Runs.run_preserves World.step Settled settled_step w calls
      (Or.inl (good_created host port allocated dial w created))
  have inv := settled.inv
  generalize Runs.run World.step w calls = last at inv
  -- a good state has no failure in its log and a doomed one has
  constructor
  · rintro ⟨valid, _⟩ failed
    rcases inv with good | ⟨_, id, here, freed⟩
    · exact good.failures failed
    · exact valid id here freed
  · intro noFailure
    rcases inv with good | ⟨failed, _⟩
    · refine ⟨good.valid, fun io => ?_⟩
      have empty := good.told io
      refine ⟨by simp [alphaRedisAsyncSocket, empty], fun dial => ?_⟩
      simp only [alphaRedisAsyncReconnect, empty]
      cases dial with
      | null => exact nofun
      | error fd => exact nofun
      | opened fd callbacksSet hooks => cases callbacksSet <;> exact nofun
    · exact absurd failed noFailure

/-- An adapter whose first connection attempt is under way. -/
def dialing : World :=
  ⟨⟨some 0, "redis".toList, 6379, Watch.none, 0⟩,
    Function.update (fun _ => ⟨.freed, -1, []⟩) 0 ⟨.connecting, 5, []⟩, 1,
    [.dialed "redis".toList 6379, .started], false⟩

/-- The server closes an established connection; the owner reconnects in the callback. -/
theorem contextValid_after_kill :
    let calls := [.service ⟨false, true⟩ [] [.connect [.command 2 true 7 true]] false,
      .service ⟨true, false⟩ [.disconnect [[]] [.cleanup] [.reconnect (.opened 6 true [])]] [] true]
    let w := Runs.run World.step dialing calls
    .connectFn .io ∈ w.log ∧ ContextValid w ∧ ReconnectPermitted w := by
  intro calls w
  have noFailure : .connected false ∉ w.log := by decide +kernel
  exact ⟨by decide +kernel, (contextValid_iff (some "redis".toList) 6379 true (.opened 5 true [])
    dialing rfl calls).mpr noFailure⟩

/-- A refused connection: the owner is told of an error, yet the field still points at the
freed context, the socket is still reported and a reconnect is refused. -/
theorem contextValid_refused_connection :
    let w := Runs.run World.step dialing
      [.service ⟨false, true⟩ [] [.connectFailure [] [] [.cleanup]] true]
    told w.log = some .io ∧ w.redis.context = some 0 ∧ w.phase 0 = .freed ∧
      alphaRedisAsyncSocket w = 5 ∧ (alphaRedisAsyncReconnect w (.opened 6 true [])).1 = .range ∧
      ¬ ContextValid w := by
  intro w
  have context : w.redis.context = some 0 := by decide +kernel
  have freed : w.phase 0 = .freed := by decide +kernel
  exact ⟨by decide +kernel, context, freed, by decide +kernel, by decide +kernel,
    fun valid => valid 0 context freed⟩

end AlphaPipeline.RedisAsync

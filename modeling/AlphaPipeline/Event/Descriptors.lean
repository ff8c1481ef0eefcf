import AlphaPipeline.Event.LwsRuntime

/-!
# The descriptors of the runtime

`alpha_lws_watch_add` gives libwebsockets a duplicate of the owner's descriptor. From then on the
duplicate is closed with its connection: by the owner, by libwebsockets, or when the runtime is
destroyed. Touching a connection that is closed is undefined and recorded as a fault. What
`ready_fn` does comes after the call in the order of events, since no code here goes on with what
it has read before it.
-/
namespace AlphaPipeline.Lws

/-- A connection of libwebsockets: the watch it was adopted for, and its descriptor. -/
structure Wsi (capacity : Nat) where
  id : Nat
  slot : Fin capacity
  fd : Nat
  deriving DecidableEq

/-- A call of `ready_fn`: whose, and with what. -/
structure ReadyCall (capacity : Nat) where
  slot : Fin capacity
  watch : Watch
  flags : Bool × Bool × Bool

structure World (capacity : Nat) where
  runtime : Runtime capacity
  wsis : List (Wsi capacity)
  nextWsi : Nat
  nextFd : Nat
  opened : List Nat
  closed : List Nat
  leaked : List Nat
  calls : List (ReadyCall capacity)
  fault : Bool

variable {capacity : Nat}

/-! ### The code -/

/-- A connection is closed. Of libwebsockets it is assumed that `lws_wsi_close` with
`LWS_TO_KILL_SYNC` closes before it returns: it runs the callback with the reason to close, closes
the descriptor it has adopted, and frees the connection. -/
def World.close (w : World capacity) (id : Nat) : World capacity :=
  match w.wsis.find? (fun wsi => wsi.id = id) with
  | none => { w with fault := true }
  | some wsi =>
    { w with
      runtime := (foreignFdCallback w.runtime (some wsi.slot) .rawClose).1
      wsis := w.wsis.erase wsi
      closed := w.closed ++ [wsi.fd] }

/-- libwebsockets is called with a connection. -/
def World.use (w : World capacity) (id : Nat) : World capacity :=
  if w.wsis.any (fun wsi => wsi.id = id) then w else { w with fault := true }

def World.ready (w : World capacity) (slot : Fin capacity) (flags : Bool × Bool × Bool) :
    World capacity :=
  { w with calls := w.calls ++ [⟨slot, w.runtime.watches slot, flags⟩] }

/-- What `dup` and libwebsockets do in `alpha_lws_watch_add`; `closes` says whether a descriptor
that is not adopted is closed. -/
structure Adoption where
  dup : Bool
  adopts : Bool
  closes : Bool

/-- `alpha_lws_watch_add`, with what becomes of the descriptor. -/
def World.add (w : World capacity) (args : AddArgs) (given : Adoption) : World capacity :=
  let added := alphaLwsWatchAdd w.runtime args (if given.dup then w.nextFd else -1)
    (if given.adopts then some w.nextWsi else none)
  let after := { w with runtime := added.2.1 }
  if args.fd < 0 ∨ args.readyFn = none ∨ args.out = false ∨ w.runtime.count.toNat = capacity ∨
      given.dup = false then after
  else
    let opened := { after with opened := w.opened ++ [w.nextFd], nextFd := w.nextFd + 1 }
    match firstInactive w.runtime with
    | none => { opened with closed := w.closed ++ [w.nextFd] }
    | some i =>
      if given.adopts then
        { opened with wsis := w.wsis ++ [⟨w.nextWsi, i, w.nextFd⟩], nextWsi := w.nextWsi + 1 }
      else if given.closes then { opened with closed := w.closed ++ [w.nextFd] }
      else { opened with leaked := w.leaked ++ [w.nextFd] }

/-- `alpha_lws_watch_set_write`. -/
def World.setWrite (w : World capacity) (watch : Option (Fin capacity))
    (wantsWrite writable : Bool) : World capacity :=
  let after := { w with runtime := (alphaLwsWatchSetWrite w.runtime watch wantsWrite writable).2 }
  match watch with
  | none => after
  | some i =>
    match (w.runtime.watches i).wsi with
    | none => after
    | some id => if wantsWrite then after.use id else after

/-- `alpha_lws_watch_set_timer`. -/
def World.setTimer (w : World capacity) (watch : Option (Fin capacity)) (timeoutMs : Int) :
    World capacity :=
  match watch with
  | none => w
  | some i =>
    match (w.runtime.watches i).wsi with
    | none => w
    | some id => if timeoutMs < -1 then w else w.use id

/-- `alpha_lws_watch_remove`; the connection is closed on the spot. -/
def World.remove (w : World capacity) (watch : Option (Fin capacity)) : World capacity :=
  match watch with
  | none => w
  | some i =>
    if !(w.runtime.watches i).active then w
    else
      let closed :=
        match (w.runtime.watches i).wsi with
        | none => w
        | some id => w.close id
      { closed with runtime := alphaLwsWatchRemove closed.runtime (some i) false }

/-- `foreign_fd_callback`, which libwebsockets runs for the connections it has. -/
def World.callback (w : World capacity) (id : Nat) (reason : Reason) : World capacity :=
  match w.wsis.find? (fun wsi => wsi.id = id) with
  | none => w
  | some wsi =>
    if reason = .rawClose then w.close id
    else
      match (foreignFdCallback w.runtime (some wsi.slot) reason).2 with
      | none => w
      | some flags => w.ready wsi.slot flags

/-- A turn of the loop of `service_wakeup`. -/
def World.visit (w : World capacity) (i : Fin capacity) : World capacity :=
  if (w.runtime.watches i).active && (w.runtime.watches i).wantsWrite then
    w.ready i (false, true, false)
  else w

/-- A turn of the loop of `alpha_lws_runtime_destroy`. -/
def World.closeSlot (w : World capacity) (i : Fin capacity) : World capacity :=
  match (w.runtime.watches i).wsi with
  | none => w
  | some id => w.close id

/-- `alpha_lws_runtime_destroy`. Of `lws_context_destroy` it is assumed that it closes every
connection that is still there in the same way, and each of them once. -/
def World.destroy (w : World capacity) : World capacity :=
  let closed := (List.finRange capacity).foldl World.closeSlot w
  closed.wsis.foldl (fun w wsi => w.close wsi.id) closed

/-- A call of the owner or of libwebsockets. -/
inductive Act (capacity : Nat) where
  | add (args : AddArgs) (given : Adoption)
  | setWrite (watch : Option (Fin capacity)) (wantsWrite writable : Bool)
  | setTimer (watch : Option (Fin capacity)) (timeoutMs : Int)
  | remove (watch : Option (Fin capacity))
  | callback (wsi : Nat) (reason : Reason)
  | visit (slot : Fin capacity)

def World.step (w : World capacity) : Act capacity → World capacity
  | .add args given => w.add args given
  | .setWrite watch wantsWrite writable => w.setWrite watch wantsWrite writable
  | .setTimer watch timeoutMs => w.setTimer watch timeoutMs
  | .remove watch => w.remove watch
  | .callback wsi reason => w.callback wsi reason
  | .visit slot => w.visit slot

/-- A runtime that was just created. -/
def World.fresh (runtime : Runtime capacity) : World capacity :=
  ⟨runtime, [], 0, 0, [], [], [], [], false⟩

/-! ### Who owns a descriptor -/

/-- Each connection is the one of its slot, which is active and has a callback; a descriptor is
closed, leaked or that of a connection. -/
structure Owned (w : World capacity) : Prop where
  unharmed : w.fault = false
  consistent : Consistent w.runtime
  held : ∀ i id, (w.runtime.watches i).wsi = some id →
    (w.runtime.watches i).active = true ∧ ∃ fd, ⟨id, i, fd⟩ ∈ w.wsis
  callable : ∀ i, (w.runtime.watches i).active = true → (w.runtime.watches i).readyFn ≠ none
  own : ∀ wsi ∈ w.wsis, (w.runtime.watches wsi.slot).wsi = some wsi.id
  distinct : (w.wsis.map Wsi.id).Nodup
  issued : ∀ wsi ∈ w.wsis, wsi.id < w.nextWsi
  shared : w.opened.Perm (w.closed ++ w.leaked ++ w.wsis.map Wsi.fd)
  once : w.opened.Nodup
  numbered : ∀ fd ∈ w.opened, fd < w.nextFd
  told : ∀ call ∈ w.calls, call.watch.active = true ∧ call.watch.readyFn ≠ none

variable {w : World capacity}

/-- A slot that is given a callable watch, or an inactive one. -/
private theorem set_callable {runtime : Runtime capacity} {i : Fin capacity} {watch : Watch}
    (callable : ∀ j, (runtime.watches j).active = true → (runtime.watches j).readyFn ≠ none)
    (given : watch.active = true → watch.readyFn ≠ none) (j : Fin capacity) :
    ((runtime.set i watch).watches j).active = true →
      ((runtime.set i watch).watches j).readyFn ≠ none := by
  by_cases same : j = i
  · subst same
    rw [set_watches_self]
    exact given
  · rw [set_watches_ne watch same]
    exact callable j

section Closing

variable (owned : Owned w) {wsi : Wsi capacity} (member : wsi ∈ w.wsis)

include owned member

theorem Owned.same_id {other : Wsi capacity} (there : other ∈ w.wsis) (same : other.id = wsi.id) :
    other = wsi :=
  List.inj_on_of_nodup_map owned.distinct there member same

theorem Owned.find_eq : w.wsis.find? (fun other => other.id = wsi.id) = some wsi := by
  cases found : w.wsis.find? (fun other => other.id = wsi.id) with
  | none =>
    have missing := List.find?_eq_none.mp found wsi member
    simp at missing
  | some other =>
    have same : other.id = wsi.id := by simpa using List.find?_some found
    rw [owned.same_id member (List.mem_of_find?_eq_some found) same]

theorem Owned.close_eq : w.close wsi.id =
    { w with
      runtime := w.runtime.set wsi.slot { w.runtime.watches wsi.slot with wsi := none }
      wsis := w.wsis.erase wsi
      closed := w.closed ++ [wsi.fd] } := by
  rw [World.close, owned.find_eq member]
  rfl

/-- Closing a connection frees its slot of it and closes its descriptor. -/
theorem Owned.close : Owned (w.close wsi.id) := by
  have nodup := owned.distinct.of_map
  have others {other : Wsi capacity} (left : other ∈ w.wsis.erase wsi) :
      other ∈ w.wsis ∧ other.slot ≠ wsi.slot := by
    obtain ⟨apart, there⟩ := nodup.mem_erase_iff.mp left
    refine ⟨there, fun same => apart (owned.same_id member there ?_)⟩
    have ids := owned.own other there
    rw [same, owned.own wsi member] at ids
    exact (Option.some.inj ids).symm
  rw [owned.close_eq member]
  refine ⟨owned.unharmed, owned.consistent.set_same rfl, ?_, ?_, ?_, ?_, ?_, ?_, owned.once,
    owned.numbered, owned.told⟩
  · intro i id here
    change ((w.runtime.set wsi.slot _).watches i).wsi = some id at here
    change ((w.runtime.set wsi.slot _).watches i).active = true ∧ _
    by_cases same : i = wsi.slot
    · subst same
      rw [set_watches_self] at here
      cases here
    · rw [set_watches_ne _ same] at here ⊢
      obtain ⟨active, fd, there⟩ := owned.held i id here
      refine ⟨active, fd, nodup.mem_erase_iff.mpr ⟨fun equal => same ?_, there⟩⟩
      exact congrArg Wsi.slot equal
  · exact set_callable owned.callable (owned.callable wsi.slot)
  · intro other left
    obtain ⟨there, apart⟩ := others left
    exact (congrArg Watch.wsi (set_watches_ne _ apart)).trans (owned.own other there)
  · exact owned.distinct.sublist ((List.erase_sublist).map _)
  · exact fun other left => owned.issued other (others left).1
  · have fds := (List.perm_cons_erase member).map Wsi.fd
    refine owned.shared.trans ((fds.append_left _).trans ?_)
    rw [List.map_cons, List.append_assoc, List.append_assoc, List.append_assoc,
      List.singleton_append]
    exact (List.perm_middle.append_left _).trans (List.Perm.of_eq rfl)

end Closing

/-! ### Calls -/

theorem Owned.use (owned : Owned w) {i : Fin capacity} {id : Nat}
    (here : (w.runtime.watches i).wsi = some id) : w.use id = w := by
  obtain ⟨-, fd, there⟩ := owned.held i id here
  exact if_pos (List.any_eq_true.mpr ⟨_, there, decide_eq_true rfl⟩)

/-- A slot that keeps its connection and its flag. -/
theorem Owned.set_same (owned : Owned w) {i : Fin capacity} {watch : Watch}
    (wsi : watch.wsi = (w.runtime.watches i).wsi)
    (readyFn : watch.readyFn = (w.runtime.watches i).readyFn)
    (active : watch.active = (w.runtime.watches i).active) :
    Owned { w with runtime := w.runtime.set i watch } := by
  have slot (j : Fin capacity) : ((w.runtime.set i watch).watches j).wsi =
      (w.runtime.watches j).wsi ∧ ((w.runtime.set i watch).watches j).active =
        (w.runtime.watches j).active := by
    by_cases same : j = i
    · subst same
      rw [set_watches_self]
      exact ⟨wsi, active⟩
    · rw [set_watches_ne watch same]
      exact ⟨rfl, rfl⟩
  refine { owned with
    consistent := owned.consistent.set_same active, held := fun j id here => ?_,
    callable := set_callable owned.callable (by rw [active, readyFn]; exact owned.callable i),
    own := fun other there => (slot other.slot).1.trans (owned.own other there) }
  obtain ⟨flag, fd, there⟩ := owned.held j id ((slot j).1.symm.trans here)
  exact ⟨(slot j).2.trans flag, fd, there⟩

/-- A slot without connection is given to another watch without one. -/
theorem Owned.replace (owned : Owned w) {i : Fin capacity}
    (unset : (w.runtime.watches i).wsi = none) {watch : Watch} (idle : watch.wsi = none)
    (inactive : watch.active = false) {count : BitVec 64}
    (consistent : Consistent { w.runtime.set i watch with count }) :
    Owned { w with runtime := { w.runtime.set i watch with count } } := by
  have callable : watch.active = true → watch.readyFn ≠ none := by
    rw [inactive]
    exact nofun
  refine { owned with
    consistent, held := fun j id here => ?_, own := fun other there => ?_
    callable := set_callable owned.callable callable }
  · change ((w.runtime.set i watch).watches j).wsi = some id at here
    change ((w.runtime.set i watch).watches j).active = true ∧ _
    by_cases same : j = i
    · subst same
      rw [set_watches_self, idle] at here
      cases here
    · rw [set_watches_ne watch same] at here ⊢
      exact owned.held j id here
  · have apart : other.slot ≠ i := by
      intro same
      have wsi := owned.own other there
      rw [same, unset] at wsi
      cases wsi
    exact (congrArg Watch.wsi (set_watches_ne watch apart)).trans (owned.own other there)

theorem Owned.setWrite (owned : Owned w) (watch : Option (Fin capacity))
    (wantsWrite writable : Bool) : Owned (w.setWrite watch wantsWrite writable) := by
  cases watch with
  | none => exact owned
  | some i =>
    rw [World.setWrite, alphaLwsWatchSetWrite]
    cases here : (w.runtime.watches i).wsi with
    | none => exact owned
    | some id =>
      have after : Owned
          { w with runtime := w.runtime.set i { w.runtime.watches i with wantsWrite } } :=
        owned.set_same rfl rfl rfl
      have kept : ((w.runtime.set i { w.runtime.watches i with wantsWrite }).watches i).wsi =
          some id := by
        rw [set_watches_self]
        exact here
      dsimp only
      rw [if_neg (Option.some_ne_none id)]
      split
      · rw [after.use kept]
        exact after
      · exact after

theorem Owned.setTimer (owned : Owned w) (watch : Option (Fin capacity)) (timeoutMs : Int) :
    Owned (w.setTimer watch timeoutMs) := by
  unfold World.setTimer
  split
  · exact owned
  · split
    · exact owned
    next id here =>
      split
      · exact owned
      · rw [owned.use here]
        exact owned

theorem Owned.ready (owned : Owned w) {i : Fin capacity}
    (active : (w.runtime.watches i).active = true) (flags : Bool × Bool × Bool) :
    Owned (w.ready i flags) where
  unharmed := owned.unharmed
  consistent := owned.consistent
  held := owned.held
  callable := owned.callable
  own := owned.own
  distinct := owned.distinct
  issued := owned.issued
  shared := owned.shared
  once := owned.once
  numbered := owned.numbered
  told call made := by
    rcases List.mem_append.mp made with earlier | latest
    · exact owned.told call earlier
    · rw [List.mem_singleton.mp latest]
      exact ⟨active, owned.callable i active⟩

theorem Owned.visit (owned : Owned w) (i : Fin capacity) : Owned (w.visit i) := by
  unfold World.visit
  split
  next wants =>
    rw [Bool.and_eq_true] at wants
    exact owned.ready wants.1 _
  next => exact owned

theorem Owned.callback (owned : Owned w) (id : Nat) (reason : Reason) :
    Owned (w.callback id reason) := by
  unfold World.callback
  split
  · exact owned
  next wsi found =>
    have member := List.mem_of_find?_eq_some found
    obtain rfl : wsi.id = id := by simpa using List.find?_some found
    split
    · exact owned.close member
    · split
      · exact owned
      next flags called =>
        exact owned.ready (owned.held wsi.slot wsi.id (owned.own wsi member)).1 flags

/-- A slot is rid of its connection before it is given up. -/
theorem Owned.closeSlot (owned : Owned w) (i : Fin capacity) :
    Owned (w.closeSlot i) ∧ ((w.closeSlot i).runtime.watches i).wsi = none ∧
      ((w.closeSlot i).runtime.watches i).active = (w.runtime.watches i).active ∧
      ∀ j, (w.runtime.watches j).wsi = none → ((w.closeSlot i).runtime.watches j).wsi = none := by
  unfold World.closeSlot
  split
  next unset => exact ⟨owned, unset, rfl, fun _ => id⟩
  next id here =>
    obtain ⟨-, fd, member⟩ := owned.held i id here
    refine ⟨owned.close member, ?_⟩
    rw [owned.close_eq member]
    change ((w.runtime.set i _).watches i).wsi = none ∧
      ((w.runtime.set i _).watches i).active = _ ∧
      ∀ j, _ → ((w.runtime.set i _).watches j).wsi = none
    rw [set_watches_self]
    refine ⟨rfl, rfl, fun j unset => ?_⟩
    by_cases same : j = i
    · subst same
      rw [set_watches_self]
    · rw [set_watches_ne _ same]
      exact unset

theorem Owned.remove (owned : Owned w) (watch : Option (Fin capacity)) :
    Owned (w.remove watch) := by
  unfold World.remove
  split
  · exact owned
  next i =>
    split
    · exact owned
    next active =>
      obtain ⟨closed, unset, flag, -⟩ := owned.closeSlot i
      have member : i ∈ (w.closeSlot i).runtime.active := by
        rw [mem_active, flag]
        simpa using active
      have removed : alphaLwsWatchRemove (w.closeSlot i).runtime (some i) false =
          { (w.closeSlot i).runtime.set i
              { (w.closeSlot i).runtime.watches i with active := false } with
            count := (w.closeSlot i).runtime.count - 1 } := by
        rw [alphaLwsWatchRemove, if_neg (by simpa using mem_active.mp member)]
        rfl
      change Owned { w.closeSlot i with
        runtime := alphaLwsWatchRemove (w.closeSlot i).runtime (some i) false }
      rw [removed]
      refine closed.replace unset ?_ rfl (closed.consistent.removed member rfl)
      exact unset

/-! ### New descriptors -/

/-- One more descriptor, wherever it goes. -/
private theorem Owned.open (owned : Owned w) {rest : List Nat}
    (goes : rest.Perm (w.nextFd :: (w.closed ++ w.leaked ++ w.wsis.map Wsi.fd))) :
    (w.opened ++ [w.nextFd]).Perm rest ∧ (w.opened ++ [w.nextFd]).Nodup ∧
      ∀ fd ∈ w.opened ++ [w.nextFd], fd < w.nextFd + 1 := by
  refine ⟨?_, ?_, fun fd member => ?_⟩
  · refine (List.perm_append_singleton w.nextFd w.opened).trans ?_
    exact (owned.shared.cons w.nextFd).trans goes.symm
  · rw [← List.concat_eq_append, List.nodup_concat]
    exact ⟨fun member => absurd (owned.numbered _ member) (lt_irrefl _), owned.once⟩
  · rcases List.mem_append.mp member with old | new
    · exact Nat.lt_succ_of_lt (owned.numbered fd old)
    · rw [List.mem_singleton.mp new]
      exact Nat.lt_succ_self _

/-- A descriptor that is closed or lost. -/
private theorem Owned.pass (owned : Owned w) {closed leaked : List Nat}
    (goes : (closed ++ leaked).Perm (w.nextFd :: (w.closed ++ w.leaked))) :
    Owned { w with closed, leaked, opened := w.opened ++ [w.nextFd], nextFd := w.nextFd + 1 } := by
  obtain ⟨shared, once, numbered⟩ := owned.open (goes.append_right (w.wsis.map Wsi.fd))
  exact { owned with shared, once, numbered }

/-- A descriptor that libwebsockets adopts, in a slot that is free. -/
private theorem Owned.adopt (owned : Owned w) {i : Fin capacity}
    (unset : (w.runtime.watches i).wsi = none) {watch : Watch} (own : watch.wsi = some w.nextWsi)
    (active : watch.active = true) (callable : watch.readyFn ≠ none) {count : BitVec 64}
    (consistent : Consistent { w.runtime.set i watch with count }) :
    Owned { w with
      runtime := { w.runtime.set i watch with count }
      wsis := w.wsis ++ [⟨w.nextWsi, i, w.nextFd⟩]
      nextWsi := w.nextWsi + 1
      opened := w.opened ++ [w.nextFd]
      nextFd := w.nextFd + 1 } := by
  have goes : (w.closed ++ w.leaked ++
      (w.wsis ++ [(⟨w.nextWsi, i, w.nextFd⟩ : Wsi capacity)]).map Wsi.fd).Perm
      (w.nextFd :: (w.closed ++ w.leaked ++ w.wsis.map Wsi.fd)) := by
    rw [List.map_append, ← List.append_assoc]
    exact List.perm_append_singleton _ _
  obtain ⟨shared, once, numbered⟩ := owned.open goes
  refine ⟨owned.unharmed, consistent, fun j id here => ?_,
    set_callable owned.callable fun _ => callable, fun other there => ?_, ?_,
    fun other there => ?_, shared, once, numbered, owned.told⟩
  · change ((w.runtime.set i watch).watches j).wsi = some id at here
    change ((w.runtime.set i watch).watches j).active = true ∧ _
    by_cases same : j = i
    · subst same
      rw [set_watches_self] at here ⊢
      obtain rfl := Option.some.inj (own.symm.trans here)
      exact ⟨active, w.nextFd, List.mem_append_right _ (List.mem_singleton_self _)⟩
    · rw [set_watches_ne watch same] at here ⊢
      obtain ⟨flag, fd, there⟩ := owned.held j id here
      exact ⟨flag, fd, List.mem_append_left _ there⟩
  · change ((w.runtime.set i watch).watches other.slot).wsi = some other.id
    rcases List.mem_append.mp there with old | new
    · have apart : other.slot ≠ i := by
        intro same
        have wsi := owned.own other old
        rw [same, unset] at wsi
        cases wsi
      rw [set_watches_ne watch apart]
      exact owned.own other old
    · rw [List.mem_singleton.mp new, set_watches_self]
      exact own
  · rw [List.map_append, List.map_singleton, ← List.concat_eq_append, List.nodup_concat]
    refine ⟨fun member => ?_, owned.distinct⟩
    obtain ⟨other, old, same⟩ := List.mem_map.mp member
    exact absurd (owned.issued other old) (by rw [same]; exact lt_irrefl _)
  · rcases List.mem_append.mp there with old | new
    · exact Nat.lt_succ_of_lt (owned.issued other old)
    · rw [List.mem_singleton.mp new]
      exact Nat.lt_succ_self _

theorem Owned.add (fits : capacity ≤ 256) (owned : Owned w) (args : AddArgs) (given : Adoption) :
    Owned (w.add args given) := by
  unfold World.add alphaLwsWatchAdd
  by_cases invalid : args.fd < 0 ∨ args.readyFn = none ∨ args.out = false
  · rw [if_pos invalid, if_pos (by tauto)]
    exact owned
  rw [if_neg invalid]
  by_cases full : w.runtime.count.toNat = capacity
  · rw [if_pos full, if_pos (by tauto)]
    exact owned
  rw [if_neg full]
  cases dup : given.dup with
  | false =>
    rw [if_neg Bool.false_ne_true, if_pos (show (-1 : Int) < 0 by decide),
      if_pos (by simp)]
    exact owned
  | true =>
    have refused : ¬(args.fd < 0 ∨ args.readyFn = none ∨ args.out = false ∨
        w.runtime.count.toNat = capacity ∨ true = false) := by
      simpa [full] using invalid
    obtain ⟨i, found⟩ := owned.consistent.search_finds full
    have free := firstInactive_some found
    -- A slot that is not active has no connection.
    have unset : (w.runtime.watches i).wsi = none := by
      refine Option.eq_none_iff_forall_not_mem.mpr fun id here => free ?_
      exact mem_active.mpr (owned.held i id here).1
    rw [if_pos rfl, if_neg (Int.not_lt.mpr (Int.natCast_nonneg _)), found, if_neg refused]
    cases adopts : given.adopts with
    | true =>
      exact owned.adopt unset rfl rfl (by tauto) (owned.consistent.added fits free rfl full)
    | false =>
      let watch : Watch :=
        ⟨none, args.readyFn, args.callbackCtx, args.fd, args.wantsWrite, false⟩
      have kept : Consistent { w.runtime.set i watch with count := w.runtime.count } :=
        owned.consistent.set_same (by simpa [watch] using free)
      have after := owned.replace unset rfl rfl kept
      cases closes : given.closes with
      | true =>
        refine after.pass ?_
        rw [List.append_assoc]
        exact List.perm_middle
      | false =>
        refine after.pass ?_
        rw [← List.append_assoc]
        exact List.perm_append_singleton _ _

/-! ### Runs -/

theorem Owned.fresh {runtime : Runtime capacity} (consistent : Consistent runtime)
    (zeroed : runtime.watches = fun _ => .zeroed) : Owned (World.fresh runtime) where
  unharmed := rfl
  consistent := consistent
  held i id here := by
    change (runtime.watches i).wsi = some id at here
    rw [zeroed] at here
    cases here
  callable i active := by
    change (runtime.watches i).active = true at active
    rw [zeroed] at active
    cases active
  own := nofun
  distinct := List.nodup_nil
  issued := nofun
  shared := .nil
  once := List.nodup_nil
  numbered := nofun
  told := nofun

theorem Owned.step (fits : capacity ≤ 256) (owned : Owned w) (act : Act capacity) :
    Owned (w.step act) := by
  cases act with
  | add args given => exact owned.add fits args given
  | setWrite watch wantsWrite writable => exact owned.setWrite watch wantsWrite writable
  | setTimer watch timeoutMs => exact owned.setTimer watch timeoutMs
  | remove watch => exact owned.remove watch
  | callback wsi reason => exact owned.callback wsi reason
  | visit slot => exact owned.visit slot

/-- The loop of `alpha_lws_runtime_destroy` leaves the slots it has passed without connection. -/
theorem Owned.closeSlots (owned : Owned w) (slots : List (Fin capacity)) :
    Owned (slots.foldl World.closeSlot w) ∧
      (∀ i, (w.runtime.watches i).wsi = none →
        ((slots.foldl World.closeSlot w).runtime.watches i).wsi = none) ∧
      ∀ i ∈ slots, ((slots.foldl World.closeSlot w).runtime.watches i).wsi = none := by
  induction slots generalizing w with
  | nil => exact ⟨owned, fun _ => id, nofun⟩
  | cons slot slots ih =>
    obtain ⟨closed, unset, -, others⟩ := owned.closeSlot slot
    obtain ⟨after, kept, passed⟩ := ih closed
    refine ⟨after, fun i none => kept i (others i none), fun i member => ?_⟩
    rcases List.mem_cons.mp member with rfl | later
    · exact kept i unset
    · exact passed i later

theorem Owned.closeSlots_wsis (owned : Owned w) :
    ((List.finRange capacity).foldl World.closeSlot w).wsis = [] := by
  obtain ⟨closed, -, unset⟩ := owned.closeSlots (List.finRange capacity)
  refine List.eq_nil_iff_forall_not_mem.mpr fun wsi member => ?_
  have own := closed.own wsi member
  rw [unset wsi.slot (List.mem_finRange _)] at own
  cases own

/-- The loop leaves libwebsockets nothing to close. -/
theorem Owned.destroy_eq (owned : Owned w) :
    w.destroy = (List.finRange capacity).foldl World.closeSlot w := by
  rw [World.destroy, owned.closeSlots_wsis]
  rfl

theorem Owned.destroy (owned : Owned w) : Owned w.destroy ∧ w.destroy.wsis = [] := by
  rw [owned.destroy_eq]
  exact ⟨(owned.closeSlots _).1, owned.closeSlots_wsis⟩

theorem create_zeroed {out : Bool} {made : Creation} {created : Runtime capacity}
    (creates : alphaLwsRuntimeCreate capacity out made = (.ok, some created)) :
    created.watches = fun _ => .zeroed := by
  unfold alphaLwsRuntimeCreate at creates
  repeat' split at creates
  all_goals cases creates
  rfl

theorem run_owned {out : Bool} {made : Creation} {created : Runtime capacity}
    (creates : alphaLwsRuntimeCreate capacity out made = (.ok, some created))
    (acts : List (Act capacity)) :
    Owned (Runs.run World.step (World.fresh created) acts) := by
  obtain ⟨fits, consistent⟩ := create_ok creates
  exact Runs.run_preserves World.step Owned (fun _ act owned => owned.step fits act) _ acts
    (.fresh consistent (create_zeroed creates))

/-! ### What is leaked -/

/-- libwebsockets closes the descriptor it does not adopt. -/
def Act.Tidy : Act capacity → Prop
  | .add _ given => given.adopts = true ∨ given.closes = true
  | _ => True

theorem close_leaked (w : World capacity) (id : Nat) : (w.close id).leaked = w.leaked := by
  unfold World.close
  split <;> rfl

theorem closeSlot_leaked (w : World capacity) (i : Fin capacity) :
    (w.closeSlot i).leaked = w.leaked := by
  unfold World.closeSlot
  split
  · rfl
  · exact close_leaked w _

theorem use_leaked (w : World capacity) (id : Nat) : (w.use id).leaked = w.leaked := by
  unfold World.use
  split <;> rfl

theorem add_leaked {args : AddArgs} {given : Adoption}
    (tidy : given.adopts = true ∨ given.closes = true) : (w.add args given).leaked = w.leaked := by
  unfold World.add
  dsimp only
  split
  · rfl
  · split
    · rfl
    · split
      · rfl
      next refused =>
        rw [if_pos (tidy.resolve_left refused)]

theorem step_leaked {act : Act capacity} (tidy : act.Tidy) : (w.step act).leaked = w.leaked := by
  cases act with
  | add args given => exact add_leaked tidy
  | setWrite watch wantsWrite writable =>
    change (w.setWrite watch wantsWrite writable).leaked = w.leaked
    unfold World.setWrite
    repeat' split
    all_goals first | rfl | exact use_leaked _ _
  | setTimer watch timeoutMs =>
    change (w.setTimer watch timeoutMs).leaked = w.leaked
    unfold World.setTimer
    repeat' split
    all_goals first | rfl | exact use_leaked _ _
  | remove watch =>
    change (w.remove watch).leaked = w.leaked
    unfold World.remove
    split
    · rfl
    next i =>
      split
      · rfl
      · exact closeSlot_leaked w i
  | callback wsi reason =>
    change (w.callback wsi reason).leaked = w.leaked
    unfold World.callback
    repeat' split
    all_goals first | rfl | exact close_leaked _ _
  | visit slot =>
    change (w.visit slot).leaked = w.leaked
    unfold World.visit
    split <;> rfl

theorem run_leaked {acts : List (Act capacity)} (tidy : ∀ act ∈ acts, act.Tidy) :
    (Runs.run World.step w acts).leaked = w.leaked :=
  Runs.run_invariant World.step (fun _ => Act.Tidy) (fun after => after.leaked = w.leaked)
    (fun _ _ same tidy => (step_leaked tidy).trans same) w acts rfl
    (Runs.along_of_forall World.step Act.Tidy w acts tidy)

theorem closeSlots_leaked (slots : List (Fin capacity)) :
    (slots.foldl World.closeSlot w).leaked = w.leaked := by
  induction slots generalizing w with
  | nil => rfl
  | cons slot slots ih => exact ih.trans (closeSlot_leaked w slot)

/-! ### Destruction -/

/-- Whatever the owners and libwebsockets do in whatever order, no connection is touched after it
is closed, `ready_fn` is called for watches that are active and never through a null pointer, and
`alpha_lws_runtime_destroy` leaves no connection open: each duplicate has been closed exactly once,
unless libwebsockets neither adopted nor closed it. -/
theorem destroy_closes_once {out : Bool} {made : Creation} {created : Runtime capacity}
    (creates : alphaLwsRuntimeCreate capacity out made = (.ok, some created))
    (acts : List (Act capacity)) (run : Runs.run World.step (World.fresh created) acts = w) :
    w.fault = false ∧ w.destroy.fault = false ∧
      (∀ call ∈ w.calls, call.watch.active = true ∧ call.watch.readyFn ≠ none) ∧
      (∀ i id, (w.runtime.watches i).wsi = some id → ∃ fd, ⟨id, i, fd⟩ ∈ w.wsis) ∧
      w.destroy.wsis = [] ∧ w.destroy.opened.Nodup ∧
      w.destroy.opened.Perm (w.destroy.closed ++ w.destroy.leaked) ∧
      ((∀ act ∈ acts, act.Tidy) → w.destroy.leaked = []) := by
  have owned : Owned w := run ▸ run_owned creates acts
  obtain ⟨destroyed, idle⟩ := owned.destroy
  refine ⟨owned.unharmed, destroyed.unharmed, owned.told, fun i id here => (owned.held i id here).2,
    idle, destroyed.once, ?_, fun tidy => ?_⟩
  · have shared := destroyed.shared
    rwa [idle, List.map_nil, List.append_nil] at shared
  · rw [owned.destroy_eq, closeSlots_leaked, ← run, run_leaked tidy]
    rfl

/-- libwebsockets closes the first connection by itself; the owner gives its slot up and watches
another descriptor, which is closed at the end. One that was not adopted is lost. -/
theorem destroy_after_lost_adoption :
    let args : AddArgs := ⟨3, true, some 1, none, true⟩
    let w := Runs.run World.step (World.fresh (⟨fun _ => .zeroed, 0⟩ : Runtime 2))
      [.add args ⟨true, true, false⟩, .add args ⟨true, false, false⟩, .visit 0,
        .callback 0 .rawClose, .setWrite (some 0) true true, .remove (some 0),
        .add args ⟨true, true, false⟩]
    w.destroy.closed = [0, 2] ∧ w.destroy.leaked = [1] ∧ w.calls.length = 1 ∧
      w.destroy.fault = false ∧ w.destroy.opened.Perm (w.destroy.closed ++ w.destroy.leaked) := by
  have creates : alphaLwsRuntimeCreate 2 true ⟨true, true, true, true⟩ =
      (.ok, some ⟨fun _ => .zeroed, 0⟩) := rfl
  obtain ⟨-, unharmed, -, -, -, -, shared, -⟩ := destroy_closes_once creates _ rfl
  exact ⟨by decide, by decide, by decide, unharmed, shared⟩

end AlphaPipeline.Lws

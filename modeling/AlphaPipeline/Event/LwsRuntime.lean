import AlphaPipeline.CRuntime
import AlphaPipeline.Library.Runs

/-!
# The watch registry

`lws_runtime.c` keeps a fixed array of watches and a count. A watch goes by its index; its
pointer back to the runtime is the runtime itself. What `dup` and libwebsockets answer is given
with a call. The array stands for the set of its active slots, and the count for the size of it.
-/
namespace AlphaPipeline.Lws

/-- `struct alpha_lws_watch`; pointers are numbers, a null one is absent. -/
structure Watch where
  wsi : Option Nat
  readyFn : Option Nat
  callbackCtx : Option Nat
  sourceFd : Int
  wantsWrite : Bool
  active : Bool
  deriving DecidableEq

/-- A slot as `calloc` leaves it. -/
def Watch.zeroed : Watch := ⟨none, none, none, 0, false, false⟩

/-- `struct alpha_lws_runtime`, without its context. -/
structure Runtime (capacity : Nat) where
  watches : Fin capacity → Watch
  count : BitVec 64

variable {capacity : Nat}

/-! ### The code -/

/-- Which allocations of `alpha_lws_runtime_create` succeed. -/
structure Creation where
  runtime : Bool
  watches : Bool
  context : Bool
  vhost : Bool

/-- `alpha_lws_runtime_create`; `out` says whether a place for the result is given. -/
def alphaLwsRuntimeCreate (watchCapacity : Nat) (out : Bool) (made : Creation) :
    AlphaErr × Option (Runtime watchCapacity) :=
  if watchCapacity = 0 ∨ watchCapacity > 256 ∨ !out then (.invalidArg, none)
  else if !made.runtime then (.io, none)
  else if !made.watches then (.io, none)
  else if !made.context then (.io, none)
  else if !made.vhost then (.io, none)
  else (.ok, some ⟨fun _ => .zeroed, 0⟩)

/-- The arguments of `alpha_lws_watch_add` besides the runtime. -/
structure AddArgs where
  fd : Int
  wantsWrite : Bool
  readyFn : Option Nat
  callbackCtx : Option Nat
  out : Bool

def AddArgs.Valid (args : AddArgs) : Prop :=
  0 ≤ args.fd ∧ args.readyFn ≠ none ∧ args.out = true

/-- The search of `alpha_lws_watch_add`. -/
def firstInactive (runtime : Runtime capacity) : Option (Fin capacity) :=
  (List.finRange capacity).find? fun i => !(runtime.watches i).active

def Runtime.set (runtime : Runtime capacity) (i : Fin capacity) (watch : Watch) :
    Runtime capacity :=
  { runtime with watches := Function.update runtime.watches i watch }

/-- `alpha_lws_watch_add`: the status, the runtime and the watch stored in `out`. `dupFd` is what
`dup` answers and `adopted` what libwebsockets makes of the descriptor. -/
def alphaLwsWatchAdd (runtime : Runtime capacity) (args : AddArgs) (dupFd : Int)
    (adopted : Option Nat) : AlphaErr × Runtime capacity × Option (Fin capacity) :=
  if args.fd < 0 ∨ args.readyFn = none ∨ args.out = false then (.invalidArg, runtime, none)
  else if runtime.count.toNat = capacity then (.range, runtime, none)
  else if dupFd < 0 then (.io, runtime, none)
  else
    match firstInactive runtime with
    | none => (.range, runtime, none)
    | some i =>
      let watch : Watch := ⟨adopted, args.readyFn, args.callbackCtx, args.fd, args.wantsWrite, true⟩
      match adopted with
      | none => (.io, runtime.set i { watch with active := false }, none)
      | some _ => (.ok, { runtime.set i watch with count := runtime.count + 1 }, some i)

/-- `alpha_lws_watch_set_write`; `writable` says whether libwebsockets takes the request. -/
def alphaLwsWatchSetWrite (runtime : Runtime capacity) (watch : Option (Fin capacity))
    (wantsWrite writable : Bool) : AlphaErr × Runtime capacity :=
  match watch with
  | none => (.invalidArg, runtime)
  | some i =>
    if (runtime.watches i).wsi = none then (.invalidArg, runtime)
    else
      (if wantsWrite && !writable then .io else .ok,
        runtime.set i { runtime.watches i with wantsWrite })

/-- `alpha_lws_watch_remove`; `closed` says whether the callback for the closing is run in
`lws_wsi_close`. -/
def alphaLwsWatchRemove (runtime : Runtime capacity) (watch : Option (Fin capacity))
    (closed : Bool) : Runtime capacity :=
  match watch with
  | none => runtime
  | some i =>
    if !(runtime.watches i).active then runtime
    else
      let wsi := if closed then none else (runtime.watches i).wsi
      { runtime.set i { runtime.watches i with wsi, active := false } with
        count := runtime.count - 1 }

/-- The reasons `foreign_fd_callback` tells apart. -/
inductive Reason where
  | rawRx
  | rawWriteable
  | timer
  | rawClose
  | other
  deriving DecidableEq

/-- `foreign_fd_callback` on the user data of the descriptor: the runtime, and what `ready_fn` is
called with. -/
def foreignFdCallback (runtime : Runtime capacity) (watch : Option (Fin capacity))
    (reason : Reason) : Runtime capacity × Option (Bool × Bool × Bool) :=
  match watch with
  | none => (runtime, none)
  | some i =>
    match reason with
    | .rawRx => (runtime, some (true, false, false))
    | .rawWriteable =>
      (runtime, if (runtime.watches i).wantsWrite then some (false, true, false) else none)
    | .timer => (runtime, some (false, false, true))
    | .rawClose => (runtime.set i { runtime.watches i with wsi := none }, none)
    | .other => (runtime, none)

/-- A call of the owner or of libwebsockets. -/
inductive Event (capacity : Nat) where
  | add (args : AddArgs) (dupFd : Int) (adopted : Option Nat)
  | setWrite (watch : Option (Fin capacity)) (wantsWrite writable : Bool)
  | remove (watch : Option (Fin capacity)) (closed : Bool)
  | callback (watch : Option (Fin capacity)) (reason : Reason)

def step (runtime : Runtime capacity) : Event capacity → Runtime capacity
  | .add args dupFd adopted => (alphaLwsWatchAdd runtime args dupFd adopted).2.1
  | .setWrite watch wantsWrite writable =>
    (alphaLwsWatchSetWrite runtime watch wantsWrite writable).2
  | .remove watch closed => alphaLwsWatchRemove runtime watch closed
  | .callback watch reason => (foreignFdCallback runtime watch reason).1

/-! ### The set of active slots -/

/-- The active slots. -/
def Runtime.active (runtime : Runtime capacity) : Finset (Fin capacity) :=
  Finset.univ.filter fun i => (runtime.watches i).active = true

variable {runtime : Runtime capacity} {i j : Fin capacity}

@[simp] theorem mem_active : i ∈ runtime.active ↔ (runtime.watches i).active = true := by
  simp [Runtime.active]

theorem set_watches_ne (watch : Watch) (other : j ≠ i) :
    (runtime.set i watch).watches j = runtime.watches j :=
  Function.update_of_ne other _ _

@[simp] theorem set_watches_self (watch : Watch) : (runtime.set i watch).watches i = watch :=
  Function.update_self _ _ _

theorem active_set (watch : Watch) :
    (runtime.set i watch).active =
      if watch.active = true then insert i runtime.active else runtime.active.erase i := by
  ext j
  by_cases same : j = i
  · subst same
    split <;> simp_all
  · rw [mem_active, set_watches_ne watch same]
    split <;> simp [same]

/-- A slot that keeps its flag keeps the set. -/
theorem active_set_same {watch : Watch} (same : watch.active = (runtime.watches i).active) :
    (runtime.set i watch).active = runtime.active := by
  ext j
  by_cases here : j = i
  · subst here
    simp [same]
  · rw [mem_active, mem_active, set_watches_ne watch here]

/-- The count is the number of active slots. -/
def Consistent (runtime : Runtime capacity) : Prop :=
  runtime.count.toNat = runtime.active.card

theorem Consistent.count_le (consistent : Consistent runtime) : runtime.count.toNat ≤ capacity := by
  rw [consistent]
  exact (Finset.card_le_univ _).trans (Fintype.card_fin capacity).le

theorem Consistent.full_iff (consistent : Consistent runtime) :
    runtime.count.toNat = capacity ↔ runtime.active = Finset.univ := by
  rw [consistent, ← Finset.card_eq_iff_eq_univ, Fintype.card_fin]

theorem firstInactive_none : firstInactive runtime = none ↔ runtime.active = Finset.univ := by
  rw [firstInactive, List.find?_eq_none, Finset.eq_univ_iff_forall]
  simp

theorem firstInactive_some (found : firstInactive runtime = some i) : i ∉ runtime.active := by
  have flag := List.find?_some found
  simpa using flag

/-- The second check for room is not reached. -/
theorem Consistent.search_finds (consistent : Consistent runtime)
    (room : runtime.count.toNat ≠ capacity) : ∃ i, firstInactive runtime = some i := by
  rw [← Option.ne_none_iff_exists']
  exact fun none => room (consistent.full_iff.mpr (firstInactive_none.mp none))

/-! ### What the calls do to the set -/

/-- What `alpha_lws_watch_add` can do. -/
inductive Added (runtime : Runtime capacity) (args : AddArgs) :
    AlphaErr × Runtime capacity × Option (Fin capacity) → Prop
  | refused (status : AlphaErr) (failed : status ≠ .ok)
      (range : status = .range → runtime.count.toNat = capacity)
      (full : args.Valid → runtime.count.toNat = capacity → status = .range) :
      Added runtime args (status, runtime, none)
  | notAdopted (i : Fin capacity) (watch : Watch) (free : i ∉ runtime.active)
      (inactive : watch.active = false) (room : runtime.count.toNat ≠ capacity) :
      Added runtime args (.io, runtime.set i watch, none)
  | added (i : Fin capacity) (watch : Watch) (free : i ∉ runtime.active)
      (active : watch.active = true) (room : runtime.count.toNat ≠ capacity) :
      Added runtime args (.ok, { runtime.set i watch with count := runtime.count + 1 }, some i)

theorem Consistent.add (consistent : Consistent runtime) (args : AddArgs) (dupFd : Int)
    (adopted : Option Nat) :
    Added runtime args (alphaLwsWatchAdd runtime args dupFd adopted) := by
  unfold alphaLwsWatchAdd
  split
  next invalid =>
    refine .refused _ nofun nofun fun valid _ => ?_
    obtain ⟨fd, ready, out⟩ := valid
    rcases invalid with negative | none | none
    · omega
    · exact absurd none ready
    · rw [out] at none
      cases none
  · split
    next full => exact .refused _ nofun (fun _ => full) fun _ _ => rfl
    next room =>
      split
      · exact .refused _ nofun nofun fun _ full => absurd full room
      · obtain ⟨i, found⟩ := consistent.search_finds room
        have free := firstInactive_some found
        rw [found]
        cases adopted with
        | none => exact .notAdopted i _ free rfl room
        | some wsi => exact .added i _ free rfl room

theorem active_erase (free : i ∉ runtime.active) {watch : Watch} (inactive : watch.active = false) :
    (runtime.set i watch).active = runtime.active :=
  active_set_same (by simpa [inactive] using free)

theorem active_insert {watch : Watch} (active : watch.active = true) (count : BitVec 64) :
    Runtime.active { runtime.set i watch with count } = insert i runtime.active :=
  (active_set watch).trans (if_pos active)

theorem Consistent.set_same (consistent : Consistent runtime) {watch : Watch}
    (same : watch.active = (runtime.watches i).active) : Consistent (runtime.set i watch) := by
  rw [Consistent, active_set_same same]
  exact consistent

theorem Consistent.added (consistent : Consistent runtime) (fits : capacity ≤ 256)
    (free : i ∉ runtime.active) {watch : Watch} (active : watch.active = true)
    (room : runtime.count.toNat ≠ capacity) :
    Consistent { runtime.set i watch with count := runtime.count + 1 } := by
  have below := lt_of_le_of_ne consistent.count_le room
  rw [Consistent, active_insert active, Finset.card_insert_of_notMem free, ← consistent,
    BitVec.toNat_add]
  change (runtime.count.toNat + 1) % 2 ^ 64 = _
  omega

/-- The count of a set with an active slot is not zero, so it does not wrap. -/
theorem Consistent.removed (consistent : Consistent runtime) (member : i ∈ runtime.active)
    {watch : Watch} (inactive : watch.active = false) :
    Consistent { runtime.set i watch with count := runtime.count - 1 } := by
  have positive := Finset.card_pos.mpr ⟨i, member⟩
  have bound := runtime.count.isLt
  have erased : Runtime.active { runtime.set i watch with count := runtime.count - 1 } =
      runtime.active.erase i := (active_set watch).trans (if_neg (by simp [inactive]))
  rw [Consistent] at consistent
  rw [Consistent, erased, Finset.card_erase_of_mem member, ← consistent, BitVec.toNat_sub]
  change (2 ^ 64 - 1 + runtime.count.toNat) % 2 ^ 64 = _
  omega

/-- A step keeps the count right, while the capacity is one that the counter holds. -/
theorem Consistent.step (fits : capacity ≤ 256) (consistent : Consistent runtime)
    (event : Event capacity) : Consistent (Lws.step runtime event) := by
  cases event with
  | add args dupFd adopted =>
    change Consistent (alphaLwsWatchAdd runtime args dupFd adopted).2.1
    generalize result : alphaLwsWatchAdd runtime args dupFd adopted = after
    cases result ▸ consistent.add args dupFd adopted with
    | refused => exact consistent
    | notAdopted i watch free inactive =>
      exact consistent.set_same (by simpa [inactive] using free)
    | added i watch free active room => exact consistent.added fits free active room
  | setWrite watch wantsWrite writable =>
    change Consistent (alphaLwsWatchSetWrite runtime watch wantsWrite writable).2
    unfold alphaLwsWatchSetWrite
    split
    · exact consistent
    · split
      · exact consistent
      · exact consistent.set_same rfl
  | remove watch closed =>
    change Consistent (alphaLwsWatchRemove runtime watch closed)
    unfold alphaLwsWatchRemove
    split
    · exact consistent
    · split
      · exact consistent
      next active => exact consistent.removed (by simpa using active) rfl
  | callback watch reason =>
    change Consistent (foreignFdCallback runtime watch reason).1
    unfold foreignFdCallback
    split
    · exact consistent
    · cases reason with
      | rawClose => exact consistent.set_same rfl
      | rawRx => exact consistent
      | rawWriteable => exact consistent
      | timer => exact consistent
      | other => exact consistent

/-! ### Runs -/

/-- A runtime as it is created. -/
theorem create_ok {watchCapacity : Nat} {out : Bool} {made : Creation}
    {runtime : Runtime watchCapacity}
    (created : alphaLwsRuntimeCreate watchCapacity out made = (.ok, some runtime)) :
    watchCapacity ≤ 256 ∧ Consistent runtime := by
  unfold alphaLwsRuntimeCreate at created
  split at created
  · cases created
  next valid =>
    obtain rfl : (⟨fun _ => .zeroed, 0⟩ : Runtime watchCapacity) = runtime := by
      repeat' split at created
      all_goals cases created
      rfl
    refine ⟨by omega, ?_⟩
    have none : Runtime.active (⟨fun _ => .zeroed, 0⟩ : Runtime watchCapacity) = ∅ :=
      Finset.filter_false_of_mem fun _ _ => Bool.false_ne_true
    rw [Consistent, none]
    rfl

theorem run_consistent {watchCapacity : Nat} {out : Bool} {made : Creation}
    {runtime : Runtime watchCapacity}
    (created : alphaLwsRuntimeCreate watchCapacity out made = (.ok, some runtime))
    (events : List (Event watchCapacity)) : Consistent (Runs.run step runtime events) := by
  obtain ⟨fits, consistent⟩ := create_ok created
  exact Runs.run_preserves step Consistent (fun _ event holds => holds.step fits event) runtime
    events consistent

/-- After any calls on a runtime, the count is the number of active slots and within the capacity;
the next `alpha_lws_watch_add` takes an inactive slot and no other, reports that there is no room
exactly if all slots are active, and changes no active watch and not the count if it fails. -/
theorem watchAdd_after_any_calls {watchCapacity : Nat} {out : Bool} {made : Creation}
    {created : Runtime watchCapacity}
    (creates : alphaLwsRuntimeCreate watchCapacity out made = (.ok, some created))
    (events : List (Event watchCapacity)) (args : AddArgs) (dupFd : Int) (adopted : Option Nat)
    {status : AlphaErr} {runtime after : Runtime watchCapacity} {watch : Option (Fin watchCapacity)}
    (run : Runs.run step created events = runtime)
    (adds : alphaLwsWatchAdd runtime args dupFd adopted = (status, after, watch)) :
    runtime.count.toNat = runtime.active.card ∧
      runtime.count.toNat ≤ watchCapacity ∧
      (status = .ok → ∃ i, watch = some i ∧ i ∉ runtime.active ∧
        after.active = insert i runtime.active ∧ ∀ j ≠ i, after.watches j = runtime.watches j) ∧
      (args.Valid → (status = .range ↔ runtime.active = Finset.univ)) ∧
      (runtime.count.toNat ≠ watchCapacity → firstInactive runtime ≠ none) ∧
      (status ≠ .ok → after.active = runtime.active ∧ after.count = runtime.count ∧
        ∀ j ∈ runtime.active, after.watches j = runtime.watches j) := by
  have consistent := run ▸ run_consistent creates events
  refine ⟨consistent, consistent.count_le, ?_⟩
  have search (room : runtime.count.toNat ≠ watchCapacity) : firstInactive runtime ≠ none := by
    obtain ⟨i, found⟩ := consistent.search_finds room
    rw [found]
    exact nofun
  cases adds ▸ consistent.add args dupFd adopted with
  | refused _ failed range full =>
    refine ⟨fun ok => absurd ok failed, fun valid => ?_, search,
      fun _ => ⟨rfl, rfl, fun _ _ => rfl⟩⟩
    rw [← consistent.full_iff]
    exact ⟨range, full valid⟩
  | notAdopted i slot free inactive room =>
    refine ⟨nofun, fun _ => ?_, search, fun _ => ⟨active_erase free inactive, rfl, ?_⟩⟩
    · rw [← consistent.full_iff]
      exact ⟨nofun, fun full => absurd full room⟩
    · intro j member
      exact set_watches_ne slot fun same => free (same ▸ member)
  | added i slot free active room =>
    refine ⟨fun _ => ⟨i, rfl, free, active_insert active _, fun j other => ?_⟩, fun _ => ?_, search,
      fun failed => absurd rfl failed⟩
    · exact set_watches_ne slot other
    · rw [← consistent.full_iff]
      exact ⟨nofun, fun full => absurd full room⟩

/-- What happens to a registry of three slots: a descriptor that is not adopted, two that are, the
second of which libwebsockets closes, and the removal of the first. -/
def crowdedCalls : List (Event 3) :=
  [.add ⟨3, true, some 1, none, true⟩ 5 none, .add ⟨3, true, some 1, none, true⟩ 5 (some 7),
    .add ⟨4, false, some 1, some 2, true⟩ 6 (some 8), .callback (some 1) .rawClose,
    .remove (some 0) true]

/-- The slot of the removed watch is taken again; the watch that libwebsockets closed still counts
and stays as it is. -/
theorem watchAdd_after_crowded_calls :
    let runtime := Runs.run step (⟨fun _ => .zeroed, 0⟩ : Runtime 3) crowdedCalls
    let result := alphaLwsWatchAdd runtime ⟨9, false, some 1, none, true⟩ 5 (some 7)
    runtime.active = {1} ∧ runtime.watches 1 = ⟨none, some 1, some 2, 4, false, true⟩ ∧
      runtime.count.toNat = runtime.active.card ∧ result.1 = .ok ∧ result.2.2 = some 0 ∧
      result.2.1.active = {0, 1} ∧ ∀ j ≠ 0, result.2.1.watches j = runtime.watches j := by
  intro runtime result
  have creates : alphaLwsRuntimeCreate 3 true ⟨true, true, true, true⟩ =
      (.ok, some ⟨fun _ => .zeroed, 0⟩) := rfl
  have before : runtime.active = {1} := by decide +kernel
  have ok : result.1 = .ok := by decide +kernel
  have stored : result.2.2 = some 0 := by decide +kernel
  have adds : alphaLwsWatchAdd runtime ⟨9, false, some 1, none, true⟩ 5 (some 7) =
      (result.1, result.2.1, result.2.2) := rfl
  obtain ⟨counted, _, added, _⟩ :=
    watchAdd_after_any_calls creates crowdedCalls _ _ _ rfl adds
  obtain ⟨i, taken, _, active, others⟩ := added ok
  obtain rfl : 0 = i := Option.some.inj (stored.symm.trans taken)
  rw [before] at active
  exact ⟨before, by decide +kernel, counted, ok, stored, active, others⟩

end AlphaPipeline.Lws

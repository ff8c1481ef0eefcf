import AlphaPipeline.Library.Loops
import AlphaPipeline.Spike.Changes

/-!
# What the loop polls

libcurl says for each of its sockets what it waits for, and the loop keeps that in a table that only
grows. The descriptors collected for `poll` are those libcurl waits for, each once: the table is
never longer than the array they are collected in.
-/
namespace AlphaPipeline.Spike

/-- What libcurl was last granted for a socket. -/
def interest (log : List Effect) (fd : Int) : CurlPoll :=
  log.foldl (fun last effect =>
    match effect with
    | .curlSocket socket what answer =>
      if socket = fd ∧ answer = 0 then (if what = .remove then .none else what) else last
    | _ => last) .none

/-- The sockets of libcurl that are polled, with the events asked for. -/
def polled (app : App) : List (Int × Bool × Bool) :=
  (pollSet app).filterMap fun entry =>
    match entry.owner with
    | .curl i => some (app.curlFd i, entry.pollIn, entry.pollOut)
    | _ => none

/-- What a tick asks `poll` about the sockets of libcurl, if it comes to that: before, it reads the
descriptor of Redis from the context. -/
def World.polls (w : World) : Option (List (Int × Bool × Bool)) :=
  if w.app.redis = .freed then none else some (polled w.app)

/-- The table holds what libcurl was granted: a socket with a watch has the one that `assigned`
says, and other watches are idle. -/
structure Watching (w : World) : Prop where
  bounded : w.app.curlWatches.length ≤ curlWatchCapacity
  assigned : ∀ fd i, w.app.assigned fd = some i →
    w.app.curlWatches[i]? = some ⟨fd, interest w.log fd⟩
  unassigned : ∀ fd, w.app.assigned fd = none → interest w.log fd = .none
  active : ∀ i watch, w.app.curlWatches[i]? = some watch → watch.action ≠ .none →
    w.app.assigned watch.fd = some i

/-! ### Changes -/

/-- An effect that is no call of `on_curl_socket`. -/
def Effect.quiet : Effect → Bool
  | .curlSocket _ _ _ => false
  | _ => true

theorem interest_append_quiet (log : List Effect) {effect : Effect} (quiet : effect.quiet = true)
    (fd : Int) : interest (log ++ [effect]) fd = interest log fd := by
  rw [interest, List.foldl_append]
  cases effect <;> first | rfl | cases quiet

theorem interest_append_socket (log : List Effect) (socket fd : Int) (what : CurlPoll)
    (answer : Int) :
    interest (log ++ [.curlSocket socket what answer]) fd =
      if socket = fd ∧ answer = 0 then (if what = .remove then .none else what)
      else interest log fd := by
  rw [interest, List.foldl_append]
  rfl

variable {w : World}

/-- The rest of the app plays no part. -/
theorem Watching.of_same {after : World} (watching : Watching w)
    (watches : after.app.curlWatches = w.app.curlWatches)
    (assigned : after.app.assigned = w.app.assigned)
    (interests : ∀ fd, interest after.log fd = interest w.log fd) : Watching after where
  bounded := watches ▸ watching.bounded
  assigned fd i here := by
    rw [watches, interests]
    exact watching.assigned fd i (assigned ▸ here)
  unassigned fd unset := by
    rw [interests]
    exact watching.unassigned fd (assigned ▸ unset)
  active i watch here busy := by
    rw [assigned]
    exact watching.active i watch (watches ▸ here) busy

theorem Watching.hear {after : World} {effect : Effect} (watching : Watching w)
    (said : after.log = w.log ++ [effect])
    (watches : after.app.curlWatches = w.app.curlWatches)
    (assigned : after.app.assigned = w.app.assigned) (quiet : effect.quiet = true) :
    Watching after :=
  watching.of_same watches assigned fun fd => said ▸ interest_append_quiet w.log quiet fd

/-- Two sockets have two watches. -/
theorem Watching.assigned_inj (watching : Watching w) {fd other : Int} {i : Nat}
    (here : w.app.assigned fd = some i) (there : w.app.assigned other = some i) : fd = other := by
  have first := watching.assigned fd i here
  rw [watching.assigned other i there] at first
  exact (congrArg CurlWatch.fd (Option.some.inj first)).symm

/-- The entry of a socket is set, and the socket keeps it or gives it up for an idle one. -/
private theorem Watching.set (watching : Watching w) {fd : Int} {i : Nat}
    (here : w.app.assigned fd = some i) {action : CurlPoll} {assigned : Int → Option Nat}
    (others : ∀ other, fd ≠ other → assigned other = w.app.assigned other)
    (kept : assigned fd = some i ∨ (assigned fd = none ∧ action = .none))
    {log : List Effect} (now : interest log fd = action)
    (before : ∀ other, fd ≠ other → interest log other = interest w.log other) :
    Watching { w with log, app := { w.app with
        curlWatches := w.app.curlWatches.modify i fun watch => { watch with action }
        assigned := assigned } } where
  bounded := by
    rw [List.length_modify]
    exact watching.bounded
  assigned other j there := by
    change assigned other = some j at there
    change (w.app.curlWatches.modify i _)[j]? = some ⟨other, interest log other⟩
    by_cases same : fd = other
    · subst same
      rcases kept with kept | ⟨unset, -⟩
      · obtain rfl := Option.some.inj (kept.symm.trans there)
        rw [List.getElem?_modify, watching.assigned fd i here, now]
        simp
      · rw [unset] at there
        cases there
    · rw [others other same] at there
      have apart : i ≠ j := by
        rintro rfl
        exact same (watching.assigned_inj here there)
      rw [List.getElem?_modify, watching.assigned other j there, before other same]
      simp [apart]
  unassigned other unset := by
    change assigned other = none at unset
    change interest log other = .none
    by_cases same : fd = other
    · subst same
      rcases kept with kept | ⟨-, idle⟩
      · rw [kept] at unset
        cases unset
      · rw [now, idle]
    · rw [others other same] at unset
      rw [before other same, watching.unassigned other unset]
  active j watch found busy := by
    change (w.app.curlWatches.modify i _)[j]? = some watch at found
    change assigned watch.fd = some j
    rw [List.getElem?_modify] at found
    by_cases same : i = j
    · subst same
      rw [watching.assigned fd i here] at found
      obtain rfl : CurlWatch.mk fd action = watch := by simpa using found
      rcases kept with kept | ⟨-, idle⟩
      · exact kept
      · exact absurd idle busy
    · have found : w.app.curlWatches[j]? = some watch := by simpa [same] using found
      have there := watching.active j watch found busy
      have apart : fd ≠ watch.fd := by
        intro equal
        rw [← equal, here] at there
        exact same (Option.some.inj there)
      rw [others watch.fd apart, there]

/-- A socket that has no entry is given the next one. -/
private theorem Watching.push (watching : Watching w) {fd : Int} {action : CurlPoll}
    (unset : w.app.assigned fd = none) (room : w.app.curlWatches.length < curlWatchCapacity)
    {log : List Effect} (now : interest log fd = action)
    (before : ∀ other, fd ≠ other → interest log other = interest w.log other) :
    Watching { w with log, app := { w.app with
        curlWatches := w.app.curlWatches ++ [⟨fd, action⟩]
        assigned := Function.update w.app.assigned fd (some w.app.curlWatches.length) } } where
  bounded := by
    rw [List.length_append]
    exact room
  assigned other j there := by
    change Function.update w.app.assigned fd _ other = some j at there
    change (w.app.curlWatches ++ _)[j]? = some ⟨other, interest log other⟩
    by_cases same : fd = other
    · subst same
      rw [Function.update_self] at there
      obtain rfl := Option.some.inj there
      rw [now]
      simp
    · rw [Function.update_of_ne (Ne.symm same)] at there
      have found := watching.assigned other j there
      rw [before other same, List.getElem?_append_left (List.getElem?_eq_some_iff.mp found).1]
      exact found
  unassigned other other_unset := by
    change Function.update w.app.assigned fd _ other = none at other_unset
    change interest log other = .none
    by_cases same : fd = other
    · subst same
      rw [Function.update_self] at other_unset
      cases other_unset
    · rw [Function.update_of_ne (Ne.symm same)] at other_unset
      rw [before other same, watching.unassigned other other_unset]
  active j watch found busy := by
    change (w.app.curlWatches ++ _)[j]? = some watch at found
    change Function.update w.app.assigned fd _ watch.fd = some j
    rw [List.getElem?_append] at found
    split at found
    next inside =>
      have there := watching.active j watch found busy
      have apart : watch.fd ≠ fd := by
        intro equal
        rw [equal, unset] at there
        cases there
      rw [Function.update_of_ne apart, there]
    next outside =>
      obtain ⟨position, rfl⟩ : j - w.app.curlWatches.length = 0 ∧ ⟨fd, action⟩ = watch := by
        rw [List.getElem?_singleton] at found
        split at found
        next position => exact ⟨position, Option.some.inj found⟩
        next => cases found
      rw [Function.update_self]
      congr 1
      omega

theorem Watching.curlSocket (watching : Watching w) (socket : Int × CurlPoll) :
    Watching (w.curlSocket socket) := by
  obtain ⟨fd, what⟩ := socket
  have before (what : CurlPoll) (other : Int) (apart : fd ≠ other) (answer : Int) :
      interest (w.log ++ [.curlSocket fd what answer]) other = interest w.log other := by
    rw [interest_append_socket, if_neg (fun same => apart same.1)]
  have now (what : CurlPoll) : interest (w.log ++ [.curlSocket fd what 0]) fd =
      if what = .remove then .none else what := by
    rw [interest_append_socket, if_pos ⟨rfl, rfl⟩]
  unfold World.curlSocket onCurlSocket
  dsimp only
  split
  next removes =>
    subst removes
    split
    next unset =>
      -- libcurl drops a socket that was never registered
      refine watching.of_same rfl rfl fun other => ?_
      by_cases same : fd = other
      · subst same
        exact (now .remove).trans (watching.unassigned fd unset).symm
      · exact before .remove other same 0
    next i here =>
      exact watching.set here
        (fun other apart => Function.update_of_ne (Ne.symm apart) ..)
        (.inr ⟨Function.update_self .., rfl⟩) (now .remove)
        (fun other apart => before .remove other apart 0)
  next asks =>
    have granted := (now what).trans (if_neg asks)
    split
    next unset =>
      split
      next full =>
        refine watching.of_same rfl rfl fun other => ?_
        exact (interest_append_socket ..).trans (if_neg (by simp))
      next room =>
        exact watching.push unset (by omega) granted (fun other apart => before what other apart 0)
    next i here =>
      exact watching.set here (fun _ _ => rfl) (.inl here) granted
        (fun other apart => before what other apart 0)

theorem Watching.message (watching : Watching w) (message : CurlMessage) :
    Watching (takeMessage w message) := by
  unfold takeMessage
  dsimp only
  split
  · exact watching
  · have noted (app : App) (watches : app.curlWatches = w.app.curlWatches)
        (assigned : app.assigned = w.app.assigned) :
        Watching ({ w with app }.emit (.curlDone message.result message.status)) :=
      watching.hear rfl watches assigned rfl
    split
    · exact (noted _ rfl rfl).hear rfl rfl rfl rfl
    · exact noted _ rfl rfl

theorem Watching.change {after : World} (watching : Watching w) (change : Change w after) :
    Watching after := by
  cases change with
  | socket socket => exact watching.curlSocket socket
  | message message => exact watching.message message
  | result result =>
    obtain ⟨_, _, _, _, eq⟩ := takeResult_eq w.app result
    rw [eq]
    exact watching.hear rfl rfl rfl rfl
  | reply context here connected reply =>
    obtain ⟨redis, redisRoundtrip, redisRecovered, eq⟩ := redisCommandCallback_eq w context reply
    rw [eq]
    exact watching.hear rfl rfl rfl rfl
  | failure | acted | initial | recovery | connected | closed | switched =>
    exact watching.hear rfl rfl rfl rfl
  | started | pending | freed | scheduled | serviced | fault =>
    exact watching.of_same rfl rfl fun _ => rfl

theorem Watching.reaches {after : World} (watching : Watching w) (reaches : Reaches w after) :
    Watching after := by
  induction reaches with
  | refl => exact watching
  | tail _ change ih => exact ih.change change

theorem watching_setup {given : Setup}
    (ready : setup ⟨.zeroed, [], false, false⟩ given = (true, w)) : Watching w := by
  have zeroed : Watching ⟨{ (exerciseQueue ⟨.zeroed, [], false, false⟩).app with
      redisGeneration := 1 }, [], false, false⟩ :=
    ⟨Nat.zero_le _, nofun, fun _ _ => rfl, nofun⟩
  exact zeroed.reaches (reaches_setup ready)

/-! ### The descriptors -/

/-- The entries of the table that are in use, with their places. -/
def App.busy (app : App) : List (CurlWatch × Nat) :=
  app.curlWatches.zipIdx.filter fun watch => decide (watch.1.action ≠ .none)

theorem mem_busy {app : App} {watch : CurlWatch} {i : Nat} :
    (watch, i) ∈ app.busy ↔ app.curlWatches[i]? = some watch ∧ watch.action ≠ .none := by
  rw [App.busy, List.mem_filter, List.mem_zipIdx_iff_getElem?, decide_eq_true_eq]

/-- Nothing is left out for want of space. -/
theorem Watching.pollSet_eq (watching : Watching w) :
    pollSet w.app =
      (⟨.pg, true, true⟩ :: if w.app.redis = .null then [] else [⟨.redis, true, true⟩]) ++
        w.app.busy.map fun watch =>
          ⟨.curl watch.2, watch.1.action.reads, watch.1.action.writes⟩ := by
  refine Loops.foldl_push_of_room pollCapacity _ _ _ _ ?_
  have bounded : w.app.curlWatches.length ≤ 16 := watching.bounded
  rw [List.length_zipIdx, pollCapacity]
  split
  · simp only [List.length_cons, List.length_nil]
    omega
  · simp only [List.length_cons, List.length_nil]
    omega

theorem Watching.polled_eq (watching : Watching w) :
    polled w.app =
      w.app.busy.map fun watch => (watch.1.fd, watch.1.action.reads, watch.1.action.writes) := by
  have services : ((⟨.pg, true, true⟩ :: if w.app.redis = .null then [] else
      [⟨.redis, true, true⟩] : List PollEntry).filterMap fun entry =>
        match entry.owner with
        | .curl i => some (w.app.curlFd i, entry.pollIn, entry.pollOut)
        | _ => none) = [] := by
    split <;> rfl
  unfold polled
  rw [watching.pollSet_eq, List.filterMap_append, services, List.nil_append, List.filterMap_map,
    ← List.filterMap_eq_map]
  refine List.filterMap_congr fun watch here => ?_
  have found := (mem_busy.mp here).1
  simp [App.curlFd, found]

/-- What is polled is what libcurl was granted. -/
theorem Watching.mem_polled (watching : Watching w) (fd : Int) (pollIn pollOut : Bool) :
    (fd, pollIn, pollOut) ∈ polled w.app ↔
      interest w.log fd ≠ .none ∧ pollIn = (interest w.log fd).reads ∧
        pollOut = (interest w.log fd).writes := by
  rw [watching.polled_eq, List.mem_map]
  constructor
  · rintro ⟨⟨watch, i⟩, here, eq⟩
    obtain ⟨found, active⟩ := mem_busy.mp here
    have held := watching.assigned watch.fd i (watching.active i watch found active)
    rw [found] at held
    have action : watch.action = interest w.log watch.fd :=
      congrArg CurlWatch.action (Option.some.inj held)
    cases eq
    exact ⟨action ▸ active, congrArg CurlPoll.reads action, congrArg CurlPoll.writes action⟩
  · rintro ⟨asked, rfl, rfl⟩
    cases place : w.app.assigned fd with
    | none => exact absurd (watching.unassigned fd place) asked
    | some i => exact ⟨(_, i), mem_busy.mpr ⟨watching.assigned fd i place, asked⟩, rfl⟩

theorem Watching.polled_nodup (watching : Watching w) : ((polled w.app).map Prod.fst).Nodup := by
  rw [watching.polled_eq, List.map_map]
  have places : w.app.busy.Nodup :=
    (List.Nodup.of_map Prod.snd (by
      rw [List.zipIdx_map_snd]
      exact List.nodup_range')).filter _
  refine List.Nodup.map_on ?_ places
  rintro ⟨watch, i⟩ here ⟨other, j⟩ there (same : watch.fd = other.fd)
  obtain ⟨found, active⟩ := mem_busy.mp here
  obtain ⟨found', active'⟩ := mem_busy.mp there
  have place := watching.active i watch found active
  rw [same, watching.active j other found' active'] at place
  obtain rfl := Option.some.inj place
  rw [found] at found'
  rw [Option.some.inj found']

/-- Whatever the clients do, a tick polls each socket libcurl waits for, once and for what libcurl
was last granted, and no socket that libcurl has given up. -/
theorem polls_what_curl_was_granted {given : Setup} {ready : World}
    (started : setup ⟨.zeroed, [], false, false⟩ given = (true, ready)) (events : List Event)
    {sockets : List (Int × Bool × Bool)}
    (polls : (events.foldl World.step ready).polls = some sockets) :
    (sockets.map Prod.fst).Nodup ∧
      ∀ fd pollIn pollOut,
        (fd, pollIn, pollOut) ∈ sockets ↔
          interest (events.foldl World.step ready).log fd ≠ .none ∧
            pollIn = (interest (events.foldl World.step ready).log fd).reads ∧
            pollOut = (interest (events.foldl World.step ready).log fd).writes := by
  have watching := (watching_setup started).reaches (reaches_foldl reaches_step events ready)
  unfold World.polls at polls
  split at polls
  · cases polls
  · obtain rfl := Option.some.inj polls
    exact ⟨watching.polled_nodup, watching.mem_polled⟩

/-- A process whose transfer asks to write on socket 7 as it is set up. -/
def writingSetup : Setup :=
  ⟨true, true, ⟨56379, true, true⟩, true, true, ⟨[(7, .output)], true, []⟩⟩

/-- A tick in which nothing is ready and libcurl asks for other events on its timeout. -/
def askingTick (sockets : List (Int × CurlPoll)) : Event := .tick ⟨true, [], ⟨sockets, true, []⟩⟩

/-- A socket that is given up and asked for again is polled for what the second request says. -/
theorem polls_socket_asked_again :
    ∃ sockets, ([askingTick [(7, .remove), (8, .inout)], askingTick [(7, .input)]].foldl World.step
        (setup ⟨.zeroed, [], false, false⟩ writingSetup).2).polls = some sockets ∧
      (7, true, false) ∈ sockets := by
  have ready : setup ⟨.zeroed, [], false, false⟩ writingSetup =
      (true, (setup ⟨.zeroed, [], false, false⟩ writingSetup).2) := rfl
  have polls : ([askingTick [(7, .remove), (8, .inout)], askingTick [(7, .input)]].foldl World.step
      (setup ⟨.zeroed, [], false, false⟩ writingSetup).2).polls = some _ :=
    if_neg (by decide +kernel)
  exact ⟨_, polls, ((polls_what_curl_was_granted ready _ polls).2 7 true false).mpr
    ⟨by decide +kernel, by decide +kernel, by decide +kernel⟩⟩

end AlphaPipeline.Spike

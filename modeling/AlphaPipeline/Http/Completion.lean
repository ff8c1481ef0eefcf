import AlphaPipeline.Http.Ownership

/-!
# Completions and re-entrant cancels

The client completes a request while it is still linked, so a cancel from inside
`complete_fn` can find the request whose completion is being delivered: it is then completed
a second time and freed under the outer call. As long as no cancel does, every request lives
in order, whatever libcurl and the owner do.
-/
namespace AlphaPipeline.Http

/-! ### What never gets undone -/

/-- The log grows, faults stay, and a freed request stays freed: no number is used twice. -/
structure Grows (w after : World) : Prop where
  log : w.log <+: after.log
  fault : w.fault = true → after.fault = true
  fresh : w.fresh ≤ after.fresh
  freed : ∀ id < w.fresh, w.heap id = none → after.heap id = none

theorem Grows.refl (w : World) : Grows w w := ⟨List.prefix_rfl, id, le_rfl, fun _ _ => id⟩

theorem Grows.trans {first second third : World} (left : Grows first second)
    (right : Grows second third) : Grows first third where
  log := left.log.trans right.log
  fault faulty := right.fault (left.fault faulty)
  fresh := left.fresh.trans right.fresh
  freed id known gone := right.freed id (known.trans_le left.fresh) (left.freed id known gone)

theorem grows_emit (w : World) (effect : Effect) : Grows w (w.emit effect) :=
  ⟨List.prefix_append _ _, id, le_rfl, fun _ _ => id⟩

theorem grows_unlinkAndFree (w : World) (id : Nat) : Grows w (unlinkAndFree w id) := by
  unfold unlinkAndFree
  split
  · exact .refl w
  · split
    · exact ⟨List.prefix_rfl, fun _ => rfl, le_rfl, fun _ _ gone => gone⟩
    · refine ⟨List.prefix_append _ _, fun faulty => faulty, le_rfl, fun other _ gone => ?_⟩
      change Function.update w.heap id none other = none
      by_cases same : other = id
      · rw [same, Function.update_self]
      · rw [Function.update_of_ne same, gone]

/-- Freeing a request leaves it freed, or faults. -/
theorem unlinkAndFree_frees (w : World) (id : Nat) :
    (unlinkAndFree w id).fault = true ∨ (unlinkAndFree w id).heap id = none := by
  unfold unlinkAndFree
  split
  next faulty => exact .inl faulty
  · split
    · exact .inl rfl
    · exact .inr (Function.update_self ..)

theorem grows_create (w : World) (post : Post) : Grows w (w.create post) := by
  refine ⟨List.prefix_rfl, fun faulty => faulty, Nat.le_succ _, fun id known gone => ?_⟩
  change Function.update w.heap w.fresh _ id = none
  rw [Function.update_of_ne (by omega), gone]

theorem grows_post (w : World) (post : Option Post) (setup : Setup) :
    Grows w (w.post post setup) := by
  have core : Grows w (alphaHttpPostJson w post setup).2 := by
    -- a number that is used for the first time was not freed before
    rcases alphaHttpPostJson_cases w post setup with ⟨_, _, answer⟩ | ⟨_, given, _, answer⟩ |
      ⟨_, given, _, _, answer⟩ | ⟨given, _, _, answer⟩ <;> rw [answer]
    · exact .refl w
    · exact (grows_create w given).trans (grows_unlinkAndFree _ _)
    · have linked : Grows w ((w.create given).link w.fresh) :=
        ⟨List.prefix_rfl, fun faulty => faulty, Nat.le_succ _, (grows_create w given).freed⟩
      exact linked.trans (grows_unlinkAndFree _ _)
    · exact ⟨List.prefix_rfl, fun faulty => faulty, Nat.le_succ _, (grows_create w given).freed⟩
  unfold World.post
  split
  next answer =>
    rw [answer] at core
    exact core.trans (grows_emit _ _)
  next answer =>
    rw [answer] at core
    exact core.trans (grows_emit _ _)

theorem grows_complete (w : World) (id : Nat) (status transport : Int) (react : World → World)
    (grows : ∀ w, Grows w (react w)) : Grows w (complete w id status transport react) := by
  unfold complete
  split
  · exact ⟨List.prefix_rfl, fun _ => rfl, le_rfl, fun _ _ gone => gone⟩
  next request _ =>
    let told := { w with delivering := id :: w.delivering }.emit (.completed id
      ⟨request.kind, status, transport, request.response.getD [], request.responseSize,
        request.userData⟩)
    have delivered : Grows w told :=
      ⟨List.prefix_append _ _, fun faulty => faulty, le_rfl, fun _ _ gone => gone⟩
    -- the way to `complete_fn`, what the owner does there, and the way back
    have freed := delivered.trans ((grows told).trans (grows_unlinkAndFree (react told) id))
    exact ⟨freed.log, freed.fault, freed.fresh, freed.freed⟩

/-- Completing a request leaves it freed, or faults. -/
theorem complete_frees (w : World) (id : Nat) (status transport : Int) (react : World → World) :
    (complete w id status transport react).fault = true ∨
      (complete w id status transport react).heap id = none := by
  unfold complete
  split
  · exact .inl rfl
  · exact unlinkAndFree_frees _ id

theorem grows_cancel (w : World) (userData : Option Nat) (react : World → World)
    (grows : ∀ w, Grows w (react w)) : Grows w (alphaHttpCancel w userData react).2 := by
  cases userData with
  | none => exact .refl w
  | some userData =>
    unfold alphaHttpCancel
    dsimp only
    split
    · exact grows_emit w _
    next id _ =>
      have removed : Grows w ((w.emit (.cancel userData (w.find userData))).detach id) :=
        ⟨List.prefix_append _ _, fun faulty => faulty, le_rfl, fun _ _ gone => gone⟩
      exact removed.trans (grows_complete _ id _ _ react grows)

mutual

theorem grows_perform (op : Op) (w : World) : Grows w (op.perform w) := by
  cases op with
  | post post setup =>
    rw [Op.perform]
    split
    · exact .refl w
    · exact grows_post w post setup
  | cancel userData reaction =>
    rw [Op.perform]
    split
    · exact .refl w
    · exact grows_cancel w userData _ (grows_performAll reaction)

theorem grows_performAll (ops : List Op) (w : World) : Grows w (performAll ops w) := by
  cases ops with
  | nil => exact .refl w
  | cons op rest => exact (grows_perform op w).trans (grows_performAll rest _)

end

theorem grows_drain (messages : List Message) (w : World) :
    Grows w (drainCompletions messages w) := by
  induction messages generalizing w with
  | nil => exact .refl w
  | cons message rest ih =>
    cases message with
    | other => exact ih w
    | done handle status transport reaction =>
      unfold drainCompletions
      split
      · exact .refl w
      · split
        · have removed : Grows w ((w.emit (.reported handle)).detach handle) :=
            ⟨List.prefix_append _ _, fun faulty => faulty, le_rfl, fun _ _ gone => gone⟩
          exact (removed.trans (grows_complete _ handle _ _ _ (grows_performAll reaction))).trans
            (ih _)
        · exact ih w

/-- libcurl receives only for requests that are allocated, so what is freed stays freed. -/
theorem grows_act (w : World) (activity : Activity) : Grows w (w.act activity) := by
  cases activity with
  | socket socket action => exact grows_emit w _
  | timer timeoutMs => exact grows_emit w _
  | received id data size count reallocated =>
    simp only [World.act]
    split
    next request live =>
      split
      · refine ⟨List.prefix_rfl, fun faulty => faulty, le_rfl, fun other _ gone => ?_⟩
        have apart : other ≠ id := by
          rintro rfl
          rw [live] at gone
          cases gone
        exact (Function.update_of_ne apart ..).trans gone
      · exact .refl w
    next => exact .refl w

theorem grows_acts (activities : List Activity) (w : World) :
    Grows w (activities.foldl World.act w) := by
  induction activities generalizing w with
  | nil => exact .refl w
  | cons activity rest ih => exact (grows_act w activity).trans (ih _)

theorem grows_drive (w : World) (socket : Int) (events : Nat) (given : Drive) :
    Grows w (drive w socket events given).2 := by
  have driven := (grows_emit w (.acted socket events)).trans (grows_acts given.activities _)
  unfold drive
  dsimp only
  split
  · exact driven
  · exact driven.trans (grows_drain given.messages _)

theorem grows_step (w : World) (call : Call) : Grows w (w.step call) := by
  unfold World.step
  split
  · exact .refl w
  · cases call with
    | op op => exact grows_perform op w
    | socketAction socket watch runningOut given =>
      dsimp only [alphaHttpMultiSocketAction]
      split
      · exact .refl w
      · exact grows_drive w _ _ given
    | timeoutAction runningOut given =>
      dsimp only [alphaHttpMultiTimeoutAction]
      split
      · exact .refl w
      · exact grows_drive w _ _ given

theorem grows_run (calls : List Call) (w : World) : Grows w (Runs.run World.step w calls) :=
  Runs.run_preserves World.step (Grows w) (fun _ call grown => grown.trans (grows_step _ call)) w
    calls (.refl w)

/-! ### Crossing cancels -/

/-- A cancel has found a request whose completion was being delivered. -/
def Crossed (log : List Entry) : Prop :=
  ∃ entry ∈ log, ∃ userData id, entry.effect = .cancel userData (some id) ∧ id ∈ entry.delivering

/-- After such a cancel, a request is freed while a call further out still has to free it. -/
def Ruined (outer : List Nat) (w : World) : Prop :=
  Crossed w.log ∧ (w.fault = true ∨ ∃ id ∈ outer, id < w.fresh ∧ w.heap id = none)

/-- What a stretch of the code leads to that is entered with the deliveries `outer`; without
cancels from inside `complete_fn` there is no second case. -/
def Outcome (nested : Bool) (outer : List Nat) (w : World) : Prop :=
  (Sound w ∧ w.delivering = outer) ∨ (nested = true ∧ Ruined outer w)

theorem Crossed.mono {log longer : List Entry} (crossed : Crossed log) (within : log <+: longer) :
    Crossed longer := by
  obtain ⟨entry, present, found⟩ := crossed
  exact ⟨entry, within.subset present, found⟩

theorem Ruined.grows {outer : List Nat} {w after : World} (ruined : Ruined outer w)
    (grows : Grows w after) : Ruined outer after := by
  refine ⟨ruined.1.mono grows.log, ?_⟩
  rcases ruined.2 with faulty | ⟨id, inside, known, gone⟩
  · exact .inl (grows.fault faulty)
  · exact .inr ⟨id, inside, known.trans_le grows.fresh, grows.freed id known gone⟩

/-- The outer call frees a request that is gone, or leaves the ruin to the calls around it. -/
theorem Ruined.release {outer : List Nat} {w : World} {id : Nat} (ruined : Ruined (id :: outer) w) :
    Ruined outer { unlinkAndFree w id with delivering := outer } := by
  have grows := grows_unlinkAndFree w id
  refine ⟨ruined.1.mono grows.log, ?_⟩
  rcases ruined.2 with faulty | ⟨other, inside, known, gone⟩
  · exact .inl (grows.fault faulty)
  · rcases List.mem_cons.mp inside with rfl | further
    -- the request this call still has to free is gone: a double free
    · left
      unfold unlinkAndFree
      split
      next faulty => exact faulty
      · rw [gone]
    · exact .inr ⟨other, further, known.trans_le grows.fresh, grows.freed other known gone⟩

section Outcomes

variable (nested : Bool)

/-- A completion that is delivered once comes out as the owner's reaction does. -/
theorem outcome_complete {w : World} (sound : Sound w) {id : Nat}
    (linked : id ∈ w.client.requests) (idle : id ∉ w.delivering) {effect : Effect}
    (own : effect.subject = some id)
    (settles : ∀ kind userData, Stage.advance (.pending kind userData) effect =
      some (.settled kind userData))
    (found : ∀ userData other, effect = .cancel userData (some other) →
      ∃ kind, .accepted other kind (some userData) ∈ w.log.map Entry.effect)
    (status transport : Int) (react : World → World)
    (reacts : ∀ told, Sound told → told.delivering = id :: w.delivering →
      Outcome nested told.delivering (react told)) :
    Outcome nested w.delivering
      (complete ((w.emit effect).detach id) id status transport react) := by
  obtain ⟨request, live, _⟩ := sound.linked id linked
  have alive : ((w.emit effect).detach id).heap id = some request := live
  unfold complete
  rw [alive]
  dsimp only
  have told := sound.deliver linked idle live ⟨request.kind, status, transport,
    request.response.getD [], request.responseSize, request.userData⟩ rfl rfl own settles found
  -- with the reaction over, the request is still the innermost one in delivery
  rcases reacts _ told rfl with ⟨after, same⟩ | ⟨allowed, ruined⟩
  · exact .inl ⟨after.release same idle, rfl⟩
  · exact .inr ⟨allowed, ruined.release⟩

theorem find_spec {w : World} {userData id : Nat} (found : w.find userData = some id) :
    id ∈ w.client.requests ∧
      ∃ request, w.heap id = some request ∧ request.userData = some userData := by
  refine ⟨List.mem_of_find?_eq_some found, ?_⟩
  have matching := List.find?_some found
  cases live : w.heap id with
  | none => simp [live] at matching
  | some request => exact ⟨request, rfl, by simpa [live] using matching⟩

/-- A cancel is ruinous only from inside `complete_fn`, on a request in delivery. -/
theorem outcome_cancel {w : World} (sound : Sound w) (allowed : nested = true ∨ w.delivering = [])
    (userData : Option Nat) (react : World → World) (grows : ∀ w, Grows w (react w))
    (reacts : ∀ told, Sound told → Outcome nested told.delivering (react told)) :
    Outcome nested w.delivering (alphaHttpCancel w userData react).2 := by
  cases userData with
  | none => exact .inl ⟨sound, rfl⟩
  | some userData =>
    unfold alphaHttpCancel
    dsimp only
    split
    next missed =>
      rw [missed]
      exact .inl ⟨sound.emit_silent rfl nofun, rfl⟩
    next id found =>
      obtain ⟨linked, request, live, same⟩ := find_spec found
      -- the list does not tell requests in delivery from the others
      by_cases idle : id ∈ w.delivering
      · have inside : nested = true := allowed.resolve_right (List.ne_nil_of_mem idle)
        have completed := grows_complete
          ((w.emit (.cancel userData (w.find userData))).detach id) id 0 abortedByCallback react
          grows
        refine .inr ⟨inside, ?_, ?_⟩
        -- the entry of this cancel is the crossing one
        · refine Crossed.mono ?_ completed.log
          exact ⟨⟨.cancel userData (w.find userData), w.client, w.delivering⟩,
            List.mem_append_right _ List.mem_cons_self, userData, id,
            congrArg (Effect.cancel userData) found, idle⟩
        · refine (complete_frees _ id 0 abortedByCallback react).imp_right fun gone => ?_
          exact ⟨id, idle, (sound.known linked).trans_le completed.fresh, gone⟩
      · rw [found]
        refine outcome_complete nested sound linked idle rfl (fun _ _ => rfl) ?_ 0 _ react
          (fun told sound _ => reacts told sound)
        rintro given other cancelled
        cases cancelled
        exact ⟨request.kind, same ▸ sound.accepted linked live⟩

end Outcomes

/-! ### Whole runs -/

def Op.isPost : Op → Bool
  | .post _ _ => true
  | .cancel _ _ => false

/-- What the owner does when a call hands out the completion of a request. -/
def Op.reaction : Op → List Op
  | .post _ _ => []
  | .cancel _ reaction => reaction

def Message.reaction : Message → List Op
  | .other => []
  | .done _ _ _ reaction => reaction

def Call.reaction : Call → List Op
  | .op called => called.reaction
  | .socketAction _ _ _ given => given.messages.flatMap Message.reaction
  | .timeoutAction _ given => given.messages.flatMap Message.reaction

/-- The owner only posts from inside `complete_fn`, unless cancels are allowed there too. -/
def Within (nested : Bool) (ops : List Op) : Prop := nested = true ∨ ∀ op ∈ ops, op.isPost = true

section Runs

variable (nested : Bool)

mutual

theorem outcome_perform (op : Op) {w : World} (sound : Sound w)
    (allowed : nested = true ∨ op.isPost = true ∨ w.delivering = [])
    (within : Within nested op.reaction) : Outcome nested w.delivering (op.perform w) := by
  -- structural on the owner's reactions: a cancel may call `complete_fn` again
  cases op with
  | post post setup =>
    rw [Op.perform, if_neg (by rw [sound.intact]; decide)]
    exact .inl (sound.post post setup)
  | cancel userData reaction =>
    rw [Op.perform, if_neg (by rw [sound.intact]; decide)]
    refine outcome_cancel nested sound ?_ userData _ (grows_performAll reaction) ?_
    · exact allowed.imp_right fun outside => outside.resolve_left nofun
    · exact fun told sound => outcome_performAll reaction within (.inl ⟨sound, rfl⟩)

theorem outcome_performAll (ops : List Op) {w : World} {outer : List Nat}
    (within : Within nested ops) (outcome : Outcome nested outer w) :
    Outcome nested outer (performAll ops w) := by
  rcases outcome with ⟨sound, rfl⟩ | ⟨allowed, ruined⟩
  · cases ops with
    | nil => exact .inl ⟨sound, rfl⟩
    | cons op rest =>
      rw [performAll]
      refine outcome_performAll rest ?_ (outcome_perform op sound ?_ ?_)
      · exact within.imp_right fun posts later h => posts later (List.mem_cons_of_mem _ h)
      · exact within.imp_right fun posts => .inl (posts op List.mem_cons_self)
      · refine within.imp_right fun posts => ?_
        have post := posts op List.mem_cons_self
        cases op with
        | post _ _ => nofun
        | cancel _ _ => cases post
  -- nothing the owner goes on to do repairs a ruin
  · exact .inr ⟨allowed, ruined.grows (grows_performAll ops w)⟩

end

/-- Outside any delivery a ruin is a fault. -/
theorem Ruined.fault {w : World} (ruined : Ruined [] w) : w.fault = true :=
  ruined.2.resolve_right nofun

/-- The completion of a handle that libcurl holds and reports done. -/
theorem outcome_reported {w : World} (sound : Sound w) (outside : w.delivering = []) {handle : Nat}
    (held : handle ∈ w.attached) (status transport : Int) {reaction : List Op}
    (within : Within nested reaction) :
    Outcome nested [] (complete ((w.emit (.reported handle)).detach handle) handle status transport
      (performAll reaction)) := by
  obtain ⟨linked, idle⟩ := (sound.attached handle).mp held
  refine outside ▸ outcome_complete nested sound linked idle rfl (fun _ _ => rfl)
    (fun _ _ same => by cases same) status transport _ fun told sound _ => ?_
  exact outcome_performAll nested reaction within (.inl ⟨sound, rfl⟩)

theorem outcome_drain (messages : List Message) {w : World}
    (within : Within nested (messages.flatMap Message.reaction)) (outcome : Outcome nested [] w) :
    Outcome nested [] (drainCompletions messages w) := by
  -- along the messages; libcurl reports done only handles it still holds
  induction messages generalizing w with
  | nil => exact outcome
  | cons message rest ih =>
    have later : Within nested (rest.flatMap Message.reaction) :=
      within.imp_right fun posts op h => posts op (List.mem_append_right _ h)
    cases message with
    | other => exact ih later outcome
    | done handle status transport reaction =>
      have now : Within nested reaction :=
        within.imp_right fun posts op h => posts op (List.mem_append_left _ h)
      unfold drainCompletions
      split
      · exact outcome
      next intact =>
        rcases outcome with ⟨sound, outside⟩ | ⟨_, ruined⟩
        · split
          next held => exact ih later (outcome_reported nested sound outside held _ _ now)
          · exact ih later (.inl ⟨sound, outside⟩)
        · exact absurd ruined.fault intact

theorem outcome_drive {w : World} (sound : Sound w) (outside : w.delivering = []) (socket : Int)
    (events : Nat) (given : Drive)
    (within : Within nested (given.messages.flatMap Message.reaction)) :
    Outcome nested [] (drive w socket events given).2 := by
  have emitted : Sound (w.emit (.acted socket events)) := sound.emit_silent rfl nofun
  obtain ⟨steady, same⟩ := emitted.acts given.activities
  unfold drive
  dsimp only
  split
  · exact .inl ⟨steady, same.trans outside⟩
  · exact outcome_drain nested given.messages within (.inl ⟨steady, same.trans outside⟩)

theorem outcome_step (w : World) (call : Call) (outcome : Outcome nested [] w)
    (within : Within nested call.reaction) : Outcome nested [] (w.step call) := by
  unfold World.step
  split
  · exact outcome
  next intact =>
    rcases outcome with ⟨sound, outside⟩ | ⟨_, ruined⟩
    · cases call with
      | op op =>
        exact outside ▸ outcome_perform nested op sound (.inr (.inr outside)) within
      | socketAction socket watch runningOut given =>
        dsimp only [alphaHttpMultiSocketAction]
        split
        · exact .inl ⟨sound, outside⟩
        · exact outcome_drive nested sound outside _ _ given within
      | timeoutAction runningOut given =>
        dsimp only [alphaHttpMultiTimeoutAction]
        split
        · exact .inl ⟨sound, outside⟩
        · exact outcome_drive nested sound outside _ _ given within
    -- a ruined client has faulted, and a faulted one takes no further call
    · exact absurd ruined.fault intact

/-- Every run ends in a sound client, or a cancel has crossed a delivery and it has faulted. -/
theorem outcome_run (calls : List Call) (within : ∀ call ∈ calls, Within nested call.reaction) :
    Outcome nested [] (Runs.run World.step World.created calls) :=
  Runs.run_invariant World.step (fun _ call => Within nested call.reaction) (Outcome nested [])
    (outcome_step nested) World.created calls (.inl ⟨sound_created, rfl⟩)
    (Runs.along_of_forall World.step _ World.created calls within)

end Runs

end AlphaPipeline.Http

import AlphaPipeline.Http.Completion

/-!
# What the owner can rely on

The accounting of whole runs, read off a sound client: once no completion is being delivered,
every request is pending, finished or was never accepted.
-/
namespace AlphaPipeline.Http

/-- The effects of a run, in order. -/
def World.effects (w : World) : List Effect := w.log.map Entry.effect

section AtRest

variable {w : World} (sound : Sound w) (outside : w.delivering = [])
include sound outside

/-- Outside any delivery a request is linked and pending, or it has no more to come. -/
theorem Sound.at_rest (id : Nat) : ∃ stage, life id w.log = some stage ∧
    ((id ∈ w.client.requests ∧ ∃ kind userData, stage = .pending kind userData) ∨
      (id ∉ w.client.requests ∧ ((stage = .absent ∨ stage = .discarded) ∨
        ∃ kind userData, stage = .finished kind userData))) := by
  by_cases linked : id ∈ w.client.requests
  · obtain ⟨request, _, reached⟩ := sound.linked id linked
    rw [World.stage, outside, if_neg List.not_mem_nil] at reached
    exact ⟨_, reached, .inl ⟨linked, _, _, rfl⟩⟩
  · obtain ⟨_, stage, reached, closed⟩ := sound.unlinked id linked
    refine ⟨stage, reached, .inr ⟨linked, ?_⟩⟩
    cases stage <;> simp [Stage.closed] at closed ⊢

/-- A request that was reported done or cancelled has completed. -/
theorem Sound.completed_of_settled {id : Nat} {effect : Effect} (present : effect ∈ w.effects)
    (settled : settledOf id effect ≠ []) : (completions id w.log).length = 1 := by
  obtain ⟨stage, reached, place⟩ := sound.at_rest outside id
  obtain ⟨_, delivered, settlements, _⟩ := life_history reached
  have known : stage.settlements ≠ [] := by
    rw [← settlements]
    exact fun empty => settled (List.flatMap_eq_nil_iff.mp empty effect present)
  rw [← List.length_map, delivered]
  -- of the stages at rest only a finished request was ever settled
  rcases place with ⟨_, _, _, rfl⟩ | ⟨_, (rfl | rfl) | ⟨_, _, rfl⟩⟩
  · exact absurd rfl known
  · exact absurd rfl known
  · exact absurd rfl known
  · rfl

/-- An accepted request is still pending, or was completed and freed once. -/
theorem Sound.accepted_once {id : Nat} {kind : Int} {userData : Option Nat}
    (accepted : .accepted id kind userData ∈ w.effects) :
    (id ∈ w.client.requests ∧ completions id w.log = [] ∧ frees id w.log = 0) ∨
      (id ∉ w.client.requests ∧ (completions id w.log).length = 1 ∧ frees id w.log = 1) := by
  obtain ⟨stage, reached, place⟩ := sound.at_rest outside id
  obtain ⟨terms, delivered, _, freed⟩ := life_history reached
  have known : (kind, userData) ∈ stage.terms := by
    rw [← terms]
    exact List.mem_flatMap.mpr ⟨_, accepted, by simp [acceptedOf]⟩
  have count : (completions id w.log).length = stage.deliveredTerms.length := by
    rw [← delivered, List.length_map]
  -- nothing is in delivery, so an accepted request is pending or finished
  rcases place with ⟨linked, _, _, rfl⟩ | ⟨unlinked, (rfl | rfl) | ⟨_, _, rfl⟩⟩
  · exact .inl ⟨linked, List.length_eq_zero_iff.mp count, freed⟩
  · cases known
  · cases known
  · exact .inr ⟨unlinked, count, freed⟩

end AtRest

section History

variable {w : World} (sound : Sound w)
include sound

theorem Sound.life (id : Nat) : ∃ stage, life id w.log = some stage := by
  by_cases linked : id ∈ w.client.requests
  · obtain ⟨_, _, reached⟩ := sound.linked id linked
    exact ⟨_, reached⟩
  · obtain ⟨_, stage, reached, _⟩ := sound.unlinked id linked
    exact ⟨stage, reached⟩

/-- A request completes at most once. -/
theorem Sound.completed_once (id : Nat) : (completions id w.log).length ≤ 1 := by
  obtain ⟨stage, reached⟩ := sound.life id
  rw [← List.length_map, (life_history reached).2.1]
  cases stage <;> simp [Stage.deliveredTerms]

/-- Every completion carries the kind and user data of an accepted post. -/
theorem Sound.completed_accepted (id : Nat) (result : HttpResult)
    (told : result ∈ completions id w.log) :
    .accepted id result.kind result.userData ∈ w.effects := by
  obtain ⟨stage, reached⟩ := sound.life id
  refine accepted_of_terms reached (deliveredTerms_subset stage ?_)
  rw [← (life_history reached).2.1]
  exact List.mem_map_of_mem told

/-- The request of a refused post never completes. -/
theorem Sound.refused_silent {id : Nat} {status : AlphaErr} {before : Client}
    (rejected : .rejected status (some id) before ∈ w.effects) : completions id w.log = [] := by
  obtain ⟨stage, reached⟩ := sound.life id
  obtain rfl := discarded_of_rejected reached rejected
  exact List.map_eq_nil_iff.mp (life_history reached).2.1

/-- No cancel has found a request in delivery. -/
theorem Sound.not_crossed : ¬ Crossed w.log := by
  rintro ⟨entry, present, userData, id, cancelled, inside⟩
  exact ((sound.entries entry present).found userData id cancelled).2.1 inside

end History

/-! ### Requests that a call settles -/

/-- The call settles the request: the owner cancels user data whose newest linked request it is, or
libcurl reports its handle done in an action that succeeds. -/
inductive Settles (w : World) : Call → Nat → Prop
  | cancelled {id userData : Nat} {kind : Int} {newer older : List Nat} (reaction : List Op)
      (linked : w.client.requests = newer ++ id :: older)
      (own : .accepted id kind (some userData) ∈ w.effects)
      (newest : ∀ other ∈ newer, ∀ kind, .accepted other kind (some userData) ∉ w.effects) :
      Settles w (.op (.cancel (some userData) reaction)) id
  | socket {id : Nat} {socket watch status transport : Int} {given : Drive} {reaction : List Op}
      (valid : 0 ≤ socket ∧ (u32 watch).toNat < 4) (succeeds : given.succeeds = true)
      (linked : id ∈ w.client.requests)
      (reported : .done id status transport reaction ∈ given.messages) :
      Settles w (.socketAction socket watch true given) id
  | timeout {id : Nat} {status transport : Int} {given : Drive} {reaction : List Op}
      (succeeds : given.succeeds = true) (linked : id ∈ w.client.requests)
      (reported : .done id status transport reaction ∈ given.messages) :
      Settles w (.timeoutAction true given) id

theorem Settles.linked {w : World} {call : Call} {id : Nat} (settles : Settles w call id) :
    id ∈ w.client.requests := by
  cases settles with
  | cancelled _ linked => exact linked ▸ List.mem_append_right _ List.mem_cons_self
  | socket _ _ linked => exact linked
  | timeout _ linked => exact linked

/-- The search of a cancel ends at the newest linked request that was posted with its user data. -/
theorem Sound.find_newest {w : World} (sound : Sound w) {id userData : Nat} {kind : Int}
    {newer older : List Nat} (linked : w.client.requests = newer ++ id :: older)
    (own : .accepted id kind (some userData) ∈ w.effects)
    (newest : ∀ other ∈ newer, ∀ kind, .accepted other kind (some userData) ∉ w.effects) :
    w.find userData = some id := by
  rw [World.find, List.find?_eq_some_iff_append]
  refine ⟨?_, newer, older, linked, fun other member => ?_⟩
  · have present : id ∈ w.client.requests := linked ▸ List.mem_append_right _ List.mem_cons_self
    obtain ⟨request, live, _⟩ := sound.linked id present
    simp [live, ← (sound.accepted_own present live own).2]
  · have present : other ∈ w.client.requests := linked ▸ List.mem_append_left _ member
    obtain ⟨request, live, _⟩ := sound.linked other present
    have foreign : request.userData ≠ some userData := fun same =>
      newest other member request.kind (same ▸ sound.accepted present live)
    simp [live, foreign]

/-- A handle that libcurl reports is freed when its messages are drained. -/
theorem drain_frees {messages : List Message} {w : World} {id : Nat}
    (posts : Within false (messages.flatMap Message.reaction)) (outcome : Outcome false [] w)
    (known : id < w.fresh) {status transport : Int} {reaction : List Op}
    (reported : .done id status transport reaction ∈ messages) :
    (drainCompletions messages w).heap id = none := by
  induction messages generalizing w with
  | nil => cases reported
  | cons message rest ih =>
    have later : Within false (rest.flatMap Message.reaction) :=
      posts.imp_right fun all op h => all op (List.mem_append_right _ h)
    obtain ⟨sound, outside⟩ : Sound w ∧ w.delivering = [] := outcome.resolve_right nofun
    cases message with
    | other => exact ih later outcome known ((List.mem_cons.mp reported).resolve_left nofun)
    | done handle status' transport' reaction' =>
      have now : Within false reaction' :=
        posts.imp_right fun all op h => all op (List.mem_append_left _ h)
      have onward (apart : handle ≠ id) : .done id status transport reaction ∈ rest := by
        refine (List.mem_cons.mp reported).resolve_left fun same => ?_
        cases same
        exact apart rfl
      rw [drainCompletions, if_neg (by rw [sound.intact]; decide)]
      split
      next held =>
        have completed := outcome_reported false sound outside held status' transport' now
        have removed : Grows w ((w.emit (.reported handle)).detach handle) :=
          ⟨List.prefix_append _ _, fun faulty => faulty, le_rfl, fun _ _ gone => gone⟩
        have grown := (removed.trans (grows_complete _ handle status' transport' _
          (grows_performAll reaction'))).fresh
        by_cases same : handle = id
        · subst same
          refine (grows_drain rest _).freed _ (known.trans_le grown) ?_
          refine (complete_frees _ handle status' transport' _).resolve_left fun faulty => ?_
          rw [(completed.resolve_right nofun).1.intact] at faulty
          cases faulty
        · exact ih later completed (known.trans_le grown) (onward same)
      next free =>
        by_cases same : handle = id
        · subst same
          -- a handle that libcurl does not hold is that of a request freed before
          have unlinked : handle ∉ w.client.requests := fun linked =>
            free ((sound.attached handle).mpr ⟨linked, outside ▸ List.not_mem_nil⟩)
          exact (grows_drain rest w).freed _ known (sound.unlinked handle unlinked).1
        · exact ih later outcome known (onward same)

theorem drive_frees {w : World} (sound : Sound w) (outside : w.delivering = []) {given : Drive}
    (posts : Within false (given.messages.flatMap Message.reaction)) {id : Nat}
    (linked : id ∈ w.client.requests) (succeeds : given.succeeds = true) {status transport : Int}
    {reaction : List Op} (reported : .done id status transport reaction ∈ given.messages)
    (socket : Int) (events : Nat) : (drive w socket events given).2.heap id = none := by
  have emitted : Sound (w.emit (.acted socket events)) := sound.emit_silent rfl nofun
  obtain ⟨steady, same⟩ := emitted.acts given.activities
  have grown := (grows_acts given.activities (w.emit (.acted socket events))).fresh
  simp only [drive, succeeds, Bool.not_true, Bool.false_eq_true, if_false]
  exact drain_frees posts (.inl ⟨steady, same.trans outside⟩)
    ((sound.known linked).trans_le grown) reported

/-- A call that settles a request frees it. -/
theorem Settles.frees {w : World} {call : Call} {id : Nat} (settles : Settles w call id)
    (sound : Sound w) (outside : w.delivering = []) (posts : Within false call.reaction) :
    (w.step call).heap id = none := by
  have after := outcome_step false w call (.inl ⟨sound, outside⟩) posts
  have running : ¬ w.fault = true := by
    rw [sound.intact]
    decide
  cases settles with
  | cancelled reaction linked own newest =>
    have found := sound.find_newest linked own newest
    simp only [World.step, if_neg running, Op.perform, alphaHttpCancel, found] at after ⊢
    refine (complete_frees _ id 0 abortedByCallback _).resolve_left fun faulty => ?_
    rw [(after.resolve_right nofun).1.intact] at faulty
    cases faulty
  | socket valid succeeds linked reported =>
    have taken : ¬ (u32 _).toNat / 4 ≠ 0 := not_not.mpr (Nat.div_eq_of_lt valid.2)
    simp only [World.step, if_neg running, alphaHttpMultiSocketAction]
    rw [if_neg (by simp [not_lt.mpr valid.1, taken])]
    exact drive_frees sound outside posts linked succeeds reported _ _
  | timeout succeeds linked reported =>
    simp only [World.step, if_neg running, alphaHttpMultiTimeoutAction]
    exact drive_frees sound outside posts linked succeeds reported _ _

/-! ### Accounting -/

/-- What the owner sees of a client in order: the count is the length of the list and within
its bound at every effect; a post completes at most once and as itself, and exactly once when it
was reported done or cancelled; a refused post changes nothing and never completes. -/
structure Accounted (w : World) : Prop where
  intact : w.fault = false
  counted : ∀ client ∈ w.client :: w.log.map Entry.client,
    client.pending = client.requests.length ∧ client.pending ≤ maxPending
  once : ∀ id, (completions id w.log).length ≤ 1
  own : ∀ id, ∀ result ∈ completions id w.log,
    .accepted id result.kind result.userData ∈ w.effects
  settled : ∀ id, (.reported id ∈ w.effects ∨ ∃ userData, .cancel userData (some id) ∈ w.effects) →
    (completions id w.log).length = 1
  refused : ∀ entry ∈ w.log, ∀ status id before, entry.effect = .rejected status id before →
    entry.client = before ∧ ∀ freed, id = some freed → completions freed w.log = []

theorem accounted_of_sound {w : World} (sound : Sound w) (outside : w.delivering = []) :
    Accounted w := by
  refine ⟨sound.intact, ?_, sound.completed_once, sound.completed_accepted, ?_, ?_⟩
  · intro client present
    rcases List.mem_cons.mp present with rfl | logged
    · exact ⟨sound.counted, sound.counted.trans_le sound.bounded⟩
    · obtain ⟨entry, kept, rfl⟩ := List.mem_map.mp logged
      have orderly := sound.entries entry kept
      exact ⟨orderly.counted, orderly.counted.trans_le orderly.bounded⟩
  · rintro id (reported | ⟨userData, cancelled⟩)
    · exact sound.completed_of_settled outside reported (by simp [settledOf])
    · exact sound.completed_of_settled outside cancelled (by simp [settledOf])
  · intro entry present status id before rejected
    refine ⟨(sound.entries entry present).refused status id before rejected, ?_⟩
    rintro freed rfl
    exact sound.refused_silent (List.mem_map.mpr ⟨entry, present, rejected⟩)

/-- A request that was accepted and is freed has completed once. -/
theorem Sound.completed_of_freed {w : World} (sound : Sound w) (outside : w.delivering = [])
    {id : Nat} {kind : Int} {userData : Option Nat}
    (accepted : .accepted id kind userData ∈ w.effects) (freed : w.heap id = none) :
    (completions id w.log).length = 1 := by
  rcases sound.accepted_once outside accepted with ⟨linked, _⟩ | ⟨_, once, _⟩
  · obtain ⟨request, live, _⟩ := sound.linked id linked
    rw [freed] at live
    cases live
  · exact once

/-- For every run in which the owner only posts from inside `complete_fn`, whatever fails in
setting a request up and whatever libcurl reports, every request is accounted for. A call that
cancels a request, or in which libcurl reports it done, completes it: it had no completion before,
has one after the call, and still one in the end. -/
theorem http_accounting (calls : List Call)
    (posts : ∀ call ∈ calls, ∀ op ∈ call.reaction, op.isPost = true) :
    Accounted (Runs.run World.step World.created calls) ∧
      ∀ earlier call later id, calls = earlier ++ call :: later →
        Settles (Runs.run World.step World.created earlier) call id →
        completions id (Runs.run World.step World.created earlier).log = [] ∧
          (completions id (Runs.run World.step World.created (earlier ++ [call])).log).length = 1 ∧
          (completions id (Runs.run World.step World.created calls).log).length = 1 := by
  -- posts alone cannot ruin the client, so it is sound after every part of the run
  have reached (part : List Call) (within : part ⊆ calls) :
      Sound (Runs.run World.step World.created part) ∧
        (Runs.run World.step World.created part).delivering = [] :=
    (outcome_run false part fun call present =>
      .inr (posts call (within present))).resolve_right nofun
  obtain ⟨sound, outside⟩ := reached calls fun _ => id
  refine ⟨accounted_of_sound sound outside, ?_⟩
  rintro earlier call later id rfl settles
  obtain ⟨before, idle⟩ := reached earlier (List.subset_append_left _ _)
  obtain ⟨after, quiet⟩ := reached (earlier ++ [call])
    (List.append_subset.mpr ⟨List.subset_append_left _ _, by simp⟩)
  have step : Runs.run World.step World.created (earlier ++ [call]) =
      (Runs.run World.step World.created earlier).step call := Runs.run_append ..
  have rest : Runs.run World.step World.created (earlier ++ call :: later) =
      Runs.run World.step ((Runs.run World.step World.created earlier).step call) later :=
    Runs.run_append ..
  rw [step] at after quiet ⊢
  rw [rest] at sound outside ⊢
  generalize Runs.run World.step World.created earlier = w at *
  obtain ⟨request, live, _⟩ := before.linked id settles.linked
  have accepted := before.accepted settles.linked live
  have freed := settles.frees before idle (.inr (posts call (by simp)))
  have stepped := grows_step w call
  have ended := grows_run later (w.step call)
  refine ⟨?_, after.completed_of_freed quiet ((stepped.log.map _).subset accepted) freed, ?_⟩
  · rcases before.accepted_once idle accepted with ⟨_, none, _⟩ | ⟨unlinked, _⟩
    · exact none
    · exact absurd settles.linked unlinked
  · refine sound.completed_of_freed outside
      (((stepped.log.trans ended.log).map _).subset accepted) ?_
    exact ended.freed id ((before.known settles.linked).trans_le stepped.fresh) freed

/-- The request of a test post with this user data. -/
def somePost (userData : Nat) : Post := ⟨0, some ['u'], some ['b'], none, 1000, some userData⟩

/-- Everything succeeds but adding the handle, if it is not `added`. -/
def someSetup (added : Bool) : Setup := ⟨true, true, true, true, true, fun _ => true, added⟩

/-- Two posts, one of them completed with another post from inside `complete_fn` that libcurl
refuses to add, the other one cancelled. -/
def postedCalls : List Call :=
  [.op (.post (some (somePost 7)) (someSetup true)),
    .op (.post (some (somePost 8)) (someSetup true)),
    .timeoutAction true ⟨[.received 0 ['a'] 1 1 true], true,
      [.done 0 200 0 [.post (some (somePost 9)) (someSetup false)]]⟩,
    .op (.cancel (some 8) [])]

/-- The completed and the cancelled request each have one completion, from the call that settled
them on. -/
theorem http_accounting_posted :
    let w := Runs.run World.step World.created postedCalls
    Accounted w ∧ (completions 0 w.log).length = 1 ∧ (completions 1 w.log).length = 1 ∧
      completions 1 (Runs.run World.step World.created (postedCalls.take 3)).log = [] := by
  have posts : ∀ call ∈ postedCalls, ∀ op ∈ call.reaction, op.isPost = true := by
    simp [postedCalls, Call.reaction, Op.reaction, Message.reaction, Op.isPost]
  obtain ⟨accounted, settled⟩ := http_accounting postedCalls posts
  have reported := settled (postedCalls.take 2) _ _ 0 rfl
    (.timeout rfl (by decide) List.mem_cons_self)
  have cancelled := settled (postedCalls.take 3) _ _ 1 rfl
    (@Settles.cancelled _ 1 8 0 [] [] [] (by decide) (by decide) nofun)
  exact ⟨accounted, reported.2.2, cancelled.2.2, cancelled.1⟩

/-! ### Re-entrant cancels -/

/-- What would make a completion final: nothing touches a freed request, every accepted request
is still linked or was completed and freed exactly once, and a cancel finds no request when all
that have its user data are in delivery. -/
structure CompletionFinal (w : World) : Prop where
  intact : w.fault = false
  accepted : ∀ id kind userData, .accepted id kind userData ∈ w.effects →
    (id ∈ w.client.requests ∧ completions id w.log = [] ∧ frees id w.log = 0) ∨
      (id ∉ w.client.requests ∧ (completions id w.log).length = 1 ∧ frees id w.log = 1)
  range : ∀ entry ∈ w.log, ∀ userData target, entry.effect = .cancel userData target →
    (∀ id ∈ entry.client.requests, ∀ kind, .accepted id kind (some userData) ∈ w.effects →
      id ∈ entry.delivering) → target = none

/-- Whatever the owner does from inside `complete_fn`, completions are final exactly when no
cancel finds a request in delivery. `alpha_http_cancel` searches a list that such a request is
still on, so nothing in the code keeps a cancel from doing that. -/
theorem completion_final_iff (calls : List Call) :
    CompletionFinal (Runs.run World.step World.created calls) ↔
      ¬ Crossed (Runs.run World.step World.created calls).log := by
  rcases outcome_run true calls (fun _ _ => .inl rfl) with ⟨sound, outside⟩ | ⟨_, ruined⟩
  · refine ⟨fun _ => sound.not_crossed, fun _ => ⟨sound.intact, ?_, ?_⟩⟩
    · exact fun id kind userData accepted => sound.accepted_once outside accepted
    · rintro entry present userData (_ | id) cancelled others
      · rfl
      · obtain ⟨linked, idle, kind, accepted⟩ :=
          (sound.entries entry present).found userData id cancelled
        exact absurd (others id linked kind accepted) idle
  -- a crossing cancel has faulted the client, so both sides fail
  · constructor
    · exact fun final => absurd (final.intact.symm.trans ruined.fault) nofun
    · exact fun clean => absurd ruined.1 clean

/-- A post that is cancelled again from inside its own completion. -/
def crossingCalls : List Call :=
  [.op (.post (some (somePost 7)) (someSetup true)),
    .timeoutAction true ⟨[], true, [.done 0 200 0 [.cancel (some 7) []]]⟩]

/-- It completes twice, and the outer call frees it a second time. -/
theorem crossing_completes_twice :
    (completions 0 (Runs.run World.step World.created crossingCalls).log).length = 2 ∧
      (Runs.run World.step World.created crossingCalls).fault = true ∧
      ¬ CompletionFinal (Runs.run World.step World.created crossingCalls) := by
  have faulty : (Runs.run World.step World.created crossingCalls).fault = true := by decide
  exact ⟨by decide, faulty, fun final => absurd (final.intact.symm.trans faulty) nofun⟩

end AlphaPipeline.Http

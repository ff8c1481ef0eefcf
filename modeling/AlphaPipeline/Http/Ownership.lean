import AlphaPipeline.Http.Lifecycle

/-!
# Who owns a request

A request belongs to the list from the post that links it until `unlink_and_free`, and its
handle to libcurl until it is removed. Each lemma below is one stretch of the code between two
points where the owner can act: a post, the way to `complete_fn`, and the way back from it.
-/
namespace AlphaPipeline.Http

/-- What an entry says of the client, within the log it stands in. -/
structure Orderly (log : List Entry) (entry : Entry) : Prop where
  counted : entry.client.pending = entry.client.requests.length
  bounded : entry.client.requests.length ≤ maxPending
  refused : ∀ status id before, entry.effect = .rejected status id before → entry.client = before
  found : ∀ userData id, entry.effect = .cancel userData (some id) →
    id ∈ entry.client.requests ∧ id ∉ entry.delivering ∧
      ∃ kind, .accepted id kind (some userData) ∈ log.map Entry.effect

/-- A request that is not linked has no more to come. -/
def Stage.closed : Stage → Bool
  | .absent | .finished _ _ | .discarded => true
  | _ => false

/-- The stage of a linked request. -/
def World.stage (w : World) (id : Nat) (request : Request) : Stage :=
  if id ∈ w.delivering then .delivering request.kind request.userData
  else .pending request.kind request.userData

/-- The client between two effects: the list holds the requests that are alive, those in
delivery among them, and libcurl holds the handles of the others. -/
structure Sound (w : World) : Prop where
  intact : w.fault = false
  counted : w.client.pending = w.client.requests.length
  bounded : w.client.requests.length ≤ maxPending
  nodup : w.client.requests.Nodup
  delivering : ∀ id ∈ w.delivering, id ∈ w.client.requests
  attached : ∀ id, id ∈ w.attached ↔ id ∈ w.client.requests ∧ id ∉ w.delivering
  handles : w.attached.Nodup
  linked : ∀ id ∈ w.client.requests, ∃ request, w.heap id = some request ∧
    life id w.log = some (w.stage id request)
  unlinked : ∀ id, id ∉ w.client.requests → w.heap id = none ∧
    ∃ stage : Stage, life id w.log = some stage ∧ stage.closed = true
  unused : ∀ id, w.fresh ≤ id → id ∉ w.client.requests ∧ life id w.log = some .absent
  entries : ∀ entry ∈ w.log, Orderly w.log entry

theorem sound_created : Sound World.created where
  intact := rfl
  counted := rfl
  bounded := Nat.zero_le _
  nodup := List.nodup_nil
  delivering := nofun
  attached _ := ⟨nofun, fun linked => absurd linked.1 List.not_mem_nil⟩
  handles := List.nodup_nil
  linked := nofun
  unlinked _ _ := ⟨rfl, .absent, rfl, rfl⟩
  unused _ _ := ⟨List.not_mem_nil, rfl⟩
  entries := nofun

/-! ### One more entry -/

section Entries

variable {w : World} {effect : Effect}

theorem Orderly.mono {log longer : List Entry} {entry : Entry} (orderly : Orderly log entry)
    (within : log <+: longer) : Orderly longer entry where
  counted := orderly.counted
  bounded := orderly.bounded
  refused := orderly.refused
  found userData id cancelled := by
    obtain ⟨linked, free, kind, accepted⟩ := orderly.found userData id cancelled
    exact ⟨linked, free, kind, (within.map Entry.effect).subset accepted⟩

/-- The entries that are neither a refusal nor a cancel. -/
def Effect.plain : Effect → Bool
  | .rejected _ _ _ => false
  | .cancel _ _ => false
  | _ => true

/-- All that is asked of a plain entry is the count. -/
theorem orderly_of_plain {log : List Entry} {entry : Entry} (plain : entry.effect.plain = true)
    (counted : entry.client.pending = entry.client.requests.length)
    (bounded : entry.client.requests.length ≤ maxPending) : Orderly log entry where
  counted := counted
  bounded := bounded
  refused _ _ _ refusal := by
    rw [refusal] at plain
    cases plain
  found _ _ cancelled := by
    rw [cancelled] at plain
    cases plain

theorem orderly_emit (entries : ∀ entry ∈ w.log, Orderly w.log entry)
    (new : Orderly (w.emit effect).log ⟨effect, w.client, w.delivering⟩) :
    ∀ entry ∈ (w.emit effect).log, Orderly (w.emit effect).log entry := by
  intro entry present
  rcases List.mem_append.mp present with earlier | latest
  · exact (entries entry earlier).mono (List.prefix_append _ _)
  · rw [List.mem_singleton.mp latest]
    exact new

/-- An entry about no request changes nothing. -/
theorem Sound.emit_silent (sound : Sound w) (silent : effect.subject = none)
    (refused : ∀ status id before, effect = .rejected status id before → w.client = before) :
    Sound (w.emit effect) where
  intact := sound.intact
  counted := sound.counted
  bounded := sound.bounded
  nodup := sound.nodup
  delivering := sound.delivering
  attached := sound.attached
  handles := sound.handles
  linked id present := by
    rw [life_emit_other (by rw [silent]; nofun)]
    exact sound.linked id present
  unlinked id absent := by
    rw [life_emit_other (by rw [silent]; nofun)]
    exact sound.unlinked id absent
  unused id beyond := by
    rw [life_emit_other (by rw [silent]; nofun)]
    exact sound.unused id beyond
  entries := by
    refine orderly_emit sound.entries ⟨sound.counted, sound.bounded, refused, ?_⟩
    rintro userData id rfl
    cases silent

end Entries

/-- The kind and user data of a linked request are those its post was accepted with. -/
theorem Sound.accepted {w : World} (sound : Sound w) {id : Nat}
    (linked : id ∈ w.client.requests) {request : Request} (live : w.heap id = some request) :
    .accepted id request.kind request.userData ∈ w.log.map Entry.effect := by
  obtain ⟨_, same, reached⟩ := sound.linked id linked
  obtain rfl := Option.some.inj (live.symm.trans same)
  refine accepted_of_terms reached ?_
  rw [World.stage]
  split <;> exact List.mem_singleton_self _

/-- An accepted post of a linked request is the one it was made by. -/
theorem Sound.accepted_own {w : World} (sound : Sound w) {id : Nat}
    (linked : id ∈ w.client.requests) {request : Request} (live : w.heap id = some request)
    {kind : Int} {userData : Option Nat}
    (accepted : .accepted id kind userData ∈ w.log.map Entry.effect) :
    kind = request.kind ∧ userData = request.userData := by
  obtain ⟨_, same, reached⟩ := sound.linked id linked
  obtain rfl := Option.some.inj (live.symm.trans same)
  have terms : (w.stage id request).terms = [(request.kind, request.userData)] := by
    rw [World.stage]
    split <;> rfl
  have known : (kind, userData) ∈ (w.stage id request).terms := by
    rw [← (life_history reached).1]
    exact List.mem_flatMap.mpr ⟨_, accepted, by simp [acceptedOf]⟩
  rw [terms] at known
  exact Prod.mk.inj (List.mem_singleton.mp known)

theorem Sound.known {w : World} (sound : Sound w) {id : Nat} (linked : id ∈ w.client.requests) :
    id < w.fresh :=
  Nat.lt_of_not_le fun beyond => (sound.unused id beyond).1 linked

/-! ### Posts -/

private theorem failure_ne_ok {setup : Setup} {post : Post} {status : AlphaErr}
    (failed : setup.failure post = some status) : status ≠ .ok := by
  unfold Setup.failure at failed
  split at failed
  · cases failed
    decide
  · split at failed
    · cases failed
      decide
    · split at failed
      · cases failed
        decide
      · split at failed
        · cases failed
          decide
        · cases failed

/-- A post is refused, with or without a request to free again, or its request is linked and
its handle added. -/
theorem alphaHttpPostJson_cases (w : World) (post : Option Post) (setup : Setup) :
    (∃ status, status ≠ .ok ∧ alphaHttpPostJson w post setup = (status, w)) ∨
      (∃ status given, status ≠ .ok ∧ alphaHttpPostJson w post setup =
        (status, unlinkAndFree (w.create given) w.fresh)) ∨
      (∃ status given, status ≠ .ok ∧ w.client.pending < maxPending ∧
        alphaHttpPostJson w post setup =
          (status, unlinkAndFree ((w.create given).link w.fresh) w.fresh)) ∨
      ∃ given, post = some given ∧ w.client.pending < maxPending ∧
        alphaHttpPostJson w post setup =
          (.ok, { (w.create given).link w.fresh with attached := w.fresh :: w.attached }) := by
  -- in the order of the checks of the source, up to the first that fails
  cases post with
  | none => exact .inl ⟨_, by decide, rfl⟩
  | some given =>
    simp only [alphaHttpPostJson]
    by_cases valid : given.valid = true
    · by_cases room : w.client.pending ≥ maxPending
      · exact .inl ⟨.range, by decide, by rw [valid, if_pos room]; rfl⟩
      · cases allocated : setup.request with
        | false => exact .inl ⟨.io, by decide, by rw [valid, if_neg room]; rfl⟩
        | true =>
          rw [valid, if_neg room]
          -- from here on the request exists and has to be freed
          cases failed : setup.failure given with
          | some status =>
            exact .inr (.inl ⟨status, given, failure_ne_ok failed, rfl⟩)
          | none =>
            -- only here has the request been linked and counted
            cases added : setup.added with
            | false =>
              exact .inr (.inr (.inl ⟨.http, given, by decide, Nat.lt_of_not_ge room, rfl⟩))
            | true => exact .inr (.inr (.inr ⟨given, rfl, Nat.lt_of_not_ge room, rfl⟩))
    · exact .inl ⟨.invalidArg, by decide, by simp [valid]⟩

/-- A refused post tells the owner which request it freed, if any. -/
private theorem post_refused {w after : World} {post : Option Post} {setup : Setup}
    {status : AlphaErr} (bad : status ≠ .ok)
    (answer : alphaHttpPostJson w post setup = (status, after)) :
    w.post post setup = after.emit (.rejected status
      (if after.fresh = w.fresh then none else some w.fresh) w.client) := by
  unfold World.post
  rw [answer]
  cases post with
  | none => rfl
  | some given => cases status <;> first | rfl | exact absurd rfl bad

section Post

variable {w : World} (sound : Sound w)
include sound

private theorem Sound.restored (request : Option Request) :
    Function.update (Function.update w.heap w.fresh request) w.fresh none = w.heap := by
  have empty := (sound.unlinked w.fresh (sound.unused w.fresh le_rfl).1).1
  rw [Function.update_idem, ← empty, Function.update_eq_self]

/-- A request that is freed before it was accepted leaves no trace but in the log. -/
theorem Sound.create_free (given : Post) :
    unlinkAndFree (w.create given) w.fresh =
      { w with fresh := w.fresh + 1 }.emit (.freed w.fresh) := by
  simp only [unlinkAndFree, World.create, sound.intact, Bool.false_eq_true, if_false,
    Function.update_self, if_neg (sound.unused w.fresh le_rfl).1, sound.restored]

/-- The same when it was linked already: the count is back where it was. -/
theorem Sound.link_free (given : Post) :
    unlinkAndFree ((w.create given).link w.fresh) w.fresh =
      { w with fresh := w.fresh + 1 }.emit (.freed w.fresh) := by
  -- the count wraps at `size_t`, but it was not zero
  have count : sizeSub (w.client.pending + 1) 1 = w.client.pending := by
    have := sound.counted
    have := sound.bounded
    simp only [maxPending] at this
    unfold sizeSub sizeModulus
    omega
  simp only [unlinkAndFree, World.create, World.link, sound.intact, Bool.false_eq_true, if_false,
    Function.update_self, List.mem_cons_self, if_true, List.erase_cons_head, count,
    sound.restored]

theorem Sound.discard (status : AlphaErr) :
    Sound (({ w with fresh := w.fresh + 1 }.emit (.freed w.fresh)).emit
      (.rejected status (some w.fresh) w.client)) := by
  obtain ⟨absent, unheard⟩ := sound.unused w.fresh le_rfl
  -- both effects are about the new request only
  have others : ∀ id, id ≠ w.fresh → life id (({ w with fresh := w.fresh + 1 }.emit
      (.freed w.fresh)).emit (.rejected status (some w.fresh) w.client)).log = life id w.log := by
    intro id other
    rw [life_emit_other (by simpa [Effect.subject] using other.symm),
      life_emit_other (by simpa [Effect.subject] using other.symm)]
  refine ⟨sound.intact, sound.counted, sound.bounded, sound.nodup, sound.delivering,
    sound.attached, sound.handles, ?_, ?_, ?_, ?_⟩
  · intro id present
    rw [others id (fun same => absent (same ▸ present))]
    exact sound.linked id present
  · intro id missing
    -- the new request goes from nothing to freed, and the answer comes after that
    by_cases same : id = w.fresh
    · subst same
      refine ⟨(sound.unlinked _ missing).1, .discarded, ?_, rfl⟩
      exact life_emit_own (life_emit_own unheard rfl rfl) rfl rfl
    · rw [others id same]
      exact sound.unlinked id missing
  · intro id beyond
    change w.fresh + 1 ≤ id at beyond
    rw [others id (by omega)]
    exact sound.unused id (by omega)
  · refine orderly_emit (orderly_emit sound.entries
      (orderly_of_plain rfl sound.counted sound.bounded)) ⟨sound.counted, sound.bounded, ?_, ?_⟩
    · rintro _ _ _ same
      cases same
      rfl
    · rintro _ _ same
      cases same

/-- An accepted request is linked, with its handle added. -/
theorem Sound.accept (given : Post) (room : w.client.pending < maxPending) :
    Sound ({ (w.create given).link w.fresh with attached := w.fresh :: w.attached }.emit
      (.accepted w.fresh given.kind given.userData)) := by
  obtain ⟨absent, unheard⟩ := sound.unused w.fresh le_rfl
  have idle : w.fresh ∉ w.delivering := fun told => absent (sound.delivering _ told)
  have within : w.client.requests.length + 1 ≤ maxPending := by
    rw [← sound.counted]
    exact room
  -- the post is about the new request only
  have others : ∀ id, id ≠ w.fresh → life id ({ (w.create given).link w.fresh with
      attached := w.fresh :: w.attached }.emit
        (.accepted w.fresh given.kind given.userData)).log = life id w.log := by
    intro id other
    rw [life_emit_other (by simpa [Effect.subject] using other.symm)]
    rfl
  refine ⟨sound.intact, congrArg (· + 1) sound.counted, within, ?_, ?_, ?_, ?_, ?_, ?_, ?_, ?_⟩
  · exact List.nodup_cons.mpr ⟨absent, sound.nodup⟩
  · exact fun id told => List.mem_cons_of_mem _ (sound.delivering id told)
  · intro id
    change id ∈ w.fresh :: w.attached ↔ id ∈ w.fresh :: w.client.requests ∧ id ∉ w.delivering
    rw [List.mem_cons, List.mem_cons, sound.attached]
    constructor
    · rintro (rfl | ⟨linked, free⟩)
      · exact ⟨.inl rfl, idle⟩
      · exact ⟨.inr linked, free⟩
    · rintro ⟨new | linked, free⟩
      · exact .inl new
      · exact .inr ⟨linked, free⟩
  · exact List.nodup_cons.mpr ⟨fun held => absent ((sound.attached _).mp held).1, sound.handles⟩
  · intro id present
    rcases List.mem_cons.mp present with rfl | earlier
    · refine ⟨⟨given.kind, given.userData, none, 0⟩, Function.update_self .., ?_⟩
      -- a new request cannot be in delivery, so it starts as pending
      change life w.fresh (World.emit _ _).log = some (ite (w.fresh ∈ w.delivering) _ _)
      rw [if_neg idle]
      exact life_emit_own unheard rfl rfl
    · have other : id ≠ w.fresh := fun same => absent (same ▸ earlier)
      rw [others id other]
      obtain ⟨request, live, reached⟩ := sound.linked id earlier
      exact ⟨request, (Function.update_of_ne other ..).trans live, reached⟩
  · intro id missing
    obtain ⟨other, unknown⟩ := not_or.mp (fun known => missing (List.mem_cons.mpr known))
    rw [others id other]
    obtain ⟨empty, reached⟩ := sound.unlinked id unknown
    exact ⟨(Function.update_of_ne other ..).trans empty, reached⟩
  · intro id beyond
    change w.fresh + 1 ≤ id at beyond
    have other : id ≠ w.fresh := by omega
    obtain ⟨missing, reached⟩ := sound.unused id (by omega)
    rw [others id other]
    exact ⟨List.not_mem_cons_of_ne_of_not_mem other missing, reached⟩
  · exact orderly_emit sound.entries
      (orderly_of_plain rfl (congrArg (· + 1) sound.counted) within)

/-- A post keeps the client sound, whatever fails, and leaves deliveries alone. -/
theorem Sound.post (post : Option Post) (setup : Setup) :
    Sound (w.post post setup) ∧ (w.post post setup).delivering = w.delivering := by
  have freed : w.fresh + 1 ≠ w.fresh := by omega
  -- a freed number shows in `fresh`, which is how the answer names the request
  rcases alphaHttpPostJson_cases w post setup with ⟨status, bad, answer⟩ |
    ⟨status, given, bad, answer⟩ | ⟨status, given, bad, answer⟩ | ⟨given, rfl, room, answer⟩
  · rw [post_refused bad answer, if_pos rfl]
    refine ⟨sound.emit_silent rfl ?_, rfl⟩
    rintro _ _ _ same
    cases same
    rfl
  · rw [post_refused bad answer, sound.create_free]
    exact ⟨(if_neg freed).symm ▸ sound.discard status, rfl⟩
  · rw [post_refused bad answer.2, sound.link_free]
    exact ⟨(if_neg freed).symm ▸ sound.discard status, rfl⟩
  · unfold World.post
    rw [answer]
    exact ⟨sound.accept given room, rfl⟩

end Post

/-! ### Completions -/

section Completion

variable {w : World} (sound : Sound w) {id : Nat}
include sound

/-- The way to `complete_fn`: the request is reported done or found by a cancel, its handle
removed, and its completion handed out. -/
theorem Sound.deliver (linked : id ∈ w.client.requests) (idle : id ∉ w.delivering)
    {request : Request} (live : w.heap id = some request) (result : HttpResult)
    (kind : result.kind = request.kind) (userData : result.userData = request.userData)
    {effect : Effect} (own : effect.subject = some id)
    (settles : ∀ kind userData, Stage.advance (.pending kind userData) effect =
      some (.settled kind userData))
    (found : ∀ userData other, effect = .cancel userData (some other) →
      ∃ kind, .accepted other kind (some userData) ∈ w.log.map Entry.effect) :
    Sound ({ (w.emit effect).detach id with delivering := id :: w.delivering }.emit
      (.completed id result)) := by
  obtain ⟨_, same, reached⟩ := sound.linked id linked
  obtain rfl := Option.some.inj (live.symm.trans same)
  rw [World.stage, if_neg idle] at reached
  -- two effects, both about the request that completes
  have others : ∀ other, other ≠ id → life other ({ (w.emit effect).detach id with
      delivering := id :: w.delivering }.emit (.completed id result)).log = life other w.log := by
    intro other apart
    rw [life_emit_other (by simpa [Effect.subject] using apart.symm)]
    exact life_emit_other (by simpa [own] using apart.symm)
  refine ⟨sound.intact, sound.counted, sound.bounded, sound.nodup, ?_, ?_, ?_, ?_, ?_, ?_, ?_⟩
  · intro other told
    rcases List.mem_cons.mp told with rfl | outer
    · exact linked
    · exact sound.delivering other outer
  · intro other
    -- libcurl no longer holds the handle of the request in delivery
    change other ∈ w.attached.erase id ↔ other ∈ w.client.requests ∧ other ∉ id :: w.delivering
    rw [sound.handles.mem_erase_iff, sound.attached, List.mem_cons, not_or]
    exact and_left_comm
  · exact sound.handles.erase id
  · intro other present
    by_cases apart : other = id
    · subst apart
      refine ⟨request, live, ?_⟩
      -- pending, then settled by the report or the cancel, then handed out as itself
      change life other (World.emit _ _).log = some (ite (other ∈ other :: w.delivering) _ _)
      rw [if_pos List.mem_cons_self]
      refine life_emit_own (life_emit_own reached own (settles _ _)) rfl ?_
      exact if_pos ⟨kind, userData⟩
    · rw [others other apart]
      obtain ⟨found, alive, stage⟩ := sound.linked other present
      refine ⟨found, alive, stage.trans (congrArg some ?_)⟩
      simp only [World.stage, World.emit, List.mem_cons, apart, false_or]
  · intro other missing
    rw [others other (fun same => missing (same ▸ linked))]
    exact sound.unlinked other missing
  · intro other beyond
    obtain ⟨missing, unheard⟩ := sound.unused other beyond
    rw [others other (fun same => missing (same ▸ linked))]
    exact ⟨missing, unheard⟩
  -- a cancel on this way has found a request that no completion was delivered for
  · have first : Orderly (w.emit effect).log ⟨effect, w.client, w.delivering⟩ := by
      refine ⟨sound.counted, sound.bounded, ?_, ?_⟩
      · rintro status other before rfl
        cases settles 0 none
      · rintro given other rfl
        obtain rfl := Option.some.inj own
        obtain ⟨kind, accepted⟩ := found given other rfl
        exact ⟨linked, idle, kind,
          ((List.prefix_append w.log _).map Entry.effect).subset accepted⟩
    exact orderly_emit (orderly_emit sound.entries first)
      (orderly_of_plain rfl sound.counted sound.bounded)

/-- The way back: `unlink_and_free` takes the request off the list it is still on. -/
theorem Sound.release {outer : List Nat} (told : w.delivering = id :: outer)
    (once : id ∉ outer) : Sound { unlinkAndFree w id with delivering := outer } := by
  have linked : id ∈ w.client.requests :=
    sound.delivering id (told ▸ List.mem_cons_self)
  obtain ⟨request, live, reached⟩ := sound.linked id linked
  rw [World.stage, if_pos (told ▸ List.mem_cons_self)] at reached
  have positive : 0 < w.client.requests.length := List.length_pos_of_mem linked
  -- the request is linked, so the count is not zero and does not wrap
  have count : sizeSub w.client.pending 1 = (w.client.requests.erase id).length := by
    have := sound.counted
    have := sound.bounded
    simp only [maxPending] at this
    rw [List.length_erase_of_mem linked]
    unfold sizeSub sizeModulus
    omega
  have freed : unlinkAndFree w id =
      { w with
        client := ⟨w.client.requests.erase id, sizeSub w.client.pending 1⟩
        heap := Function.update w.heap id none }.emit (.freed id) := by
    simp only [unlinkAndFree, sound.intact, Bool.false_eq_true, if_false, live, if_pos linked]
  have bounded : (w.client.requests.erase id).length ≤ maxPending :=
    List.length_erase_le.trans sound.bounded
  rw [freed]
  have others : ∀ other, other ≠ id → life other ({ w with
      client := ⟨w.client.requests.erase id, sizeSub w.client.pending 1⟩
      heap := Function.update w.heap id none }.emit (.freed id)).log = life other w.log :=
    fun other apart => life_emit_other (by simpa [Effect.subject] using apart.symm)
  refine ⟨sound.intact, count, bounded, sound.nodup.erase id, ?_, ?_, sound.handles, ?_, ?_, ?_, ?_⟩
  · intro other outside
    -- the deliveries around this one are of other requests, which stay linked
    have apart : other ≠ id := fun same => once (same ▸ outside)
    exact (List.mem_erase_of_ne apart).mpr
      (sound.delivering other (told ▸ List.mem_cons_of_mem _ outside))
  · intro other
    change other ∈ w.attached ↔ other ∈ w.client.requests.erase id ∧ other ∉ outer
    rw [sound.nodup.mem_erase_iff, sound.attached, told, List.mem_cons, not_or, and_left_comm,
      and_assoc]
  · intro other present
    obtain ⟨apart, earlier⟩ := sound.nodup.mem_erase_iff.mp present
    obtain ⟨found, alive, stage⟩ := sound.linked other earlier
    refine ⟨found, (Function.update_of_ne apart ..).trans alive, ?_⟩
    refine (others other apart).trans (stage.trans (congrArg some ?_))
    simp only [World.stage, told, List.mem_cons, apart, false_or]
  · intro other missing
    by_cases apart : other = id
    · subst apart
      exact ⟨Function.update_self .., _, life_emit_own reached rfl rfl, rfl⟩
    · obtain ⟨empty, stage⟩ := sound.unlinked other fun present =>
        missing ((List.mem_erase_of_ne apart).mpr present)
      refine ⟨(Function.update_of_ne apart ..).trans empty, ?_⟩
      rw [← others other apart] at stage
      exact stage
  · intro other beyond
    obtain ⟨missing, unheard⟩ := sound.unused other beyond
    have apart : other ≠ id := fun same => missing (same ▸ linked)
    exact ⟨fun present => missing (List.mem_of_mem_erase present),
      (others other apart).trans unheard⟩
  · exact orderly_emit sound.entries (orderly_of_plain rfl count bounded)

end Completion

/-! ### What libcurl does -/

theorem receiveBody_keeps (request : Request) (data : Text) (size count : Nat)
    (reallocated : Bool) :
    (receiveBody request data size count reallocated).2.kind = request.kind ∧
      (receiveBody request data size count reallocated).2.userData = request.userData := by
  unfold receiveBody
  dsimp only
  split
  · exact ⟨rfl, rfl⟩
  · split <;> exact ⟨rfl, rfl⟩

theorem Sound.act {w : World} (sound : Sound w) (activity : Activity) :
    Sound (w.act activity) ∧ (w.act activity).delivering = w.delivering := by
  cases activity with
  | socket socket action => exact ⟨sound.emit_silent rfl nofun, rfl⟩
  | timer timeoutMs => exact ⟨sound.emit_silent rfl nofun, rfl⟩
  | received id data size count reallocated =>
    unfold World.act
    dsimp only
    split
    next request live =>
      split
      next held =>
        -- only the response of a request changes, which its stage does not speak of
        obtain ⟨kind, userData⟩ := receiveBody_keeps request data size count reallocated
        have linked := ((sound.attached id).mp held).1
        refine ⟨⟨sound.intact, sound.counted, sound.bounded, sound.nodup, sound.delivering,
          sound.attached, sound.handles, ?_, ?_, sound.unused, sound.entries⟩, rfl⟩
        · intro other present
          obtain ⟨found, alive, stage⟩ := sound.linked other present
          by_cases apart : other = id
          · subst apart
            obtain rfl := Option.some.inj (live.symm.trans alive)
            refine ⟨_, Function.update_self .., stage.trans (congrArg some ?_)⟩
            simp only [World.stage, kind, userData]
          · exact ⟨found, (Function.update_of_ne apart ..).trans alive, stage⟩
        · intro other missing
          have apart : other ≠ id := fun same => missing (same ▸ linked)
          exact ⟨(Function.update_of_ne apart ..).trans (sound.unlinked other missing).1,
            (sound.unlinked other missing).2⟩
      · exact ⟨sound, rfl⟩
    · exact ⟨sound, rfl⟩

theorem Sound.acts {w : World} (sound : Sound w) (activities : List Activity) :
    Sound (activities.foldl World.act w) ∧
      (activities.foldl World.act w).delivering = w.delivering := by
  induction activities generalizing w with
  | nil => exact ⟨sound, rfl⟩
  | cons activity rest ih =>
    obtain ⟨after, same⟩ := sound.act activity
    exact ⟨(ih after).1, (ih after).2.trans same⟩

end AlphaPipeline.Http

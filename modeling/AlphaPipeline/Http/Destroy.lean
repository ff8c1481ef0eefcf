import AlphaPipeline.Http.Accounting

/-!
# Destroying the client

`alpha_http_multi_destroy` takes the first request off the list until none is left. Each turn takes
one, so the loop ends; the requests that are still pending then are freed without a word to the
owner.
-/
namespace AlphaPipeline.Http

/-- The loop of `alpha_http_multi_destroy`, of which this many turns are run at most. -/
def alphaHttpMultiDestroy : Nat → World → World
  | 0, w => w
  | turns + 1, w =>
    match w.client.requests with
    | [] => w
    | id :: _ => alphaHttpMultiDestroy turns (unlinkAndFree (w.detach id) id)

/-- What the loop relies on. -/
structure Held (w : World) : Prop where
  intact : w.fault = false
  counted : w.client.pending = w.client.requests.length
  bounded : w.client.requests.length < sizeModulus
  nodup : w.client.requests.Nodup
  allocated : ∀ id ∈ w.client.requests, ∃ request, w.heap id = some request
  freed : ∀ id, id ∉ w.client.requests → w.heap id = none
  handles : w.attached.Nodup
  attached : ∀ id ∈ w.attached, id ∈ w.client.requests

theorem Sound.held {w : World} (sound : Sound w) : Held w where
  intact := sound.intact
  counted := sound.counted
  bounded := lt_of_le_of_lt sound.bounded (by decide)
  nodup := sound.nodup
  allocated id linked := by
    obtain ⟨request, here, -⟩ := sound.linked id linked
    exact ⟨request, here⟩
  freed id unlinked := (sound.unlinked id unlinked).1
  handles := sound.handles
  attached id member := ((sound.attached id).mp member).1

/-- What a turn makes of a client that has not faulted. -/
private theorem unlinkAndFree_first {w : World} (held : Held w) {id : Nat} {rest : List Nat}
    (first : w.client.requests = id :: rest) :
    unlinkAndFree (w.detach id) id =
      { w with
        client := ⟨rest, rest.length⟩
        heap := Function.update w.heap id none
        attached := w.attached.erase id }.emit (.freed id) := by
  have member : id ∈ w.client.requests := first ▸ List.mem_cons_self
  obtain ⟨request, here⟩ := held.allocated id member
  have counted := held.counted
  have bounded := held.bounded
  rw [first, List.length_cons] at counted bounded
  have pending : sizeSub w.client.pending 1 = rest.length := by
    rw [sizeSub, counted]
    unfold sizeModulus at bounded ⊢
    omega
  have sane : ¬ (w.detach id).fault = true := by
    rw [World.detach, held.intact]
    nofun
  have found : (w.detach id).heap id = some request := here
  have linked : id ∈ (w.detach id).client.requests := member
  have erased : (w.detach id).client.requests.erase id = rest := by
    change w.client.requests.erase id = rest
    rw [first, List.erase_cons_head]
  unfold unlinkAndFree
  rw [if_neg sane, found]
  dsimp only
  rw [if_pos linked, erased]
  change World.emit
    { w.detach id with client := ⟨rest, sizeSub w.client.pending 1⟩, heap := _ } _ = _
  rw [pending]
  rfl

/-- One turn frees one request. -/
theorem Held.turn {w : World} (held : Held w) {id : Nat} {rest : List Nat}
    (first : w.client.requests = id :: rest) :
    Held (unlinkAndFree (w.detach id) id) ∧
      (unlinkAndFree (w.detach id) id).client.requests = rest ∧
      (unlinkAndFree (w.detach id) id).effects = w.effects ++ [.freed id] := by
  obtain ⟨fresh, nodup⟩ := List.nodup_cons.mp (first ▸ held.nodup)
  have bounded := held.bounded
  rw [first, List.length_cons] at bounded
  rw [unlinkAndFree_first held first]
  refine ⟨⟨held.intact, rfl, Nat.lt_of_succ_lt bounded, nodup, ?_, ?_, held.handles.erase id, ?_⟩,
    rfl, List.map_append⟩
  · intro other linked
    obtain ⟨request, here⟩ := held.allocated other (first ▸ List.mem_cons_of_mem _ linked)
    have apart : other ≠ id := fun same => fresh (same ▸ linked)
    exact ⟨request, (Function.update_of_ne apart ..).trans here⟩
  · intro other unlinked
    by_cases same : other = id
    · rw [same]
      exact Function.update_self ..
    · refine (Function.update_of_ne same ..).trans (held.freed other ?_)
      rw [first, List.mem_cons]
      rintro (own | later)
      · exact same own
      · exact unlinked later
  · intro other member
    obtain ⟨apart, was⟩ := held.handles.mem_erase_iff.mp member
    have linked := held.attached other was
    rw [first, List.mem_cons] at linked
    exact linked.resolve_left apart

/-- The whole loop frees the requests of the list, in its order. -/
theorem Held.destroy {turns : Nat} {w : World} (held : Held w)
    (enough : w.client.requests.length ≤ turns) :
    Held (alphaHttpMultiDestroy turns w) ∧
      (alphaHttpMultiDestroy turns w).client.requests = [] ∧
      (alphaHttpMultiDestroy turns w).effects = w.effects ++ w.client.requests.map .freed := by
  induction turns generalizing w with
  | zero =>
    have empty := List.length_eq_zero_iff.mp (Nat.le_zero.mp enough)
    refine ⟨held, empty, ?_⟩
    rw [empty, List.map_nil, List.append_nil]
    rfl
  | succ turns ih =>
    cases first : w.client.requests with
    | nil =>
      have ended : alphaHttpMultiDestroy (turns + 1) w = w := by
        rw [alphaHttpMultiDestroy, first]
      rw [ended, List.map_nil, List.append_nil]
      exact ⟨held, first, rfl⟩
    | cons id rest =>
      have goes : alphaHttpMultiDestroy (turns + 1) w =
          alphaHttpMultiDestroy turns (unlinkAndFree (w.detach id) id) := by
        rw [alphaHttpMultiDestroy, first]
      obtain ⟨next, left, told⟩ := held.turn first
      rw [first, List.length_cons] at enough
      obtain ⟨final, empty, all⟩ := ih next (by rw [left]; omega)
      rw [goes]
      refine ⟨final, empty, ?_⟩
      rw [all, told, left, List.map_cons, List.append_assoc]
      rfl

/-! ### What the owner sees -/

/-- Nothing is allocated or attached any more, each request that was ever there has been freed once,
and `complete_fn` was called for those that had been settled before, and for no other. -/
structure Released (before after : World) : Prop where
  intact : after.fault = false
  heap : ∀ id, after.heap id = none
  attached : after.attached = []
  pending : after.client.pending = 0
  silent : ∀ id, completions id after.log = completions id before.log
  accepted : ∀ id kind userData, .accepted id kind userData ∈ before.effects →
    frees id after.log = 1
  refused : ∀ id status client, .rejected status (some id) client ∈ before.effects →
    frees id after.log = 1
  once : ∀ id, frees id after.log ≤ 1

private theorem completions_freed {before after : World} {ids : List Nat}
    (effects : after.effects = before.effects ++ ids.map .freed) (id : Nat) :
    completions id after.log = completions id before.log := by
  have none : (ids.map Effect.freed).flatMap (resultsOf id) = [] := by
    rw [List.flatMap_eq_nil_iff]
    intro effect member
    obtain ⟨other, -, rfl⟩ := List.mem_map.mp member
    rfl
  change after.effects.flatMap _ = before.effects.flatMap _
  rw [effects, List.flatMap_append, none, List.append_nil]

private theorem frees_freed {before after : World} {ids : List Nat}
    (effects : after.effects = before.effects ++ ids.map .freed) (nodup : ids.Nodup) (id : Nat) :
    frees id after.log = frees id before.log + if id ∈ ids then 1 else 0 := by
  have count : ((ids.map Effect.freed).flatMap (freedOf id)).length = ids.count id := by
    clear effects nodup
    induction ids with
    | nil => rfl
    | cons other ids ih =>
      rw [List.map_cons, List.flatMap_cons, List.length_append, ih, List.count_cons, freedOf,
        Nat.add_comm]
      by_cases same : other = id <;> simp [same]
  change (after.effects.flatMap _).length = (before.effects.flatMap _).length + _
  rw [effects, List.flatMap_append, List.length_append, count, nodup.count]

/-- After any run without a crossing cancel, destroying the client leaves nothing behind. -/
theorem destroy_releases (calls : List Call)
    (clean : ¬ Crossed (Runs.run World.step World.created calls).log) {turns : Nat}
    (enough : maxPending ≤ turns) :
    Released (Runs.run World.step World.created calls)
      (alphaHttpMultiDestroy turns (Runs.run World.step World.created calls)) := by
  rcases outcome_run true calls (fun _ _ => .inl rfl) with ⟨sound, outside⟩ | ⟨_, ruined⟩
  · obtain ⟨held, empty, effects⟩ := sound.held.destroy (sound.bounded.trans enough)
    have frees := frees_freed effects sound.nodup
    have gone (id : Nat) : id ∉ (alphaHttpMultiDestroy turns
        (Runs.run World.step World.created calls)).client.requests := by
      rw [empty]
      exact List.not_mem_nil
    refine ⟨held.intact, fun id => held.freed id (gone id), ?_, ?_, completions_freed effects,
      ?_, ?_, ?_⟩
    · exact List.eq_nil_iff_forall_not_mem.mpr fun id member => gone id (held.attached id member)
    · rw [held.counted, empty]
      rfl
    · intro id kind userData accepted
      rw [frees]
      rcases sound.accepted_once outside accepted with ⟨linked, -, none⟩ | ⟨unlinked, -, one⟩
      · rw [none, if_pos linked]
      · rw [one, if_neg unlinked]
    · intro id status client rejected
      obtain ⟨stage, reached, place⟩ := sound.at_rest outside id
      obtain rfl := discarded_of_rejected reached rejected
      rcases place with ⟨-, kind, userData, impossible⟩ | ⟨unlinked, -⟩
      · cases impossible
      · rw [frees, (life_history reached).2.2.2, if_neg unlinked]
        rfl
    · intro id
      obtain ⟨stage, reached, place⟩ := sound.at_rest outside id
      rw [frees, (life_history reached).2.2.2]
      rcases place with ⟨linked, _, _, rfl⟩ | ⟨unlinked, (rfl | rfl) | ⟨_, _, rfl⟩⟩
      · rw [if_pos linked]
        exact le_rfl
      all_goals
        rw [if_neg unlinked]
        simp [Stage.releases]
  · exact absurd ruined.1 clean

/-- Two posts, of which one is completed and the other one is still pending. -/
def halfDone : List Call :=
  [.op (.post (some (somePost 7)) (someSetup true)),
    .op (.post (some (somePost 8)) (someSetup true)),
    .timeoutAction true ⟨[], true, [.done 0 200 0 []]⟩]

/-- The pending one is freed without a completion. -/
theorem destroy_releases_half_done :
    let after := alphaHttpMultiDestroy 64 (Runs.run World.step World.created halfDone)
    frees 1 after.log = 1 ∧ completions 1 after.log = [] ∧ after.heap 1 = none := by
  have posts : ∀ call ∈ halfDone, Within false call.reaction := by
    simp [halfDone, Within, Call.reaction, Op.reaction, Message.reaction]
  have clean : ¬ Crossed (Runs.run World.step World.created halfDone).log := by
    rcases outcome_run false halfDone posts with ⟨sound, -⟩ | ⟨impossible, -⟩
    · exact sound.not_crossed
    · cases impossible
  have released := destroy_releases halfDone clean (by decide : maxPending ≤ 64)
  exact ⟨released.accepted 1 0 (some 8) (by decide), (released.silent 1).trans (by decide),
    released.heap 1⟩

end AlphaPipeline.Http

import AlphaPipeline.Library.Runs
import AlphaPipeline.Http.HttpClient

/-!
# The life of a request

What the log says about one request: it is accepted, then reported done or cancelled, then
completed with its own kind and user data, then freed, each at most once and in this order;
or it is freed without ever having been accepted.
-/
namespace AlphaPipeline.Http

/-- Where a request is in its life; an accepted one keeps its kind and user data. -/
inductive Stage where
  | absent
  | pending (kind : Int) (userData : Option Nat)
  | settled (kind : Int) (userData : Option Nat)
  | delivering (kind : Int) (userData : Option Nat)
  | finished (kind : Int) (userData : Option Nat)
  | discarded
  deriving DecidableEq, Repr

/-- The request an effect is about. -/
def Effect.subject : Effect → Option Nat
  | .accepted id _ _ => some id
  | .rejected _ id _ => id
  | .reported id => some id
  | .cancel _ target => target
  | .completed id _ => some id
  | .freed id => some id
  | _ => none

/-- The next stage of a request, on an effect about it. -/
def Stage.advance : Stage → Effect → Option Stage
  | .absent, .accepted _ kind userData => some (.pending kind userData)
  | .absent, .freed _ => some .discarded
  | .discarded, .rejected _ _ _ => some .discarded
  | .pending kind userData, .reported _ => some (.settled kind userData)
  | .pending kind userData, .cancel _ _ => some (.settled kind userData)
  | .settled kind userData, .completed _ result =>
    if result.kind = kind ∧ result.userData = userData then some (.delivering kind userData)
    else none
  | .delivering kind userData, .freed _ => some (.finished kind userData)
  | _, _ => none

/-- One more effect, seen from request `id`. -/
def lifeStep (id : Nat) (stage : Stage) (effect : Effect) : Option Stage :=
  if effect.subject = some id then stage.advance effect else some stage

/-- The stage of request `id` after a log, if its life was in order. -/
def life (id : Nat) (log : List Entry) : Option Stage :=
  Runs.watch (lifeStep id) .absent (log.map Entry.effect)

/-- What a request can go through next. -/
theorem advance_cases {stage after : Stage} {effect : Effect}
    (advanced : stage.advance effect = some after) :
    (∃ id kind userData, effect = .accepted id kind userData ∧ stage = .absent ∧
        after = .pending kind userData) ∨
      (∃ id, effect = .freed id ∧ stage = .absent ∧ after = .discarded) ∨
      (∃ status id before, effect = .rejected status id before ∧ stage = .discarded ∧
        after = .discarded) ∨
      (∃ kind userData, ((∃ id, effect = .reported id) ∨ ∃ given id, effect = .cancel given id) ∧
        stage = .pending kind userData ∧ after = .settled kind userData) ∨
      (∃ id result, effect = .completed id result ∧
        stage = .settled result.kind result.userData ∧
        after = .delivering result.kind result.userData) ∨
      ∃ id kind userData, effect = .freed id ∧ stage = .delivering kind userData ∧
        after = .finished kind userData := by
  unfold Stage.advance at advanced
  split at advanced
  · exact .inl ⟨_, _, _, rfl, rfl, (Option.some.inj advanced).symm⟩
  · exact .inr (.inl ⟨_, rfl, rfl, (Option.some.inj advanced).symm⟩)
  · exact .inr (.inr (.inl ⟨_, _, _, rfl, rfl, (Option.some.inj advanced).symm⟩))
  · exact .inr (.inr (.inr (.inl ⟨_, _, .inl ⟨_, rfl⟩, rfl, (Option.some.inj advanced).symm⟩)))
  · exact .inr (.inr (.inr (.inl ⟨_, _, .inr ⟨_, _, rfl⟩, rfl,
      (Option.some.inj advanced).symm⟩)))
  · split at advanced
    next own =>
      obtain ⟨rfl, rfl⟩ := own
      exact .inr (.inr (.inr (.inr (.inl ⟨_, _, rfl, rfl, (Option.some.inj advanced).symm⟩))))
    · cases advanced
  · exact .inr (.inr (.inr (.inr (.inr ⟨_, _, _, rfl, rfl, (Option.some.inj advanced).symm⟩))))
  · cases advanced

/-! ### What a stage says about the log -/

section History

variable (id : Nat)

/-- The kind and user data a post was accepted with. -/
def acceptedOf : Effect → List (Int × Option Nat)
  | .accepted other kind userData => if other = id then [(kind, userData)] else []
  | _ => []

/-- What `complete_fn` was called with for the request. -/
def resultsOf : Effect → List HttpResult
  | .completed other result => if other = id then [result] else []
  | _ => []

/-- The request was reported done, or a cancel has found it. -/
def settledOf : Effect → List Unit
  | .reported other => if other = id then [()] else []
  | .cancel _ (some other) => if other = id then [()] else []
  | _ => []

def freedOf : Effect → List Unit
  | .freed other => if other = id then [()] else []
  | _ => []

/-- The calls of `complete_fn` for the request. -/
def completions (log : List Entry) : List HttpResult :=
  (log.map Entry.effect).flatMap (resultsOf id)

/-- How often the request was freed. -/
def frees (log : List Entry) : Nat := ((log.map Entry.effect).flatMap (freedOf id)).length

def Stage.terms : Stage → List (Int × Option Nat)
  | .pending kind userData | .settled kind userData | .delivering kind userData
  | .finished kind userData => [(kind, userData)]
  | _ => []

def Stage.deliveredTerms : Stage → List (Int × Option Nat)
  | .delivering kind userData | .finished kind userData => [(kind, userData)]
  | _ => []

def Stage.settlements : Stage → List Unit
  | .settled _ _ | .delivering _ _ | .finished _ _ => [()]
  | _ => []

def Stage.releases : Stage → List Unit
  | .finished _ _ | .discarded => [()]
  | _ => []

variable {id}

/-- An effect about another request is no part of this one's history. -/
private theorem other_effect {effect : Effect} (other : effect.subject ≠ some id) :
    acceptedOf id effect = [] ∧ resultsOf id effect = [] ∧ settledOf id effect = [] ∧
      freedOf id effect = [] := by
  cases effect with
  | cancel given target =>
    cases target <;> simp_all [Effect.subject, acceptedOf, resultsOf, settledOf, freedOf]
  | _ => simp_all [Effect.subject, acceptedOf, resultsOf, settledOf, freedOf]

/-- Each effect adds to the history what it adds to the stage. -/
private theorem lifeStep_adds (before : Stage) (effect : Effect) (after : Stage)
    (step : lifeStep id before effect = some after) :
    after.terms = before.terms ++ acceptedOf id effect ∧
      after.deliveredTerms = before.deliveredTerms ++
        (resultsOf id effect).map (fun result => (result.kind, result.userData)) ∧
      after.settlements = before.settlements ++ settledOf id effect ∧
      after.releases = before.releases ++ freedOf id effect := by
  unfold lifeStep at step
  split at step
  next own =>
    -- advance by advance; a refusal adds to no history
    rcases advance_cases step with ⟨_, _, _, rfl, rfl, rfl⟩ | ⟨_, rfl, rfl, rfl⟩ |
      ⟨_, _, _, rfl, rfl, rfl⟩ | ⟨_, _, ⟨_, rfl⟩ | ⟨_, _, rfl⟩, rfl, rfl⟩ | ⟨_, _, rfl, rfl, rfl⟩ |
      ⟨_, _, _, rfl, rfl, rfl⟩
    all_goals
      simp only [Effect.subject, Option.some.injEq] at own
      subst own
      simp [Stage.terms, Stage.deliveredTerms, Stage.settlements, Stage.releases, acceptedOf,
        resultsOf, settledOf, freedOf]
  next other =>
    obtain rfl := Option.some.inj step
    obtain ⟨accepted, results, settled, freed⟩ := other_effect other
    simp [accepted, results, settled, freed]

/-- The history of a request, read off its stage. -/
theorem life_history {log : List Entry} {stage : Stage} (reached : life id log = some stage) :
    (log.map Entry.effect).flatMap (acceptedOf id) = stage.terms ∧
      (completions id log).map (fun result => (result.kind, result.userData)) =
        stage.deliveredTerms ∧
      (log.map Entry.effect).flatMap (settledOf id) = stage.settlements ∧
      frees id log = stage.releases.length := by
  refine ⟨?_, ?_, ?_, ?_⟩
  · exact (Runs.watch_output (lifeStep id) Stage.terms (acceptedOf id)
      (fun before effect after step => (lifeStep_adds before effect after step).1) reached).symm
  · rw [completions, List.map_flatMap]
    exact (Runs.watch_output (lifeStep id) Stage.deliveredTerms _
      (fun before effect after step => (lifeStep_adds before effect after step).2.1) reached).symm
  · exact (Runs.watch_output (lifeStep id) Stage.settlements (settledOf id)
      (fun before effect after step => (lifeStep_adds before effect after step).2.2.1)
      reached).symm
  · rw [frees, Runs.watch_output (lifeStep id) Stage.releases (freedOf id)
      (fun before effect after step => (lifeStep_adds before effect after step).2.2.2) reached]
    rfl

/-- What a stage knows of a request is what its post was accepted with. -/
theorem accepted_of_terms {log : List Entry} {stage : Stage} (reached : life id log = some stage)
    {kind : Int} {userData : Option Nat} (known : (kind, userData) ∈ stage.terms) :
    .accepted id kind userData ∈ log.map Entry.effect := by
  rw [← (life_history reached).1] at known
  obtain ⟨effect, present, told⟩ := List.mem_flatMap.mp known
  cases effect with
  | accepted other kind userData =>
    simp only [acceptedOf] at told
    split at told
    next same =>
      obtain ⟨rfl, rfl⟩ := Prod.mk.inj (List.mem_singleton.mp told)
      exact same ▸ present
    · cases told
  | _ => cases told

theorem deliveredTerms_subset (stage : Stage) : stage.deliveredTerms ⊆ stage.terms := by
  cases stage <;> simp [Stage.deliveredTerms, Stage.terms]

private theorem advance_rejected {stage after : Stage} {status : AlphaErr} {before : Client}
    (advanced : stage.advance (.rejected status (some id) before) = some after) :
    after = .discarded := by
  cases stage <;> simp only [Stage.advance, Option.some.injEq, reduceCtorEq] at advanced
  exact advanced.symm

private theorem advance_discarded {effect : Effect} {after : Stage}
    (advanced : Stage.discarded.advance effect = some after) : after = .discarded := by
  cases effect <;> simp only [Stage.advance, Option.some.injEq, reduceCtorEq] at advanced
  exact advanced.symm

/-- The request of a refused post was freed before the answer and is heard of no more. -/
theorem discarded_of_rejected {log : List Entry} {stage : Stage}
    (reached : life id log = some stage) {status : AlphaErr} {before : Client}
    (rejected : .rejected status (some id) before ∈ log.map Entry.effect) :
    stage = .discarded := by
  -- split the log at the answer; before it the request was freed, after it nothing follows
  obtain ⟨first, rest, split⟩ := List.append_of_mem rejected
  rw [life, split, ← List.singleton_append, ← List.append_assoc] at reached
  obtain ⟨answered, seen, later⟩ := (Runs.watch_append (lifeStep id)).mp reached
  obtain ⟨earlier, _, step⟩ := (Runs.watch_append_singleton (lifeStep id)).mp seen
  simp only [lifeStep, Effect.subject, if_true] at step
  refine Runs.watch_keeps (lifeStep id) (· = .discarded) ?_ (advance_rejected step) later
  rintro _ effect after next rfl
  unfold lifeStep at next
  split at next
  · exact advance_discarded next
  · exact (Option.some.inj next).symm

end History

/-! ### One more entry -/

section Emit

variable {id : Nat} {w : World} {effect : Effect}

theorem life_emit_other (other : effect.subject ≠ some id) :
    life id (w.emit effect).log = life id w.log := by
  simp only [life, World.emit, List.map_append, List.map_singleton, Runs.watch,
    List.foldlM_append, List.foldlM_cons, List.foldlM_nil, lifeStep, if_neg other]
  exact Option.bind_fun_some _

theorem life_emit_own {stage after : Stage} (reached : life id w.log = some stage)
    (own : effect.subject = some id) (advanced : stage.advance effect = some after) :
    life id (w.emit effect).log = some after := by
  rw [life, World.emit, List.map_append]
  refine (Runs.watch_append_singleton (lifeStep id)).mpr ⟨stage, reached, ?_⟩
  rw [lifeStep, if_pos own, advanced]

end Emit

end AlphaPipeline.Http

import AlphaPipeline.Library.Interaction

/-!
# Programs beside each other

Programs share one server, which takes their commands one at a time, in any order. What a program
guarantees there is stated as in rely-guarantee reasoning: before each of its commands the others
may have changed the state in any way that a relation allows, and its own commands stay within that
relation. A ghost value counts what each program has met.
-/
namespace Interaction

variable {Cmd Rep α β σ Env Ghost : Type}

def Prog.result : Prog Cmd Rep α → Option α
  | .done a => some a
  | .call _ _ => none

/-- The results of the programs and the state they leave, if the schedule lets each of them end.
Each entry says whose command is served next, and what it meets at the server. -/
def together (handle : Env → Cmd → σ → Rep × σ) :
    List (Nat × Env) → List (Prog Cmd Rep α) → σ → Option (List α × σ)
  | [], threads, s => (threads.mapM Prog.result).map fun results => (results, s)
  | (i, e) :: schedule, threads, s =>
    match threads[i]? with
    | some (.call c next) =>
      together handle schedule (threads.set i (next (handle e c s).1)) (handle e c s).2
    | _ => none

section RelyGuarantee

variable (handle : Env → Cmd → σ → Rep × σ) (may : Env → Prop) (rely : σ → σ → Prop)
  (track : Env → Ghost → Ghost)

/-- Whatever the others do within the relation, the commands keep to it, and the result satisfies
the postcondition from then on. -/
def Prog.Withstands (post : α → σ → Ghost → Prop) : Prog Cmd Rep α → σ → Ghost → Prop
  | .done a, s, ghost => ∀ later, rely s later → post a later ghost
  | .call c next, s, ghost => ∀ later, rely s later → ∀ e, may e →
      rely later (handle e c later).2 ∧
        (next (handle e c later).1).Withstands post (handle e c later).2 (track e ghost)

variable {handle may rely track} {post post' : α → σ → Ghost → Prop} {p : Prog Cmd Rep α} {s : σ}
  {ghost : Ghost}

/-- The others may take their turn first. -/
theorem Prog.Withstands.later (trans : ∀ a b c, rely a b → rely b c → rely a c)
    (holds : p.Withstands handle may rely track post s ghost) {after : σ} (moved : rely s after) :
    p.Withstands handle may rely track post after ghost := by
  cases p with
  | done a => exact fun later further => holds later (trans _ _ _ moved further)
  | call c next => exact fun later further => holds later (trans _ _ _ moved further)

theorem Prog.Withstands.mono (weaker : ∀ a s g, post a s g → post' a s g)
    (holds : p.Withstands handle may rely track post s ghost) :
    p.Withstands handle may rely track post' s ghost := by
  induction p generalizing s ghost with
  | done a => exact fun later moved => weaker a later ghost (holds later moved)
  | call c next ih =>
    intro later moved e allowed
    obtain ⟨kept, rest⟩ := holds later moved e allowed
    exact ⟨kept, ih _ rest⟩

/-- What a program comes to, it comes to within the relation. -/
theorem Prog.Withstands.within (trans : ∀ a b c, rely a b → rely b c → rely a c)
    (holds : p.Withstands handle may rely track post s ghost) :
    p.Withstands handle may rely track (fun a s' g => post a s' g ∧ rely s s') s ghost := by
  induction p generalizing s ghost with
  | done a => exact fun later moved => ⟨holds later moved, moved⟩
  | call c next ih =>
    intro later moved e allowed
    obtain ⟨kept, rest⟩ := holds later moved e allowed
    have whole := trans _ _ _ moved kept
    exact ⟨kept, (ih _ rest).mono fun a s' g ends => ⟨ends.1, trans _ _ _ whole ends.2⟩⟩

/-- A program followed by another one, which is proved from where the first one may leave it. -/
theorem Prog.Withstands.bind (refl : ∀ s, rely s s) {post : β → σ → Ghost → Prop}
    {f : α → Prog Cmd Rep β}
    (holds : p.Withstands handle may rely track
      (fun a s g => (f a).Withstands handle may rely track post s g) s ghost) :
    (p >>= f).Withstands handle may rely track post s ghost := by
  change (p.bind f).Withstands handle may rely track post s ghost
  induction p generalizing s ghost with
  | done a => exact holds s (refl s)
  | call c next ih =>
    intro later moved e allowed
    obtain ⟨kept, rest⟩ := holds later moved e allowed
    exact ⟨kept, ih _ rest⟩

/-- What the ghost value of a thread has become. -/
def tracked (track : Env → Ghost → Ghost) (schedule : List (Nat × Env)) (i : Nat) (ghost : Ghost) :
    Ghost :=
  schedule.foldl (fun ghost entry => if entry.1 = i then track entry.2 ghost else ghost) ghost

/-- Results are those of the programs at their places. -/
theorem getElem?_of_mapM_result {threads : List (Prog Cmd Rep α)} {results : List α}
    (all : threads.mapM Prog.result = some results) :
    results.length = threads.length ∧
      ∀ (i : Nat) (a : α), results[i]? = some a → threads[i]? = some (.done a) := by
  induction threads generalizing results with
  | nil =>
    obtain rfl : [] = results := Option.some.inj all
    exact ⟨rfl, fun i a here => by cases here⟩
  | cons thread threads ih =>
    rw [List.mapM_cons] at all
    obtain ⟨first, ends, rest⟩ := Option.bind_eq_some_iff.mp all
    obtain ⟨others, found, eq⟩ := Option.bind_eq_some_iff.mp rest
    obtain rfl := Option.some.inj eq
    obtain ⟨length, places⟩ := ih found
    refine ⟨congrArg Nat.succ length, fun i a here => ?_⟩
    cases i with
    | zero =>
      obtain rfl : first = a := Option.some.inj here
      cases thread with
      | done b =>
        obtain rfl : b = first := Option.some.inj ends
        rfl
      | call c next => cases ends
    | succ i => exact places i a here

/-- Programs that withstand each other all satisfy their postconditions in the end, in whichever
order their commands are served. -/
theorem together_withstands (refl : ∀ s, rely s s)
    (trans : ∀ a b c, rely a b → rely b c → rely a c) {posts : Nat → α → σ → Ghost → Prop}
    {schedule : List (Nat × Env)} {threads : List (Prog Cmd Rep α)} {ghosts : Nat → Ghost}
    {results : List α} {last : σ}
    (run : together handle schedule threads s = some (results, last))
    (allowed : ∀ entry ∈ schedule, may entry.2)
    (holds : ∀ (i : Nat) (p : Prog Cmd Rep α), threads[i]? = some p →
      p.Withstands handle may rely track (posts i) s (ghosts i)) :
    rely s last ∧ results.length = threads.length ∧
      ∀ (i : Nat) (a : α), results[i]? = some a →
        posts i a last (tracked track schedule i (ghosts i)) := by
  induction schedule generalizing threads s ghosts with
  | nil =>
    rw [together] at run
    obtain ⟨ended, all, eq⟩ := Option.map_eq_some_iff.mp run
    obtain ⟨rfl, rfl⟩ := Prod.mk.inj eq
    obtain ⟨length, places⟩ := getElem?_of_mapM_result all
    exact ⟨refl s, length, fun i a here => holds i _ (places i a here) s (refl s)⟩
  | cons entry schedule ih =>
    obtain ⟨j, e⟩ := entry
    rw [together] at run
    split at run
    next c next here =>
      rw [List.forall_mem_cons] at allowed
      obtain ⟨kept, rest⟩ := holds j _ here s (refl s) e allowed.1
      -- the thread that was served goes on, the others see its change
      have following : ∀ (i : Nat) (p : Prog Cmd Rep α),
          (threads.set j (next (handle e c s).1))[i]? = some p →
          p.Withstands handle may rely track (posts i) (handle e c s).2
            (if j = i then track e (ghosts i) else ghosts i) := by
        intro i p there
        rw [List.getElem?_set] at there
        split at there
        next same =>
          subst same
          split at there
          · obtain rfl := Option.some.inj there
            rw [if_pos rfl]
            exact rest
          · cases there
        next other =>
          rw [if_neg other]
          exact (holds i p there).later trans kept
      obtain ⟨moved, length, ends⟩ := ih run allowed.2 following
      refine ⟨trans _ _ _ kept moved, length.trans (List.length_set ..), fun i a there => ?_⟩
      rw [tracked, List.foldl_cons]
      exact ends i a there
    next => cases run

end RelyGuarantee

/-- A schedule that lets all programs end names only them. -/
theorem together_places {handle : Env → Cmd → σ → Rep × σ} {schedule : List (Nat × Env)}
    {threads : List (Prog Cmd Rep α)} {s : σ} {out : List α × σ}
    (run : together handle schedule threads s = some out) :
    ∀ entry ∈ schedule, entry.1 < threads.length := by
  induction schedule generalizing threads s with
  | nil => simp
  | cons entry schedule ih =>
    obtain ⟨i, e⟩ := entry
    rw [together] at run
    split at run
    next c next here =>
      rw [List.forall_mem_cons]
      refine ⟨(List.getElem?_eq_some_iff.mp here).1, fun later member => ?_⟩
      have place := ih run later member
      rwa [List.length_set] at place
    next => cases run

/-- How many entries of a schedule are such, thread by thread and all together. -/
theorem sum_tracked_count (such : Env → Bool) {n : Nat} {schedule : List (Nat × Env)}
    (places : ∀ entry ∈ schedule, entry.1 < n) :
    ((List.range n).map fun i =>
      tracked (fun e count => if such e then count + 1 else count) schedule i 0).sum =
      schedule.countP fun entry => such entry.2 := by
  -- from any counts on, so that the first entry can be taken off
  have sums (counts : Nat → Nat) : ((List.range n).map fun i =>
      tracked (fun e count => if such e then count + 1 else count) schedule i (counts i)).sum =
      ((List.range n).map counts).sum + schedule.countP fun entry => such entry.2 := by
    induction schedule generalizing counts with
    | nil => rfl
    | cons entry schedule ih =>
      rw [List.forall_mem_cons] at places
      have counted : ((List.range n).map fun i => if entry.1 = i then
          (if such entry.2 then counts i + 1 else counts i) else counts i).sum =
          ((List.range n).map counts).sum + if such entry.2 then 1 else 0 := by
        have one (i : Nat) : (if entry.1 = i then
            (if such entry.2 then counts i + 1 else counts i) else counts i) =
            counts i + if entry.1 = i then (if such entry.2 then 1 else 0) else 0 := by
          split
          · split <;> rfl
          · rfl
        simp only [one, ← List.sum_toFinset _ List.nodup_range,
          List.toFinset_range, Finset.sum_add_distrib, Finset.sum_ite_eq, Finset.mem_range,
          places.1, if_true]
      rw [List.countP_cons, ← Nat.add_assoc, Nat.add_right_comm, ← counted]
      exact ih places.2 _
  simpa using sums fun _ => 0

end Interaction

import AlphaPipeline.Library.Runs
import AlphaPipeline.Cache.Lockout

/-!
# Lockouts under several clients

Any number of clients call the lockout functions of one scope. Their commands interleave at
one server whose time does not go back, other keys change at any moment, and any command may
meet any fate. An acknowledged lockout outlives the run up to its expiry as long as no `SET`
is executed that stores an earlier expiry over a live one.
-/
namespace AlphaPipeline.LockoutRuns

open Interaction Interaction.Prog Redis RedisCache

/-- A call of the lockout interface. -/
inductive Call where
  | setLockout (nowEpoch expiresAtEpoch : Int)
  | setNextSession (nowEpoch : Int) (expiresAtOut : Option Int)
  | isLocked (locked : Option Bool) (expiresAtOut : Option Int)
  | clear

/-- What a finished call tells about a lockout: its status and, where it is known to the
caller, the expiry. -/
inductive Return where
  | lockout (status : AlphaErr) (expiry : Option Int)
  | other

def Call.program (printer : Printer) (redis : AlphaRedis) (scope : Text) : Call → Client Return
  | .setLockout nowEpoch expiresAtEpoch => do
    let status ← alphaRedisSetBreakerLockout printer (some redis) (some scope) nowEpoch
      expiresAtEpoch
    return .lockout status (some expiresAtEpoch)
  | .setNextSession nowEpoch expiresAtOut => do
    let result ← alphaRedisSetBreakerLockoutNextSession printer (some redis) (some scope) nowEpoch
      expiresAtOut
    return .lockout result.1 result.2
  | .isLocked locked expiresAtOut => do
    let _ ← alphaRedisIsBreakerLocked printer (some redis) (some scope) locked expiresAtOut
    return .other
  | .clear => do
    let _ ← alphaRedisClearBreakerLockout printer (some redis) (some scope)
    return .other

/-- The expiry a call has written; undone once a clear is executed after it. -/
inductive Pledge where
  | unwritten
  | written (expiry : Int)
  | undone
  deriving DecidableEq, Repr

def Pledge.undo : Pledge → Pledge
  | .unwritten => .unwritten
  | .written _ | .undone => .undone

/-- A client in the middle of a call. -/
structure Slot where
  program : Client Return
  pledge : Pledge

/-- The server, the clients in the middle of a call, and the expiries acknowledged to some
caller whose lockout no executed clear has removed. -/
structure World where
  store : Store
  now : Int
  clients : Nat → Option Slot
  acked : List Int

def World.initial (store : Store) (now : Int) : World := ⟨store, now, fun _ => none, []⟩

inductive Event where
  | begin (client : Nat) (request : Call)
  | advance (client : Nat) (fate : Fate)
  | wait (milliseconds : Nat)
  | write (key : Text) (entry : Option Entry)

def pledgeAfter (fate : Fate) (c : Command) (pledge : Pledge) : Pledge :=
  match c with
  | .setExat _ _ expiry =>
    if fate.executes && acceptsExpiry expiry then .written expiry else pledge
  | _ => pledge

def clears (fate : Fate) : Command → Bool
  | .del _ => fate.executes
  | _ => false

/-- The expiries a returning call acknowledges: the one it reports and the one it wrote. -/
def acknowledged (pledge : Pledge) : Return → List Int
  | .lockout .ok expiry =>
    match pledge with
    | .undone => []
    | .written stored => stored :: expiry.toList
    | .unwritten => expiry.toList
  | _ => []

/-- The next command of a client meets the server. -/
def World.send (w : World) (client : Nat) (fate : Fate) (c : Command)
    (next : Option Reply → Client Return) (pledge : Pledge) : World :=
  let answer := meet ⟨w.now, fate⟩ c w.store
  let clients := Function.update w.clients client
    (some ⟨next answer.1, pledgeAfter fate c pledge⟩)
  if clears fate c then
    { w with
      store := answer.2
      clients := fun i => (clients i).map fun slot => ⟨slot.program, slot.pledge.undo⟩
      acked := [] }
  else { w with store := answer.2, clients := clients }

/-- One step: a free client begins a call, a busy one sends its next command or returns, time
passes, or somebody writes a key other than the scope's. -/
def World.step (printer : Printer) (scope : Text) (w : World) : Event → World
  | .begin client request =>
    match w.clients client with
    | none =>
      let slot : Slot := ⟨request.program printer ⟨client⟩ scope, .unwritten⟩
      { w with clients := Function.update w.clients client (some slot) }
    | some _ => w
  | .advance client fate =>
    match w.clients client with
    | none => w
    | some ⟨.done result, pledge⟩ =>
      { w with
        clients := Function.update w.clients client none
        acked := w.acked ++ acknowledged pledge result }
    | some ⟨.call c next, pledge⟩ => w.send client fate c next pledge
  | .wait milliseconds => { w with now := w.now + milliseconds }
  | .write key entry =>
    if breakerKey printer scope = .ok key then w
    else { w with store := Function.update w.store key entry }

/-- A visible entry that expires at `left` or later would be shortened by `expiry`. -/
def shortens (expiry : Int) : Option Entry → Bool
  | some ⟨_, some left⟩ => decide (1000 * expiry < left)
  | _ => false

/-- The step executes no `SET` that stores an earlier expiry over a live one. -/
def keepsLaterExpiry (w : World) : Event → Bool
  | .advance client fate =>
    match w.clients client with
    | some ⟨.call (.setExat key _ expiry) _, _⟩ =>
      !(fate.executes && shortens expiry (w.store.find w.now key))
    | _ => true
  | _ => true

/-! ### What each call guarantees by itself -/

/-- A call writes only the scope's key, if it has one, and only the text of the expiry. -/
def MayTouch (key : Except AlphaErr Text) : Command → Prop
  | .setExat written value expiry => key = .ok written ∧ value = printDecimal expiry
  | .del removed => key = .ok removed
  | _ => True

/-- The expiry of the last `SET`, if it was answered with OK. -/
def confirm (c : Command) (reply : Option Reply) (confirmed : Option Int) : Option Int :=
  match c with
  | .setExat _ _ expiry => if replyIsOk reply then some expiry else none
  | _ => confirmed

/-- A call that returns OK has a confirmed expiry, which is the one it reports. -/
def Confirmed (result : Return) (confirmed : Option Int) : Prop :=
  match result with
  | .lockout .ok expiry => ∃ stored, confirmed = some stored ∧ ∀ e ∈ expiry, e = stored
  | _ => True

section Guarantees

variable (printer : Printer) (redis : AlphaRedis) (scope : Text)

private theorem setBreakerLockout_wp (nowEpoch expiry : Int) (confirmed : Option Int) :
    wp (MayTouch (breakerKey printer scope)) confirm
      (fun status g => status = .ok → g = some expiry)
      (alphaRedisSetBreakerLockout printer (some redis) (some scope) nowEpoch expiry)
      confirmed := by
  simp only [alphaRedisSetBreakerLockout]
  split
  · simp
  · rcases breakerKey_cases printer scope with ⟨err, bad, refused⟩ | ⟨key, valid⟩
    · rw [refused]
      exact fun ok => absurd ok bad
    · rw [valid]
      simp only [redisServerTime, wp_bind, wp_ask, wp_pure, MayTouch, true_and]
      intro reply
      split
      next err failed => simp [serverTimeOf_error _ _ failed]
      next serverNow read =>
        split
        · simp
        · simp only [wp_bind, wp_ask, wp_pure, MayTouch, and_self, true_and, confirm]
          intro answer
          split <;> simp

/-- Loading a calendar only reads, and no failure is reported as OK. -/
private theorem loadCalendar_wp (key : Except AlphaErr Text) (year : Int) (confirmed : Option Int) :
    wp (MayTouch key) confirm (fun result _ => result ≠ .error .ok) (loadCalendar year)
      confirmed := by
  simp only [loadCalendar]
  split
  · simp
  · simp only [wp_bind, wp_ask, MayTouch, true_and]
    intro reply
    split
    · split
      · simp only [wp_bind, wp_ask, MayTouch, true_and]
        intro ttl
        split
        · simp only [wp_pure]
          split <;> simp
        · simp
      · simp
    · simp

private theorem nextSessionExpiry_wp (key : Except AlphaErr Text) (nowEpoch : Int)
    (confirmed : Option Int) :
    wp (MayTouch key) confirm (fun result _ => result ≠ .error .ok) (nextSessionExpiry nowEpoch)
      confirmed := by
  simp only [nextSessionExpiry, wp_bind]
  refine wp_mono _ _ ?_ _ _ (loadCalendar_wp key _ confirmed)
  rintro (status | holidays) g sound
  · exact fun same => sound (by cases same; rfl)
  · simp only
    split
    · simp
    · simp only [wp_bind]
      refine wp_mono _ _ ?_ _ _ (loadCalendar_wp key _ g)
      rintro (status | nextHolidays) g' _
      · simp
      · simp only
        split <;> simp

private theorem setNextSession_wp (nowEpoch : Int) (expiresAtOut confirmed : Option Int) :
    wp (MayTouch (breakerKey printer scope)) confirm
      (fun result g => result.1 = .ok → ∃ stored, g = some stored ∧ ∀ e ∈ result.2, e = stored)
      (alphaRedisSetBreakerLockoutNextSession printer (some redis) (some scope) nowEpoch
        expiresAtOut) confirmed := by
  simp only [alphaRedisSetBreakerLockoutNextSession, redisServerTime, wp_bind, wp_ask, wp_pure,
    MayTouch, true_and]
  intro reply
  split
  next err failed => simp [serverTimeOf_error _ _ failed]
  next serverNow read =>
    split
    · simp
    · simp only [wp_bind]
      -- the calendars are only read
      refine wp_mono _ _ ?_ _ _ (nextSessionExpiry_wp _ nowEpoch confirmed)
      rintro (status | expiry) g sound
      · intro ok
        exact absurd (by rw [show status = .ok from ok]) sound
      · simp only
        split
        · simp
        · simp only [wp_bind, wp_pure]
          -- the expiry is reported only when the `SET` of it was confirmed
          refine wp_mono _ _ ?_ _ _ (setBreakerLockout_wp printer redis scope nowEpoch expiry g)
          intro status g' written ok
          refine ⟨expiry, written ok, fun e member => ?_⟩
          rw [if_pos ok] at member
          obtain ⟨_, _, rfl⟩ := Option.mem_map.mp member
          rfl

private theorem isBreakerLocked_wp (key : Except AlphaErr Text) (locked : Option Bool)
    (expiresAtOut confirmed : Option Int) :
    wp (MayTouch key) confirm (fun _ _ => True)
      (alphaRedisIsBreakerLocked printer (some redis) (some scope) locked expiresAtOut)
      confirmed := by
  unfold alphaRedisIsBreakerLocked
  split
  · split
    · trivial
    · simp only [wp_bind, wp_ask, MayTouch, true_and]
      intro reply
      split
      · trivial
      · trivial
      · split
        · trivial
        · simp only [redisServerTime, wp_bind, wp_ask, wp_pure, MayTouch, true_and]
          intro time
          split <;> simp [MayTouch]
      · trivial
  · trivial

private theorem clearBreakerLockout_wp (confirmed : Option Int) :
    wp (MayTouch (breakerKey printer scope)) confirm (fun _ _ => True)
      (alphaRedisClearBreakerLockout printer (some redis) (some scope)) confirmed := by
  simp only [alphaRedisClearBreakerLockout]
  rcases breakerKey_cases printer scope with ⟨err, bad, refused⟩ | ⟨key, valid⟩
  · rw [refused]
    trivial
  · rw [valid]
    simp only [wp_bind, wp_ask, MayTouch, true_and]
    intro reply
    split <;> trivial

/-- Every call keeps to its key, and returns OK for a lockout only after a confirmed `SET`. -/
theorem program_wp (request : Call) (confirmed : Option Int) :
    wp (MayTouch (breakerKey printer scope)) confirm Confirmed
      (request.program printer redis scope) confirmed := by
  cases request with
  | setLockout nowEpoch expiry =>
    simp only [Call.program, wp_bind, wp_pure]
    refine wp_mono _ _ ?_ _ _ (setBreakerLockout_wp printer redis scope nowEpoch expiry confirmed)
    intro status g written
    cases status <;> simp_all [Confirmed]
  | setNextSession nowEpoch expiresAtOut =>
    simp only [Call.program, wp_bind, wp_pure]
    refine wp_mono _ _ ?_ _ _
      (setNextSession_wp printer redis scope nowEpoch expiresAtOut confirmed)
    rintro ⟨status, out⟩ g written
    cases status <;> simp_all [Confirmed]
  | isLocked locked expiresAtOut =>
    simp only [Call.program, wp_bind, wp_pure]
    exact wp_mono _ _ (fun _ _ _ => trivial) _ _
      (isBreakerLocked_wp printer redis scope _ locked expiresAtOut confirmed)
  | clear =>
    simp only [Call.program, wp_bind, wp_pure]
    exact wp_mono _ _ (fun _ _ _ => trivial) _ _
      (clearBreakerLockout_wp printer redis scope confirmed)

end Guarantees

/-! ### What holds between the steps -/

/-- The key holds a lockout, as text and as expiry, at least as long. -/
def Held (key : Except AlphaErr Text) (store : Store) (expiry : Int) : Prop :=
  ∃ name held, key = .ok name ∧ expiry ≤ held ∧
    store name = some ⟨printDecimal held, some (1000 * held)⟩

/-- An expiry that was acknowledged, or written by a call that has not returned yet. -/
def Promised (w : World) (expiry : Int) : Prop :=
  expiry ∈ w.acked ∨
    ∃ client slot, w.clients client = some slot ∧ slot.pledge = .written expiry

/-- Whatever the replies, the rest of the call returns OK only for the expiry it wrote. -/
def Slot.Sound (key : Except AlphaErr Text) (slot : Slot) : Prop :=
  ∃ confirmed, (∀ stored, confirmed = some stored → slot.pledge = .written stored ∨
    slot.pledge = .undone) ∧ wp (MayTouch key) confirm Confirmed slot.program confirmed

structure Inv (key : Except AlphaErr Text) (w : World) : Prop where
  held : ∀ expiry, Promised w expiry → w.now < 1000 * expiry → Held key w.store expiry
  sound : ∀ client slot, w.clients client = some slot → slot.Sound key

theorem Slot.Sound.undo {key : Except AlphaErr Text} {slot : Slot} (sound : slot.Sound key) :
    Slot.Sound key ⟨slot.program, slot.pledge.undo⟩ := by
  obtain ⟨confirmed, agrees, rest⟩ := sound
  refine ⟨confirmed, fun stored same => Or.inr ?_, rest⟩
  rcases agrees stored same with written | undone
  · simp [written, Pledge.undo]
  · simp [undone, Pledge.undo]

/-- A reply to the pending command leaves the call sound. -/
theorem Slot.Sound.send {key : Except AlphaErr Text} {c : Command}
    {next : Option Reply → Client Return} {pledge : Pledge}
    (sound : Slot.Sound key ⟨.call c next, pledge⟩) (now : Int) (fate : Fate) (store : Store) :
    Slot.Sound key ⟨next (meet ⟨now, fate⟩ c store).1, pledgeAfter fate c pledge⟩ := by
  obtain ⟨confirmed, agrees, _, rest⟩ := sound
  refine ⟨_, ?_, rest _⟩
  intro stored same
  cases c with
  | setExat written value expiry =>
    simp only [confirm] at same
    -- a `SET` that is confirmed was executed, so the pledge is what the call believes
    rcases meet_setExat ⟨now, fate⟩ store written value expiry with
      ⟨reply, _⟩ | ⟨reply, served, accepts, _⟩
    · simp [reply] at same
    · rw [if_pos reply] at same
      cases same
      cases served
      simp [pledgeAfter, Fate.executes, accepts]
  | time => exact agrees stored same
  | get _ => exact agrees stored same
  | ttl _ => exact agrees stored same
  | del _ => exact agrees stored same

/-- What a returning call acknowledges is what it wrote. -/
theorem acknowledged_written {key : Except AlphaErr Text} {pledge : Pledge} {result : Return}
    (sound : Slot.Sound key ⟨.done result, pledge⟩) (expiry : Int)
    (member : expiry ∈ acknowledged pledge result) : pledge = .written expiry := by
  obtain ⟨confirmed, agrees, confirmedResult⟩ := sound
  unfold acknowledged at member
  split at member
  next reported =>
    obtain ⟨stored, known, reports⟩ := confirmedResult
    -- a clear since the `SET` leaves nothing to acknowledge
    rcases agrees stored known with written | undone
    · simp only at written
      simp only [written, List.mem_cons, Option.mem_toList] at member
      rcases member with rfl | reportedHere
      · exact written
      · rw [written, reports expiry reportedHere]
    · simp only at undone
      simp [undone] at member
  next => simp at member

/-- A step that keeps the key, promises nothing new and leaves every call sound. -/
theorem Inv.frame {key : Except AlphaErr Text} {w after : World} (inv : Inv key w)
    (same : ∀ name, key = .ok name → after.store name = w.store name) (later : w.now ≤ after.now)
    (promised : ∀ expiry, Promised after expiry → Promised w expiry)
    (sound : ∀ client slot, after.clients client = some slot → slot.Sound key) : Inv key after where
  held expiry promise alive := by
    obtain ⟨name, held, named, longer, stored⟩ :=
      inv.held expiry (promised expiry promise) (by omega)
    exact ⟨name, held, named, longer, (same name named).trans stored⟩
  sound := sound

private theorem update_cases {clients : Nat → Option Slot} {client other : Nat}
    {value : Option Slot} {found : Slot}
    (isFound : Function.update clients client value other = some found) :
    value = some found ∨ clients other = some found := by
  by_cases same : other = client
  · subst same
    exact Or.inl (by rw [← isFound, Function.update_self])
  · exact Or.inr (by rw [← isFound, Function.update_of_ne same])

private theorem sound_update {key : Except AlphaErr Text} {clients : Nat → Option Slot}
    (sound : ∀ client slot, clients client = some slot → slot.Sound key) (client : Nat)
    (slot : Slot) (new : slot.Sound key) (other : Nat) (found : Slot)
    (isFound : Function.update clients client (some slot) other = some found) :
    found.Sound key := by
  rcases update_cases isFound with here | before
  · cases here
    exact new
  · exact sound other found before

/-- Replacing a slot by one with the same pledge promises nothing new. -/
private theorem promised_update {w : World} {client : Nat} {slot : Slot} {program : Client Return}
    (busy : w.clients client = some slot) (store : Store) (expiry : Int)
    (promise : Promised ⟨store, w.now, Function.update w.clients client
      (some ⟨program, slot.pledge⟩), w.acked⟩ expiry) : Promised w expiry := by
  rcases promise with acked | ⟨other, found, isFound, written⟩
  · exact Or.inl acked
  · rcases update_cases isFound with here | before
    · cases here
      exact Or.inr ⟨client, slot, busy, written⟩
    · exact Or.inr ⟨other, found, before, written⟩

section Send

variable {key : Except AlphaErr Text} {w : World} {client : Nat} {fate : Fate} {c : Command}
variable {next : Option Reply → Client Return} {pledge : Pledge}

/-- A command that writes nothing: a read, one that is not executed, or a refused `SET`. -/
private theorem send_quiet (inv : Inv key w) (busy : w.clients client = some ⟨.call c next, pledge⟩)
    (notClear : clears fate c = false) (kept : (meet ⟨w.now, fate⟩ c w.store).2 = w.store)
    (pledged : pledgeAfter fate c pledge = pledge) :
    Inv key (w.send client fate c next pledge) := by
  have new := (inv.sound client _ busy).send w.now fate w.store
  simp only [World.send, notClear, kept, pledged, Bool.false_eq_true, if_false] at new ⊢
  exact inv.frame (fun _ _ => rfl) le_rfl (promised_update busy w.store)
    (sound_update inv.sound client _ new)

/-- An executed clear leaves nothing promised. -/
private theorem send_clear (inv : Inv key w) (busy : w.clients client = some ⟨.call c next, pledge⟩)
    (clear : clears fate c = true) : Inv key (w.send client fate c next pledge) := by
  have new := (inv.sound client _ busy).send w.now fate w.store
  simp only [World.send, clear, if_true]
  refine ⟨?_, ?_⟩
  · rintro expiry (acked | ⟨other, found, isFound, written⟩)
    · simp at acked
    · simp only [Option.map_eq_some_iff] at isFound
      obtain ⟨slot, _, rfl⟩ := isFound
      cases pledged : slot.pledge <;> simp [pledged, Pledge.undo] at written
  · intro other found isFound
    simp only [Option.map_eq_some_iff] at isFound
    obtain ⟨slot, isSlot, rfl⟩ := isFound
    exact (sound_update inv.sound client _ new other slot isSlot).undo

/-- An executed `SET` that does not shorten a live lockout keeps every promise. -/
private theorem send_set (inv : Inv key w) (value : Text) (expiry : Int) (written : Text)
    (busy : w.clients client = some ⟨.call (.setExat written value expiry) next, pledge⟩)
    (executes : fate.executes = true) (accepts : acceptsExpiry expiry = true)
    (careful : shortens expiry (w.store.find w.now written) = false) :
    Inv key (w.send client fate (.setExat written value expiry) next pledge) := by
  have sound := inv.sound client _ busy
  have new := sound.send w.now fate w.store
  obtain ⟨_, _, ⟨named, rfl⟩, _⟩ := sound
  have stored : (meet ⟨w.now, fate⟩ (.setExat written (printDecimal expiry) expiry) w.store).2 =
      Function.update w.store written (some ⟨printDecimal expiry, some (1000 * expiry)⟩) := by
    simp [meet_store, executes, exec, accepts]
  have pledged : pledgeAfter fate (.setExat written (printDecimal expiry) expiry) pledge =
      .written expiry := by simp [pledgeAfter, executes, accepts]
  -- a promise that is still alive is held by the entry the `SET` finds
  have notShorter (earlier : Int) (promise : Promised w earlier) (alive : w.now < 1000 * earlier) :
      earlier ≤ expiry := by
    obtain ⟨name, held, same, longer, before⟩ := inv.held earlier promise alive
    obtain rfl : written = name := Except.ok.inj (named.symm.trans same)
    have found := w.store.find_expiring w.now written _ _ before
    rw [if_pos (by omega)] at found
    simp only [found, shortens, decide_eq_false_iff_not] at careful
    omega
  simp only [World.send, clears, stored, pledged, Bool.false_eq_true, if_false] at new ⊢
  refine ⟨?_, sound_update inv.sound client _ new⟩
  intro earlier promise alive
  refine ⟨written, expiry, named, ?_, Function.update_self ..⟩
  rcases promise with acked | ⟨other, found, isFound, wrote⟩
  · exact notShorter earlier (Or.inl acked) alive
  · rcases update_cases isFound with here | before
    · cases here
      cases wrote
      exact le_rfl
    · exact notShorter earlier (Or.inr ⟨other, found, before, wrote⟩) alive

/-- Any command of a client keeps the invariant, unless it shortens a live lockout. -/
theorem send_inv (inv : Inv key w) (busy : w.clients client = some ⟨.call c next, pledge⟩)
    (careful : keepsLaterExpiry w (.advance client fate) = true) :
    Inv key (w.send client fate c next pledge) := by
  -- a command that is not executed changes neither the store nor the pledge
  cases executes : fate.executes with
  | false =>
    apply send_quiet inv busy
    · cases c <;> simp [clears, executes]
    · simp [meet_store, executes]
    · cases c <;> simp [pledgeAfter, executes]
  | true =>
    cases c with
    | setExat written value expiry =>
      cases accepts : acceptsExpiry expiry with
      | true =>
        simp only [keepsLaterExpiry, busy, executes, Bool.true_and, Bool.not_eq_true'] at careful
        exact send_set inv value expiry written busy executes accepts careful
      | false =>
        apply send_quiet inv busy rfl
        · simp [meet_store, executes, exec, accepts]
        · simp [pledgeAfter, accepts]
    | del removed => exact send_clear inv busy executes
    | time => exact send_quiet inv busy rfl (meet_reads _ _ _ rfl) rfl
    | get _ => exact send_quiet inv busy rfl (meet_reads _ _ _ rfl) rfl
    | ttl _ => exact send_quiet inv busy rfl (meet_reads _ _ _ rfl) rfl

end Send

theorem step_inv (printer : Printer) (scope : Text) (w : World) (event : Event)
    (inv : Inv (breakerKey printer scope) w) (careful : keepsLaterExpiry w event = true) :
    Inv (breakerKey printer scope) (w.step printer scope event) := by
  cases event with
  | begin client request =>
    simp only [World.step]
    split
    next free =>
      -- a call that begins has written nothing
      have new : Slot.Sound (breakerKey printer scope)
          ⟨request.program printer ⟨client⟩ scope, .unwritten⟩ :=
        ⟨none, by simp, program_wp printer ⟨client⟩ scope request none⟩
      refine inv.frame (fun _ _ => rfl) le_rfl ?_ (sound_update inv.sound client _ new)
      rintro expiry (acked | ⟨other, found, isFound, written⟩)
      · exact Or.inl acked
      · rcases update_cases isFound with here | before
        · cases here
          cases written
        · exact Or.inr ⟨other, found, before, written⟩
    next => exact inv
  | advance client fate =>
    simp only [World.step]
    split
    next => exact inv
    next result pledge busy =>
      have sound := inv.sound client _ busy
      refine inv.frame (fun _ _ => rfl) le_rfl ?_ ?_
      · rintro expiry (acked | ⟨other, found, isFound, written⟩)
        -- what is acknowledged now was promised by the pledge before
        · rcases List.mem_append.mp acked with before | now
          · exact Or.inl before
          · exact Or.inr ⟨client, _, busy, acknowledged_written sound expiry now⟩
        · rcases update_cases isFound with here | before
          · cases here
          · exact Or.inr ⟨other, found, before, written⟩
      · intro other found isFound
        rcases update_cases isFound with here | before
        · cases here
        · exact inv.sound other found before
    next c next pledge busy => exact send_inv inv busy careful
  | wait milliseconds =>
    exact inv.frame (fun _ _ => rfl) (by simp [World.step]) (fun _ promise => promise) inv.sound
  | write key entry =>
    simp only [World.step]
    split
    next => exact inv
    next other =>
      refine inv.frame (fun name named => Function.update_of_ne ?_ _ _) le_rfl
        (fun _ promise => promise) inv.sound
      rintro rfl
      exact other named

/-- Along any run of lockout calls in which no executed `SET` shortens a live lockout, a `GET`
before an acknowledged expiry finds the key, and the expiry stored in it is not earlier. The key
is the one printed for the scope, unless its length is no `int`. -/
theorem acked_lockout_found (printer : Printer) (scope : Text) (store : Store) (now : Int)
    (events : List Event)
    (careful : Runs.Along (World.step printer scope)
      (fun w event => keepsLaterExpiry w event = true) (World.initial store now) events) :
    let w := Runs.run (World.step printer scope) (World.initial store now) events
    ∀ expiry ∈ w.acked, w.now < 1000 * expiry → ∃ key held, breakerKey printer scope = .ok key ∧
      (scope.length + 18 ≤ intMax → key = lockoutPrefix ++ scope) ∧ expiry ≤ held ∧
      w.store.find w.now key = some ⟨printDecimal held, some (1000 * held)⟩ := by
  intro w expiry member alive
  have start : Inv (breakerKey printer scope) (World.initial store now) := by
    refine ⟨?_, by simp [World.initial]⟩
    rintro e (acked | ⟨_, _, busy, _⟩)
    · simp [World.initial] at acked
    · simp [World.initial] at busy
  have inv : Inv (breakerKey printer scope) w :=
    Runs.run_invariant _ _ _ (step_inv printer scope) _ events start careful
  obtain ⟨key, held, valid, longer, stored⟩ := inv.held expiry (Or.inl member) alive
  refine ⟨key, held, valid, fun short => breakerKey_printable printer scope short key valid,
    longer, ?_⟩
  rw [w.store.find_expiring _ _ _ _ stored, if_pos (by omega)]

/-- Commands of one client that are all served. -/
def served (client count : Nat) : List Event := List.replicate count (.advance client .served)

theorem acked_lockout_found_after_two_sets :
    let events := [.begin 0 (.setLockout 1780988390 1781074800)] ++ served 0 3 ++ [.wait 60000,
      .begin 1 (.setLockout 1780988450 1781161200)] ++ served 1 3
    let w := Runs.run (World.step fillingPrinter "paper".toList)
      (World.initial (fun _ => none) 1780988390000) events
    w.acked = [1781074800, 1781074800, 1781161200, 1781161200] ∧
    ∃ held, 1781074800 ≤ held ∧ w.store.find w.now (lockoutPrefix ++ "paper".toList) =
      some ⟨printDecimal held, some (1000 * held)⟩ := by
  intro events w
  have acked : w.acked = [1781074800, 1781074800, 1781161200, 1781161200] := by decide +kernel
  have member : 1781074800 ∈ w.acked := by simp [acked]
  obtain ⟨key, held, _, named, longer, found⟩ := acked_lockout_found fillingPrinter "paper".toList
    (fun _ => none) 1780988390000 events (by decide +kernel) 1781074800 member (by decide +kernel)
  rw [named (by decide)] at found
  exact ⟨acked, held, longer, found⟩

/-- An empty holiday calendar for 2026, still fresh. -/
def calendar2026 : Store := fun key =>
  if key = holidaysKey 2026 then some ⟨"[]".toList, some 1790000000000⟩ else none

/-- One second before midnight in Seoul on a Tuesday: a caller two seconds ahead locks until
Thursday's session; a caller one second behind then locks until Wednesday's. The lockout
acknowledged first is gone a day early. -/
theorem acked_lockout_shortened :
    let events := [.begin 0 (.setNextSession 1781017202 (some 0))] ++ served 0 6 ++
      [.begin 1 (.setNextSession 1781017198 (some 0))] ++ served 1 6
    let w := Runs.run (World.step fillingPrinter "paper".toList)
      (World.initial calendar2026 1781017199000) events
    1781136000 ∈ w.acked ∧ w.now < 1000 * 1781136000 ∧
    w.store.find w.now (lockoutPrefix ++ "paper".toList) =
      some ⟨"1781049600".toList, some 1781049600000⟩ ∧
    ¬ ∃ held, 1781136000 ≤ held ∧ w.store.find w.now (lockoutPrefix ++ "paper".toList) =
      some ⟨printDecimal held, some (1000 * held)⟩ := by
  intro events w
  have found : w.store.find w.now (lockoutPrefix ++ "paper".toList) =
      some ⟨"1781049600".toList, some 1781049600000⟩ := by decide +kernel
  refine ⟨by decide +kernel, by decide +kernel, found, ?_⟩
  rintro ⟨held, longer, stored⟩
  rw [found] at stored
  simp only [Option.some.injEq, Entry.mk.injEq] at stored
  omega

end AlphaPipeline.LockoutRuns

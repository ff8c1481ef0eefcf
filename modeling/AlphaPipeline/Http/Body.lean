import AlphaPipeline.Http.HttpClient
import AlphaPipeline.Library.Slots

/-!
# The body of a response

`receive_body` over the bytes it allocates: `realloc` leaves the bytes behind the old ones
unwritten, and `memcpy` and the terminator must stay inside. It stores what `Http.receiveBody`
says, which works on the contents. Over any chunks the contents are the accepted ones.
-/
namespace AlphaPipeline.Http.Body

/-- What libcurl hands over, and whether `realloc` succeeds then. -/
structure Chunk where
  data : Text
  size : Nat
  count : Nat
  reallocated : Bool
  whole : data.length = size * count
  fits : size * count < sizeModulus

/-- `response` and `response_size`; a byte that was never written is absent. -/
structure Buffer where
  response : Option (List (Option Char))
  responseSize : Nat
  deriving DecidableEq

/-- `receive_body`; without result if a byte outside the allocation is written. -/
def receiveBody (buffer : Buffer) (chunk : Chunk) : Option (Nat × Buffer) :=
  let bytes := chunk.size * chunk.count % sizeModulus
  if bytes > sizeSub maxResponseBytes buffer.responseSize ||
      bytes > sizeSub (sizeSub (sizeModulus - 1) buffer.responseSize) 1 then some (0, buffer)
  else if !chunk.reallocated then some (0, buffer)
  else do
    let next := Slots.resize (buffer.response.getD [])
      ((buffer.responseSize + bytes + 1) % sizeModulus)
    let next ← Slots.copy next buffer.responseSize (chunk.data.take bytes)
    let responseSize := (buffer.responseSize + bytes) % sizeModulus
    let next ← Slots.write next responseSize (Char.ofNat 0)
    some (bytes, ⟨some next, responseSize⟩)

/-- A request as it is allocated. -/
def empty : Buffer := ⟨none, 0⟩

/-- A chunk is delivered: the buffer, and the chunks for which libcurl was answered their
length. -/
def deliver (s : Buffer × List Text) (chunk : Chunk) : Option (Buffer × List Text) := do
  let (returned, next) ← receiveBody s.1 chunk
  some (next, if returned = chunk.data.length then s.2 ++ [chunk.data] else s.2)

/-- All chunks of a request. -/
def deliverAll (chunks : List Chunk) : Option (Buffer × List Text) :=
  chunks.foldlM deliver (empty, [])

/-! ### One chunk -/

/-- The buffer holds the bytes and a terminator, or it has not been allocated. -/
structure Stores (buffer : Buffer) (bytes : Text) : Prop where
  size : buffer.responseSize = bytes.length
  bounded : bytes.length ≤ maxResponseBytes
  contents : buffer.response = none ∧ bytes = [] ∨
    buffer.response = some ((bytes ++ [Char.ofNat 0]).map some)

theorem stores_empty : Stores empty [] := ⟨rfl, Nat.zero_le _, Or.inl ⟨rfl, rfl⟩⟩

/-- A chunk that fits is accepted if the memory for it is there. -/
def Accepts (buffer : Buffer) (chunk : Chunk) : Prop :=
  chunk.reallocated ∧ buffer.responseSize + chunk.data.length ≤ maxResponseBytes

instance (buffer : Buffer) (chunk : Chunk) : Decidable (Accepts buffer chunk) :=
  inferInstanceAs (Decidable (_ ∧ _))

variable {buffer : Buffer} {bytes : Text}

theorem Stores.no_wrap (stores : Stores buffer bytes) :
    sizeSub maxResponseBytes buffer.responseSize = maxResponseBytes - buffer.responseSize ∧
      sizeSub (sizeSub (sizeModulus - 1) buffer.responseSize) 1 =
        sizeModulus - 1 - buffer.responseSize - 1 := by
  have bounded : buffer.responseSize ≤ 1048576 := stores.size ▸ stores.bounded
  unfold sizeSub sizeModulus maxResponseBytes
  omega

/-- The two checks refuse a chunk that is too long. -/
theorem Stores.refuses_iff (stores : Stores buffer bytes) (chunk : Chunk) :
    (chunk.size * chunk.count % sizeModulus > sizeSub maxResponseBytes buffer.responseSize ||
      chunk.size * chunk.count % sizeModulus >
        sizeSub (sizeSub (sizeModulus - 1) buffer.responseSize) 1) = true ↔
      maxResponseBytes < buffer.responseSize + chunk.data.length := by
  have bounded : buffer.responseSize ≤ 1048576 := stores.size ▸ stores.bounded
  obtain ⟨first, second⟩ := stores.no_wrap
  rw [first, second, Nat.mod_eq_of_lt chunk.fits, ← chunk.whole, Bool.or_eq_true,
    decide_eq_true_eq, decide_eq_true_eq]
  unfold maxResponseBytes sizeModulus
  omega

/-- What is left of an allocation is enough for `write_copy_resize`. -/
theorem Stores.front (stores : Stores buffer bytes) :
    (buffer.response.getD []).take bytes.length = bytes.map some ∧
      (buffer.response.getD []).length ≤ bytes.length + 1 := by
  rcases stores.contents with ⟨none, rfl⟩ | stored
  · rw [none]
    exact ⟨rfl, Nat.zero_le _⟩
  · rw [stored, Option.getD_some, List.map_append]
    exact ⟨List.take_left' (List.length_map _), by simp⟩

/-- The buffer after a chunk was stored behind these bytes. -/
def stored (bytes : Text) : Buffer := ⟨some ((bytes ++ [Char.ofNat 0]).map some), bytes.length⟩

/-- The step, for a chunk that is accepted: it is stored whole. -/
theorem Stores.accepts (stores : Stores buffer bytes) {chunk : Chunk}
    (accepts : Accepts buffer chunk) :
    receiveBody buffer chunk = some (chunk.data.length, stored (bytes ++ chunk.data)) := by
  obtain ⟨front, short⟩ := stores.front
  obtain ⟨reallocated, room⟩ := accepts
  have small : bytes.length + chunk.data.length + 1 < sizeModulus := by
    rw [stores.size] at room
    exact lt_of_le_of_lt (Nat.succ_le_succ room) (by decide)
  obtain ⟨next, copied, ended⟩ := Option.bind_eq_some_iff.mp
    (Slots.write_copy_resize chunk.data (Char.ofNat 0) front short)
  rw [receiveBody, if_neg (mt (stores.refuses_iff chunk).mp (not_lt.mpr room)), reallocated,
    Nat.mod_eq_of_lt chunk.fits, ← chunk.whole, List.take_length, stores.size,
    Nat.mod_eq_of_lt small, Nat.mod_eq_of_lt (Nat.lt_of_succ_lt small)]
  simp only [copied, ended, Option.bind_eq_bind, Option.bind_some]
  rw [stored, List.length_append]
  rfl

/-- The step, for a chunk that is refused: nothing changes. -/
theorem Stores.refuses (stores : Stores buffer bytes) {chunk : Chunk}
    (refused : ¬Accepts buffer chunk) : receiveBody buffer chunk = some (0, buffer) := by
  rw [receiveBody]
  dsimp only
  split
  · rfl
  next short =>
    have room := not_lt.mp fun above => short ((stores.refuses_iff chunk).mpr above)
    have failed : chunk.reallocated = false :=
      Bool.eq_false_iff.mpr fun reallocated => refused ⟨reallocated, room⟩
    rw [failed]
    rfl

theorem Stores.append (stores : Stores buffer bytes) {chunk : Chunk}
    (accepts : Accepts buffer chunk) :
    Stores (stored (bytes ++ chunk.data)) (bytes ++ chunk.data) := by
  have bounded := accepts.2
  rw [stores.size, ← List.length_append] at bounded
  exact ⟨rfl, bounded, Or.inr rfl⟩

/-! ### The contents -/

/-- The request of the model over contents. -/
def Represents (buffer : Buffer) (request : Request) : Prop :=
  buffer.responseSize = request.responseSize ∧
    buffer.response = request.response.map fun text => text.map some

theorem Represents.kept {request : Request} (represents : Represents buffer request)
    (stores : Stores buffer bytes) : (request.response.getD []).take bytes.length = bytes := by
  have front := stores.front.1
  rw [represents.2] at front
  apply List.map_injective_iff.mpr (Option.some_injective Char)
  rw [← front, List.map_take]
  cases request.response <;> rfl

/-- Both models of `receive_body` answer and store the same. -/
theorem receiveBody_refines (stores : Stores buffer bytes) {request : Request}
    (represents : Represents buffer request) (chunk : Chunk) :
    ∃ next, receiveBody buffer chunk =
        some ((Http.receiveBody request chunk.data chunk.size chunk.count chunk.reallocated).1,
          next) ∧
      Represents next
        (Http.receiveBody request chunk.data chunk.size chunk.count chunk.reallocated).2 := by
  have checks := stores.refuses_iff chunk
  have kept := represents.kept stores
  have size := represents.1
  rw [size] at checks
  rw [Http.receiveBody]
  dsimp only
  split
  next long =>
    have above := checks.mp long
    rw [← size] at above
    exact ⟨buffer, stores.refuses fun accepts => absurd accepts.2 (not_le.mpr above), represents⟩
  next short =>
    have room := not_lt.mp fun above => short (checks.mpr above)
    split
    next failed =>
      refine ⟨buffer, stores.refuses fun accepts => ?_, represents⟩
      rw [accepts.1] at failed
      cases failed
    next reallocated =>
      have accepts : Accepts buffer chunk := ⟨by simpa using reallocated, size.symm ▸ room⟩
      have small : bytes.length + chunk.data.length < sizeModulus := by
        rw [← size, stores.size] at room
        exact lt_of_le_of_lt room (by decide)
      rw [stores.accepts accepts, Nat.mod_eq_of_lt chunk.fits, ← chunk.whole, List.take_length,
        ← size, stores.size, kept, Nat.mod_eq_of_lt small]
      exact ⟨_, rfl, List.length_append, rfl⟩

/-! ### All chunks -/

theorem deliver_accepts (stores : Stores buffer bytes) (accepted : List Text) {chunk : Chunk}
    (accepts : Accepts buffer chunk) :
    deliver (buffer, accepted) chunk =
      some (stored (bytes ++ chunk.data), accepted ++ [chunk.data]) := by
  rw [deliver, stores.accepts accepts]
  simp

/-- Nothing is answered to a refused chunk, which is the length of an empty one. -/
theorem deliver_refuses (stores : Stores buffer bytes) (accepted : List Text) {chunk : Chunk}
    (refused : ¬Accepts buffer chunk) :
    deliver (buffer, accepted) chunk =
      some (buffer, if chunk.data = [] then accepted ++ [[]] else accepted) := by
  rw [deliver, stores.refuses refused]
  by_cases nothing : chunk.data = []
  · simp [nothing]
  · have length : 0 ≠ chunk.data.length := fun same =>
      nothing (List.length_eq_zero_iff.mp same.symm)
    simp [nothing, length]

theorem deliverAll_snoc {chunks : List Chunk} {s : Buffer × List Text}
    (delivered : deliverAll chunks = some s) (chunk : Chunk) :
    deliverAll (chunks ++ [chunk]) = deliver s chunk := by
  rw [deliverAll, List.foldlM_append, ← deliverAll, delivered]
  simp

/-- The buffer stores the chunks that were answered with their length. -/
theorem deliverAll_stores (chunks : List Chunk) :
    ∃ buffer accepted, deliverAll chunks = some (buffer, accepted) ∧
      Stores buffer accepted.flatten ∧ accepted.Sublist (chunks.map Chunk.data) := by
  -- chunk by chunk, from the last one
  induction chunks using List.reverseRecOn with
  | nil => exact ⟨empty, [], rfl, stores_empty, List.Sublist.slnil⟩
  | append_singleton chunks chunk ih =>
    obtain ⟨buffer, accepted, delivered, stores, sublist⟩ := ih
    rw [deliverAll_snoc delivered, List.map_append, List.map_singleton]
    by_cases accepts : Accepts buffer chunk
    · refine ⟨_, _, deliver_accepts stores accepted accepts, ?_,
        sublist.append (List.Sublist.refl _)⟩
      rw [List.flatten_append, List.flatten_singleton]
      exact stores.append accepts
    · refine ⟨_, _, deliver_refuses stores accepted accepts, ?_, ?_⟩
      · split
        · rw [List.flatten_append]
          simpa using stores
        · exact stores
      · split
        next nothing =>
          rw [nothing]
          exact sublist.append (List.Sublist.refl _)
        · exact sublist.trans (List.sublist_append_left _ _)

/-- However a body that fits is cut, all of it is stored. -/
theorem deliverAll_complete (chunks : List Chunk)
    (memory : ∀ chunk ∈ chunks, chunk.reallocated = true)
    (total : (chunks.map Chunk.data).flatten.length ≤ maxResponseBytes) :
    ∃ buffer, deliverAll chunks = some (buffer, chunks.map Chunk.data) ∧
      Stores buffer (chunks.map Chunk.data).flatten := by
  induction chunks using List.reverseRecOn with
  | nil => exact ⟨empty, rfl, stores_empty⟩
  | append_singleton chunks chunk ih =>
    rw [List.map_append, List.flatten_append, List.map_singleton, List.flatten_singleton] at *
    rw [List.length_append] at total
    obtain ⟨buffer, delivered, stores⟩ :=
      ih (fun earlier member => memory earlier (List.mem_append_left _ member)) (by omega)
    have accepts : Accepts buffer chunk :=
      ⟨memory chunk (by simp), by rw [stores.size]; exact total⟩
    refine ⟨_, ?_, stores.append accepts⟩
    rw [deliverAll_snoc delivered, deliver_accepts stores _ accepts]

/-- For any chunks and allocation failures, `receive_body` writes inside its allocation, the
stored bytes are the accepted chunks and a terminator, up to 1 MiB, the subtractions do not wrap,
and the next chunk is stored whole, or refused with nothing changed. -/
theorem receiveBody_any_chunks (chunks : List Chunk) (chunk : Chunk) :
    ∃ buffer accepted, deliverAll chunks = some (buffer, accepted) ∧
      accepted.Sublist (chunks.map Chunk.data) ∧
      buffer.responseSize = accepted.flatten.length ∧
      buffer.responseSize ≤ 1024 * 1024 ∧
      (buffer.response = none ∧ accepted.flatten = [] ∨
        buffer.response = some ((accepted.flatten ++ [Char.ofNat 0]).map some)) ∧
      sizeSub maxResponseBytes buffer.responseSize = maxResponseBytes - buffer.responseSize ∧
      sizeSub (sizeSub (sizeModulus - 1) buffer.responseSize) 1 =
        sizeModulus - 1 - buffer.responseSize - 1 ∧
      (Accepts buffer chunk → ∃ next,
        receiveBody buffer chunk = some (chunk.data.length, next) ∧
        next.responseSize = buffer.responseSize + chunk.data.length ∧
        next.response = some ((accepted.flatten ++ chunk.data ++ [Char.ofNat 0]).map some)) ∧
      (¬Accepts buffer chunk → ∃ returned,
        receiveBody buffer chunk = some (returned, buffer) ∧
        (chunk.data ≠ [] → returned ≠ chunk.data.length)) := by
  obtain ⟨buffer, accepted, delivered, stores, sublist⟩ := deliverAll_stores chunks
  obtain ⟨first, second⟩ := stores.no_wrap
  have bounded : buffer.responseSize ≤ 1024 * 1024 := stores.size ▸ stores.bounded
  refine ⟨buffer, accepted, delivered, sublist, stores.size, bounded, stores.contents, first,
    second, fun accepts => ⟨_, stores.accepts accepts, ?_, rfl⟩,
    fun refused => ⟨0, stores.refuses refused, fun nonempty same => nonempty ?_⟩⟩
  · rw [stores.size]
    exact List.length_append
  · exact List.length_eq_zero_iff.mp same.symm

/-- A chunk of single bytes, as libcurl hands it over. -/
def Chunk.ofBytes (data : Text) (reallocated : Bool) (fits : data.length < sizeModulus) : Chunk :=
  ⟨data, 1, data.length, reallocated, (Nat.one_mul _).symm, by rwa [Nat.one_mul]⟩

-- the second chunk finds no memory and is lost
example : deliverAll [.ofBytes "ab".toList true (by decide), .ofBytes "c".toList false (by decide),
      .ofBytes "d".toList true (by decide)] =
    some (⟨some (("abd".toList ++ [Char.ofNat 0]).map some), 3⟩, ["ab".toList, "d".toList]) := by
  decide

end AlphaPipeline.Http.Body

import AlphaPipeline.Library.Fips180
import AlphaPipeline.Library.Loops

/-!
# The hash of the Rust adapter

`sha256_hex` pads the bytes, compresses them in chunks of 64 and prints the state. The types carry
the sizes of the arrays, so no index is out of range. It computes the digest of FIPS 180-4.
-/
namespace AlphaPipeline.Sha256

abbrev Byte := BitVec 8

/-! ### The code -/

/-- `to_be_bytes`, for an integer of `count` bytes. -/
def toBeBytes : Nat → Nat → List Byte
  | 0, _ => []
  | count + 1, n => BitVec.ofNat 8 (n / 2 ^ (8 * count)) :: toBeBytes count n

/-- `u32::from_be_bytes`. -/
def fromBeBytes (word : Vector Byte 4) : BitVec 32 :=
  BitVec.ofNat 32 (word.toList.foldl (fun n byte => n * 256 + byte.toNat) 0)

/-- `chunks_exact`: whole chunks, a rest is left out. -/
def chunksExact {α : Type} (size : Nat) (xs : List α) : List (Vector α size) :=
  (List.finRange (xs.length / size)).map fun i => Vector.ofFn fun j =>
    xs.get ⟨size * i.val + j.val, by
      have whole := Nat.mul_le_mul_left size (Nat.succ_le_of_lt i.isLt)
      have bound := Nat.mul_div_le xs.length size
      rw [Nat.mul_succ] at whole
      omega⟩

/-- The table `K` of `sha256_compress`. -/
def roundK : Vector (BitVec 32) 64 := #v[
  0x428a2f98, 0x71374491, 0xb5c0fbcf, 0xe9b5dba5, 0x3956c25b, 0x59f111f1, 0x923f82a4,
  0xab1c5ed5, 0xd807aa98, 0x12835b01, 0x243185be, 0x550c7dc3, 0x72be5d74, 0x80deb1fe,
  0x9bdc06a7, 0xc19bf174, 0xe49b69c1, 0xefbe4786, 0x0fc19dc6, 0x240ca1cc, 0x2de92c6f,
  0x4a7484aa, 0x5cb0a9dc, 0x76f988da, 0x983e5152, 0xa831c66d, 0xb00327c8, 0xbf597fc7,
  0xc6e00bf3, 0xd5a79147, 0x06ca6351, 0x14292967, 0x27b70a85, 0x2e1b2138, 0x4d2c6dfc,
  0x53380d13, 0x650a7354, 0x766a0abb, 0x81c2c92e, 0x92722c85, 0xa2bfe8a1, 0xa81a664b,
  0xc24b8b70, 0xc76c51a3, 0xd192e819, 0xd6990624, 0xf40e3585, 0x106aa070, 0x19a4c116,
  0x1e376c08, 0x2748774c, 0x34b0bcb5, 0x391c0cb3, 0x4ed8aa4a, 0x5b9cca4f, 0x682e6ff3,
  0x748f82ee, 0x78a5636f, 0x84c87814, 0x8cc70208, 0x90befffa, 0xa4506ceb, 0xbef9a3f7,
  0xc67178f2]

/-- The word `index` of a chunk. -/
def chunkWord (chunk : Vector Byte 64) (index : Fin 16) : BitVec 32 :=
  fromBeBytes #v[chunk[4 * index.val], chunk[4 * index.val + 1], chunk[4 * index.val + 2],
    chunk[4 * index.val + 3]]

/-- The loop over the words of the chunk. -/
def loadWords (chunk : Vector Byte 64) : Vector (BitVec 32) 64 :=
  Fin.foldl 16 (fun schedule index => schedule.set index.val (chunkWord chunk index))
    (Vector.replicate 64 0)

/-- The loop from 16 to 63; `i` is how far the index is from 16. -/
def expandWords (schedule : Vector (BitVec 32) 64) : Vector (BitVec 32) 64 :=
  Fin.foldl 48 (fun schedule (i : Fin 48) =>
    let index := i.val + 16
    let s0 := schedule[index - 15].rotateRight 7 ^^^ schedule[index - 15].rotateRight 18 ^^^
      (schedule[index - 15] >>> 3)
    let s1 := schedule[index - 2].rotateRight 17 ^^^ schedule[index - 2].rotateRight 19 ^^^
      (schedule[index - 2] >>> 10)
    schedule.set index (schedule[index - 16] + s0 + schedule[index - 7] + s1)) schedule

/-- The body of the loop over the rounds; the variables `a` to `h` in order. -/
def compressRound (schedule : Vector (BitVec 32) 64) (v : Vector (BitVec 32) 8) (index : Fin 64) :
    Vector (BitVec 32) 8 :=
  let a := v[0]
  let b := v[1]
  let c := v[2]
  let d := v[3]
  let e := v[4]
  let f := v[5]
  let g := v[6]
  let h := v[7]
  let sum1 := e.rotateRight 6 ^^^ e.rotateRight 11 ^^^ e.rotateRight 25
  let choice := (e &&& f) ^^^ (~~~e &&& g)
  let temp1 := h + sum1 + choice + roundK[index] + schedule[index]
  let sum0 := a.rotateRight 2 ^^^ a.rotateRight 13 ^^^ a.rotateRight 22
  let majority := (a &&& b) ^^^ (a &&& c) ^^^ (b &&& c)
  let temp2 := sum0 + majority
  #v[temp1 + temp2, a, b, c, d + temp1, e, f, g]

/-- `sha256_compress`. -/
def sha256Compress (state : Vector (BitVec 32) 8) (chunk : Vector Byte 64) :
    Vector (BitVec 32) 8 :=
  let schedule := expandWords (loadWords chunk)
  Vector.zipWith (· + ·) state (Fin.foldl 64 (compressRound schedule) state)

/-- The loop that pushes zeros. -/
def pushZeros (padded : List Byte) : List Byte :=
  if padded.length % 64 ≠ 56 then pushZeros (padded ++ [0]) else padded
termination_by (120 - padded.length % 64) % 64
decreasing_by
  rw [List.length_append, List.length_singleton]
  omega

def initialState : Vector (BitVec 32) 8 := #v[
  0x6a09e667, 0xbb67ae85, 0x3c6ef372, 0xa54ff53a, 0x510e527f, 0x9b05688c, 0x1f83d9ab,
  0x5be0cd19]

/-- The bytes that are compressed. -/
def paddedInput (input : List Byte) : List Byte :=
  let bitLen : BitVec 64 := BitVec.ofNat 64 input.length * 8
  pushZeros (input ++ [0x80]) ++ toBeBytes 8 bitLen.toNat

/-- A word under the format `{word:08x}`. -/
def formatWord (word : BitVec 32) : List Char :=
  let digits := Nat.toDigits 16 word.toNat
  List.replicate (8 - digits.length) '0' ++ digits

/-- `sha256_hex`, of a release build: the product with 8 wraps. -/
def sha256Hex (input : List Byte) : List Char :=
  let state := (chunksExact 64 (paddedInput input)).foldl sha256Compress initialState
  state.toList.flatMap formatWord

/-! ### The padding -/

/-- The loop pushes as many zeros as are missing. -/
theorem pushZeros_eq (padded : List Byte) :
    pushZeros padded = padded ++ List.replicate ((120 - padded.length % 64) % 64) 0 := by
  fun_induction pushZeros padded with
  | case1 padded missing ih =>
    rw [ih, List.length_append, List.length_singleton, List.append_assoc, List.singleton_append,
      ← List.replicate_succ]
    congr 2
    omega
  | case2 padded done =>
    rw [show (120 - padded.length % 64) % 64 = 0 by omega, List.replicate_zero, List.append_nil]

theorem bitsOfBytes_toBeBytes (count n : Nat) :
    Fips180.bitsOfBytes (toBeBytes count n) = Fips180.bitsOf (8 * count) n := by
  induction count with
  | zero => rfl
  | succ count ih =>
    have high : Fips180.bitsOf 8 (BitVec.ofNat 8 (n / 2 ^ (8 * count))).toNat =
        Fips180.bitsOf 8 (n / 2 ^ (8 * count)) := by
      rw [BitVec.toNat_ofNat, Fips180.bitsOf_mod]
    rw [toBeBytes, Nat.mul_succ, Nat.add_comm, Fips180.bitsOf_add, ← ih, ← high]
    rfl

theorem bitsOfBytes_zeros (k : Nat) :
    Fips180.bitsOfBytes (List.replicate k 0) = List.replicate (8 * k) false := by
  induction k with
  | zero => rfl
  | succ k ih =>
    rw [List.replicate_succ, Nat.mul_succ, Nat.add_comm, List.replicate_add, ← ih]
    rfl

/-- The bytes that are compressed are the bits of the padded message. -/
theorem bitsOfBytes_paddedInput (input : List Byte) (fits : input.length < 2 ^ 61) :
    Fips180.bitsOfBytes (paddedInput input) = Fips180.pad (Fips180.bitsOfBytes input) := by
  have bitLen : (BitVec.ofNat 64 input.length * 8).toNat = 8 * input.length := by
    rw [BitVec.toNat_mul, BitVec.toNat_ofNat]
    change input.length % 2 ^ 64 * 8 % 2 ^ 64 = _
    omega
  have one : Fips180.bitsOfBytes [(0x80 : Byte)] = true :: List.replicate 7 false := by decide
  have zeros : 7 + 8 * ((120 - (input ++ [(0x80 : Byte)]).length % 64) % 64) =
      Fips180.zeros (8 * input.length) := by
    rw [Fips180.zeros_eq, List.length_append, List.length_singleton]
    omega
  rw [paddedInput, bitLen, pushZeros_eq, Fips180.bitsOfBytes_append, Fips180.bitsOfBytes_append,
    Fips180.bitsOfBytes_append, bitsOfBytes_toBeBytes, bitsOfBytes_zeros, one, Fips180.pad,
    Fips180.length_bitsOfBytes, ← zeros, List.replicate_add]
  simp only [List.append_assoc, List.cons_append]

/-! ### The words of a chunk -/

theorem rotateRight_eq (x : BitVec 32) {n : Nat} (inside : n < 32) :
    x.rotateRight n = Fips180.rotr n x := by
  rw [BitVec.rotateRight_def, Nat.mod_eq_of_lt inside]
  rfl

theorem numberOf_bitsOfBytes (bytes : List Byte) (read : Nat) :
    bytes.foldl (fun n byte => n * 256 + byte.toNat) read =
      read * 256 ^ bytes.length + Fips180.numberOf (Fips180.bitsOfBytes bytes) := by
  induction bytes generalizing read with
  | nil => simp [Fips180.bitsOfBytes, Fips180.numberOf]
  | cons byte bytes ih =>
    have first : Fips180.numberOf (Fips180.bitsOfBytes [byte]) = byte.toNat := by
      have value := Fips180.numberOf_bitsOf 8 byte.toNat
      rw [Nat.mod_eq_of_lt byte.isLt] at value
      rw [Fips180.bitsOfBytes, List.flatMap_singleton, value]
    rw [List.foldl_cons, ih, ← List.singleton_append, Fips180.bitsOfBytes_append,
      Fips180.numberOf_append, first, Fips180.length_bitsOfBytes, List.length_append,
      List.length_singleton, Nat.pow_mul, pow_add]
    ring

/-- The word of the block that the bits of the bytes have. -/
theorem blockWord_bytes (bytes : List Byte) (i t : Nat) :
    Fips180.blockWord (Fips180.bitsOfBytes bytes) i t =
      BitVec.ofNat 32 (((bytes.drop (64 * i + 4 * t)).take 4).foldl
        (fun n byte => n * 256 + byte.toNat) 0) := by
  rw [Fips180.blockWord, show 512 * i + 32 * t = 8 * (64 * i + 4 * t) by ring,
    Fips180.drop_bitsOfBytes, Fips180.take_bitsOfBytes _ 4, numberOf_bitsOfBytes, Nat.zero_mul,
    Nat.zero_add]

theorem take_four {α : Type} {xs : List α} {k : Nat} (inside : k + 4 ≤ xs.length) :
    (xs.drop k).take 4 =
      [xs.get ⟨k, by omega⟩, xs.get ⟨k + 1, by omega⟩, xs.get ⟨k + 2, by omega⟩,
        xs.get ⟨k + 3, by omega⟩] := by
  rw [List.drop_eq_getElem_cons (by omega), List.drop_eq_getElem_cons (by omega),
    List.drop_eq_getElem_cons (by omega), List.drop_eq_getElem_cons (by omega)]
  rfl

/-- The chunk `i` of the bytes. -/
def chunkAt (bytes : List Byte) (i : Fin (bytes.length / 64)) : Vector Byte 64 :=
  Vector.ofFn fun j => bytes.get ⟨64 * i.val + j.val, by omega⟩

theorem chunkWord_chunkAt (bytes : List Byte) (i : Fin (bytes.length / 64)) (t : Fin 16) :
    chunkWord (chunkAt bytes i) t =
      Fips180.blockWord (Fips180.bitsOfBytes bytes) i.val t.val := by
  rw [blockWord_bytes, take_four (by omega), chunkWord, fromBeBytes]
  simp only [chunkAt, Vector.getElem_ofFn]
  rfl

/-! ### The schedule -/

theorem loadWords_get (chunk : Vector Byte 64) {t : Nat} (inside : t < 16) :
    (loadWords chunk)[t] = chunkWord chunk ⟨t, inside⟩ := by
  refine Loops.foldl_holds
    (fun k (schedule : Vector (BitVec 32) 64) =>
      ∀ t (inside : t < 16), t < k → schedule[t] = chunkWord chunk ⟨t, inside⟩) _ ?_ ?_
    t inside inside
  · intro t inside none
    exact absurd none (Nat.not_lt_zero t)
  · intro index schedule before t inside reached
    rw [Vector.getElem_set]
    split
    next here =>
      subst here
      rfl
    next other => exact before t inside (by omega)

/-- The words that follow are those of the message schedule. -/
theorem expandWords_get {block : Nat → Fips180.Word} {words : Vector (BitVec 32) 64}
    (first : ∀ t (inside : t < 16), words[t] = block t) {t : Nat} (inside : t < 64) :
    (expandWords words)[t] = Fips180.schedule block t := by
  refine Loops.foldl_holds
    (fun k (schedule : Vector (BitVec 32) 64) =>
      ∀ t (inside : t < 64), t < 16 + k → schedule[t] = Fips180.schedule block t) _ ?_ ?_
    t inside inside
  · intro t inside early
    rw [first t early, Fips180.schedule, if_pos early]
  · intro i schedule before t inside reached
    rw [Vector.getElem_set]
    split
    next here =>
      subst here
      rw [before _ _ (by omega), before _ _ (by omega), before _ _ (by omega),
        before _ _ (by omega), Fips180.schedule.eq_def block (i.val + 16), if_neg (by omega)]
      simp only [rotateRight_eq _ (by decide : 7 < 32), rotateRight_eq _ (by decide : 18 < 32),
        rotateRight_eq _ (by decide : 17 < 32), rotateRight_eq _ (by decide : 19 < 32)]
      rw [← Fips180.smallSigma0, ← Fips180.smallSigma1]
      ac_rfl
    next other => exact before t inside (by omega)

/-! ### The compression -/

/-- The table has the constants of the rounds. -/
theorem roundConstant_eq (t : Fin 64) : Fips180.roundConstant t.val = roundK[t] := by
  -- the whole part of the cube root is at most 6
  have powers : ∀ t : Fin 64, ∃ whole < 7,
      (whole * 2 ^ 32 + roundK[t].toNat) ^ 3 ≤ Fips180.firstPrimes.getD t.val 0 * 2 ^ 96 ∧
      Fips180.firstPrimes.getD t.val 0 * 2 ^ 96 <
        (whole * 2 ^ 32 + roundK[t].toNat + 1) ^ 3 := by decide +kernel
  obtain ⟨whole, _, low, high⟩ := powers t
  rw [Fips180.roundConstant_eq (Fips180.nth_prime t.isLt) low high, Fips180.ofNat_whole]

/-- The state as a hash value. -/
def vars (v : Vector (BitVec 32) 8) : Fips180.Vars :=
  ⟨v[0], v[1], v[2], v[3], v[4], v[5], v[6], v[7]⟩

theorem vars_compressRound {words : Nat → Fips180.Word} {schedule : Vector (BitVec 32) 64}
    (same : ∀ t (inside : t < 64), schedule[t] = words t) (v : Vector (BitVec 32) 8)
    (index : Fin 64) :
    vars (compressRound schedule v index) =
      Fips180.round Fips180.roundConstant words (vars v) index.val := by
  rw [Fips180.round, roundConstant_eq, ← same index.val index.isLt]
  simp only [compressRound, rotateRight_eq _ (by decide : 6 < 32),
    rotateRight_eq _ (by decide : 11 < 32), rotateRight_eq _ (by decide : 25 < 32),
    rotateRight_eq _ (by decide : 2 < 32), rotateRight_eq _ (by decide : 13 < 32),
    rotateRight_eq _ (by decide : 22 < 32)]
  rfl

/-- The rounds over a schedule. -/
theorem vars_rounds {words : Nat → Fips180.Word} {schedule : Vector (BitVec 32) 64}
    (same : ∀ t (inside : t < 64), schedule[t] = words t) (state : Vector (BitVec 32) 8) :
    vars (Fin.foldl 64 (compressRound schedule) state) =
      (List.range 64).foldl (Fips180.round Fips180.roundConstant words) (vars state) := by
  refine Loops.foldl_holds (fun k v =>
    vars v = (List.range k).foldl (Fips180.round Fips180.roundConstant words) (vars state)) _ ?_ ?_
  · rfl
  · intro index v before
    rw [List.range_succ, List.foldl_append, ← before, vars_compressRound same]
    rfl

theorem vars_zipWith (state v : Vector (BitVec 32) 8) :
    vars (Vector.zipWith (· + ·) state v) =
      ⟨v[0] + state[0], v[1] + state[1], v[2] + state[2], v[3] + state[3], v[4] + state[4],
        v[5] + state[5], v[6] + state[6], v[7] + state[7]⟩ := by
  simp only [vars, Vector.getElem_zipWith, BitVec.add_comm]

/-- A chunk is compressed as the block of its bits. -/
theorem vars_sha256Compress (bytes : List Byte) (state : Vector (BitVec 32) 8)
    (i : Fin (bytes.length / 64)) :
    vars (sha256Compress state (chunkAt bytes i)) =
      Fips180.compress Fips180.roundConstant (vars state)
        (Fips180.blockWord (Fips180.bitsOfBytes bytes) i.val) := by
  have first (t : Nat) (inside : t < 16) : (loadWords (chunkAt bytes i))[t] =
      Fips180.blockWord (Fips180.bitsOfBytes bytes) i.val t := by
    rw [loadWords_get _ inside, chunkWord_chunkAt]
  have rounds := vars_rounds (fun _ inside => expandWords_get first inside) state
  rw [sha256Compress, vars_zipWith, Fips180.compress, ← rounds]
  rfl

/-- The chunks, one after the other. -/
theorem vars_foldl (bytes : List Byte) (state : Vector (BitVec 32) 8) :
    vars ((chunksExact 64 bytes).foldl sha256Compress state) =
      Fips180.hashFrom Fips180.roundConstant (vars state) (Fips180.bitsOfBytes bytes) := by
  have blocks : (Fips180.bitsOfBytes bytes).length / 512 = bytes.length / 64 := by
    rw [Fips180.length_bitsOfBytes]
    omega
  have chunks : chunksExact 64 bytes = (List.finRange _).map (chunkAt bytes) := rfl
  rw [Fips180.hashFrom, blocks, chunks, ← List.map_coe_finRange_eq_range, List.foldl_map,
    List.foldl_map]
  exact (List.foldl_hom vars fun state i => (vars_sha256Compress bytes state i).symm).symm

theorem vars_initialState : vars initialState = Fips180.initialHash := by
  -- the whole part of the square root is at most 4
  have powers : ∀ j : Fin 8, ∃ whole < 5,
      (whole * 2 ^ 32 + initialState[j].toNat) ^ 2 ≤
        Fips180.firstPrimes.getD j.val 0 * 2 ^ 64 ∧
      Fips180.firstPrimes.getD j.val 0 * 2 ^ 64 <
        (whole * 2 ^ 32 + initialState[j].toNat + 1) ^ 2 := by decide
  have word (j : Fin 8) : Fips180.initialWord j.val = initialState[j] := by
    obtain ⟨whole, _, low, high⟩ := powers j
    rw [Fips180.initialWord_eq (Fips180.nth_prime (by omega)) low high, Fips180.ofNat_whole]
  exact Fips180.Vars.ext (word 0).symm (word 1).symm (word 2).symm (word 3).symm (word 4).symm
    (word 5).symm (word 6).symm (word 7).symm

/-! ### The text -/

theorem formatWord_eq (word : BitVec 32) :
    formatWord word = Fips180.hex (Fips180.bitsOf 32 word.toNat) :=
  (Fips180.hex_bitsOf (by decide : 0 < 8) word.isLt).symm

theorem flatMap_formatWord (state : Vector (BitVec 32) 8) :
    state.toList.flatMap formatWord = Fips180.hex (vars state).bits := by
  have words : state.toList = [state[0], state[1], state[2], state[3], state[4], state[5], state[6],
      state[7]] := by
    match state with
    | ⟨⟨[_, _, _, _, _, _, _, _]⟩, _⟩ => rfl
  rw [Fips180.Vars.bits, Fips180.hex_flatMap, words, funext formatWord_eq]
  rfl

/-- `sha256_hex` ends with the digest of FIPS 180-4 in lowercase hexadecimal digits. -/
theorem sha256Hex_fips (input : List Byte) (fits : input.length < 2 ^ 61) :
    sha256Hex input = Fips180.hex (Fips180.digest (Fips180.bitsOfBytes input)) := by
  rw [sha256Hex, flatMap_formatWord, vars_foldl, vars_initialState,
    bitsOfBytes_paddedInput input fits]
  rfl

/-- The first vector of the standard. -/
theorem sha256Hex_fips_abc :
    Fips180.hex (Fips180.digest (Fips180.bitsOfBytes [0x61, 0x62, 0x63])) =
      "ba7816bf8f01cfea414140de5dae2223b00361a396177a9cb410ff61f20015ad".toList := by
  rw [← sha256Hex_fips [0x61, 0x62, 0x63] (by decide)]
  decide +kernel

end AlphaPipeline.Sha256

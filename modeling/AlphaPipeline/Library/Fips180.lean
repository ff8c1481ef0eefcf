import Mathlib.Tactic
import Mathlib.Analysis.SpecialFunctions.Pow.Real
import Mathlib.NumberTheory.PrimeCounting

/-!
# SHA-256 as FIPS 180-4 defines it

A message is a string of bits. It is padded to blocks of 512 bits, each block is read as sixteen
words and compressed into the hash value. The constants are what the standard says they are: the
first 32 bits of the fractional parts of the roots of the first primes.
-/
namespace Fips180

abbrev Word := BitVec 32

/-! ### Bit strings -/

/-- The last `width` binary digits of a number, the most significant first. -/
def bitsOf : Nat → Nat → List Bool
  | 0, _ => []
  | width + 1, n => n.testBit width :: bitsOf width n

/-- The number that a bit string writes. -/
def numberOf (bits : List Bool) : Nat := bits.foldl (fun n bit => 2 * n + bit.toNat) 0

/-- A string of bytes as a string of bits. -/
def bitsOfBytes (bytes : List (BitVec 8)) : List Bool :=
  bytes.flatMap fun byte => bitsOf 8 byte.toNat

@[simp] theorem length_bitsOf (width n : Nat) : (bitsOf width n).length = width := by
  induction width with
  | zero => rfl
  | succ width ih => rw [bitsOf, List.length_cons, ih]

theorem bitsOf_add (high low n : Nat) :
    bitsOf (high + low) n = bitsOf high (n / 2 ^ low) ++ bitsOf low n := by
  induction high with
  | zero => rw [Nat.zero_add, bitsOf, List.nil_append]
  | succ high ih =>
    rw [Nat.succ_add_eq_add_succ, Nat.add_succ, bitsOf, ih, bitsOf, List.cons_append,
      Nat.testBit_div_two_pow]

/-- Only the last digits count. -/
theorem bitsOf_mod (width n : Nat) : bitsOf width (n % 2 ^ width) = bitsOf width n := by
  have bits (w : Nat) (le : w ≤ width) : bitsOf w (n % 2 ^ width) = bitsOf w n := by
    induction w with
    | zero => rfl
    | succ w ih => rw [bitsOf, bitsOf, ih (Nat.le_of_succ_le le), Nat.testBit_mod_two_pow,
        decide_eq_true (Nat.lt_of_succ_le le), Bool.true_and]
  exact bits width le_rfl

theorem numberOf_foldl (bits : List Bool) (read : Nat) :
    bits.foldl (fun n bit => 2 * n + bit.toNat) read = read * 2 ^ bits.length + numberOf bits := by
  induction bits generalizing read with
  | nil => simp [numberOf]
  | cons bit bits ih =>
    rw [numberOf, List.foldl_cons, List.foldl_cons, ih, ih (2 * 0 + bit.toNat), List.length_cons]
    ring

theorem numberOf_append (front back : List Bool) :
    numberOf (front ++ back) = numberOf front * 2 ^ back.length + numberOf back := by
  rw [numberOf, List.foldl_append, numberOf_foldl]
  rfl

/-- Written digits are read back. -/
theorem numberOf_bitsOf (width n : Nat) : numberOf (bitsOf width n) = n % 2 ^ width := by
  induction width with
  | zero => rw [bitsOf, pow_zero, Nat.mod_one]; rfl
  | succ width ih =>
    have leading : numberOf [n.testBit width] = n / 2 ^ width % 2 := by
      rw [← Nat.toNat_testBit, numberOf, List.foldl_cons, List.foldl_nil, Nat.mul_zero,
        Nat.zero_add]
    rw [bitsOf, ← List.singleton_append, numberOf_append, ih, length_bitsOf, leading,
      Nat.mod_pow_succ, Nat.add_comm, Nat.mul_comm]

theorem bitsOfBytes_append (front back : List (BitVec 8)) :
    bitsOfBytes (front ++ back) = bitsOfBytes front ++ bitsOfBytes back :=
  List.flatMap_append

@[simp] theorem length_bitsOfBytes (bytes : List (BitVec 8)) :
    (bitsOfBytes bytes).length = 8 * bytes.length := by
  induction bytes with
  | nil => rfl
  | cons byte bytes ih =>
    rw [← List.singleton_append, bitsOfBytes_append, List.length_append, ih, List.length_append,
      Nat.mul_add]
    rfl

theorem drop_bitsOfBytes (bytes : List (BitVec 8)) (k : Nat) :
    (bitsOfBytes bytes).drop (8 * k) = bitsOfBytes (bytes.drop k) := by
  rcases Nat.le_total k bytes.length with inside | past
  · have cut : bitsOfBytes bytes = bitsOfBytes (bytes.take k) ++ bitsOfBytes (bytes.drop k) := by
      rw [← bitsOfBytes_append, List.take_append_drop]
    have length : (bitsOfBytes (bytes.take k)).length = 8 * k := by
      rw [length_bitsOfBytes, List.length_take, Nat.min_eq_left inside]
    rw [cut, ← length, List.drop_left]
  · rw [List.drop_of_length_le past, List.drop_of_length_le (by rw [length_bitsOfBytes]; omega)]
    rfl

theorem take_bitsOfBytes (bytes : List (BitVec 8)) (k : Nat) :
    (bitsOfBytes bytes).take (8 * k) = bitsOfBytes (bytes.take k) := by
  rcases Nat.le_total k bytes.length with inside | past
  · have cut : bitsOfBytes bytes = bitsOfBytes (bytes.take k) ++ bitsOfBytes (bytes.drop k) := by
      rw [← bitsOfBytes_append, List.take_append_drop]
    have length : (bitsOfBytes (bytes.take k)).length = 8 * k := by
      rw [length_bitsOfBytes, List.length_take, Nat.min_eq_left inside]
    rw [cut, ← length, List.take_left]
  · rw [List.take_of_length_le past, List.take_of_length_le (by rw [length_bitsOfBytes]; omega)]

/-! ### Functions and constants -/

/-- The rotation to the right. -/
def rotr (n : Nat) (x : Word) : Word := x >>> n ||| x <<< (32 - n)

def ch (x y z : Word) : Word := (x &&& y) ^^^ (~~~x &&& z)

def maj (x y z : Word) : Word := (x &&& y) ^^^ (x &&& z) ^^^ (y &&& z)

def bigSigma0 (x : Word) : Word := rotr 2 x ^^^ rotr 13 x ^^^ rotr 22 x

def bigSigma1 (x : Word) : Word := rotr 6 x ^^^ rotr 11 x ^^^ rotr 25 x

def smallSigma0 (x : Word) : Word := rotr 7 x ^^^ rotr 18 x ^^^ x >>> 3

def smallSigma1 (x : Word) : Word := rotr 17 x ^^^ rotr 19 x ^^^ x >>> 10

/-- The first 32 bits of the fractional part of a number. -/
noncomputable def fractionBits (x : ℝ) : Word := BitVec.ofNat 32 ⌊Int.fract x * 2 ^ 32⌋₊

/-- The constants of the rounds, from the cube roots of the first primes. -/
noncomputable def roundConstant (t : Nat) : Word :=
  fractionBits ((Nat.nth Nat.Prime t : ℝ) ^ (1 / 3 : ℝ))

/-- A hash value, or the working variables of a round. -/
@[ext]
structure Vars where
  a : Word
  b : Word
  c : Word
  d : Word
  e : Word
  f : Word
  g : Word
  h : Word

/-- The initial hash value is that of the square roots of the first primes. -/
noncomputable def initialWord (j : Nat) : Word := fractionBits √(Nat.nth Nat.Prime j : ℝ)

noncomputable def initialHash : Vars :=
  ⟨initialWord 0, initialWord 1, initialWord 2, initialWord 3, initialWord 4, initialWord 5,
    initialWord 6, initialWord 7⟩

/-! ### The hash -/

theorem exists_zeros (length : Nat) : ∃ k, (length + 1 + k) % 512 = 448 :=
  ⟨(959 - length % 512) % 512, by omega⟩

/-- The smallest number of zeros that solves the equation of the padding. -/
def zeros (length : Nat) : Nat := Nat.find (exists_zeros length)

/-- The message with a one, as few zeros as fit, and its length as 64 bits. -/
def pad (message : List Bool) : List Bool :=
  message ++ true :: (List.replicate (zeros message.length) false ++ bitsOf 64 message.length)

theorem zeros_eq (length : Nat) : zeros length = (959 - length % 512) % 512 := by
  refine (Nat.find_eq_iff _).mpr ⟨by omega, fun k smaller solves => ?_⟩
  omega

/-- The word `t` of block `i`. -/
def blockWord (padded : List Bool) (i t : Nat) : Word :=
  BitVec.ofNat 32 (numberOf ((padded.drop (512 * i + 32 * t)).take 32))

/-- The message schedule of a block. -/
def schedule (block : Nat → Word) (t : Nat) : Word :=
  if t < 16 then block t
  else
    smallSigma1 (schedule block (t - 2)) + schedule block (t - 7) +
      smallSigma0 (schedule block (t - 15)) + schedule block (t - 16)
termination_by t

section Compression

variable (constant : Nat → Word)

/-- A round with its constant and its word of the schedule. -/
def round (words : Nat → Word) (v : Vars) (t : Nat) : Vars :=
  let t1 := v.h + bigSigma1 v.e + ch v.e v.f v.g + constant t + words t
  let t2 := bigSigma0 v.a + maj v.a v.b v.c
  ⟨t1 + t2, v.a, v.b, v.c, v.d + t1, v.e, v.f, v.g⟩

/-- The hash value after one more block. -/
def compress (hash : Vars) (block : Nat → Word) : Vars :=
  let v := (List.range 64).foldl (round constant (schedule block)) hash
  ⟨v.a + hash.a, v.b + hash.b, v.c + hash.c, v.d + hash.d, v.e + hash.e, v.f + hash.f,
    v.g + hash.g, v.h + hash.h⟩

/-- The hash value of a padded message, from a start value. -/
def hashFrom (start : Vars) (padded : List Bool) : Vars :=
  (List.range (padded.length / 512)).foldl
    (fun hash i => compress constant hash (blockWord padded i)) start

end Compression

/-- The eight words as one string of bits. -/
def Vars.bits (v : Vars) : List Bool :=
  [v.a, v.b, v.c, v.d, v.e, v.f, v.g, v.h].flatMap fun word => bitsOf 32 word.toNat

/-- The message digest. -/
noncomputable def digest (message : List Bool) : List Bool :=
  (hashFrom roundConstant initialHash (pad message)).bits

/-- A string of bits in hexadecimal, four bits a digit. -/
def hex : List Bool → List Char
  | b3 :: b2 :: b1 :: b0 :: bits => Nat.digitChar (numberOf [b3, b2, b1, b0]) :: hex bits
  | _ => []

/-! ### Hexadecimal texts -/

theorem hex_append (k : Nat) {front : List Bool} (whole : front.length = 4 * k) (back : List Bool) :
    hex (front ++ back) = hex front ++ hex back := by
  induction k generalizing front with
  | zero => rw [List.eq_nil_of_length_eq_zero whole]; rfl
  | succ k ih =>
    match front, whole with
    | b3 :: b2 :: b1 :: b0 :: front, whole =>
      have rest : front.length = 4 * k := by
        simp only [List.length_cons] at whole
        omega
      simp only [List.cons_append, hex, ih rest]

/-- The words of a string are written one after the other. -/
theorem hex_flatMap (words : List Word) :
    hex (words.flatMap fun word => bitsOf 32 word.toNat) =
      words.flatMap fun word => hex (bitsOf 32 word.toNat) := by
  induction words with
  | nil => rfl
  | cons word words ih =>
    rw [List.flatMap_cons, List.flatMap_cons, hex_append 8 (length_bitsOf 32 _), ih]

/-- One digit more: the numeral in a fixed width ends in the last digit. -/
theorem padded_digits {width n : Nat} (positive : 0 < width) :
    List.replicate (width + 1 - (Nat.toDigits 16 n).length) '0' ++ Nat.toDigits 16 n =
      List.replicate (width - (Nat.toDigits 16 (n / 16)).length) '0' ++ Nat.toDigits 16 (n / 16) ++
        [Nat.digitChar (n % 16)] := by
  rcases Nat.lt_or_ge n 16 with small | large
  · rw [Nat.div_eq_of_lt small, Nat.mod_eq_of_lt small, Nat.toDigits_of_lt_base small,
      Nat.toDigits_zero, List.length_singleton, List.length_singleton, Nat.add_sub_cancel]
    congr 1
    rw [← List.replicate_succ', Nat.sub_add_cancel positive]
  · rw [Nat.toDigits_of_base_le (by decide) large, List.length_append, List.length_singleton,
      Nat.add_sub_add_right, List.append_assoc]

/-- The bits of a number that fits the width are its numeral with zeros in front. -/
theorem hex_bitsOf {width n : Nat} (positive : 0 < width) (fits : n < 16 ^ width) :
    hex (bitsOf (4 * width) n) =
      List.replicate (width - (Nat.toDigits 16 n).length) '0' ++ Nat.toDigits 16 n := by
  have digit (n : Nat) : hex (bitsOf 4 n) = [Nat.digitChar (n % 16)] := by
    have value := numberOf_bitsOf 4 n
    exact congrArg (fun d => [Nat.digitChar d]) value
  induction width, positive using Nat.le_induction generalizing n with
  | base =>
    have small : n < 16 := fits
    rw [Nat.toDigits_of_lt_base small, Nat.mul_one, digit, Nat.mod_eq_of_lt small]
    rfl
  | succ width positive ih =>
    have high : n / 16 < 16 ^ width := Nat.div_lt_of_lt_mul (by rw [← Nat.pow_succ']; exact fits)
    rw [Nat.mul_succ, bitsOf_add, hex_append width (length_bitsOf _ _), digit,
      padded_digits positive, ← ih high]
    rfl

/-! ### What the constants are -/

/-- A number between two neighbouring multiples of `2 ^ -32` has the bits of the lower one. -/
theorem fractionBits_eq {x : ℝ} {n : Nat} (low : n ≤ x * 2 ^ 32) (high : x * 2 ^ 32 < n + 1) :
    fractionBits x = BitVec.ofNat 32 n := by
  have floor : ⌊x * 2 ^ 32⌋ = n :=
    Int.floor_eq_iff.mpr ⟨by exact_mod_cast low, by exact_mod_cast high⟩
  have whole : Int.fract x * 2 ^ 32 = x * 2 ^ 32 - (⌊x⌋ * 2 ^ 32 : Int) := by
    rw [← Int.self_sub_floor]
    push_cast
    ring
  have bits : (⌊Int.fract x * 2 ^ 32⌋₊ : Int) = n - ⌊x⌋ * 2 ^ 32 := by
    rw [← Int.floor_toNat, Int.toNat_of_nonneg, whole, Int.floor_sub_intCast, floor]
    exact Int.floor_nonneg.mpr (mul_nonneg (Int.fract_nonneg x) (by positivity))
  have same : (⌊Int.fract x * 2 ^ 32⌋₊ : Int) % 2 ^ 32 = n % 2 ^ 32 := by
    rw [bits, Int.sub_mul_emod_self_right]
  apply BitVec.eq_of_toNat_eq
  rw [fractionBits, BitVec.toNat_ofNat, BitVec.toNat_ofNat]
  exact_mod_cast same

/-- The bits of a root, from the powers of the neighbours of its multiple. -/
theorem fractionBits_root {x : ℝ} {k p n : Nat} (positive : k ≠ 0) (nonneg : 0 ≤ x)
    (root : x ^ k = p) (low : n ^ k ≤ p * 2 ^ (32 * k)) (high : p * 2 ^ (32 * k) < (n + 1) ^ k) :
    fractionBits x = BitVec.ofNat 32 n := by
  have scaled : (x * 2 ^ 32) ^ k = ((p * 2 ^ (32 * k) : Nat) : ℝ) := by
    rw [mul_pow, root, ← pow_mul]
    push_cast
    rfl
  have nonneg' : 0 ≤ x * 2 ^ 32 := by positivity
  apply fractionBits_eq
  · rw [← pow_le_pow_iff_left₀ (Nat.cast_nonneg n) nonneg' positive, scaled]
    exact_mod_cast low
  · rw [← pow_lt_pow_iff_left₀ nonneg' (by positivity) positive, scaled]
    exact_mod_cast high

theorem roundConstant_eq {t p n : Nat} (prime : Nat.nth Nat.Prime t = p)
    (low : n ^ 3 ≤ p * 2 ^ 96) (high : p * 2 ^ 96 < (n + 1) ^ 3) :
    roundConstant t = BitVec.ofNat 32 n := by
  have root : ((p : ℝ) ^ (1 / 3 : ℝ)) ^ 3 = p := by
    rw [← Real.rpow_natCast, ← Real.rpow_mul (Nat.cast_nonneg p)]
    norm_num
  rw [roundConstant, prime]
  exact fractionBits_root (by decide) (by positivity) root low high

theorem initialWord_eq {j p n : Nat} (prime : Nat.nth Nat.Prime j = p)
    (low : n ^ 2 ≤ p * 2 ^ 64) (high : p * 2 ^ 64 < (n + 1) ^ 2) :
    initialWord j = BitVec.ofNat 32 n := by
  have root : √(p : ℝ) ^ 2 = p := Real.sq_sqrt (Nat.cast_nonneg p)
  rw [initialWord, prime]
  exact fractionBits_root (by decide) (Real.sqrt_nonneg _) root low high

/-- The whole part of a root is cut off. -/
theorem ofNat_whole (whole : Nat) (word : Word) :
    BitVec.ofNat 32 (whole * 2 ^ 32 + word.toNat) = word := by
  apply BitVec.eq_of_toNat_eq
  rw [BitVec.toNat_ofNat, Nat.mul_comm, Nat.mul_add_mod, Nat.mod_eq_of_lt word.isLt]

/-- The numbers below a bound that satisfy a predicate are the first ones that do. -/
theorem nth_of_filter (p : Nat → Prop) [DecidablePred p] (bound : Nat) {t n : Nat}
    (found : ((List.range bound).filter p)[t]? = some n) : Nat.nth p t = n := by
  have counted (bound : Nat) : ((List.range bound).filter p).length = Nat.count p bound := by
    induction bound with
    | zero => rfl
    | succ bound ih =>
      rw [List.range_succ, List.filter_append, List.length_append, ih, Nat.count_succ,
        List.filter_singleton]
      split <;> simp_all
  induction bound with
  | zero => cases found
  | succ bound ih =>
    rw [List.range_succ, List.filter_append, List.getElem?_append] at found
    split at found
    · exact ih found
    next late =>
      rw [counted] at found late
      by_cases holds : p bound
      · rw [List.filter_singleton, decide_eq_true holds] at found
        have here : t - Nat.count p bound = 0 := by
          by_contra other
          rw [List.getElem?_eq_none (by simp; omega)] at found
          cases found
        rw [here] at found
        obtain rfl : bound = n := Option.some.inj found
        rw [show t = Nat.count p bound by omega]
        exact Nat.nth_count holds
      · rw [List.filter_singleton, decide_eq_false holds] at found
        cases found

def firstPrimes : List Nat :=
  [2, 3, 5, 7, 11, 13, 17, 19, 23, 29, 31, 37, 41, 43, 47, 53, 59, 61, 67, 71, 73, 79, 83, 89, 97,
    101, 103, 107, 109, 113, 127, 131, 137, 139, 149, 151, 157, 163, 167, 173, 179, 181, 191, 193,
    197, 199, 211, 223, 227, 229, 233, 239, 241, 251, 257, 263, 269, 271, 277, 281, 283, 293, 307,
    311]

/-- Trial division, for numbers below the square of 18. -/
def noDivisor (n : Nat) : Bool :=
  2 ≤ n && (List.range 18).all fun m => m < 2 || n < m * m || n % m != 0

theorem noDivisor_eq {n : Nat} (small : n < 18 * 18) : noDivisor n = decide n.Prime := by
  have divides : noDivisor n = true ↔ n.Prime := by
    rw [Nat.prime_def_le_sqrt]
    simp only [noDivisor, Bool.and_eq_true, decide_eq_true_eq, List.all_eq_true, List.mem_range,
      Bool.or_eq_true, bne_iff_ne]
    refine and_congr_right fun _ => ⟨fun none m large root divisor => ?_, fun none m _ => ?_⟩
    · have square := Nat.le_sqrt.mp root
      have below : m < 18 := by nlinarith
      have rest := Nat.mod_eq_zero_of_dvd divisor
      rcases none m below with (tiny | above) | other
      · omega
      · omega
      · exact other rest
    · rcases Nat.lt_or_ge m 2 with tiny | large
      · exact Or.inl (Or.inl tiny)
      rcases Nat.lt_or_ge n (m * m) with above | square
      · exact Or.inl (Or.inr above)
      · exact Or.inr fun rest => none m large (Nat.le_sqrt.mpr square) (Nat.dvd_of_mod_eq_zero rest)
  rw [Bool.eq_iff_iff, divides, decide_eq_true_eq]

theorem nth_prime {t : Nat} (inside : t < 64) : Nat.nth Nat.Prime t = firstPrimes.getD t 0 := by
  have primes : (List.range 312).filter (fun n => decide n.Prime) = firstPrimes := by
    have tested : ∀ n ∈ List.range 312, noDivisor n = decide n.Prime := fun n member =>
      noDivisor_eq (Nat.lt_trans (List.mem_range.mp member) (by decide))
    rw [← List.filter_congr tested]
    decide +kernel
  have short : t < firstPrimes.length := inside
  have found : firstPrimes[t]? = some (firstPrimes.getD t 0) := by
    rw [List.getD_eq_getElem _ _ short, List.getElem?_eq_getElem short]
  apply nth_of_filter Nat.Prime 312
  rw [primes, found]

end Fips180

/-
# The hash of a key is the published one

MurmurHash3 is published for numbers below 2^32 and for an array of bytes that is read by index: a
loop over the whole words, a switch over the bytes left over in which every case runs on into the
next, and a last mixing.  The hash of this library takes its bytes off a list and its words off the
machine.  Both give the same number.

What the file settles:

* `Published.hash`: the published function, every sum and product of it taken modulo 2^32;
* `toNat_word`, `toNat_mix`, `toNat_avalanche`: the steps of the one in the numbers of the other;
* `toNat_body`: the walk along the list against the loop and the switch;
* `keys_are_hashed_as_published`: the hash of every byte string, and the lane of every key.
-/
import EventSourcing.Digest.Murmur3
import Mathlib.Data.Nat.Bitwise
import Mathlib.Data.Nat.Digits.Lemmas

namespace EventSourcing.Murmur3

open Word (rotateLeft)

/-! ## 1. The published function -/

namespace Published

/-- Numbers are kept below this. -/
def bound : Nat := Nat.pow 2 32

def times (a b : Nat) : Nat := a * b % bound

def plus (a b : Nat) : Nat := (a + b) % bound

/-- The bits of a number turned round to the left. -/
def rotated (x r : Nat) : Nat := (x <<< r) % bound ||| x >>> (32 - r)

/-- The byte at an index. -/
def byteAt (data : List UInt8) (i : Nat) : Nat := (data.getD i 0).toNat

/-- The `i`-th whole word, its first byte the least significant. -/
def block (data : List UInt8) (i : Nat) : Nat :=
  byteAt data (4 * i) + byteAt data (4 * i + 1) * Nat.pow 2 8 +
    byteAt data (4 * i + 2) * Nat.pow 2 16 +
    byteAt data (4 * i + 3) * Nat.pow 2 24

def scrambled (k : Nat) : Nat := times (rotated (times k 0xcc9e2d51) 15) 0x1b873593

/-- One round of the loop. -/
def round (h k : Nat) : Nat := plus (times (rotated (h ^^^ scrambled k) 13) 5) 0xe6546b64

/-- The loop over the whole words. -/
def rounds (data : List UInt8) (h : Nat) : Nat :=
  (List.range (data.length / 4)).foldl (fun h i => round h (block data i)) h

/-- The switch over the number of bytes left over: a case takes its byte in and runs on into the
case below it, the last one mixes the word into the hash. -/
def switch (left : Nat → Nat) (h : Nat) : (case k : Nat) → Nat
  | 0, _ => h
  | 1, k => h ^^^ scrambled (k ^^^ left 0)
  | n + 2, k => switch left h (n + 1) (k ^^^ left (n + 1) <<< (8 * (n + 1)))

def finished (h : Nat) : Nat :=
  let h := times (h ^^^ h >>> 16) 0x85ebca6b
  let h := times (h ^^^ h >>> 13) 0xc2b2ae35
  h ^^^ h >>> 16

/-- The bytes after the whole words. -/
def left (data : List UInt8) (i : Nat) : Nat := byteAt data (4 * (data.length / 4) + i)

/-- The published hash of the bytes under a seed. -/
def hash (data : List UInt8) (seed : Nat) : Nat :=
  finished (switch (left data) (rounds data seed) (data.length % 4) 0 ^^^ data.length % bound)

end Published

open Published

/-! ## 2. Words as numbers -/

theorem toNat_mul (a b : UInt32) : (a * b).toNat = times a.toNat b.toNat := UInt32.toNat_mul a b

theorem toNat_add (a b : UInt32) : (a + b).toNat = plus a.toNat b.toNat := UInt32.toNat_add a b

theorem toNat_rotateLeft (w k : UInt32) (pos : 0 < k.toNat) (lt : k.toNat < 32) :
    (rotateLeft w k).toNat = rotated w.toNat k.toNat := by
  have hback : (32 - k).toNat = 32 - k.toNat :=
    UInt32.toNat_sub_of_le _ _ (UInt32.le_iff_toNat_le.2 (Nat.le_of_lt lt))
  rw [rotateLeft, UInt32.toNat_or, UInt32.toNat_shiftLeft, UInt32.toNat_shiftRight, hback,
    Nat.mod_eq_of_lt lt, Nat.mod_eq_of_lt (show 32 - k.toNat < 32 by omega)]
  rfl

theorem toNat_scramble (k : UInt32) : (scramble k).toNat = scrambled k.toNat := by
  rw [scramble, toNat_mul, toNat_rotateLeft _ _ (by decide) (by decide), toNat_mul]
  rfl

theorem toNat_mix (h k : UInt32) : (mix h k).toNat = round h.toNat k.toNat := by
  rw [mix, toNat_add, toNat_mul, toNat_rotateLeft _ _ (by decide) (by decide), UInt32.toNat_xor,
    toNat_scramble]
  rfl

theorem toNat_avalanche (h : UInt32) : (avalanche h).toNat = finished h.toNat := by
  simp only [avalanche, finished, UInt32.toNat_xor, UInt32.toNat_shiftRight, toNat_mul]
  rfl

/-! ## 3. Bytes as digits -/

/-- A byte put below a number is its last digit. -/
theorem shiftLeft_xor_byte (x : Nat) (b : UInt8) : x <<< 8 ^^^ b.toNat = b.toNat + 256 * x := by
  have digit : b.toNat < 2 ^ 8 := b.toNat_lt
  rw [Nat.add_comm, Nat.shiftLeft_eq, Nat.mul_comm x]
  apply Nat.eq_of_testBit_eq
  intro i
  rw [Nat.testBit_xor, Nat.testBit_two_pow_mul_add x digit, Nat.testBit_two_pow_mul]
  split
  · simp [Nat.not_le_of_lt ‹i < 8›]
  · have high : b.toNat.testBit i = false :=
      Nat.testBit_lt_two_pow
        (Nat.lt_of_lt_of_le digit (Nat.pow_le_pow_right (by omega) (Nat.le_of_not_lt ‹_›)))
    simp [high, Nat.le_of_not_lt ‹¬ i < 8›]

/-- A word of at most four bytes has them for digits, the first byte last. -/
theorem toNat_word {l : List UInt8} (short : l.length ≤ 4) :
    (word l).toNat = Nat.ofDigits 256 (l.map UInt8.toNat) := by
  induction l with
  | nil => rfl
  | cons b rest ih =>
    have hlength : rest.length ≤ 3 := Nat.le_of_succ_le_succ short
    have fits : Nat.ofDigits 256 (rest.map UInt8.toNat) < 256 ^ 3 := by
      refine Nat.lt_of_lt_of_le (Nat.ofDigits_lt_base_pow_length (by decide) ?_)
        (Nat.pow_le_pow_right (by decide) ?_)
      · simpa using fun b _ => b.toNat_lt
      · simpa using hlength
    have shifted : (word rest <<< 8).toNat = 2 ^ 8 * Nat.ofDigits 256 (rest.map UInt8.toNat) := by
      have small : 2 ^ 8 * Nat.ofDigits 256 (rest.map UInt8.toNat) < 2 ^ 32 := by omega
      rw [UInt32.toNat_shiftLeft, ih (by omega), Nat.shiftLeft_eq, Nat.mul_comm]
      exact Nat.mod_eq_of_lt small
    rw [word, UInt32.toNat_or, shifted, UInt8.toNat_toUInt32, Nat.lor_comm,
      ← Nat.two_pow_add_eq_or_of_lt b.toNat_lt, Nat.add_comm, List.map_cons, Nat.ofDigits_cons]

theorem toNat_word_eq_block (b₀ b₁ b₂ b₃ : UInt8) (rest : List UInt8) :
    (word [b₀, b₁, b₂, b₃]).toNat = block (b₀ :: b₁ :: b₂ :: b₃ :: rest) 0 := by
  rw [toNat_word (by simp)]
  simp [Nat.ofDigits_cons, block, byteAt]
  omega

/-- Running through the cases puts the bytes left over together to the number that has them for
digits. -/
theorem switch_tail (h : Nat) {tail : List UInt8} (short : tail.length < 4) (nonempty : tail ≠ []) :
    switch (byteAt tail) h tail.length 0 =
      h ^^^ scrambled (Nat.ofDigits 256 (tail.map UInt8.toNat)) := by
  obtain _ | ⟨b₀, _ | ⟨b₁, _ | ⟨b₂, _ | ⟨b₃, rest⟩⟩⟩⟩ := tail
  case nil => exact absurd rfl nonempty
  case cons.nil => simp [switch, byteAt]
  case cons.cons.nil => simp [switch, byteAt, shiftLeft_xor_byte, Nat.ofDigits_cons]
  case cons.cons.cons.nil =>
    have twice : b₂.toNat <<< 16 = b₂.toNat <<< 8 <<< 8 := Nat.shiftLeft_add b₂.toNat 8 8
    simp [switch, byteAt, twice, ← Nat.shiftLeft_xor_distrib, shiftLeft_xor_byte, Nat.ofDigits_cons]
  case cons.cons.cons.cons => exact absurd short (by simp)

/-! ## 4. The walk and the loop -/

section Walk

variable (b₀ b₁ b₂ b₃ : UInt8) (rest : List UInt8)

theorem byteAt_add_four (i : Nat) : byteAt (b₀ :: b₁ :: b₂ :: b₃ :: rest) (i + 4) = byteAt rest i :=
  rfl

theorem div_four : (b₀ :: b₁ :: b₂ :: b₃ :: rest).length / 4 = rest.length / 4 + 1 :=
  Nat.add_div_right rest.length (Nat.zero_lt_succ 3)

theorem mod_four : (b₀ :: b₁ :: b₂ :: b₃ :: rest).length % 4 = rest.length % 4 :=
  Nat.add_mod_right rest.length 4

/-- The first round takes the first word in; the others are the rounds over the rest. -/
theorem rounds_cons (h : Nat) :
    rounds (b₀ :: b₁ :: b₂ :: b₃ :: rest) h =
      rounds rest (round h (word [b₀, b₁, b₂, b₃]).toNat) := by
  rw [rounds, div_four, List.range_succ_eq_map, List.foldl_cons, List.foldl_map,
    toNat_word_eq_block _ _ _ _ rest]
  rfl

theorem left_cons : left (b₀ :: b₁ :: b₂ :: b₃ :: rest) = left rest := by
  funext i
  rw [left, div_four, show 4 * (rest.length / 4 + 1) + i = 4 * (rest.length / 4) + i + 4 by omega,
    byteAt_add_four]
  rfl

end Walk

/-- The walk along the bytes is the loop over the whole words and then the switch. -/
theorem toNat_body (h : UInt32) (data : List UInt8) :
    (body h data).toNat = switch (left data) (rounds data h.toNat) (data.length % 4) 0 := by
  fun_induction body h data with
  | case1 h b₀ b₁ b₂ b₃ rest ih => rw [ih, toNat_mix, rounds_cons, left_cons, mod_four]
  | case2 h => rfl
  | case3 h tail more nonempty =>
    have short : tail.length < 4 := by
      obtain _ | ⟨b₀, _ | ⟨b₁, _ | ⟨b₂, _ | ⟨b₃, rest⟩⟩⟩⟩ := tail
      case cons.cons.cons.cons => exact (more b₀ b₁ b₂ b₃ rest rfl).elim
      all_goals simp
    have noWord : tail.length / 4 = 0 := Nat.div_eq_of_lt short
    have hleft : left tail = byteAt tail := by
      funext i
      rw [left, noWord, Nat.mul_zero, Nat.zero_add]
    have hrounds : rounds tail h.toNat = h.toNat := by
      rw [rounds, noWord]
      rfl
    rw [hleft, hrounds, Nat.mod_eq_of_lt short, switch_tail _ short nonempty,
      ← toNat_word (Nat.le_of_lt short), UInt32.toNat_xor, toNat_scramble]

theorem toNat_hash32 (data : List UInt8) (seed : UInt32) :
    (hash32 data seed).toNat = hash data seed.toNat := by
  rw [hash32, toNat_avalanche, UInt32.toNat_xor, toNat_body, UInt32.toNat_ofNat']
  rfl

/-! ## 5. Keys and lanes -/

/-- **Keys are hashed as published.**  For every byte string and every seed the hash is the
published one, and the lane of a key is the hash of its bytes under the seed 0, modulo the number of
lanes; with fewer than two lanes it is the first one.  So there always is such a lane. -/
theorem keys_are_hashed_as_published :
    (∀ (data : List UInt8) (seed : UInt32),
      (hash32 data seed).toNat = Published.hash data seed.toNat) ∧
    ∀ (key : String) (lanes : Nat),
      assign key lanes =
        (if lanes < 2 then 0 else Published.hash key.toUTF8.data.toList 0 % lanes) ∧
      assign key lanes < max lanes 1 := by
  refine ⟨toNat_hash32, fun key lanes => ⟨?_, assign_lt key lanes⟩⟩
  rw [assign, toNat_hash32]
  exact if_congr Nat.lt_succ_iff.symm rfl rfl

example : Published.hash [] 1 = 0x514e28b7 := by decide

-- Ten whole words and three bytes left over.
example : Published.hash "The quick brown fox jumps over the lazy dog".toUTF8.data.toList
    0x9747b28c = 0x2fa826cd := by
  decide

end EventSourcing.Murmur3

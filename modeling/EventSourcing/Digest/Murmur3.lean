/-
# MurmurHash3, the 32-bit variant

The hash that assigns partition keys to lanes.  Words are read four bytes at a time, the first byte
least significant; the bytes left over, at most three, make a last short word.

What the file settles:

* `hash32`: the hash of a byte string under a seed;
* `assign`: the lane of a key among `lanes`, and `assign_lt`: it always exists.
-/
import EventSourcing.Digest.Word

namespace EventSourcing.Murmur3

open Word (rotateLeft)

/-! ## 1. The hash -/

/-- The word made of up to four bytes, the first one least significant. -/
def word : List UInt8 → UInt32
  | [] => 0
  | b :: rest => b.toUInt32 ||| (word rest <<< 8)

/-- Spreads the bits of one word before it is mixed in. -/
def scramble (k : UInt32) : UInt32 := rotateLeft (k * 0xcc9e2d51) 15 * 0x1b873593

/-- Mixes one full word into the hash. -/
def mix (hash k : UInt32) : UInt32 := rotateLeft (hash ^^^ scramble k) 13 * 5 + 0xe6546b64

/-- Takes in the bytes word by word; the short word at the end is mixed in without rotation, and an
empty one not at all. -/
def body (hash : UInt32) : List UInt8 → UInt32
  | b₀ :: b₁ :: b₂ :: b₃ :: rest => body (mix hash (word [b₀, b₁, b₂, b₃])) rest
  | [] => hash
  | tail => hash ^^^ scramble (word tail)

/-- Lets every bit of the hash depend on every other. -/
def avalanche (h : UInt32) : UInt32 :=
  let h := (h ^^^ (h >>> 16)) * 0x85ebca6b
  let h := (h ^^^ (h >>> 13)) * 0xc2b2ae35
  h ^^^ (h >>> 16)

/-- The hash of `data` under `seed`. -/
def hash32 (data : List UInt8) (seed : UInt32) : UInt32 :=
  avalanche (body seed data ^^^ UInt32.ofNat data.length)

/-! ## 2. Lanes -/

/-- The seed under which keys are hashed.  A different one would move keys to other lanes. -/
def laneSeed : UInt32 := 0

/-- The lane, out of `lanes`, that messages with this key go to. -/
def assign (key : String) (lanes : Nat) : Nat :=
  if lanes ≤ 1 then 0 else (hash32 key.toUTF8.data.toList laneSeed).toNat % lanes

theorem assign_lt (key : String) (lanes : Nat) : assign key lanes < max lanes 1 := by
  unfold assign
  split
  · omega
  · rename_i h
    have := Nat.mod_lt (hash32 key.toUTF8.data.toList laneSeed).toNat (by omega : 0 < lanes)
    omega

end EventSourcing.Murmur3

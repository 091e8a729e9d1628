/-
# Words of 32 bits and their bytes

The two operations that digests share: turning a word round, and writing a number as bytes.
-/
namespace EventSourcing.Word

/-- The word turned round to the left by `k` bits, for `k` from 1 to 31. -/
def rotateLeft (w k : UInt32) : UInt32 := (w <<< k) ||| (w >>> (32 - k))

/-- The big-endian bytes of a number, `width` of them. -/
def bigEndian : (width n : Nat) → List UInt8
  | 0, _ => []
  | width + 1, n => bigEndian width (n / 256) ++ [UInt8.ofNat (n % 256)]

theorem length_bigEndian (width n : Nat) : (bigEndian width n).length = width := by
  induction width generalizing n with
  | zero => rfl
  | succ w ih => simp [bigEndian, ih]

end EventSourcing.Word

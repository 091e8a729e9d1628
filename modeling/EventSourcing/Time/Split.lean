/-
# Durations split into seconds and nanoseconds

A duration as it is kept in words: the whole seconds in 64 bits, and the nanoseconds left over in
32.  A multiple is taken of both parts, the nanoseconds first, and what they make of whole seconds
is carried over.

What the file settles:

* `SplitDuration.times?`: a multiple, where it fits;
* `SplitDuration.scale`, `SplitDuration.min`: the multiple that stops at the greatest duration, and
  the shorter of two;
* `saturatedPower`: a power in 32 bits, multiplied up factor by factor.
-/
import EventSourcing.Time

namespace EventSourcing

/-! ## 1. Words -/

/-- The product of two words of 32 bits, the greatest one where it does not fit. -/
def saturatedProduct (a b : UInt32) : UInt32 :=
  if a.toNat * b.toNat < UInt32.size then a * b else 0xffffffff

/-- The power of a base, multiplied up factor by factor and stopping at the greatest word. -/
def saturatedPower (base : UInt32) : (exponent : Nat) → UInt32
  | 0 => 1
  | exponent + 1 => saturatedProduct (saturatedPower base exponent) base

/-- The product of two words of 64 bits, `none` where it does not fit. -/
def product? (a b : UInt64) : Option UInt64 :=
  if a.toNat * b.toNat < UInt64.size then some (a * b) else none

/-- The sum of two words of 64 bits, `none` where it does not fit. -/
def sum? (a b : UInt64) : Option UInt64 :=
  if a.toNat + b.toNat < UInt64.size then some (a + b) else none

/-- What is left over of a number of nanoseconds after its whole seconds. -/
def leftOver (nanos : UInt64) : UInt32 := (nanos % 1000000000).toUInt32

theorem toNat_leftOver (nanos : UInt64) : (leftOver nanos).toNat = nanos.toNat % 1000000000 := by
  have hlt := Nat.mod_lt nanos.toNat (show 0 < 1000000000 by decide)
  rw [leftOver, UInt64.toNat_toUInt32, UInt64.toNat_mod]
  exact Nat.mod_eq_of_lt (Nat.lt_trans hlt (by decide))

theorem toNat_leftOver_lt (nanos : UInt64) : (leftOver nanos).toNat < 1000000000 := by
  rw [toNat_leftOver]
  exact Nat.mod_lt _ (by decide)

/-! ## 2. Seconds and nanoseconds -/

/-- Whole seconds, and the nanoseconds left over. -/
structure SplitDuration where
  seconds : UInt64
  nanos : UInt32
  nanos_lt : nanos.toNat < 1000000000

namespace SplitDuration

/-- All of the duration in nanoseconds. -/
def total (d : SplitDuration) : Nat := d.seconds.toNat * 1000000000 + d.nanos.toNat

/-- The greatest duration there is. -/
def greatest : SplitDuration := ⟨0xffffffffffffffff, 999999999, by decide⟩

/-- The nanoseconds taken `k` times, in 64 bits. -/
def nanosTimes (d : SplitDuration) (k : UInt32) : UInt64 := d.nanos.toUInt64 * k.toUInt64

/-- The duration taken `k` times, `none` where its seconds do not fit. -/
def times? (d : SplitDuration) (k : UInt32) : Option SplitDuration := do
  let whole ← product? d.seconds k.toUInt64
  let seconds ← sum? whole (d.nanosTimes k / 1000000000)
  some ⟨seconds, leftOver (d.nanosTimes k), toNat_leftOver_lt _⟩

/-- The duration taken `k` times, stopping at the greatest one. -/
def scale (d : SplitDuration) (k : UInt32) : SplitDuration := (d.times? k).getD greatest

/-- The shorter of two durations: the seconds decide, and between the same seconds the
nanoseconds. -/
protected def min (a b : SplitDuration) : SplitDuration :=
  if a.seconds < b.seconds ∨ a.seconds = b.seconds ∧ a.nanos ≤ b.nanos then a else b

/-- `base` grown `steps` times by `factor`, at most `most`. -/
def grown (base : SplitDuration) (factor : UInt32) (steps : Nat) (most : SplitDuration) :
    SplitDuration :=
  (base.scale (saturatedPower factor steps)).min most

end SplitDuration

/-- The duration split into seconds and nanoseconds. -/
def Duration.split (d : Duration) : SplitDuration where
  seconds := UInt64.ofNat d.seconds
  nanos := UInt32.ofNat d.subsecNanos
  nanos_lt := by
    rw [UInt32.toNat_ofNat']
    exact Nat.lt_of_le_of_lt (Nat.mod_le _ _) (Nat.mod_lt _ (by decide))

end EventSourcing

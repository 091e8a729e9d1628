/-
# Durations and instants

A `Duration` is a count of nanoseconds with a greatest value; adding and scaling stop there
instead of wrapping, so a back-off computed from any policy is again a duration.  An `Instant`
is a point on a clock, also in nanoseconds, and may lie before the clock's origin.

What the file settles:

* `Duration.scale_nanos`, `Duration.min_nanos`: the arithmetic of back-offs, read in `Nat`;
* `Instant.elapsedSince`: the time between two instants, zero when the order is reversed;
* `Duration.text`: the shortest exact text in the largest unit that is not zero.
-/
namespace EventSourcing

/-! ## 1. Durations -/

/-- The greatest number of nanoseconds a duration holds: 2^64 - 1 seconds and 999999999 more. -/
def Duration.maxNanos : Nat := Nat.pow 2 64 * Nat.pow 10 9 - 1

/-- A length of time in nanoseconds, at most `Duration.maxNanos`. -/
structure Duration where
  nanos : Nat
  nanos_le : nanos ≤ Duration.maxNanos
  deriving DecidableEq

namespace Duration

/-- The duration of `n` nanoseconds, or the greatest one when `n` is more than fits. -/
def ofNanos (n : Nat) : Duration := ⟨min n maxNanos, Nat.min_le_right _ _⟩

/-- The duration of `n` milliseconds. -/
def ofMillis (n : Nat) : Duration := ofNanos (n * Nat.pow 10 6)

/-- The duration of `n` seconds. -/
def ofSeconds (n : Nat) : Duration := ofNanos (n * Nat.pow 10 9)

/-- The empty duration. -/
def zero : Duration := ofNanos 0

instance : Inhabited Duration := ⟨zero⟩

/-- Whole seconds of the duration. -/
def seconds (d : Duration) : Nat := d.nanos / Nat.pow 10 9

/-- Nanoseconds left over after the whole seconds. -/
def subsecNanos (d : Duration) : Nat := d.nanos % Nat.pow 10 9

/-- Whole milliseconds of the duration. -/
def millis (d : Duration) : Nat := d.nanos / Nat.pow 10 6

/-- The duration taken `k` times, stopping at the greatest one. -/
def scale (d : Duration) (k : Nat) : Duration := ofNanos (d.nanos * k)

/-- The shorter of two durations. -/
protected def min (a b : Duration) : Duration := if a.nanos ≤ b.nanos then a else b

theorem ofNanos_nanos (n : Nat) : (ofNanos n).nanos = min n maxNanos := rfl

theorem scale_nanos (d : Duration) (k : Nat) : (d.scale k).nanos = min (d.nanos * k) maxNanos := rfl

theorem min_nanos (a b : Duration) : (a.min b).nanos = min a.nanos b.nanos := by
  unfold Duration.min
  split <;> omega

/-! ## 2. The text of a duration -/

/-- Nine digits of a fraction of a billion, without the zeros at the end. -/
def fractionDigits (places n : Nat) : String :=
  let digits := (Nat.toDigits 10 (Nat.pow 10 places + n)).drop 1
  String.ofList (digits.reverse.dropWhile (· == '0')).reverse

/-- `n` units of `10 ^ places` parts, written as a whole number and, if need be, a fraction. -/
def inUnit (nanos places : Nat) (unit : String) : String :=
  let whole := toString (nanos / Nat.pow 10 places)
  let rest := nanos % Nat.pow 10 places
  if rest = 0 then whole ++ unit else whole ++ "." ++ fractionDigits places rest ++ unit

/-- The text of a duration: seconds from one second on, else the largest of the units milli-, micro-
and nanosecond that fits, with an exact fraction. -/
def text (d : Duration) : String :=
  if Nat.pow 10 9 ≤ d.nanos then inUnit d.nanos 9 "s"
  else if Nat.pow 10 6 ≤ d.nanos then inUnit d.nanos 6 "ms"
  else if Nat.pow 10 3 ≤ d.nanos then inUnit d.nanos 3 "µs"
  else inUnit d.nanos 0 "ns"

end Duration

/-! ## 3. Instants -/

/-- A point in time, in nanoseconds from the clock's origin. -/
structure Instant where
  nanos : Int
  deriving DecidableEq, Inhabited

namespace Instant

/-- The instant that many seconds after the origin. -/
def ofSeconds (s : Int) : Instant := ⟨s * Int.pow 10 9⟩

/-- Whole seconds from the origin, rounded down. -/
def seconds (t : Instant) : Int := Int.fdiv t.nanos (Int.pow 10 9)

/-- The time from `earlier` to `t`, zero when `t` comes first. -/
def elapsedSince (t earlier : Instant) : Duration :=
  Duration.ofNanos (t.nanos - earlier.nanos).toNat

end Instant

end EventSourcing

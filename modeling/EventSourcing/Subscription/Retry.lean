/-
# Retries and growing delays

Between attempts a delay grows by a factor, up to a greatest delay.  The power of the factor is kept
in 32 bits and stops at the greatest number there.

What the file settles:

* `saturatingPow_eq`: the power is the exact one or the greatest number, whichever is less;
* `RetryPolicy.delayFor`: the delay before the n-th retry;
* `Duration.nanos_grown`: how long a grown duration is.
-/
import EventSourcing.Time

namespace EventSourcing

/-! ## 1. Powers in 32 bits -/

/-- The greatest number of 32 bits. -/
def greatestWord : Nat := Nat.pow 2 32 - 1

/-- The power of a base, stopping at the greatest number of 32 bits.  From an exponent of 32 on,
every base above one has passed it. -/
def saturatingPow : (base exponent : Nat) → Nat
  | _, 0 => 1
  | 0, _ + 1 => 0
  | 1, _ + 1 => 1
  | base + 2, exponent + 1 =>
    if exponent < 31 then min (Nat.pow (base + 2) (exponent + 1)) greatestWord else greatestWord

theorem saturatingPow_eq (base exponent : Nat) :
    saturatingPow base exponent = min (Nat.pow base exponent) greatestWord := by
  unfold saturatingPow
  split
  · simp [greatestWord]
  · simp
  · simp [greatestWord]
  · split
    · rfl
    · rename_i base exponent h
      have one : (2 : Nat) ^ 32 ≤ (base + 2) ^ (exponent + 1) :=
        Nat.le_trans (Nat.pow_le_pow_right (by omega) (by omega)) (Nat.pow_le_pow_left (by omega) _)
      exact (Nat.min_eq_right (Nat.le_trans (by decide) one)).symm

/-! ## 2. Policies -/

/-- How often a failed attempt is repeated, and how long to wait in between. -/
structure RetryPolicy where
  /-- Attempts after the first one. -/
  maxRetries : Nat := 0
  /-- The delay before the first retry. -/
  delay : Duration := .ofMillis 100
  /-- What the delay is multiplied by after each retry. -/
  factor : Nat := 2
  /-- The delay never exceeds this. -/
  maxDelay : Duration := .ofSeconds 5
  deriving DecidableEq

/-- `base` grown `steps` times by `factor`, at most `greatest`. -/
def Duration.grown (base : Duration) (factor steps : Nat) (greatest : Duration) : Duration :=
  (base.scale (saturatingPow factor steps)).min greatest

/-- The greatest delay is a duration itself, so stopping at the greatest duration there is makes no
difference. -/
theorem Duration.nanos_grown (base : Duration) (factor steps : Nat) (greatest : Duration) :
    (base.grown factor steps greatest).nanos =
      min (base.nanos * min (Nat.pow factor steps) greatestWord) greatest.nanos := by
  have hfits := greatest.nanos_le
  rw [grown, min_nanos, scale_nanos, saturatingPow_eq]
  omega

/-- The delay before the `retry`-th retry, counted from one. -/
def RetryPolicy.delayFor (p : RetryPolicy) (retry : Nat) : Duration :=
  p.delay.grown p.factor (retry - 1) p.maxDelay

end EventSourcing

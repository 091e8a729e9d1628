/-
# How delays grow

The delay before a retry is the first delay times a power of the factor, at most the greatest delay.
The power stops at the greatest number of 32 bits, and the product at the greatest duration; the
latter never shows, and the former only where the greatest delay is longer than the first one times
the greatest number.  The same goes for the delay after reads that failed in a row.

What the file settles:

* `split_grown`: the delay computed in words, seconds and nanoseconds apart, is the delay;
* `nanos_grown_eq_iff`: when it is the exact one; `nanos_grown_mono`: it does not get shorter;
* `GrowsUpTo`: what holds of delays that grow; `delays_grow_up_to_the_greatest`: those of retries
  and of failing reads.
-/
import EventSourcing.Subscription.Options
import EventSourcing.Time.Split

namespace EventSourcing

/-! ## 1. Words -/

theorem toNat_saturatedProduct (a b : UInt32) :
    (saturatedProduct a b).toNat = min (a.toNat * b.toNat) greatestWord := by
  have hsize : UInt32.size = greatestWord + 1 := rfl
  unfold saturatedProduct
  split
  · rw [UInt32.toNat_mul, Nat.mod_eq_of_lt (by assumption)]
    omega
  · rw [Nat.min_eq_right (by omega)]
    rfl

theorem toNat_saturatedPower (base : UInt32) (exponent : Nat) :
    (saturatedPower base exponent).toNat = min (Nat.pow base.toNat exponent) greatestWord := by
  induction exponent with
  | zero => rfl
  | succ n ih =>
    have hpow : Nat.pow base.toNat (n + 1) = Nat.pow base.toNat n * base.toNat := rfl
    rw [saturatedPower, toNat_saturatedProduct, ih, hpow]
    obtain zero | pos := Nat.eq_zero_or_pos base.toNat
    · simp [zero]
    · obtain hle | hlt := Nat.le_total (Nat.pow base.toNat n) greatestWord
      · rw [Nat.min_eq_left hle]
      · rw [Nat.min_eq_right hlt, Nat.min_eq_right (Nat.le_mul_of_pos_right _ pos),
          Nat.min_eq_right (Nat.le_trans hlt (Nat.le_mul_of_pos_right _ pos))]

theorem toNat_of_product? {a b c : UInt64} (fits : product? a b = some c) :
    c.toNat = a.toNat * b.toNat := by
  rw [product?, Option.ite_none_right_eq_some] at fits
  obtain ⟨lt, ⟨⟩⟩ := fits
  rw [UInt64.toNat_mul]
  exact Nat.mod_eq_of_lt lt

theorem product?_eq_none_iff {a b : UInt64} :
    product? a b = none ↔ UInt64.size ≤ a.toNat * b.toNat := by
  simp [product?]

theorem toNat_of_sum? {a b c : UInt64} (fits : sum? a b = some c) :
    c.toNat = a.toNat + b.toNat := by
  rw [sum?, Option.ite_none_right_eq_some] at fits
  obtain ⟨lt, ⟨⟩⟩ := fits
  rw [UInt64.toNat_add]
  exact Nat.mod_eq_of_lt lt

theorem sum?_eq_none_iff {a b : UInt64} : sum? a b = none ↔ UInt64.size ≤ a.toNat + b.toNat := by
  simp [sum?]

/-! ## 2. Durations in words -/

namespace SplitDuration

theorem total_injective {a b : SplitDuration} (same : a.total = b.total) : a = b := by
  have ha := a.nanos_lt
  have hb := b.nanos_lt
  unfold total at same
  have seconds : a.seconds = b.seconds := UInt64.toNat_inj.1 (by omega)
  have nanos : a.nanos = b.nanos := UInt32.toNat_inj.1 (by omega)
  cases a
  cases b
  cases seconds
  cases nanos
  rfl

theorem total_min (a b : SplitDuration) : (a.min b).total = min a.total b.total := by
  have ha := a.nanos_lt
  have hb := b.nanos_lt
  unfold SplitDuration.min total
  simp only [UInt64.lt_iff_toNat_lt, UInt32.le_iff_toNat_le, ← UInt64.toNat_inj]
  split <;> omega

/-- The product of the nanoseconds fits into 64 bits. -/
theorem toNat_nanosTimes (d : SplitDuration) (k : UInt32) :
    (d.nanosTimes k).toNat = d.nanos.toNat * k.toNat := by
  have fits : d.nanos.toNat * k.toNat < 1000000000 * UInt32.size :=
    Nat.mul_lt_mul_of_lt_of_le d.nanos_lt (Nat.le_of_lt k.toNat_lt_size) (by decide)
  rw [nanosTimes, UInt64.toNat_mul, UInt32.toNat_toUInt64, UInt32.toNat_toUInt64]
  exact Nat.mod_eq_of_lt (Nat.lt_trans fits (by decide))

theorem maxNanos_eq : Duration.maxNanos + 1 = UInt64.size * 1000000000 := rfl

theorem total_le (d : SplitDuration) : d.total ≤ Duration.maxNanos := by
  have hseconds := d.seconds.toNat_lt_size
  have hnanos := d.nanos_lt
  have hgreatest := maxNanos_eq
  rw [total]
  omega

/-- The product of a duration: its seconds, and its nanoseconds. -/
theorem total_mul (d : SplitDuration) (k : UInt32) :
    d.total * k.toNat = d.seconds.toNat * k.toNat * 1000000000 + (d.nanosTimes k).toNat := by
  rw [total, Nat.add_mul, Nat.mul_right_comm, toNat_nanosTimes]

theorem toNat_carry (nanos : UInt64) : (nanos / 1000000000).toNat = nanos.toNat / 1000000000 := by
  rw [UInt64.toNat_div]
  rfl

theorem total_of_times? {d m : SplitDuration} {k : UInt32} (fits : d.times? k = some m) :
    m.total = d.total * k.toNat := by
  obtain ⟨whole, hwhole, seconds, hseconds, rfl⟩ : ∃ whole,
    product? d.seconds k.toUInt64 = some whole ∧
      ∃ seconds, sum? whole (d.nanosTimes k / 1000000000) = some seconds ∧
        ⟨seconds, leftOver (d.nanosTimes k), toNat_leftOver_lt _⟩ = m := by
    simpa [times?, Option.bind_eq_some_iff] using fits
  rw [total_mul, total, toNat_of_sum? hseconds, toNat_of_product? hwhole, toNat_carry,
    toNat_leftOver, UInt32.toNat_toUInt64]
  omega

theorem lt_of_times?_eq_none {d : SplitDuration} {k : UInt32} (past : d.times? k = none) :
    Duration.maxNanos < d.total * k.toNat := by
  have hgreatest := maxNanos_eq
  rw [total_mul]
  cases hwhole : product? d.seconds k.toUInt64 with
  | none =>
    rw [product?_eq_none_iff, UInt32.toNat_toUInt64] at hwhole
    omega
  | some whole =>
    cases hsum : sum? whole (d.nanosTimes k / 1000000000) with
    | none =>
      rw [sum?_eq_none_iff, toNat_of_product? hwhole, toNat_carry, UInt32.toNat_toUInt64] at hsum
      omega
    | some seconds => simp [times?, hwhole, hsum] at past

/-- A multiple that does not fit is the greatest duration instead. -/
theorem total_scale (d : SplitDuration) (k : UInt32) :
    (d.scale k).total = min (d.total * k.toNat) Duration.maxNanos := by
  rw [scale]
  cases times : d.times? k with
  | none =>
    rw [Nat.min_eq_right (Nat.le_of_lt (lt_of_times?_eq_none times))]
    rfl
  | some m =>
    have fits := m.total_le
    rw [total_of_times? times] at fits
    rw [Option.getD_some, total_of_times? times, Nat.min_eq_left fits]

theorem total_split (d : Duration) : d.split.total = d.nanos := by
  have fits : d.nanos / 1000000000 < UInt64.size := by
    have hle := d.nanos_le
    have hgreatest := maxNanos_eq
    omega
  have hseconds : d.split.seconds.toNat = d.nanos / 1000000000 := by
    rw [Duration.split, UInt64.toNat_ofNat']
    exact Nat.mod_eq_of_lt fits
  have hnanos : d.split.nanos.toNat = d.nanos % 1000000000 := by
    rw [Duration.split, UInt32.toNat_ofNat']
    exact Nat.mod_eq_of_lt (Nat.lt_trans (Nat.mod_lt _ (by decide)) (by decide))
  rw [total, hseconds, hnanos]
  exact Nat.div_add_mod' _ _

/-- The delay computed in words is the delay. -/
theorem split_grown (base most : Duration) (factor : UInt32) (steps : Nat) :
    base.split.grown factor steps most.split = (base.grown factor.toNat steps most).split := by
  apply total_injective
  rw [grown, total_min, total_scale, total_split, total_split, total_split, toNat_saturatedPower,
    Duration.grown, Duration.min_nanos, Duration.scale_nanos, saturatingPow_eq]

end SplitDuration

/-! ## 3. Exact delays -/

section Grown

variable (base greatest : Duration) (factor steps : Nat)

/-- The delay is the exact one as long as the power fits, and where it does not, if the greatest
delay is reached anyway or there is nothing to multiply. -/
theorem nanos_grown_eq_iff :
    (base.grown factor steps greatest).nanos =
      min (base.nanos * Nat.pow factor steps) greatest.nanos ↔
      Nat.pow factor steps ≤ greatestWord ∨ greatest.nanos ≤ base.nanos * greatestWord ∨
      base.nanos = 0 := by
  rw [Duration.nanos_grown]
  obtain past | fits := Nat.lt_or_ge greatestWord (Nat.pow factor steps)
  case inr =>
    rw [Nat.min_eq_left fits]
    exact iff_of_true rfl (.inl fits)
  case inl =>
    rw [Nat.min_eq_right (Nat.le_of_lt past)]
    obtain nothing | pos := Nat.eq_zero_or_pos base.nanos
    · simp [nothing]
    · have grows := Nat.mul_lt_mul_of_pos_left past pos
      omega

variable {factor steps}

/-- A delay does not get shorter with more steps. -/
theorem nanos_grown_mono (pos : 1 ≤ factor) {later : Nat} (le : steps ≤ later) :
    (base.grown factor steps greatest).nanos ≤ (base.grown factor later greatest).nanos := by
  have power : Nat.pow factor steps ≤ Nat.pow factor later := Nat.pow_le_pow_right pos le
  have product : base.nanos * min (Nat.pow factor steps) greatestWord ≤
      base.nanos * min (Nat.pow factor later) greatestWord := Nat.mul_le_mul_left _ (by omega)
  rw [Duration.nanos_grown, Duration.nanos_grown]
  omega

end Grown

/-! ## 4. The delays of retries and of reads -/

/-- What holds of delays that begin with one, are multiplied by a factor, and stop at the greatest
one. -/
structure GrowsUpTo (delayOf : Nat → Duration) (delay : Duration) (factor : Nat)
    (greatest : Duration) : Prop where
  bounded : ∀ r, (delayOf r).nanos ≤ greatest.nanos
  /-- Computed in words, with the seconds and the nanoseconds apart, they are the same: nothing
  wraps around. -/
  inWords : ∀ word : UInt32, word.toNat = factor →
    ∀ r, delay.split.grown word (r - 1) greatest.split = (delayOf r).split
  /-- They are the exact ones unless the power is past 32 bits where the greatest delay is not
  reached yet. -/
  exact_iff : ∀ r, 1 ≤ r →
    ((delayOf r).nanos = min (delay.nanos * Nat.pow factor (r - 1)) greatest.nanos ↔
      Nat.pow factor (r - 1) ≤ greatestWord ∨ greatest.nanos ≤ delay.nanos * greatestWord ∨
      delay.nanos = 0)
  grows : 1 ≤ factor → ∀ r later, r ≤ later → (delayOf r).nanos ≤ (delayOf later).nanos
  stays : 1 ≤ factor → ∀ r later, r ≤ later → delayOf r = greatest → delayOf later = greatest

theorem Duration.ext_nanos {a b : Duration} (same : a.nanos = b.nanos) : a = b := by
  cases a
  cases b
  cases same
  rfl

theorem growsUpTo_grown (delay greatest : Duration) (factor : Nat) :
    GrowsUpTo (fun r => delay.grown factor (r - 1) greatest) delay factor greatest where
  bounded r := by
    rw [Duration.nanos_grown]
    exact Nat.min_le_right _ _
  inWords := by
    rintro word rfl r
    exact SplitDuration.split_grown delay greatest word (r - 1)
  exact_iff r _ := nanos_grown_eq_iff delay greatest factor (r - 1)
  grows pos r later le := nanos_grown_mono delay greatest pos (Nat.sub_le_sub_right le 1)
  stays pos r later le reached := by
    have mono := nanos_grown_mono delay greatest pos (Nat.sub_le_sub_right le 1)
    apply Duration.ext_nanos
    rw [reached] at mono
    rw [Duration.nanos_grown] at mono ⊢
    omega

/-- **Delays grow up to the greatest one.**  The delays before retries, and those after reads that
fail in a row, never exceed the greatest delay and never wrap around.  They are the first delay
times the power of the factor, capped, unless the power is past 32 bits where the cap is not reached
yet.  With a factor from one on they never get shorter, so once they are the greatest one they stay
there. -/
theorem delays_grow_up_to_the_greatest :
    (∀ p : RetryPolicy, GrowsUpTo p.delayFor p.delay p.factor p.maxDelay) ∧
    ∀ (F : PayloadFamily) (o : SubscriptionOptions F),
      GrowsUpTo o.pollBackoff o.pollInterval 2 o.pollBackoffMax := by
  constructor
  · intro p
    exact growsUpTo_grown p.delay p.maxDelay p.factor
  · intro F o
    exact growsUpTo_grown o.pollInterval o.pollBackoffMax 2

/-- Doubled from 100 milliseconds, a delay is exact at the third retry, stops at 700 and is there at
the fortieth. -/
theorem delay_stops_at_the_fourth_retry :
    let p : RetryPolicy := { maxRetries := 10, maxDelay := .ofMillis 700 }
    1 ≤ p.factor ∧
      (p.delayFor 3).nanos = min (p.delay.nanos * Nat.pow p.factor 2) p.maxDelay.nanos ∧
    p.delayFor 4 = p.maxDelay ∧ p.delayFor 40 = p.maxDelay := by
  intro p
  have grows := delays_grow_up_to_the_greatest.1 p
  have pos : 1 ≤ p.factor := by decide
  have reached : p.delayFor 4 = p.maxDelay := by decide
  refine ⟨pos, ?_, reached, grows.stays pos 4 40 (by decide) reached⟩
  exact (grows.exact_iff 3 (by decide)).2 (.inl (by decide))

end EventSourcing

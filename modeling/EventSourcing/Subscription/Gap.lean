/-
# How far a subscription is behind

The gap of a subscription is the number of positions between its checkpoint and the last event of
its source, and the age of the event at the checkpoint.  It is measured from what a run remembers it
committed, or from the stored checkpoint.

What the file settles:

* `SubscriptionGap.compute`: the gap, from both positions and the time of the event at the
  checkpoint;
* `storedGap`: the gap of a stored checkpoint, reading that event back from the source;
* `currentGap`: the gap of what was committed last, or of the stored checkpoint.
-/
import EventSourcing.Subscription.CommitSequence
import EventSourcing.Subscription.Error
import EventSourcing.Subscription.Source

namespace EventSourcing

/-! ## 1. Gaps -/

/-- How far a subscription is behind its source. -/
structure SubscriptionGap where
  subscription : String
  /-- Positions between the checkpoint and the last event. -/
  positions : Nat
  /-- The time since the event at the checkpoint was written, zero without a gap. -/
  time : Duration
  deriving DecidableEq

/-- The gap between a checkpoint and the last event of a source. -/
def SubscriptionGap.compute (subscription : String) (head checkpoint : Option Nat)
    (written : Option Instant) (now : Instant) : SubscriptionGap :=
  let positions := match head, checkpoint with
    | none, _ => 0
    | some head, none => head + 1
    | some head, some checkpoint => head - checkpoint
  let time := match written with
    | some written => if 0 < positions then now.elapsedSince written else .zero
    | none => .zero
  ⟨subscription, positions, time⟩

/-! ## 2. Measuring -/

variable {σ κ : Type} [EventSource σ] [CheckpointStore κ]

/-- The time of the event at a position: that of the first event after the position before it. -/
def writtenAt (position : Nat) (s : σ) : Except StoreError (Option Instant) × σ :=
  let before := if position = 0 then none else some (position - 1)
  let (answer, s) := EventSource.readAfter before 1 s
  (answer.map fun events => events.head?.map (·.occurredOn), s)

/-- The gap of the stored checkpoint. -/
def storedGap (subscription : String) (now : Instant) :
    Call (σ × κ) SubscriptionError SubscriptionGap :=
  fun (source, checkpoints) =>
    match CheckpointStore.load subscription checkpoints with
    | (.error error, checkpoints) => (.error (.checkpoint error), source, checkpoints)
    | (.ok checkpoint, checkpoints) =>
      match EventSource.head source with
      | (.error error, source) => (.error (.store error), source, checkpoints)
      | (.ok head, source) =>
        match checkpoint.position with
        | none => (.ok (.compute subscription head none none now), source, checkpoints)
        | some position =>
          match writtenAt position source with
          | (.error error, source) => (.error (.store error), source, checkpoints)
          | (.ok written, source) =>
            (.ok (.compute subscription head (some position) written now), source, checkpoints)

/-- The gap of the position committed last, or of the stored checkpoint if there is none. -/
def currentGap (subscription : String) (committed : Option CommitPosition) (now : Instant) :
    Call (σ × κ) SubscriptionError SubscriptionGap := fun (source, checkpoints) =>
  match committed with
  | none => storedGap subscription now (source, checkpoints)
  | some p =>
    match EventSource.head source with
    | (.error error, source) => (.error (.store error), source, checkpoints)
    | (.ok head, source) =>
      (.ok (.compute subscription head (some p.position) (some p.timestamp) now), source,
        checkpoints)

end EventSourcing

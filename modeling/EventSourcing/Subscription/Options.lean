/-
# Subscription options

How a subscription reads its source, hands messages to its handlers and repeats what fails.

What the file settles:

* `ConsumeMode`: which messages are handled at the same time;
* `SubscriptionOptions.pollBackoff`: the delay after reads that failed in a row.
-/
import EventSourcing.Digest.Murmur3
import EventSourcing.Subscription.Message
import EventSourcing.Subscription.Retry

namespace EventSourcing

variable {F : PayloadFamily}

/-! ## 1. Consume modes -/

/-- How messages are spread over what handles them. -/
inductive ConsumeMode (F : PayloadFamily) where
  /-- At most `limit` messages are handled at the same time, in no order among each other. -/
  | concurrent (limit : Nat)
  /-- Each message goes to the lane its key is hashed to.  A lane handles its messages one at a time
  in the order they arrived.  A key of `none` is one whose computation breaks down. -/
  | partitioned (partitions : Nat) (key : Message F → Option String)

namespace ConsumeMode

/-- The greatest number of messages handled at the same time; zero counts as one. -/
def concurrency : ConsumeMode F → Nat
  | .concurrent limit => max limit 1
  | .partitioned partitions _ => max partitions 1

/-- The greatest limit a run can keep count of. -/
def greatestLimit : Nat := Nat.pow 2 61 - 1

/-- The greatest number of lanes a run can keep a list of. -/
def greatestLaneCount : Nat := Nat.pow 2 60 - 1

/-- Whether a run can be set up in this mode at all. -/
def isFeasible : ConsumeMode F → Bool
  | .concurrent limit => limit ≤ greatestLimit
  | .partitioned partitions _ => partitions ≤ greatestLaneCount

/-- The mode as a record of its number. -/
def display : ConsumeMode F → String
  | .concurrent limit => Display.record "Concurrent" [("limit", toString limit)]
  | .partitioned partitions _ => Display.record "Partitioned" [("partitions", toString partitions)]

/-- Lanes by the name of the stream, which keeps the order of every stream. -/
def byStream (partitions : Nat) : ConsumeMode F :=
  .partitioned partitions fun m => some m.stream.text

theorem concurrency_pos (mode : ConsumeMode F) : 0 < mode.concurrency := by
  cases mode <;> simp only [concurrency] <;> omega

end ConsumeMode

/-! ## 2. Options -/

/-- The options of a subscription. -/
structure SubscriptionOptions (F : PayloadFamily) where
  /-- Names the subscription and its checkpoint. -/
  id : String
  mode : ConsumeMode F := .concurrent 1
  /-- The greatest number of events read in one call. -/
  pageSize : Nat := 100
  /-- The delay between two reads when there is nothing new. -/
  pollInterval : Duration := .ofMillis 500
  /-- The greatest delay between two reads while they fail. -/
  pollBackoffMax : Duration := .ofSeconds 10
  /-- The number of reads that may fail in a row. -/
  maxPollFailures : Nat := 10
  retry : RetryPolicy := {}
  /-- The time a single call of a handler may take. -/
  handlerTimeout : Option Duration := none

/-- The delay after the last of `failures` reads that failed in a row. -/
def SubscriptionOptions.pollBackoff (o : SubscriptionOptions F) (failures : Nat) : Duration :=
  o.pollInterval.grown 2 (failures - 1) o.pollBackoffMax

end EventSourcing

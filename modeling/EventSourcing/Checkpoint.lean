/-
# Checkpoints

A checkpoint is the last position a subscription has processed without leaving anything unprocessed
behind it.  Checkpoints are stored by the identifier of the subscription.

What the file settles:

* `CheckpointStore`: the two calls of a store of checkpoints;
* `MemoryCheckpoints`: checkpoints in memory, with a count of the writes;
* `FaultyCheckpoints`: the same with faults in the way, keeping a record of its writes.
-/
import EventSourcing.Store
import EventSourcing.Faults
import EventSourcing.Json.Write

namespace EventSourcing

/-! ## 1. Checkpoints -/

/-- How far a subscription has come; `none` is the beginning. -/
structure Checkpoint where
  subscription : String
  position : Option Nat
  deriving DecidableEq, Inhabited

/-- The stored form of a checkpoint. -/
def Checkpoint.json (c : Checkpoint) : String :=
  let position := match c.position with
    | some p => toString p
    | none => "null"
  Json.object [("subscription_id", Json.quote c.subscription), ("position", position)]

/-- How a store of checkpoints fails. -/
inductive CheckpointError where
  | timedOut (limit : Duration)
  | backend (text : String)
  deriving DecidableEq

/-- The text of a failure. -/
def CheckpointError.message : CheckpointError → String
  | .timedOut limit => "checkpoint store operation timed out after " ++ limit.text
  | .backend text => text

/-- The calls of a store of checkpoints. -/
class CheckpointStore (σ : Type) where
  /-- The last checkpoint stored for the subscription, one at the beginning if there is none. -/
  load : (subscription : String) → Call σ CheckpointError Checkpoint
  /-- Stores a checkpoint and answers it.  Writing may be put off unless it is forced. -/
  save : Checkpoint → (force : Bool) → Call σ CheckpointError Checkpoint

/-! ## 2. In memory -/

/-- Checkpoints by subscription, and the number of writes so far.  Every call writes. -/
structure MemoryCheckpoints where
  positions : Table (Option Nat) := Table.empty
  writes : Nat := 0
  deriving Inhabited

namespace MemoryCheckpoints

/-- The position stored for the subscription. -/
def position? (s : MemoryCheckpoints) (subscription : String) : Option Nat :=
  (s.positions.get? subscription).join

/-- Writes a checkpoint. -/
def write (s : MemoryCheckpoints) (c : Checkpoint) : MemoryCheckpoints :=
  ⟨s.positions.insert c.subscription c.position, s.writes + 1⟩

end MemoryCheckpoints

instance : CheckpointStore MemoryCheckpoints where
  load subscription s := (.ok ⟨subscription, s.position? subscription⟩, s)
  save c _ s := (.ok c, s.write c)

/-! ## 3. With faults -/

/-- One write that reached the memory. -/
structure CheckpointWrite where
  checkpoint : Checkpoint
  force : Bool

/-- Checkpoints in memory behind faults, with the writes that reached them, the last one first. -/
structure FaultyCheckpoints where
  memory : MemoryCheckpoints := {}
  faults : FaultQueues CheckpointError := {}
  record : List CheckpointWrite := []
  deriving Inhabited

instance : CheckpointStore FaultyCheckpoints where
  load subscription s :=
    match s.faults.take "get" with
    | (some error, faults) => (.error error, { s with faults })
    | (none, faults) => (.ok ⟨subscription, s.memory.position? subscription⟩, { s with faults })
  save c force s :=
    match s.faults.take "store" with
    | (some error, faults) => (.error error, { s with faults })
    | (none, faults) => (.ok c, ⟨s.memory.write c, faults, ⟨c, force⟩ :: s.record⟩)

end EventSourcing

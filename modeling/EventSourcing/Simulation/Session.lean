/-
# A session with a simulation

What somebody who watches a simulated subscription may do: start and stop it, wait for it, settle
acknowledgements that handlers kept, and measure how far it is behind.
-/
import EventSourcing.Simulation.Clock
import EventSourcing.Subscription.Gap

namespace EventSourcing.Simulation

open Sample (family Outlet)

/-- What waiting for the end of a run comes to. -/
inductive Waited where
  /-- There is nothing to wait for. -/
  | notStarted
  | hung
  | ended (result : Except SubscriptionError Unit)

namespace World

/-- The longest that is waited for the end of a run, in milliseconds. -/
def longestWait : Nat := 120000

/-- The world before anything has started. -/
def opening (feed : Feed) (checkpoints : LayeredCheckpoints FaultyCheckpoints) (outlet : Outlet)
    (design : Subscriber) : World :=
  { feed, checkpoints, outlet, design, subscribers := [design] }

/-- The end of a run, if it has come. -/
def ended? (w : World) (run : Nat) : Option (Except SubscriptionError Unit) :=
  (w.runs[run]?).bind LiveRun.ended?

/-- Lets go of the handle; a run that nobody waited for is asked to stop. -/
def release (w : World) : World :=
  match w.handle with
  | none => w
  | some h =>
    let w := { w with handle := none }
    if h.joined then w else w.act h.run .cancel

/-- Builds the subscriber anew. -/
def rebuild (w : World) : World := { w with subscribers := w.subscribers ++ [w.design] }

/-- Starts the present subscriber, of which nothing happens yet, and lets go of the handle
before. -/
def start (w : World) : World :=
  let run := w.runs.length
  let live : LiveRun := { subscriber := w.present }
  let w := lineUp { w with runs := w.runs ++ [live] } run [.poller]
  { w.release with handle := some ⟨w.present, run, false⟩ }

/-- Waits for the end of the run.  It is waited for only once; after that there is nothing to wait
for, and no time for anything to happen. -/
def join (w : World) : Waited × World :=
  match w.handle with
  | none => (.notStarted, w)
  | some h =>
    if h.joined then (.ended (.ok ()), w)
    else
      let w := { w with handle := some { h with joined := true } }
      let (_, w) := w.await longestWait fun w => (w.ended? h.run).isSome
      match w.ended? h.run with
      | some result => (.ended result, w)
      | none => (.hung, w)

/-- Asks the run to stop, waits for its end and lets go of the handle. -/
def stop (w : World) : Waited × World :=
  match w.handle with
  | none => (.notStarted, w)
  | some h =>
    let (waited, w) := (w.act h.run .cancel).join
    (waited, { w with handle := none })

/-- Waits until the subscriber that can be seen has a status. -/
def awaitStatus (w : World) (status : SubscriptionStatus) : Bool × World :=
  w.await longestWait fun w => w.visible.status = status

/-- Settles the oldest acknowledgement that was kept for a position; says whether there was one. -/
def settleAck (w : World) (position : Nat) (answer : Acknowledgement) : Bool × World :=
  match w.acks.find? (·.position == position) with
  | none => (false, w.settle)
  | some ack =>
    let w := { w with acks := w.acks.eraseP (·.position == position) }
    let w := if ack.isLive then w.act ack.run (.settleAck ack.sequence answer) else w
    (true, w.settle)

/-- The gap of the subscriber that can be seen. -/
def gap (w : World) : Except SubscriptionError SubscriptionGap × World :=
  let s := w.visible
  let (answer, feed, checkpoints) :=
    currentGap s.subscription.options.id s.committed ⟨0⟩ (w.feed, w.checkpoints)
  (answer, { w with feed, checkpoints }.collect)

/-- The gap of a stored checkpoint, looked up past all batches.  The reads for it are not written
down. -/
def storedGap (w : World) (id : String) : Except SubscriptionError SubscriptionGap × World :=
  let (answer, feed, store) := EventSourcing.storedGap id ⟨0⟩ (w.feed, w.checkpoints.physical)
  (answer, { w with
    feed := { feed with record := w.feed.record }
    checkpoints := w.checkpoints.withPhysical store })

/-- Puts more faults in the way of a store of checkpoints. -/
def addCheckpointFaults (w : World) (call : String)
    (faults : List (Option CheckpointError)) : World :=
  let store := w.checkpoints.physical
  { w with
    checkpoints := w.checkpoints.withPhysical
      { store with faults := store.faults.add call faults } }

/-- Puts more in the way of reads. -/
def addDisturbances (w : World) (call : String)
    (disturbances : List (Option Disturbance)) : World :=
  { w with feed := { w.feed with faults := w.feed.faults.add call disturbances } }

/-- The checkpoint in memory of the subscription that was asked for. -/
def checkpoint? (w : World) : Option Nat :=
  w.checkpoints.physical.memory.position? w.design.subscription.options.id

/-- Whether there is no run to wait for. -/
def isFinished (w : World) : Bool := w.handle.all fun h => h.joined || (w.ended? h.run).isSome

end World

end EventSourcing.Simulation

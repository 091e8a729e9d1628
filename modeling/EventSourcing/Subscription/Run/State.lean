/-
# The state of a run

A run is one poller, which reads pages and hands out messages, and the tasks of the messages that
were handed out.  Everything a run waits for from outside (answers of the store, the end of a
handler's call, an elapsed delay, an acknowledgement) arrives as an action; everything it asks for
or lets be seen leaves as an effect.  In which order actions arrive is left open, so a list of
actions is one interleaving of all that takes part.

Sections: 1 tasks and their acknowledgement; 2 the poller; 3 the run; 4 actions; 5 effects.
-/
import EventSourcing.Subscription
import EventSourcing.Subscription.Committer

namespace EventSourcing

/-- The answer to a request: a value, an error, or none at all because what was asked broke down. -/
inductive Reply (ε α : Type) where
  | ok (value : α)
  | failed (error : ε)
  | panicked

/-! ## 1. Tasks and their acknowledgement -/

/-- One call of a handler: its place among the handlers, and the number of failed attempts
before. -/
structure Attempt where
  handler : Nat
  retry : Nat
  deriving DecidableEq, Inhabited

/-- How a deferred acknowledgement is settled. -/
inductive Acknowledgement where
  | acked
  | nacked (reason : String)
  /-- It was let go without being used. -/
  | dropped
  deriving DecidableEq

/-- The single acknowledgement of a message. -/
inductive AckSlot where
  /-- It may be taken over. -/
  | armed
  /-- An attempt has taken it over. -/
  | taken (taker : Attempt)
  | settled (taker : Attempt) (answer : Acknowledgement)
  /-- Handling has ended, and nobody took it over. -/
  | closed
  deriving DecidableEq

namespace AckSlot

/-- The slot once handling has ended. -/
def close : AckSlot → AckSlot
  | .armed => .closed
  | slot => slot

/-- What the waiting side gets to know. -/
def answer? : AckSlot → Option Acknowledgement
  | .settled _ answer => some answer
  | .closed => some .dropped
  | _ => none

end AckSlot

/-- How far the handling of a message has come. -/
inductive Stage where
  /-- It was handed out, and nothing has looked at it. -/
  | queued
  /-- A handler is being called; `status` is what the handlers before it made of the message. -/
  | calling (attempt : Attempt) (status : HandlingStatus)
  /-- An attempt failed with `error`, and the delay before the next one runs. -/
  | backingOff (next : Attempt) (status : HandlingStatus) (error : HandlerError)
  /-- Handling has ended, and the acknowledgement is to follow. -/
  | awaitingAck
  /-- The handler of failed messages has it. -/
  | recovering (error : HandlerError)
  /-- It is dealt with, and its position is about to be confirmed. -/
  | confirming
  /-- Its confirmation made a position ready to be stored, and the store is being asked. -/
  | storing (position : CommitPosition)
  deriving DecidableEq

/-- What holds a task: the worker that handles the message, or what waits for its
acknowledgement. -/
inductive Holder where
  | worker
  | acknowledgement
  deriving DecidableEq

/-- A message that was handed out and is not settled. -/
structure Task (F : PayloadFamily) where
  message : Message F
  /-- The lane it was handed to, if there are lanes. -/
  lane : Option Nat
  stage : Stage := .queued
  holder : Holder := .worker
  ack : AckSlot := .closed

namespace Task

variable {F : PayloadFamily}

/-- The number of the message in its run. -/
abbrev sequence (t : Task F) : Nat := t.message.sequence

/-- Whether nothing has looked at the message. -/
def isQueued (t : Task F) : Bool := t.stage = .queued

/-- Whether a worker holds the task. -/
def isHeld (t : Task F) : Bool := t.holder = .worker

/-- Whether the task waits in the queue of a lane. -/
def isQueuedIn (t : Task F) (lane : Nat) : Bool := t.isQueued && t.lane == some lane

/-- Whether the task keeps the worker of a lane busy. -/
def occupies (t : Task F) (lane : Nat) : Bool := t.isHeld && !t.isQueued && t.lane == some lane

/-- Whether the attempt is the present one or one before it. -/
def hasMade (t : Task F) (a : Attempt) : Bool :=
  match t.stage with
  | .calling now _ => a.handler < now.handler || (a.handler == now.handler && a.retry ≤ now.retry)
  | .backingOff next _ _ =>
    a.handler < next.handler || (a.handler == next.handler && a.retry < next.retry)
  | _ => false

/-- Whether the store is being asked to take the task's checkpoint. -/
def isStoring (t : Task F) : Bool := t.stage matches .storing _

end Task

/-! ## 2. The poller -/

/-- How far the poller has come in the source. -/
structure Cursor where
  /-- The position of the last event handed out, or the checkpoint. -/
  after : Option Nat
  /-- The number the next message gets. -/
  sequence : Nat := 0
  /-- Reads that failed in a row. -/
  failures : Nat := 0
  deriving DecidableEq, Inhabited

namespace Run

/-- What the poller is doing. -/
inductive Phase where
  | created
  /-- The checkpoint is being loaded. -/
  | loading
  /-- A page is being read. -/
  | reading (cursor : Cursor)
  /-- The events of a page are being handed out. -/
  | delivering (cursor : Cursor) (page : List StoredEvent)
  /-- The delay before the next read runs. -/
  | sleeping (cursor : Cursor)
  /-- Nothing more is read; handling is to end. -/
  | draining
  /-- Handling has ended; what waits for an acknowledgement is let go. -/
  | settling
  /-- The last checkpoint is being stored by force. -/
  | flushing (position : CommitPosition)
  | finished (result : Except SubscriptionError Unit)
  /-- The poller itself broke down. -/
  | aborted

end Run

/-! ## 3. The run -/

/-- A run of a subscription. -/
structure Run (F : PayloadFamily) where
  phase : Run.Phase := .created
  /-- Whether the run was asked to stop. -/
  cancelled : Bool := false
  /-- Whether all handling has ended. -/
  drained : Bool := false
  /-- The first error, which drops the subscription. -/
  failure : Option SubscriptionError := none
  committer : Committer := {}
  /-- The tasks in the order they were handed out. -/
  tasks : List (Task F) := []
  /-- Lanes whose worker broke down. -/
  stoppedLanes : List Nat := []

namespace Run

variable {F : PayloadFamily}

instance : Inhabited (Run F) := ⟨{}⟩

/-- Whether the subscription was dropped by an error. -/
def isDropped (r : Run F) : Bool := r.failure.isSome

/-- Whether no handling may begin and no acknowledgement is waited for. -/
def isHalted (r : Run F) : Bool := r.isDropped || r.drained

/-- Whether the poller is to stop. -/
def isInterrupted (r : Run F) : Bool := r.cancelled || r.isDropped

/-- The task of a message. -/
def task? (r : Run F) (sequence : Nat) : Option (Task F) := r.tasks.find? (·.sequence == sequence)

/-- The run with a task in place of the one of the same message. -/
def put (r : Run F) (t : Task F) : Run F :=
  { r with tasks := r.tasks.map fun u => if u.sequence = t.sequence then t else u }

/-- The run without the task of a message. -/
def remove (r : Run F) (sequence : Nat) : Run F :=
  { r with tasks := r.tasks.filter (·.sequence ≠ sequence) }

/-- The run with an error; the first one is kept. -/
def drop (r : Run F) (e : SubscriptionError) : Run F := { r with failure := r.failure.or (some e) }

/-- The number of tasks that workers hold. -/
def heldCount (r : Run F) : Nat := r.tasks.countP (·.isHeld)

/-- The number of tasks in the queue of a lane. -/
def queueLength (r : Run F) (lane : Nat) : Nat := r.tasks.countP (·.isQueuedIn lane)

/-- Whether the store is being asked to take a checkpoint. -/
def isStoring (r : Run F) : Bool := r.tasks.any (·.isStoring)

end Run

/-! ## 4. Actions -/

/-- How a call of a handler ends. -/
inductive AttemptEnd where
  | returned (status : HandlingStatus)
  | failed (error : HandlerError)
  /-- It took longer than it may. -/
  | timedOut
  /-- It broke down, and left a text or none. -/
  | panicked (text : Option String)
  deriving DecidableEq

namespace Run

/-- What may happen to a run.  Messages are told apart by their number. -/
inductive Action where
  /-- The run begins. -/
  | subscribe
  | checkpointLoaded (reply : Reply CheckpointError Checkpoint)
  | pageRead (reply : Reply StoreError (List StoredEvent))
  /-- The delay of the poller has passed. -/
  | wake
  /-- The poller notices that it is to stop. -/
  | interrupt
  /-- The poller hands out the next event of its page. -/
  | deliver
  /-- The run is asked to stop. -/
  | cancel
  /-- A worker takes up a message. -/
  | start (sequence : Nat)
  | attemptEnded (sequence : Nat) (outcome : AttemptEnd)
  /-- The delay before the next attempt has passed. -/
  | retry (sequence : Nat)
  /-- The delay before the next attempt is cut short. -/
  | giveUp (sequence : Nat)
  /-- An attempt takes the acknowledgement over; an earlier attempt may do so late. -/
  | takeAck (sequence : Nat) (taker : Attempt)
  | settleAck (sequence : Nat) (answer : Acknowledgement)
  /-- The waiting side notices the acknowledgement. -/
  | resume (sequence : Nat)
  /-- The waiting side is let go. -/
  | abandon (sequence : Nat)
  | recovered (sequence : Nat) (reply : Reply HandlerError Unit)
  /-- The position of the message is confirmed. -/
  | confirm (sequence : Nat)
  | stored (sequence : Nat) (reply : Reply CheckpointError Unit)
  /-- The poller notices that all handling has ended. -/
  | halt
  /-- The poller notices that nothing is left to wait for. -/
  | flush
  | flushed (reply : Reply CheckpointError Unit)

/-! ## 5. Effects -/

/-- What made a message count as dealt with. -/
inductive Cause where
  /-- All handlers were done with it. -/
  | handled
  /-- Its acknowledgement arrived. -/
  | acknowledged
  /-- The handler of failed messages took it. -/
  | recovered
  deriving DecidableEq

/-- What a run asks for and lets be seen. -/
inductive Effect (F : PayloadFamily) where
  | status (status : SubscriptionStatus)
  /-- Asks for the checkpoint. -/
  | loading
  /-- Asks for a page. -/
  | reading (after : Option Nat) (count : Nat)
  /-- Asks to be woken after a delay. -/
  | sleeping (delay : Duration)
  /-- A message was handed out. -/
  | dispatched (message : Message F)
  /-- Calls a handler. -/
  | called (handler : Nat) (message : Message F)
  /-- Asks for another attempt after a delay. -/
  | backedOff (sequence : Nat) (delay : Duration)
  /-- Calls the handler of failed messages. -/
  | recovering (message : Message F) (error : HandlerError)
  /-- A message counts as dealt with. -/
  | confirmed (sequence : Nat) (cause : Cause)
  /-- Asks for a checkpoint to be stored. -/
  | storing (checkpoint : Checkpoint) (force : Bool)
  /-- A checkpoint was stored. -/
  | committed (position : CommitPosition)
  /-- A message was let go because the run came to its end. -/
  | abandoned (sequence : Nat)
  /-- A message was lost with what held it. -/
  | lost (sequence : Nat)
  /-- An error came up. -/
  | dropped (error : SubscriptionError)
  | finished (result : Except SubscriptionError Unit)
  | aborted

end Run

/-- What an action leads to. -/
abbrev Run.Move (F : PayloadFamily) := Run F × List (Run.Effect F)

end EventSourcing

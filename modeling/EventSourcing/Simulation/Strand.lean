/-
# Strands of a run

What goes on in a run is spread over strands: its poller, the workers of messages, the workers of
lanes, and what waits for acknowledgements.  A strand that is roused joins a line; when its turn
comes it goes on until it has to wait.  In this way everything that can happen at one instant
happens in one order.

What the file settles:

* `strandOf`: the strand a task belongs to;
* `openLanes`: the lanes that messages may be handed to;
* `canPoll`: whether the poller can go on;
* `roused`: the strands that an action rouses, in the order they join the line.
-/
import EventSourcing.Subscription.Run.Step

namespace EventSourcing.Simulation

variable {F : PayloadFamily}

/-! ## 1. Strands -/

/-- What takes turns in a run. -/
inductive Strand where
  | poller
  /-- The worker of a message that is in no lane. -/
  | worker (sequence : Nat)
  /-- The worker of a lane. -/
  | lane (number : Nat)
  /-- What waits for the acknowledgement of a message. -/
  | acknowledgement (sequence : Nat)
  deriving DecidableEq

/-- The strand a task belongs to. -/
def strandOf (t : Task F) : Strand :=
  match t.holder, t.lane with
  | .acknowledgement, _ => .acknowledgement t.sequence
  | .worker, some l => .lane l
  | .worker, none => .worker t.sequence

/-- The task that a strand has to do with next.  A lane goes on with the message it is at, or takes
the next one. -/
def Strand.task? (r : Run F) : Strand → Option (Task F)
  | .poller => none
  | .worker n => (r.task? n).filter (strandOf · = .worker n)
  | .acknowledgement n => (r.task? n).filter (strandOf · = .acknowledgement n)
  | .lane l => (r.tasks.find? (·.occupies l)).or (r.tasks.find? (·.isQueuedIn l))

/-- The lanes that messages may be handed to, none if they are not handled in lanes. -/
def openLanes (s : Subscription F) (r : Run F) : List Strand :=
  match s.options.mode with
  | .concurrent _ => []
  | .partitioned partitions _ =>
    ((List.range (max partitions 1)).filter (· ∉ r.stoppedLanes)).map .lane

/-! ## 2. What rouses them -/

/-- Whether the poller can go on.  It does not know when lanes have come to their end; the last one
rouses it. -/
def canPoll (s : Subscription F) (r : Run F) : Bool :=
  match r.phase with
  | .created | .reading _ | .flushing _ => true
  | .sleeping _ => r.isInterrupted
  | .delivering cursor (e :: rest) => (r.deliver s cursor e rest).isSome
  | .draining => r.heldCount = 0 && (openLanes s r).isEmpty
  | .settling => r.tasks.isEmpty
  | _ => false

/-- Whether the task waits for something that a run which is halted lets go of. -/
def waitsInVain (t : Task F) : Bool := t.stage matches .backingOff .. | .awaitingAck

/-- The strands that go on because the run was halted just now. -/
def letGo (before after : Run F) : List Strand :=
  if after.isHalted && !before.isHalted then (after.tasks.filter waitsInVain).map strandOf else []

/-- The strand of a message that was just handed out.  A lane that is at another message is not
disturbed. -/
def handedTo (before after : Run F) : List Strand :=
  match after.tasks.getLast? with
  | none => []
  | some t =>
    if before.tasks.length < after.tasks.length &&
        !t.lane.any (fun l => after.tasks.any (·.occupies l)) then
      [strandOf t]
    else []

/-- The lanes, when they are set up and when nothing more will be handed to them. -/
def lanesRoused (s : Subscription F) (before after : Run F) : List Strand :=
  match before.phase, after.phase with
  | .loading, .reading _ => openLanes s after
  | .draining, _ => []
  | _, .draining => openLanes s after
  | _, _ => []

/-- The strand that an action addresses: that of a message handed out, or what waits for the
acknowledgement of the message. -/
def addressed (before after : Run F) (a : Run.Action) : List Strand :=
  match a with
  | .deliver => handedTo before after
  | a =>
    match a.sequence?.bind after.task? with
    | some t => if t.holder = .acknowledgement && t.stage = .awaitingAck then [strandOf t] else []
    | none => []

/-- The strands that an action rouses. -/
def roused (s : Subscription F) (before after : Run F) (a : Run.Action) : List Strand :=
  addressed before after a ++ letGo before after ++ lanesRoused s before after ++
    if canPoll s after then [.poller] else []

end EventSourcing.Simulation

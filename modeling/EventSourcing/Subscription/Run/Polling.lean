/-
# Polling the source

The poller loads the checkpoint, reads page after page behind it and hands the events out in order.
Reads that fail for the moment are repeated after a growing delay; any other failure ends the run.
At its end the poller waits for all handling, lets go of what still waits for an acknowledgement,
and stores the last checkpoint by force.

Sections: 1 reading; 2 handing out; 3 ending; 4 what an action does to the poller.
-/
import EventSourcing.Subscription.Run.Handling

namespace EventSourcing.Run

variable {F : PayloadFamily}

/-! ## 1. Reading -/

/-- Asks for the page after the cursor. -/
def read (s : Subscription F) (r : Run F) (cursor : Cursor) : Move F :=
  ({ r with phase := .reading cursor }, [.reading cursor.after s.options.pageSize])

/-- Waits before the next read. -/
def sleep (r : Run F) (cursor : Cursor) (delay : Duration) : Move F :=
  ({ r with phase := .sleeping cursor }, [.sleeping delay])

/-- The poller breaks down; handling goes on without it. -/
def abort (r : Run F) : Move F := ({ r with phase := .aborted }, [.aborted])

/-- Stops polling because of an error. -/
def stopPolling (r : Run F) (e : SubscriptionError) : Move F :=
  ({ r.drop e with phase := .draining }, [.dropped e])

/-- The checkpoint has arrived; a run that cannot load it ends at once, and one that cannot be set
up in its mode breaks down. -/
def checkpointLoaded (s : Subscription F) (r : Run F) : Reply CheckpointError Checkpoint → Move F
  | .ok checkpoint =>
    if s.options.mode.isFeasible then
      let (r, effects) := read s r { after := checkpoint.position }
      (r, .status .running :: effects)
    else abort r
  | .failed error =>
    let e := SubscriptionError.checkpoint error
    ({ r with phase := .finished (.error e) }, [.status .dropped, .finished (.error e)])
  | .panicked => abort r

/-- A page has arrived.  An empty one means that there is nothing new. -/
def pageRead (s : Subscription F) (r : Run F) (cursor : Cursor) :
    Reply StoreError (List StoredEvent) → Move F
  | .ok [] => sleep r { cursor with failures := 0 } s.options.pollInterval
  | .ok page => ({ r with phase := .delivering { cursor with failures := 0 } page }, [])
  | .failed error =>
    if error.isTransient && cursor.failures < s.options.maxPollFailures then
      let failures := cursor.failures + 1
      sleep r { cursor with failures } (s.options.pollBackoff failures)
    else stopPolling r (.store error)
  | .panicked => abort r

/-! ## 2. Handing out -/

/-- The number of messages that fit into the queue of a lane. -/
def laneCapacity : Nat := 64

/-- Goes on after an event was handed out. -/
def advance (s : Subscription F) (r : Run F) (cursor : Cursor) (e : StoredEvent)
    (rest : List StoredEvent) : Move F :=
  let cursor := { cursor with after := some (s.position e), sequence := cursor.sequence + 1 }
  if r.isInterrupted then ({ r with phase := .draining }, [])
  else
    match rest with
    | [] => read s r cursor
    | rest => ({ r with phase := .delivering cursor rest }, [])

/-- Where a message goes. -/
inductive Destination where
  /-- To a worker or a lane that has room for it. -/
  | open (lane : Option Nat)
  /-- To a lane whose worker is gone. -/
  | stopped (lane : Nat)
  /-- Nowhere yet, as there is no room. -/
  | full
  /-- The computation of the key breaks down. -/
  | unknown
  deriving DecidableEq

/-- Where the mode sends a message. -/
def destination (s : Subscription F) (r : Run F) (m : Message F) : Destination :=
  match s.options.mode with
  | .concurrent limit => if r.heldCount < max limit 1 then .open none else .full
  | .partitioned partitions key =>
    match key m with
    | none => .unknown
    | some key =>
      let lane := Murmur3.assign key (max partitions 1)
      if lane ∈ r.stoppedLanes then .stopped lane
      else if r.queueLength lane < laneCapacity then .open (some lane)
      else .full

/-- Hands out the first event of the page, unless there is no room for it. -/
def deliver (s : Subscription F) (r : Run F) (cursor : Cursor) (e : StoredEvent)
    (rest : List StoredEvent) : Option (Move F) :=
  match s.decode e cursor.sequence with
  | .error error => some (stopPolling r error)
  | .ok m =>
    match destination s r m with
    | .full => none
    | .unknown => some (abort r)
    | .stopped lane =>
      let error := SubscriptionError.workerStopped lane
      let (r, effects) := advance s (r.drop error) cursor e rest
      some (r, .dispatched m :: .lost m.sequence :: .dropped error :: effects)
    | .open lane =>
      let (r, effects) :=
        advance s { r with tasks := r.tasks ++ [{ message := m, lane }] } cursor e rest
      some (r, .dispatched m :: effects)

/-! ## 3. Ending -/

/-- The run ends on its first error, or well. -/
def finish (r : Run F) : Move F :=
  match r.failure with
  | some e => ({ r with phase := .finished (.error e) }, [.status .dropped, .finished (.error e)])
  | none => ({ r with phase := .finished (.ok ()) }, [.status .stopped, .finished (.ok ())])

/-- Stores the last checkpoint by force, if that is due. -/
def flush (s : Subscription F) (r : Run F) : Move F :=
  match r.committer.due with
  | some p => ({ r with phase := .flushing p }, [.storing (s.checkpoint p.position) true])
  | none => finish r

/-- The store has answered to the last checkpoint. -/
def flushed (r : Run F) : Reply CheckpointError Unit → Move F
  | .ok () => finish { r with committer := r.committer.flushed }
  | .failed error =>
    let e := SubscriptionError.checkpoint error
    let (r, effects) := finish (r.drop e)
    (r, .dropped e :: effects)
  | .panicked => abort r

/-! ## 4. What an action does to the poller -/

/-- The move of the poller on an action; `none` if the action cannot happen now. -/
def pollerStep (s : Subscription F) (r : Run F) : Action → Option (Move F)
  | .subscribe =>
    match r.phase with
    | .created => some ({ r with phase := .loading }, [.status .subscribing, .loading])
    | _ => none
  | .checkpointLoaded reply =>
    match r.phase with
    | .loading => some (checkpointLoaded s r reply)
    | _ => none
  | .pageRead reply =>
    match r.phase with
    | .reading cursor => some (pageRead s r cursor reply)
    | _ => none
  | .wake =>
    match r.phase with
    | .sleeping cursor => some (read s r cursor)
    | _ => none
  | .interrupt =>
    match r.phase with
    | .reading _ | .sleeping _ =>
      if r.isInterrupted then some ({ r with phase := .draining }, []) else none
    | _ => none
  | .deliver =>
    match r.phase with
    | .delivering cursor (e :: rest) => deliver s r cursor e rest
    | _ => none
  | .halt =>
    match r.phase with
    | .draining =>
      if r.heldCount = 0 then some ({ r with phase := .settling, drained := true }, []) else none
    | _ => none
  | .flush =>
    match r.phase with
    | .settling => if r.tasks.isEmpty then some (flush s r) else none
    | _ => none
  | .flushed reply =>
    match r.phase with
    | .flushing _ => some (flushed r reply)
    | _ => none
  | _ => none

end EventSourcing.Run

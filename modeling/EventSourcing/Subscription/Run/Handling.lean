/-
# Handling a message

A worker calls the handlers of a message one after the other and repeats an attempt that failed as
often as the policy says.  A message all handlers are done with is confirmed; one whose
acknowledgement is to follow leaves its worker and waits; one that failed goes to the handler of
failed messages, or drops the subscription.

Sections: 1 where handling leads; 2 calling handlers; 3 acknowledgements; 4 confirming; 5 what an
action does to a task.
-/
import EventSourcing.Subscription.Run.State

namespace EventSourcing.Run

variable {F : PayloadFamily}

/-! ## 1. Where handling leads -/

/-- The message is dealt with. -/
def settled (r : Run F) (t : Task F) (cause : Cause) : Move F :=
  (r.put { t with stage := .confirming }, [.confirmed t.sequence cause])

/-- The task ends, and the subscription is dropped. -/
def dropTask (r : Run F) (t : Task F) (e : SubscriptionError) : Move F :=
  ((r.remove t.sequence).drop e, [.dropped e])

/-- The task ends without its message being dealt with. -/
def abandonTask (r : Run F) (t : Task F) : Move F := (r.remove t.sequence, [.abandoned t.sequence])

/-- The error of a handler on a message. -/
def handlerError (m : Message F) (name : String) (error : HandlerError) : SubscriptionError :=
  .handler name m.id m.position.position error

/-- Hands a message that failed to what takes failed messages. -/
def fail (s : Subscription F) (r : Run F) (t : Task F) (name : String)
    (error : HandlerError) : Move F :=
  if r.isHalted then abandonTask r t
  else
    match s.failureHandler with
    | none => dropTask r t (handlerError t.message name error)
    | some _ => (r.put { t with stage := .recovering error }, [.recovering t.message error])

/-- The worker of the task breaks down.  The worker of a lane takes the queue of the lane with
it. -/
def loseWorker (r : Run F) (t : Task F) : Move F :=
  match t.holder, t.lane with
  | .worker, some lane =>
    let gone (u : Task F) : Bool := u.sequence = t.sequence || u.isQueuedIn lane
    let lost := (r.tasks.filter gone).map fun u => Effect.lost u.sequence
    ({ r with tasks := r.tasks.filter (!gone ·), stoppedLanes := lane :: r.stoppedLanes }, lost)
  | _, _ => (r.remove t.sequence, [.lost t.sequence])

/-! ## 2. Calling handlers -/

/-- Makes an attempt. -/
def call (r : Run F) (t : Task F) (attempt : Attempt) (status : HandlingStatus) : Move F :=
  let message := { t.message with retryCount := attempt.retry }
  (r.put { t with message, stage := .calling attempt status }, [.called attempt.handler message])

/-- All handlers are done with the message. -/
def handled (r : Run F) (t : Task F) (status : HandlingStatus) : Move F :=
  let t := { t with ack := t.ack.close }
  match status with
  | .pending => (r.put { t with stage := .awaitingAck, holder := .acknowledgement }, [])
  | _ => settled r t .handled

/-- Goes on with the handler at a place; `status` is what the handlers before it made of the
message. -/
def callNext (s : Subscription F) (r : Run F) (t : Task F) (handler : Nat)
    (status : HandlingStatus) : Move F :=
  if handler < s.handlers.length then call r t ⟨handler, 0⟩ status else handled r t status

/-- An attempt failed: it is repeated after a delay, or the message has failed. -/
def attemptFailed (s : Subscription F) (r : Run F) (t : Task F) (attempt : Attempt)
    (status : HandlingStatus) (error : HandlerError) : Move F :=
  if s.options.retry.maxRetries ≤ attempt.retry then
    fail s r { t with ack := t.ack.close } (s.handlerName attempt.handler) error
  else
    let next : Attempt := ⟨attempt.handler, attempt.retry + 1⟩
    let message := { t.message with retryCount := next.retry }
    (r.put { t with message, stage := .backingOff next status error },
      [.backedOff t.sequence (s.options.retry.delayFor next.retry)])

/-- An attempt ended.  Only a limited call runs out of time. -/
def attemptEnded (s : Subscription F) (r : Run F) (t : Task F) (attempt : Attempt)
    (status : HandlingStatus) :
    AttemptEnd → Option (Move F)
  | .returned answer => some (callNext s r t (attempt.handler + 1) (status.combine answer))
  | .failed error => some (attemptFailed s r t attempt status error)
  | .timedOut =>
    s.options.handlerTimeout.map fun limit => attemptFailed s r t attempt status (.timedOut limit)
  | .panicked text =>
    let name := s.handlerName attempt.handler
    some (dropTask r t (.handlerPanicked name t.message.id (text.getD "unknown panic")))

/-- Whether a worker is free to take the task up: any task has a worker of its own, but in a lane
the tasks take turns. -/
def mayStart (r : Run F) (t : Task F) : Bool :=
  match t.lane with
  | none => true
  | some lane =>
    !r.tasks.any (·.occupies lane) &&
      (r.tasks.find? (·.isQueuedIn lane)).any (·.sequence == t.sequence)

/-- A worker takes the task up. -/
def start (s : Subscription F) (r : Run F) (t : Task F) : Move F :=
  if r.isHalted then abandonTask r t else callNext s r { t with ack := .armed } 0 .ignored

/-! ## 3. Acknowledgements -/

/-- The name under which a refused acknowledgement appears in errors. -/
def acknowledgementName : String := "deferred acknowledgement"

/-- The acknowledgement arrived. -/
def acknowledged (s : Subscription F) (r : Run F) (t : Task F) : Acknowledgement → Move F
  | .acked => settled r t .acknowledged
  | .nacked reason => fail s r t acknowledgementName (.nacked reason)
  | .dropped => fail s r t acknowledgementName (.nacked "acknowledgement dropped")

/-! ## 4. Confirming -/

/-- The position of the message is confirmed; the checkpoint is stored if the gapless part grew. -/
def confirm (s : Subscription F) (r : Run F) (t : Task F) : Move F :=
  match r.committer.confirm t.message.position with
  | (none, committer) => ({ r.remove t.sequence with committer }, [])
  | (some p, committer) =>
    ({ r.put { t with stage := .storing p } with committer },
      [.storing (s.checkpoint p.position) false])

/-- The store has answered. -/
def stored (r : Run F) (t : Task F) (p : CommitPosition) : Reply CheckpointError Unit → Move F
  | .ok () => ({ r.remove t.sequence with committer := r.committer.recorded p }, [.committed p])
  | .failed error => dropTask r t (.checkpoint error)
  | .panicked => loseWorker r t

/-- The handler of failed messages has answered. -/
def recovered (r : Run F) (t : Task F) (name : String) : Reply HandlerError Unit → Move F
  | .ok () => settled r t .recovered
  | .failed error => dropTask r t (handlerError t.message name error)
  | .panicked => loseWorker r t

/-! ## 5. What an action does to a task -/

/-- The move of a task on an action of its own; `none` if the action cannot happen now. -/
def taskStep (s : Subscription F) (r : Run F) (t : Task F) : Action → Option (Move F)
  | .start _ => if t.isQueued && r.mayStart t then some (start s r t) else none
  | .attemptEnded _ outcome =>
    match t.stage with
    | .calling attempt status => attemptEnded s r t attempt status outcome
    | _ => none
  | .retry _ =>
    match t.stage with
    | .backingOff next status _ => some (call r t next status)
    | _ => none
  | .giveUp _ =>
    match t.stage with
    | .backingOff next _ error =>
      if r.isHalted then
        some (fail s r { t with ack := t.ack.close } (s.handlerName next.handler) error)
      else none
    | _ => none
  | .takeAck _ attempt =>
    if t.ack = .armed && t.hasMade attempt then some (r.put { t with ack := .taken attempt }, [])
    else none
  | .settleAck _ answer =>
    match t.ack with
    | .taken attempt => some (r.put { t with ack := .settled attempt answer }, [])
    | _ => none
  | .resume _ => if t.stage = .awaitingAck then t.ack.answer?.map (acknowledged s r t) else none
  | .abandon _ => if t.stage = .awaitingAck && r.isHalted then some (abandonTask r t) else none
  | .recovered _ reply =>
    match t.stage with
    | .recovering _ => s.failureHandler.map fun name => recovered r t name reply
    | _ => none
  | .confirm _ => if t.stage = .confirming && !r.isStoring then some (confirm s r t) else none
  | .stored _ reply =>
    match t.stage with
    | .storing p => some (stored r t p reply)
    | _ => none
  | _ => none

end EventSourcing.Run

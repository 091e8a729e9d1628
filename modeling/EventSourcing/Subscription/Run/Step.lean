/-
# The steps of a run

A step is the move of a run on one action.  A list of actions that all can happen, one after the
other, is a history of the run, and the effects they leave are its trace.

What the file settles:

* `Run.step`: the move on an action, `none` if it cannot happen now;
* `Run.replay?`: a whole history, from the beginning of the run;
* `Run.ended?`: how a run ended, for whoever waits for it.
-/
import EventSourcing.Subscription.Run.Polling

namespace EventSourcing.Run

variable {F : PayloadFamily}

/-- The message an action is about, if it is about one. -/
def Action.sequence? : Action → Option Nat
  | .start n | .attemptEnded n _ | .retry n | .giveUp n | .takeAck n _ | .settleAck n _ | .resume n
  | .abandon n
  | .recovered n _ | .confirm n | .stored n _ => some n
  | _ => none

/-- The move on an action; `none` if it cannot happen now. -/
def step (s : Subscription F) (r : Run F) (a : Action) : Option (Move F) :=
  match a.sequence? with
  | some n => (r.task? n).bind fun t => taskStep s r t a
  | none =>
    match a with
    | .cancel => some ({ r with cancelled := true }, [])
    | a => pollerStep s r a

/-- All actions one after the other, with the effects of each in order. -/
def replay? (s : Subscription F) : Run F → List Action → Option (Move F)
  | r, [] => some (r, [])
  | r, a :: rest =>
    match step s r a with
    | none => none
    | some (r, effects) => (replay? s r rest).map fun m => (m.1, effects ++ m.2)

/-- How a run ended, if it has.  Of a run whose poller broke down no more than that is known. -/
def ended? (r : Run F) : Option (Except SubscriptionError Unit) :=
  match r.phase with
  | .finished result => some result
  | .aborted => some (.error (.taskPanicked "panicked"))
  | _ => none

end EventSourcing.Run

/-
# How a subscription fails

Every error ends the subscription.  It names the message, and the handler, that could not be dealt
with.
-/
import EventSourcing.Checkpoint
import EventSourcing.Subscription.Status
import EventSourcing.Store.Event

namespace EventSourcing

/-- Why a subscription ended. -/
inductive SubscriptionError where
  | checkpoint (error : CheckpointError)
  /-- The source cannot be read. -/
  | store (error : StoreError)
  /-- An event cannot be decoded; it is never passed over. -/
  | undecodable (message : Uuid) (position : Nat) (error : SerializationError)
  /-- A handler failed, and nothing took the message off it. -/
  | handler (name : String) (message : Uuid) (position : Nat) (error : HandlerError)
  | handlerPanicked (name : String) (message : Uuid) (text : String)
  /-- The worker of a lane broke down. -/
  | workerStopped (lane : Nat)
  /-- The run itself broke down. -/
  | taskPanicked (text : String)
  deriving DecidableEq

/-- The text of the failure. -/
def SubscriptionError.message : SubscriptionError → String
  | .checkpoint error => error.message
  | .store error => error.message
  | .undecodable message position error =>
    "cannot decode message " ++ message.text ++ " at position " ++ toString position ++ ": " ++
      error.message
  | .handler name message position error =>
    name ++ " failed to handle message " ++ message.text ++ " at position " ++
      toString position ++ ": "
      ++ error.message
  | .handlerPanicked name message text =>
    name ++ " panicked handling message " ++ message.text ++ ": " ++ text
  | .workerStopped lane =>
    "subscription task failed: worker of partition " ++ toString lane ++ " stopped"
  | .taskPanicked text => "subscription task failed: " ++ text

end EventSourcing

/-
# Statuses

What a handler did with a message, how a handler may fail, and where a subscription is in its life.
-/
import EventSourcing.Time

namespace EventSourcing

/-! ## 1. Handling -/

/-- What a handler did with a message. -/
inductive HandlingStatus where
  /-- The message does not concern the handler. -/
  | ignored
  /-- The handler is done with the message. -/
  | success
  /-- The handler will acknowledge the message later. -/
  | pending
  deriving DecidableEq, Inhabited

namespace HandlingStatus

/-- The place of a status in their order. -/
def rank : HandlingStatus → Nat
  | .ignored => 0
  | .success => 1
  | .pending => 2

/-- The status of a message that two handlers dealt with: the greater one. -/
def combine (a b : HandlingStatus) : HandlingStatus := if a.rank ≤ b.rank then b else a

/-- The name of a status. -/
def name : HandlingStatus → String
  | .ignored => "Ignored"
  | .success => "Success"
  | .pending => "Pending"

/-- The status with this name. -/
def ofName? : String → Option HandlingStatus
  | "Ignored" => some .ignored
  | "Success" => some .success
  | "Pending" => some .pending
  | _ => none

theorem rank_combine (a b : HandlingStatus) : (a.combine b).rank = max a.rank b.rank := by
  cases a <;> cases b <;> rfl

end HandlingStatus

/-- Why a handler did not handle a message. -/
inductive HandlerError where
  /-- The handler failed on its own account. -/
  | failed (text : String)
  /-- The handler took longer than it may. -/
  | timedOut (limit : Duration)
  /-- The acknowledgement was refused. -/
  | nacked (reason : String)
  deriving DecidableEq

/-- The text of a handler's error. -/
def HandlerError.message : HandlerError → String
  | .failed text => text
  | .timedOut limit => "handler timed out after " ++ limit.text
  | .nacked reason => "message was negatively acknowledged: " ++ reason

/-! ## 2. Subscriptions -/

/-- Where a subscription is in its life. -/
inductive SubscriptionStatus where
  | stopped
  /-- The checkpoint is being loaded. -/
  | subscribing
  | running
  /-- Ended by an error. -/
  | dropped
  deriving DecidableEq, Inhabited

namespace SubscriptionStatus

/-- All statuses. -/
def all : List SubscriptionStatus := [.stopped, .subscribing, .running, .dropped]

/-- The name of a status. -/
def name : SubscriptionStatus → String
  | .stopped => "Stopped"
  | .subscribing => "Subscribing"
  | .running => "Running"
  | .dropped => "Dropped"

/-- The status with this name. -/
def ofName? (name : String) : Option SubscriptionStatus := all.find? (·.name = name)

end SubscriptionStatus

end EventSourcing

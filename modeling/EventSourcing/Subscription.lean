/-
# Subscriptions

A subscription reads the events of a source after its checkpoint, hands each to its handlers, and
moves the checkpoint on over the gapless part of what was handled.  This is what stays the same over
all of its runs.

What the file settles:

* `Subscription.decode`, `Subscription.message_of_decode`: an event of the source as the message
  handlers are given;
* `Subscription.handlerName`: how handlers appear in errors.
-/
import EventSourcing.Subscription.Error
import EventSourcing.Subscription.Options

namespace EventSourcing

/-- What the runs of a subscription have in common. -/
structure Subscription (F : PayloadFamily) where
  options : SubscriptionOptions F
  registry : TypeRegistry F
  /-- The position of an event in the source. -/
  position : StoredEvent → Nat
  /-- The names of the handlers, in the order they are called. -/
  handlers : List String
  /-- The name of the handler of messages that failed, if there is one. -/
  failureHandler : Option String

namespace Subscription

variable {F : PayloadFamily}

/-- The message an event becomes as the `sequence`-th of a run. -/
def decode (s : Subscription F) (e : StoredEvent) (sequence : Nat) :
    Except SubscriptionError (Message F) :=
  match s.registry.deserialize e.serialized with
  | .error error => .error (.undecodable e.id (s.position e) error)
  | .ok payload => .ok (.ofEvent s.options.id e (s.position e) sequence payload)

theorem message_of_decode {s : Subscription F} {e : StoredEvent} {sequence : Nat} {m : Message F}
    (decoded : s.decode e sequence = .ok m) :
    ∃ payload, s.registry.deserialize e.serialized = .ok payload ∧
      m = .ofEvent s.options.id e (s.position e) sequence payload := by
  unfold decode at decoded
  split at decoded
  · cases decoded
  · rename_i payload known
    cases decoded
    exact ⟨payload, known, rfl⟩

/-- The name of a handler by its place among them. -/
def handlerName (s : Subscription F) (handler : Nat) : String := s.handlers[handler]?.getD ""

/-- The checkpoint at a position. -/
def checkpoint (s : Subscription F) (position : Nat) : Checkpoint := ⟨s.options.id, some position⟩

end Subscription

end EventSourcing

/-
# Messages

What a subscription hands to its handlers: a decoded event together with where it stands.
-/
import EventSourcing.Store.Event
import EventSourcing.Subscription.CommitSequence

namespace EventSourcing

/-- A decoded event on its way to the handlers. -/
structure Message (F : PayloadFamily) where
  subscription : String
  id : Uuid
  /-- The registered name of the payload's shape. -/
  type : String
  contentType : String
  stream : StreamName
  streamPosition : Nat
  globalPosition : Nat
  /-- What is stored as the checkpoint once the message is confirmed. -/
  position : CommitPosition
  occurredOn : Instant
  metadata : Metadata
  payload : Payload F
  /-- Failed attempts before the present one. -/
  retryCount : Nat := 0

namespace Message

variable {F : PayloadFamily}

/-- The message an event becomes at a place in a run. -/
def ofEvent (subscription : String) (e : StoredEvent) (position sequence : Nat)
    (payload : Payload F) : Message F where
  subscription := subscription
  id := e.id
  type := e.type
  contentType := e.contentType
  stream := e.stream
  streamPosition := e.streamPosition
  globalPosition := e.globalPosition
  position := ⟨position, sequence, e.occurredOn⟩
  occurredOn := e.occurredOn
  metadata := e.metadata
  payload := payload

/-- The number of the message in its run. -/
abbrev sequence (m : Message F) : Nat := m.position.sequence

/-- The message as a record, without what it carries. -/
def display (m : Message F) : String :=
  Display.record "MessageContext" [("subscription_id", Display.quoted m.subscription),
    ("message_id", m.id.text), ("message_type", Display.quoted m.type),
    ("stream", Display.wrapped "StreamName" (Display.quoted m.stream.text)),
    ("stream_position", toString m.streamPosition), ("global_position", toString m.globalPosition),
    ("retry_count", toString m.retryCount)]

end Message

end EventSourcing

/-
# Messages that cause messages

A gateway turns a consumed message into one it publishes; a parking place keeps a message that could
not be handled, with the error and where it came from.  In both the new message names the consumed
one as its cause and carries on its chain.

What the file settles:

* `Gateway.outgoing`: what a route makes of a message; its identifier depends only on the consumed
  one and the target, so a message delivered again is published under the same identifier;
* `parked`: a message as it is parked.
-/
import EventSourcing.Publishing
import EventSourcing.Subscription.Message
import EventSourcing.Subscription.Status

namespace EventSourcing

variable {F : PayloadFamily}

/-! ## 1. Gateways -/

/-- Where a consumed message goes, and as what. -/
structure Routed (F : PayloadFamily) where
  target : StreamName
  payload : Payload F
  type : String
  /-- Goes onto the published message where its keys are free. -/
  metadata : Metadata := Metadata.empty
  options : PublishOptions := {}

/-- Decides which message, if any, a consumed message turns into. -/
abbrev Route (F : PayloadFamily) := Message F → Option (Routed F)

namespace Gateway

/-- The name of a gateway among handlers. -/
def name : String := "gateway"

/-- The identifier of the message that a consumed one turns into for a target. -/
def outgoingId (consumed : Uuid) (target : StreamName) : Uuid :=
  consumed.nameBased target.text.toUTF8.data.toList

/-- The published message. -/
def outgoing (m : Message F) (r : Routed F) : OutgoingMessage F where
  id := outgoingId m.id r.target
  payload := r.payload
  type := r.type
  metadata := (m.metadata.causedBy m.id).mergeMissing r.metadata

/-- Handles a message: one without a route is ignored, any other is published.  The answer comes
with the time it took. -/
def handle {π : Type} [Publisher F π] (route : Route F) (m : Message F) (p : π) :
    Except HandlerError HandlingStatus × Duration × π :=
  match route m with
  | none => (.ok .ignored, .zero, p)
  | some r =>
    let (published, p) := publish r.target [outgoing m r] Metadata.empty r.options p
    let answer := match published.result with
      | .ok () => .ok .success
      | .error error => .error (.failed error.message)
    (answer, published.took, p)

end Gateway

/-! ## 2. Parking -/

/-- The name of parking among what takes failed messages. -/
def parkingName : String := "ParkingFailureHandler"

/-- The metadata of a parked message: its cause and chain, the error, where the message came from,
and what it carried beside that. -/
def parkedMetadata (m : Message F) (error : HandlerError) : Metadata :=
  let own := (((m.metadata.causedBy m.id).insert errorKey error.message).insert
    originalStreamKey m.stream.text).insert originalPositionKey (toString m.streamPosition)
  own.mergeMissing m.metadata

/-- The message as it is parked under a new identifier. -/
def parked (id : Uuid) (m : Message F) (error : HandlerError) : OutgoingMessage F where
  id := id
  payload := m.payload
  type := m.type
  metadata := parkedMetadata m error

/-- Parks a message in a stream.  The answer comes with the time it took. -/
def park {π : Type} [Publisher F π] (stream : StreamName) (id : Uuid) (m : Message F)
    (error : HandlerError) (p : π) : Except HandlerError Unit × Duration × π :=
  let (published, p) := publish stream [parked id m error] Metadata.empty {} p
  let answer := match published.result with
    | .ok () => .ok ()
    | .error error => .error (.failed error.message)
  (answer, published.took, p)

end EventSourcing

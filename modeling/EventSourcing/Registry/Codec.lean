/-
# Payloads to bytes and back

A payload is stored as the name of its shape, a content type and bytes.  Everything written is JSON,
and nothing else is read.  A name that is not registered is an error and never skipped, so that no
reader passes over an event it does not understand.

What the file settles:

* `TypeRegistry.serialize`, `TypeRegistry.deserialize`: one payload;
* `TypeRegistry.serializeEvent`, `TypeRegistry.deserializeEvent`: an event of a set.
-/
import EventSourcing.Registry

namespace EventSourcing

/-! ## 1. Failures -/

/-- The content type of all that is written. -/
def jsonContentType : String := "application/json"

/-- Why bytes and value do not meet. -/
inductive CodecFailure where
  /-- The bytes spell no value of the shape. -/
  | malformed
  /-- The value does not want to be written. -/
  | refused (text : String)
  deriving DecidableEq

/-- The text of a codec failure. -/
def CodecFailure.message : CodecFailure → String
  | .malformed => "malformed value"
  | .refused text => text

/-- Why a payload cannot be written or read. -/
inductive SerializationError where
  /-- The registry does not know the type. -/
  | registry (error : RegistryError)
  /-- Writing or reading the value failed. -/
  | json (eventType : String) (failure : CodecFailure)
  /-- The content is not JSON. -/
  | unsupportedContentType (contentType : String)
  /-- The shape is not one of the target's. -/
  | unexpectedShape (eventType target : String)
  deriving DecidableEq

/-- The text of a serialization error. -/
def SerializationError.message : SerializationError → String
  | .registry error => error.message
  | .json eventType failure =>
    "failed to (de)serialize event `" ++ eventType ++ "`: " ++ failure.message
  | .unsupportedContentType contentType => "unsupported content type `" ++ contentType ++ "`"
  | .unexpectedShape eventType target =>
    "event `" ++ eventType ++ "` is not part of `" ++ target ++ "`"

/-! ## 2. One payload -/

/-- A payload as it is stored. -/
structure SerializedPayload where
  eventType : String
  contentType : String
  bytes : List UInt8
  deriving DecidableEq

namespace TypeRegistry

variable {F : PayloadFamily}

/-- The stored form of a payload.  `shapeName` names it in the error if its shape is not
registered. -/
def serialize (r : TypeRegistry F) (p : Payload F) (shapeName : String) :
    Except SerializationError SerializedPayload :=
  match r.byShape? p.shape with
  | none => .error (.registry (.unregisteredShape shapeName))
  | some t =>
    match F.encode p.shape p.value with
    | .error text => .error (.json t.name (.refused text))
    | .ok bytes => .ok ⟨t.name, jsonContentType, bytes⟩

/-- The payload that a stored form spells. -/
def deserialize (r : TypeRegistry F) (stored : SerializedPayload) :
    Except SerializationError (Payload F) :=
  if stored.contentType ≠ jsonContentType then .error (.unsupportedContentType stored.contentType)
  else
    match r.resolve stored.eventType with
    | .error error => .error (.registry error)
    | .ok t =>
      match F.decode t.shape stored.bytes with
      | none => .error (.json stored.eventType .malformed)
      | some value => .ok ⟨t.shape, value⟩

/-! ## 3. Events of a set -/

/-- The stored form of an event. -/
def serializeEvent (r : TypeRegistry F) {E : EventSet F} (e : E.Event) :
    Except SerializationError SerializedPayload :=
  r.serialize e.payload e.payload.shapeName

/-- The event of the set that a stored form spells. -/
def deserializeEvent (r : TypeRegistry F) (E : EventSet F) (stored : SerializedPayload) :
    Except SerializationError E.Event :=
  match r.deserialize stored with
  | .error error => .error error
  | .ok payload =>
    match E.ofPayload? payload with
    | none => .error (.unexpectedShape stored.eventType E.name)
    | some event => .ok event

end TypeRegistry

end EventSourcing

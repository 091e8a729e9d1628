/-
# Events of a store

What a writer hands to a store, what a store keeps, and how a store may fail.
-/
import EventSourcing.Metadata
import EventSourcing.Time
import EventSourcing.Stream.Name
import EventSourcing.Stream.Version
import EventSourcing.Registry.Codec

namespace EventSourcing

/-! ## 1. Events -/

/-- An event about to be appended. -/
structure NewEvent where
  id : Uuid
  type : String
  contentType : String
  payload : List UInt8
  metadata : Metadata
  deriving DecidableEq, Inhabited

/-- The event with this identifier, stored form and metadata. -/
def NewEvent.of (id : Uuid) (stored : SerializedPayload) (metadata : Metadata) : NewEvent :=
  ⟨id, stored.eventType, stored.contentType, stored.bytes, metadata⟩

/-- An event as the store keeps it: with its stream, its two positions and the time it was
written. -/
structure StoredEvent where
  id : Uuid
  stream : StreamName
  type : String
  contentType : String
  payload : List UInt8
  metadata : Metadata
  occurredOn : Instant
  streamPosition : Nat
  globalPosition : Nat
  deriving DecidableEq, Inhabited

/-- The stored form of an event's payload. -/
def StoredEvent.serialized (e : StoredEvent) : SerializedPayload :=
  ⟨e.type, e.contentType, e.payload⟩

/-- The answer to an append. -/
structure Appended where
  /-- What to expect at the next append to the same stream. -/
  nextExpected : ExpectedVersion
  /-- The global position of the last event. -/
  globalPosition : Nat
  deriving DecidableEq

/-! ## 2. Failures -/

/-- How a store fails. -/
inductive StoreError where
  /-- The version is not the one the writer expected. -/
  | wrongExpectedVersion (stream : StreamName) (expected : ExpectedVersion) (actual : Option Nat)
  | streamDeleted (stream : StreamName)
  | streamNotFound (stream : StreamName)
  | timedOut (limit : Duration)
  /-- The backing store itself failed. -/
  | backend (text : String)
  deriving DecidableEq

namespace StoreError

/-- The text of a store's failure. -/
def message : StoreError → String
  | .wrongExpectedVersion stream expected actual =>
    "wrong expected version for stream " ++ stream.text ++ ": expected " ++ expected.text
      ++ ", actual "
      ++ Display.optional (actual.map toString)
  | .streamDeleted stream => "stream " ++ stream.text ++ " was deleted"
  | .streamNotFound stream => "stream " ++ stream.text ++ " not found"
  | .timedOut limit => "store operation timed out after " ++ limit.text
  | .backend text => text

/-- Whether the same call may succeed later. -/
def isTransient : StoreError → Bool
  | .timedOut _ | .backend _ => true
  | _ => false

end StoreError

end EventSourcing

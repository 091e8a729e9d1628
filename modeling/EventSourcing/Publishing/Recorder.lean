/-
# Publishers

A recorder keeps every chunk it is sent, and may be told to reject one.  A store takes a chunk as
one append that expects any version; the identifier of a message becomes that of the event.
-/
import EventSourcing.Publishing
import EventSourcing.Registry.Codec

namespace EventSourcing

variable {F : PayloadFamily}

/-! ## 1. Recording -/

/-- A chunk that arrived. -/
structure RecordedChunk (F : PayloadFamily) where
  stream : StreamName
  messages : List (OutgoingMessage F)
  options : PublishOptions

/-- Keeps the chunks it is sent, in order. -/
structure Recorder (F : PayloadFamily) where
  chunks : List (RecordedChunk F) := []
  /-- The number of chunks it was sent, a rejected one included. -/
  calls : Nat := 0
  /-- The chunk to reject, counted from zero. -/
  rejects : Option Nat := none

namespace Recorder

instance : Inhabited (Recorder F) := ⟨{}⟩

/-- Takes a chunk, unless it is the one to reject. -/
def take (stream : StreamName) (messages : List (OutgoingMessage F)) (options : PublishOptions) :
    Call (Recorder F) PublishError Unit := fun r =>
  let counted := { r with calls := r.calls + 1 }
  if r.rejects = some r.calls then (.error (.rejected r.calls "rejected by configuration"), counted)
  else (.ok (), { counted with chunks := r.chunks ++ [⟨stream, messages, options⟩] })

/-- All messages that arrived, in order. -/
def messages (r : Recorder F) : List (OutgoingMessage F) := r.chunks.flatMap (·.messages)

/-- The messages that arrived in a stream, in order. -/
def messagesIn (r : Recorder F) (stream : StreamName) : List (OutgoingMessage F) :=
  (r.chunks.filter (·.stream = stream)).flatMap (·.messages)

end Recorder

instance : Publisher F (Recorder F) where
  latency _ := .zero
  send := Recorder.take

/-! ## 2. Appending to a store -/

/-- The events a chunk of messages becomes, unless one of them cannot be written. -/
def chunkEvents (r : TypeRegistry F) :
    List (OutgoingMessage F) → Except SerializationError (List NewEvent)
  | [] => .ok []
  | m :: rest =>
    match r.serialize m.payload m.type with
    | .error error => .error error
    | .ok stored =>
      match chunkEvents r rest with
      | .error error => .error error
      | .ok events => .ok (NewEvent.of m.id stored m.metadata :: events)

/-- A store that messages are published to. -/
structure StorePublisher (F : PayloadFamily) (σ : Type) where
  registry : TypeRegistry F
  store : σ

namespace StorePublisher

variable {σ : Type} [EventStore σ]

/-- Appends a chunk at once. -/
def take (stream : StreamName) (messages : List (OutgoingMessage F)) :
    Call (StorePublisher F σ) PublishError Unit :=
  fun p =>
    match chunkEvents p.registry messages with
    | .error error => (.error (.serialization error), p)
    | .ok events =>
      let (answer, store) := EventStore.append stream .any events p.store
      ((answer.map fun _ => ()).mapError .store, { p with store })

end StorePublisher

instance {σ : Type} [EventStore σ] : Publisher F (StorePublisher F σ) where
  latency _ := .zero
  send stream messages _ := StorePublisher.take stream messages

end EventSourcing

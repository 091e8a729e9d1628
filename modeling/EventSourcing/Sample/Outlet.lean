/-
# A sample outlet

Where the sample publishes to: a recorder, a store, or a place where nothing ever arrives.  Chunks
may be under way for a while.
-/
import EventSourcing.Publishing.Recorder
import EventSourcing.Sample.Shapes
import EventSourcing.Store.Faulty

namespace EventSourcing.Sample

/-- What takes the chunks. -/
inductive Sink where
  | recorder (recorder : Recorder family)
  | store (publisher : StorePublisher family FaultyStore)
  /-- Refuses everything with a text. -/
  | broken (text : String)

/-- A sink, and how long a chunk takes to get there. -/
structure Outlet where
  sink : Sink := .recorder {}
  latency : Duration := .zero

namespace Outlet

instance : Inhabited Outlet := ⟨{}⟩

/-- Hands a chunk to the sink. -/
def send (stream : StreamName) (messages : List (OutgoingMessage family))
    (options : PublishOptions) : Call Outlet PublishError Unit := fun o =>
  match o.sink with
  | .recorder recorder =>
    let (answer, recorder) := recorder.take stream messages options
    (answer, { o with sink := .recorder recorder })
  | .store publisher =>
    let (answer, publisher) := StorePublisher.take stream messages publisher
    (answer, { o with sink := .store publisher })
  | .broken text => (.error (.backend text), o)

/-- The chunks that were recorded. -/
def chunks (o : Outlet) : List (RecordedChunk family) :=
  match o.sink with
  | .recorder recorder => recorder.chunks
  | _ => []

/-- The store behind the outlet, an empty one if there is none. -/
def store (o : Outlet) : MemoryStore :=
  match o.sink with
  | .store publisher => publisher.store.store
  | _ => {}

instance : Publisher family Outlet where
  latency := Outlet.latency
  send := Outlet.send

end Outlet

end EventSourcing.Sample

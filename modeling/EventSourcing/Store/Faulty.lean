/-
# A store with faults in front of it

A call that meets a fault fails before anything happens; any other reaches the store.
-/
import EventSourcing.Store.Memory
import EventSourcing.Faults

namespace EventSourcing

/-- How a call to a store is made to fail; the error names the stream of the call. -/
inductive StoreFault where
  | timedOut (limit : Duration)
  | backend (text : String)
  | notFound
  | deleted
  | wrongVersion (expected : ExpectedVersion) (actual : Option Nat)

/-- The error that a fault causes in a call for the stream. -/
def StoreFault.error (stream : StreamName) : StoreFault → StoreError
  | .timedOut limit => .timedOut limit
  | .backend text => .backend text
  | .notFound => .streamNotFound stream
  | .deleted => .streamDeleted stream
  | .wrongVersion expected actual => .wrongExpectedVersion stream expected actual

/-- The name under which calls for all streams appear in errors. -/
def allStreams : StreamName := ⟨"$all"⟩

/-- A store in memory behind faults. -/
structure FaultyStore where
  store : MemoryStore := {}
  faults : FaultQueues StoreFault := {}

namespace FaultyStore

instance : Inhabited FaultyStore := ⟨{}⟩

/-- Lets the call through unless a fault is in its way. -/
def guarded {α : Type} (kind : String) (stream : StreamName)
    (call : Call MemoryStore StoreError α) : Call FaultyStore StoreError α := fun s =>
  match s.faults.take kind with
  | (some fault, faults) => (.error (fault.error stream), { s with faults })
  | (none, faults) =>
    let (answer, store) := call s.store
    (answer, { store, faults })

end FaultyStore

instance : EventStore FaultyStore where
  append stream expected events :=
    FaultyStore.guarded "append" stream (EventStore.append stream expected events)
  read stream start count := FaultyStore.guarded "read" stream (EventStore.read stream start count)
  readBackwards stream count :=
    FaultyStore.guarded "read_backwards" stream (EventStore.readBackwards stream count)
  streamExists stream := FaultyStore.guarded "exists" stream (EventStore.streamExists stream)
  version stream := FaultyStore.guarded "version" stream (EventStore.version stream)
  truncate stream before expected :=
    FaultyStore.guarded "truncate" stream (EventStore.truncate stream before expected)
  delete stream expected := FaultyStore.guarded "delete" stream (EventStore.delete stream expected)
  readAll after count := FaultyStore.guarded "read_all" allStreams (EventStore.readAll after count)
  head := FaultyStore.guarded "head" allStreams EventStore.head
  size s := s.store.log.size

end EventSourcing

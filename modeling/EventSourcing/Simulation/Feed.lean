/-
# The feed of a simulation

A simulated subscription reads all events of a store, those of one stream, or a list that grows by
hand.  Reads may be made to fail, or to break down.
-/
import EventSourcing.Store.Faulty
import EventSourcing.Subscription.Run.State
import EventSourcing.Subscription.Source

namespace EventSourcing.Simulation

/-- What is read. -/
inductive Origin where
  | all
  | stream (name : StreamName)
  | scripted

/-- What gets in the way of a read. -/
inductive Disturbance where
  | fault (fault : StoreFault)
  /-- The read breaks down. -/
  | panic

/-- A read that came to its end, with the number of events it brought. -/
structure FeedRead where
  after : Option Nat
  count : Nat
  answer : Except StoreError Nat

/-- The events to read, and what gets in the way, with the reads that were made, the last one
first. -/
structure Feed where
  origin : Origin := .all
  store : MemoryStore := {}
  script : List StoredEvent := []
  faults : FaultQueues Disturbance := {}
  record : List FeedRead := []

namespace Feed

/-- The name under which reads of the list appear in errors. -/
def scriptedStream : StreamName := ⟨"$scripted"⟩

/-- Changes the store by a call that nothing gets in the way of. -/
def change {α : Type} (call : Call MemoryStore StoreError α) : Call Feed StoreError α := fun f =>
  let (answer, store) := call f.store
  (answer, { f with store })

/-- Makes the list longer; an event was written that many seconds before the origin of the clock. -/
def push (f : Feed) (e : NewEvent) (stream : StreamName) (position : Nat) (age : Int) : Feed :=
  { f with
    script := f.script ++ [MemoryStore.stored e stream (.ofSeconds (-age)) position position] }

/-- Makes a call unless something is in its way. -/
def guarded {α : Type} (kind : String) (call : Call FaultyStore StoreError α) (f : Feed) :
    Reply StoreError α × Feed :=
  let (disturbance, faults) := f.faults.take kind
  let f := { f with faults }
  let made (s : FaultyStore) : Reply StoreError α × Feed :=
    match call s with
    | (.ok a, s) => (.ok a, { f with store := s.store })
    | (.error e, s) => (.failed e, { f with store := s.store })
  match disturbance with
  | none => made { store := f.store }
  | some (.fault fault) => made { store := f.store, faults := .ofList [(kind, [some fault])] }
  | some .panic => (.panicked, f)

/-- Reads the list. -/
def ofScript {α : Type} (kind : String) (value : α) : Call FaultyStore StoreError α :=
  FaultyStore.guarded kind scriptedStream fun s => (.ok value, s)

/-- Makes a read. -/
def fetch (after : Option Nat) (count : Nat) (f : Feed) :
    Reply StoreError (List StoredEvent) × Feed :=
  match f.origin with
  | .all =>
    f.guarded "read_all" fun s =>
      let (answer, s) := EventSource.readAfter after count (AllEvents.mk s)
      (answer, s.store)
  | .stream name =>
    f.guarded "read" fun s =>
      let (answer, s) := EventSource.readAfter after count (OneStream.mk s name)
      (answer, s.store)
  | .scripted =>
    let events := f.script.filter fun e => after.all (· < e.globalPosition)
    f.guarded "read_all" (ofScript "read_all" (events.take count))

/-- At most `count` events after a position.  A read that breaks down is not recorded. -/
def readAfter (after : Option Nat) (count : Nat) (f : Feed) :
    Reply StoreError (List StoredEvent) × Feed :=
  match f.fetch after count with
  | (.ok page, f) => (.ok page, { f with record := ⟨after, count, .ok page.length⟩ :: f.record })
  | (.failed e, f) => (.failed e, { f with record := ⟨after, count, .error e⟩ :: f.record })
  | (.panicked, f) => (.panicked, f)

/-- The position of the last event. -/
def head (f : Feed) : Reply StoreError (Option Nat) × Feed :=
  match f.origin with
  | .all =>
    f.guarded "head" fun s =>
      let (answer, s) := EventSource.head (AllEvents.mk s)
      (answer, s.store)
  | .stream name =>
    f.guarded "read_backwards" fun s =>
      let (answer, s) := EventSource.head (OneStream.mk s name)
      (answer, s.store)
  | .scripted => f.guarded "head" (ofScript "head" (f.script.getLast?.map (·.globalPosition)))

/-- The position of an event. -/
def position (f : Feed) (e : StoredEvent) : Nat :=
  match f.origin with
  | .stream _ => e.streamPosition
  | _ => e.globalPosition

/-- The answer of a call, a failure if it broke down. -/
def answered {α : Type} : Reply StoreError α × Feed → Except StoreError α × Feed
  | (.ok a, f) => (.ok a, f)
  | (.failed e, f) => (.error e, f)
  | (.panicked, f) => (.error (.backend "the source broke down"), f)

end Feed

instance : EventSource Feed where
  readAfter after count f := Feed.answered (f.readAfter after count)
  head f := Feed.answered f.head
  position := Feed.position

end EventSourcing.Simulation

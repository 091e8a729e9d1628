/-
# A store with a shelf for every stream

The store keeps every event twice: in the log of all events, and on the shelf of its stream, from
which the stream is read.  A shelf stands from the first event of its stream on.  It is cleared when
the stream is deleted; nothing is ever taken out of the log.

What the file settles:

* `Shelf.version?`, `Shelf.visible`, `Shelf.isOpen`: what a shelf says of its stream;
* `ShelvedStore.write`: one list of events, written into the log and onto the shelf;
* the calls of the store, which are those of `MemoryStore` by other means.
-/
import EventSourcing.Store.Memory

namespace EventSourcing

/-! ## 1. Shelves -/

/-- The events of a stream, how far they are hidden, and whether the stream is deleted. -/
structure Shelf where
  events : Array StoredEvent := #[]
  /-- Events before this position are hidden. -/
  hiddenBefore : Nat := 0
  deleted : Bool := false
  deriving Inhabited

namespace Shelf

/-- The position of the last event on the shelf. -/
def version? (f : Shelf) : Option Nat := f.events.back?.map (·.streamPosition)

/-- The events on the shelf that are not hidden. -/
def visible (f : Shelf) : List StoredEvent :=
  f.events.toList.filter (f.hiddenBefore ≤ ·.streamPosition)

/-- Whether the stream can be read off the shelf. -/
def isOpen (f : Shelf) : Bool := !f.deleted && f.version?.isSome

end Shelf

/-- The shelves by the names of their streams, all events in the order they were appended, and the
time the store writes on what it appends. -/
structure ShelvedStore where
  shelves : Table Shelf := Table.empty
  log : Array StoredEvent := #[]
  clock : Instant := ⟨0⟩

namespace ShelvedStore

instance : Inhabited ShelvedStore := ⟨{}⟩

/-- The shelf of the stream, if one stands. -/
def shelf? (s : ShelvedStore) (stream : StreamName) : Option Shelf := s.shelves.get? stream.text

/-- The position of the last event on the shelf of the stream. -/
def version? (s : ShelvedStore) (stream : StreamName) : Option Nat :=
  (s.shelf? stream).bind (·.version?)

/-! ## 2. Writing -/

/-- Writes the events into the log and onto the shelf, the first of them at the stream position
`position`. -/
def write (stream : StreamName) (now : Instant) :
    (position : Nat) → (log shelf : Array StoredEvent) →
      List NewEvent → Array StoredEvent × Array StoredEvent
  | _, log, shelf, [] => (log, shelf)
  | position, log, shelf, e :: rest =>
    let stored := MemoryStore.stored e stream now position log.size
    write stream now (position + 1) (log.push stored) (shelf.push stored) rest

/-- The store with the events in the log and on the shelf of the stream, which is put up if there is
none. -/
def put (s : ShelvedStore) (stream : StreamName) (events : List NewEvent) : ShelvedStore :=
  let shelf := (s.shelf? stream).getD {}
  let position := (shelf.version?.map (· + 1)).getD 0
  let (log, kept) := write stream s.clock position s.log shelf.events events
  { s with shelves := s.shelves.insert stream.text { shelf with events := kept }, log }

/-- The refusal of an append to a stream that is deleted or at another version. -/
def checkAppend (s : ShelvedStore) (stream : StreamName) (expected : ExpectedVersion) :
    Except StoreError Unit :=
  match s.shelf? stream with
  | some shelf =>
    if shelf.deleted then .error (.streamDeleted stream)
    else MemoryStore.checkVersion stream expected shelf.version?
  | none => MemoryStore.checkVersion stream expected none

/-- Appends the events.  No events at all put up no shelf. -/
def append (stream : StreamName) (expected : ExpectedVersion) (events : List NewEvent) :
    Call ShelvedStore StoreError Appended := fun s =>
  match s.checkAppend stream expected with
  | .error error => (.error error, s)
  | .ok () =>
    if events.isEmpty then (.ok ⟨.ofVersion (s.version? stream), s.log.size - 1⟩, s)
    else
      let s' := s.put stream events
      (.ok ⟨.ofVersion (s'.version? stream), s'.log.size - 1⟩, s')

/-- The shelf to change, unless its stream is deleted, unknown or at another version. -/
def checkChange (s : ShelvedStore) (stream : StreamName) (expected : ExpectedVersion) :
    Except StoreError Shelf :=
  match s.shelf? stream with
  | some shelf =>
    if shelf.deleted then .error (.streamDeleted stream)
    else (MemoryStore.checkVersion stream expected shelf.version?).map fun _ => shelf
  | none => .error (.streamNotFound stream)

/-- Hides the events before a position. -/
def truncate (stream : StreamName) (before : Nat) (expected : ExpectedVersion) :
    Call ShelvedStore StoreError Unit :=
  fun s =>
    match s.checkChange stream expected with
    | .error error => (.error error, s)
    | .ok shelf =>
      let shelf := { shelf with hiddenBefore := max shelf.hiddenBefore before }
      (.ok (), { s with shelves := s.shelves.insert stream.text shelf })

/-- Deletes the stream for good and clears its shelf. -/
def delete (stream : StreamName) (expected : ExpectedVersion) : Call ShelvedStore StoreError Unit :=
  fun s =>
  match s.checkChange stream expected with
  | .error error => (.error error, s)
  | .ok shelf =>
    (.ok (), { s with
      shelves := s.shelves.insert stream.text { shelf with deleted := true, events := #[] } })

/-! ## 3. Reading -/

/-- Whether the stream can be read. -/
def hasStream (s : ShelvedStore) (stream : StreamName) : Bool :=
  (s.shelf? stream).elim false (·.isOpen)

/-- What the function makes of the shelf of a stream that can be read. -/
def onShelf {α : Type} (s : ShelvedStore) (stream : StreamName) (f : Shelf → α) :
    Except StoreError α :=
  match s.shelf? stream with
  | some shelf => if shelf.isOpen then .ok (f shelf) else .error (.streamNotFound stream)
  | none => .error (.streamNotFound stream)

/-- At most `count` visible events from a position on. -/
def read (s : ShelvedStore) (stream : StreamName) (start count : Nat) :
    Except StoreError (List StoredEvent) :=
  s.onShelf stream fun shelf => (shelf.visible.filter (start ≤ ·.streamPosition)).take count

/-- At most `count` visible events, the last one first. -/
def readBackwards (s : ShelvedStore) (stream : StreamName) (count : Nat) :
    Except StoreError (List StoredEvent) :=
  s.onShelf stream fun shelf => shelf.visible.reverse.take count

/-- At most `count` events after a global position, from the start if there is none. -/
def readAll (s : ShelvedStore) (after : Option Nat) (count : Nat) : List StoredEvent :=
  (s.log.toList.drop ((after.map (· + 1)).getD 0)).take count

/-- The global position of the last event. -/
def head? (s : ShelvedStore) : Option Nat := s.log.back?.map (·.globalPosition)

end ShelvedStore

/-! ## 4. The calls of the store -/

instance : EventStore ShelvedStore where
  append := ShelvedStore.append
  read stream start count s := (s.read stream start count, s)
  readBackwards stream count s := (s.readBackwards stream count, s)
  streamExists stream s := (.ok (s.hasStream stream), s)
  version stream s := (.ok (s.version? stream), s)
  truncate := ShelvedStore.truncate
  delete := ShelvedStore.delete
  readAll after count s := (.ok (s.readAll after count), s)
  head s := (.ok s.head?, s)
  size s := s.log.size

end EventSourcing

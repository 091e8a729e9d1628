/-
# A store in memory

The store is one log of all events in the order they were appended, and a mark for each stream: how
far it is hidden, and whether it is deleted.  A stream is what the log holds under its name; nothing
is ever taken out of the log.

What the file settles:

* `MemoryStore.entries`: the events of a stream, in order;
* `MemoryStore.version?`: the position of the last of them, `none` once the stream is deleted;
* the calls `append`, `read`, `readBackwards`, `truncate`, `delete`, `readAll`, `head?`.
-/
import EventSourcing.Store
import EventSourcing.Table

namespace EventSourcing

/-! ## 1. The log and the marks -/

/-- What is known of a stream beside its events. -/
structure StreamMark where
  /-- Events before this position are hidden. -/
  hiddenBefore : Nat := 0
  deleted : Bool := false
  deriving DecidableEq, Inhabited

/-- All events in the order they were appended, the marks of the streams that have one, and the time
the store writes on what it appends. -/
structure MemoryStore where
  log : Array StoredEvent := #[]
  marks : Table StreamMark := Table.empty
  clock : Instant := ⟨0⟩

namespace MemoryStore

instance : Inhabited MemoryStore := ⟨{}⟩

/-- The events of the stream, in order. -/
def entries (s : MemoryStore) (stream : StreamName) : List StoredEvent :=
  s.log.toList.filter (·.stream = stream)

/-- The mark of the stream. -/
def mark (s : MemoryStore) (stream : StreamName) : StreamMark := (s.marks.get? stream.text).getD {}

/-- Whether the stream was ever written. -/
def isKnown (s : MemoryStore) (stream : StreamName) : Bool := s.log.any (·.stream = stream)

/-- The position of the last event of the stream, `none` if it was never written or is deleted. -/
def version? (s : MemoryStore) (stream : StreamName) : Option Nat :=
  if (s.mark stream).deleted then none else (s.entries stream).getLast?.map (·.streamPosition)

/-- The events of the stream that are not hidden. -/
def visible (s : MemoryStore) (stream : StreamName) : List StoredEvent :=
  (s.entries stream).filter ((s.mark stream).hiddenBefore ≤ ·.streamPosition)

/-- Whether the stream has been written and not deleted. -/
def hasStream (s : MemoryStore) (stream : StreamName) : Bool := (s.version? stream).isSome

/-- The global position of the last event, zero as long as there is none. -/
def lastPosition (s : MemoryStore) : Nat := s.log.size - 1

/-! ## 2. Writing -/

/-- The refusal of an expectation that does not fit the version. -/
def checkVersion (stream : StreamName) (expected : ExpectedVersion) (actual : Option Nat) :
    Except StoreError Unit :=
  if expected.accepts actual then .ok () else .error (.wrongExpectedVersion stream expected actual)

/-- The event as it is kept at the given positions. -/
def stored (e : NewEvent) (stream : StreamName) (now : Instant)
    (streamPosition globalPosition : Nat) : StoredEvent :=
  ⟨e.id, stream, e.type, e.contentType, e.payload, e.metadata, now, streamPosition, globalPosition⟩

/-- The log with the events at its end, the first of them at the stream position `position`. -/
def pushAll (stream : StreamName) (now : Instant) :
    (position : Nat) → Array StoredEvent → List NewEvent → Array StoredEvent
  | _, log, [] => log
  | position, log, e :: rest =>
    pushAll stream now (position + 1) (log.push (stored e stream now position log.size)) rest

/-- Appends the events.  No events at all still have to expect the right version, and leave the
store as it is. -/
def append (stream : StreamName) (expected : ExpectedVersion) (events : List NewEvent) :
    Call MemoryStore StoreError Appended := fun s =>
  if (s.mark stream).deleted then (.error (.streamDeleted stream), s)
  else
    match checkVersion stream expected (s.version? stream) with
    | .error error => (.error error, s)
    | .ok () =>
      let position := ((s.version? stream).map (· + 1)).getD 0
      let s' := { s with log := pushAll stream s.clock position s.log events }
      (.ok ⟨.ofVersion (s'.version? stream), s'.lastPosition⟩, s')

/-- The refusal of a change to a stream that is deleted, unknown or at another version. -/
def checkChange (s : MemoryStore) (stream : StreamName) (expected : ExpectedVersion) :
    Except StoreError Unit :=
  if (s.mark stream).deleted then .error (.streamDeleted stream)
  else if s.isKnown stream then checkVersion stream expected (s.version? stream)
  else .error (.streamNotFound stream)

/-- Hides the events before a position.  The mark only moves forward, and it may lie beyond the last
event, where it hides what is appended later. -/
def truncate (stream : StreamName) (before : Nat) (expected : ExpectedVersion) :
    Call MemoryStore StoreError Unit :=
  fun s =>
    match s.checkChange stream expected with
    | .error error => (.error error, s)
    | .ok () =>
      let mark := { s.mark stream with hiddenBefore := max (s.mark stream).hiddenBefore before }
      (.ok (), { s with marks := s.marks.insert stream.text mark })

/-- Deletes the stream for good. -/
def delete (stream : StreamName) (expected : ExpectedVersion) : Call MemoryStore StoreError Unit :=
  fun s =>
  match s.checkChange stream expected with
  | .error error => (.error error, s)
  | .ok () =>
    (.ok (), { s with marks := s.marks.insert stream.text { s.mark stream with deleted := true } })

/-! ## 3. Reading -/

/-- At most `count` visible events from a position on. -/
def read (s : MemoryStore) (stream : StreamName) (start count : Nat) :
    Except StoreError (List StoredEvent) :=
  if s.hasStream stream then .ok (((s.visible stream).filter (start ≤ ·.streamPosition)).take count)
  else .error (.streamNotFound stream)

/-- At most `count` visible events, the last one first. -/
def readBackwards (s : MemoryStore) (stream : StreamName) (count : Nat) :
    Except StoreError (List StoredEvent) :=
  if s.hasStream stream then .ok ((s.visible stream).reverse.take count)
    else .error (.streamNotFound stream)

/-- At most `count` events after a global position, from the start if there is none.  The position
that follows is exact, so a checkpoint of `2 ^ 64 - 1`, which no event has and behind which a
machine word overflows, lies outside the model. -/
def readAll (s : MemoryStore) (after : Option Nat) (count : Nat) : List StoredEvent :=
  let start := (after.map (· + 1)).getD 0
  (s.log.extract start (start + count)).toList

/-- The global position of the last event. -/
def head? (s : MemoryStore) : Option Nat := s.log.back?.map (·.globalPosition)

end MemoryStore

/-! ## 4. The calls of the store -/

instance : EventStore MemoryStore where
  append := MemoryStore.append
  read stream start count s := (s.read stream start count, s)
  readBackwards stream count s := (s.readBackwards stream count, s)
  streamExists stream s := (.ok (s.hasStream stream), s)
  version stream s := (.ok (s.version? stream), s)
  truncate := MemoryStore.truncate
  delete := MemoryStore.delete
  readAll after count s := (.ok (s.readAll after count), s)
  head s := (.ok s.head?, s)
  size s := s.log.size

end EventSourcing

/-
# Where a subscription reads its events

A source is read in pages of events after a position.  Positions belong to the source: those of the
whole log, or those of a single stream.

What the file settles:

* `EventSource`: the two calls of a source and the position of an event in it;
* `AllEvents`, `OneStream`: the events of a store, and those of one of its streams.
-/
import EventSourcing.Store

namespace EventSourcing

/-- The calls of a source of events. -/
class EventSource (σ : Type) where
  /-- At most `count` events after a position, from the beginning if there is none, in order. -/
  readAfter : (after : Option Nat) → (count : Nat) → Call σ StoreError (List StoredEvent)
  /-- The position of the last event. -/
  head : Call σ StoreError (Option Nat)
  /-- The position of an event in this source. -/
  position : σ → StoredEvent → Nat

/-- All events of a store, in the order of the log. -/
structure AllEvents (σ : Type) where
  store : σ

instance {σ : Type} [EventStore σ] : EventSource (AllEvents σ) where
  readAfter after count s :=
    let (answer, store) := EventStore.readAll after count s.store
    (answer, ⟨store⟩)
  head s :=
    let (answer, store) := EventStore.head s.store
    (answer, ⟨store⟩)
  position _ e := e.globalPosition

/-- The events of one stream of a store. -/
structure OneStream (σ : Type) where
  store : σ
  stream : StreamName

namespace OneStream

/-- A stream that is not found has no events. -/
def orEmpty {α : Type} (empty : α) : Except StoreError α → Except StoreError α
  | .error (.streamNotFound _) => .ok empty
  | answer => answer

end OneStream

/-- A stream is read from the position that follows.  It is exact, so a checkpoint of `2 ^ 64 - 1`,
which no event has and behind which a machine word overflows, lies outside the model. -/
instance {σ : Type} [EventStore σ] : EventSource (OneStream σ) where
  readAfter after count s :=
    let (answer, store) := EventStore.read s.stream ((after.map (· + 1)).getD 0) count s.store
    (OneStream.orEmpty [] answer, { s with store })
  head s :=
    let (answer, store) := EventStore.readBackwards s.stream 1 s.store
    (OneStream.orEmpty none (answer.map fun events => events.head?.map (·.streamPosition)),
      { s with store })
  position _ e := e.streamPosition

end EventSourcing

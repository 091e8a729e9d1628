/-
# Stores

What a program may ask of a store.  A call takes the store as it is and leaves it as it is
afterwards, so a program that makes several calls can be looked at between any two of them.
-/
import EventSourcing.Store.Event

namespace EventSourcing

/-- A computation on a state that may fail without losing the state. -/
abbrev Call (σ ε α : Type) := σ → Except ε α × σ

/-- The calls of a store of events. -/
class EventStore (σ : Type) where
  /-- Appends all the events to the end of the stream, or none. -/
  append : StreamName → ExpectedVersion → List NewEvent → Call σ StoreError Appended
  /-- At most `count` events of the stream from a position on. -/
  read : StreamName → (start count : Nat) → Call σ StoreError (List StoredEvent)
  /-- At most `count` events of the stream, the last one first. -/
  readBackwards : StreamName → (count : Nat) → Call σ StoreError (List StoredEvent)
  /-- Whether the stream exists. -/
  streamExists : StreamName → Call σ StoreError Bool
  /-- The position of the last event ever appended to the stream. -/
  version : StreamName → Call σ StoreError (Option Nat)
  /-- Hides the events of the stream before a position. -/
  truncate : StreamName → (before : Nat) → ExpectedVersion → Call σ StoreError Unit
  /-- Deletes the stream for good. -/
  delete : StreamName → ExpectedVersion → Call σ StoreError Unit
  /-- At most `count` events of all streams after a global position. -/
  readAll : (after : Option Nat) → (count : Nat) → Call σ StoreError (List StoredEvent)
  /-- The global position of the last event of all. -/
  head : Call σ StoreError (Option Nat)
  /-- The number of events ever appended. -/
  size : σ → Nat

end EventSourcing

/-
# Storing pending changes

The events recorded on a state are stored in a single append that expects the version the state was
loaded at.  All of them are written first, so an event that refuses to be written stops the append.
Each event gets an identifier of its own and a copy of the metadata.
-/
import EventSourcing.Aggregate.Loading

namespace EventSourcing

variable {F : PayloadFamily}

/-- A store together with a supply of identifiers. -/
structure Backend (σ : Type) where
  store : σ
  ids : IdSupply := {}

namespace Backend

variable {σ α ε : Type}

/-- A call to the store of a backend. -/
def call (c : Call σ ε α) : Call (Backend σ) ε α := fun b =>
  let (answer, store) := c b.store
  (answer, { b with store })

end Backend

/-- The events as they are handed to the store, each with the next identifier of the supply. -/
def newEvents {A : Aggregate F} (r : TypeRegistry F) (metadata : Metadata) :
    List A.Event → IdSupply → Except SerializationError (List NewEvent) × IdSupply
  | [], ids => (.ok [], ids)
  | e :: rest, ids =>
    match r.serializeEvent e with
    | .error error => (.error error, ids)
    | .ok stored =>
      let (id, ids) := ids.next
      match newEvents r metadata rest ids with
      | (.error error, ids) => (.error error, ids)
      | (.ok events, ids) => (.ok (NewEvent.of id stored metadata :: events), ids)

/-- Stores the pending changes of a state.  The answer is `none` if there were none. -/
def storeChanges {A : Aggregate F} {σ : Type} [EventStore σ] (r : TypeRegistry F)
    (stream : StreamName) (state : AggregateState A) (metadata : Metadata) :
    Call (Backend σ) AggregateError (Option Appended) := fun b =>
  if state.changes.isEmpty then (.ok none, b)
  else
    match newEvents r metadata state.changes b.ids with
    | (.error error, ids) => (.error (.serialization error), { b with ids })
    | (.ok events, ids) =>
      let (answer, b) :=
        Backend.call (EventStore.append stream state.originalVersion events) { b with ids }
      match answer with
      | .error error => (.error (.store error), b)
      | .ok appended => (.ok (some appended), b)

end EventSourcing

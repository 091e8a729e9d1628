/-
# Aggregates

An aggregate is an entity whose state is what its events make of it.  Business rules produce events;
the state only ever changes by applying them, one after another.

What the file settles:

* `Aggregate.fold`: the state that a list of events makes of another;
* `AggregateState`: a state with the version it was loaded at and the events applied since;
* `AggregateState.applyAll_eq_foldl`: applying a list is applying its events in order.
-/
import EventSourcing.Payload
import EventSourcing.Stream.Name
import EventSourcing.Stream.Version

namespace EventSourcing

/-! ## 1. Aggregates -/

/-- An aggregate over a family of payloads. -/
structure Aggregate (F : PayloadFamily) where
  /-- Stands at the front of the names of the instances' streams. -/
  name : String
  /-- What tells instances apart. -/
  Id : Type
  idText : Id → String
  State : Type
  /-- The state before any event. -/
  initial : State
  /-- The events the aggregate knows. -/
  events : EventSet F
  /-- Why a business rule refuses. -/
  Error : Type
  errorText : Error → String
  /-- What an event makes of a state. -/
  apply : State → events.Event → State

namespace Aggregate

variable {F : PayloadFamily}

/-- The events of an aggregate. -/
abbrev Event (A : Aggregate F) := A.events.Event

/-- What the events make of a state, in order. -/
def fold (A : Aggregate F) (state : A.State) (events : List A.Event) : A.State :=
  events.foldl A.apply state

/-- The stream of an instance. -/
def streamOf (A : Aggregate F) (id : A.Id) : StreamName := .ofInstance A.name (A.idText id)

end Aggregate

/-! ## 2. States with pending changes -/

/-- A state of an instance, the version of its stream when it was loaded, and the events applied to
it since. -/
structure AggregateState {F : PayloadFamily} (A : Aggregate F) where
  id : A.Id
  inner : A.State
  originalVersion : ExpectedVersion
  changes : List A.Event

namespace AggregateState

variable {F : PayloadFamily} {A : Aggregate F}

/-- A state loaded at a version, with nothing applied to it yet. -/
def loaded (id : A.Id) (inner : A.State) (version : ExpectedVersion) : AggregateState A :=
  ⟨id, inner, version, []⟩

/-- The state of an instance that has no stream yet. -/
def new (id : A.Id) : AggregateState A := loaded id A.initial .noStream

/-- Applies an event and records it. -/
def apply (s : AggregateState A) (e : A.Event) : AggregateState A :=
  { s with inner := A.apply s.inner e, changes := s.changes ++ [e] }

/-- Applies events in order and records them. -/
def applyAll (s : AggregateState A) (events : List A.Event) : AggregateState A :=
  { s with inner := A.fold s.inner events, changes := s.changes ++ events }

/-- The version of the stream once the recorded events are stored. -/
def currentVersion (s : AggregateState A) : ExpectedVersion :=
  s.originalVersion.advance s.changes.length

/-- Whether the instance had a stream when it was loaded. -/
def exists? (s : AggregateState A) : Bool := s.originalVersion ≠ .noStream

theorem applyAll_cons (s : AggregateState A) (e : A.Event) (events : List A.Event) :
    s.applyAll (e :: events) = (s.apply e).applyAll events := by
  simp [applyAll, apply, Aggregate.fold]

theorem applyAll_eq_foldl (s : AggregateState A) (events : List A.Event) :
    s.applyAll events = events.foldl apply s := by
  induction events generalizing s with
  | nil => simp [applyAll, Aggregate.fold]
  | cons e rest ih => rw [applyAll_cons, ih, List.foldl_cons]

/-- The state as a record, its inner state shown as given. -/
def display (s : AggregateState A) (inner : A.State → String) : String :=
  Display.record "AggregateState" [("aggregate", Display.quoted A.name),
    ("id", Display.quoted (A.idText s.id)), ("inner", inner s.inner),
    ("original_version", s.originalVersion.display),
    ("pending_changes", toString s.changes.length)]

end AggregateState

end EventSourcing

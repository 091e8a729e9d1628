/-
# Loading an instance

An instance is loaded page by page: each page is folded into the state, and a page that is not full
is the last one.  When no event of the stream was visible, the version is asked for in a call of its
own.  Between any two calls other writers may change the store, so loading is a sequence of steps,
one call each.

What the file settles:

* `Loading.takePage`, `Loading.takeVersion`: what the answer to a call leads to;
* `load?`: all calls one after the other.
-/
import EventSourcing.Aggregate
import EventSourcing.Store

namespace EventSourcing

/-! ## 1. Steps -/

/-- The number of events asked for in one call. -/
def loadPageSize : Nat := 500

/-- Why an instance cannot be loaded or its changes not be stored. -/
inductive AggregateError where
  | store (error : StoreError)
  | serialization (error : SerializationError)
  deriving DecidableEq

/-- The text of the failure. -/
def AggregateError.message : AggregateError → String
  | .store error => error.message
  | .serialization error => error.message

variable {F : PayloadFamily}

/-- How far a load has come: the state folded so far and the position of the last event in it. -/
structure Loading (A : Aggregate F) where
  stream : StreamName
  id : A.Id
  state : A.State
  version : Option Nat

/-- The outcome of a load: no instance, or its state. -/
abbrev Loaded (A : Aggregate F) := Except AggregateError (Option (AggregateState A))

namespace Loading

variable {A : Aggregate F}

/-- A load that has seen nothing yet. -/
def start (A : Aggregate F) (stream : StreamName) (id : A.Id) : Loading A :=
  ⟨stream, id, A.initial, none⟩

/-- The position the next page starts at. -/
def nextPosition (l : Loading A) : Nat := (l.version.map (· + 1)).getD 0

/-- What a load does next. -/
inductive Next (A : Aggregate F) where
  /-- Asks for the next page. -/
  | page (l : Loading A)
  /-- Asks for the version, as no event was visible. -/
  | version (l : Loading A)
  | done (result : Loaded A)

/-- Folds one stored event. -/
def takeEvent (r : TypeRegistry F) (l : Loading A) (e : StoredEvent) :
    Except SerializationError (Loading A) :=
  match r.deserializeEvent A.events e.serialized with
  | .error error => .error error
  | .ok event => .ok { l with state := A.apply l.state event, version := some e.streamPosition }

/-- Folds the events of a page, up to the first one that cannot be read. -/
def takeEvents (r : TypeRegistry F) :
    Loading A → List StoredEvent → Except SerializationError (Loading A)
  | l, [] => .ok l
  | l, e :: rest =>
    match l.takeEvent r e with
    | .error error => .error error
    | .ok l => takeEvents r l rest

/-- The state that has been folded, at a version. -/
def result (l : Loading A) (version : Nat) : AggregateState A :=
  .loaded l.id l.state (.exact version)

/-- What the answer to the call for a page leads to.  A stream that is not found on the first page
is no instance. -/
def takePage (r : TypeRegistry F) (l : Loading A) : Except StoreError (List StoredEvent) → Next A
  | .error (.streamNotFound stream) =>
    if l.version.isNone then .done (.ok none) else .done (.error (.store (.streamNotFound stream)))
  | .error error => .done (.error (.store error))
  | .ok page =>
    match takeEvents r l page with
    | .error error => .done (.error (.serialization error))
    | .ok l =>
      if loadPageSize ≤ page.length then .page l
      else
        match l.version with
        | some version => .done (.ok (some (l.result version)))
        | none => .version l

/-- What the answer to the call for the version leads to. -/
def takeVersion (l : Loading A) : Except StoreError (Option Nat) → Loaded A
  | .error error => .error (.store error)
  | .ok version => .ok (version.map l.result)

/-- The call for the next page. -/
def callPage {σ : Type} [EventStore σ] (r : TypeRegistry F) (l : Loading A) (s : σ) : Next A × σ :=
  let (answer, s) := EventStore.read l.stream l.nextPosition loadPageSize s
  (l.takePage r answer, s)

/-- The call for the version. -/
def callVersion {σ : Type} [EventStore σ] (l : Loading A) (s : σ) : Loaded A × σ :=
  let (answer, s) := EventStore.version l.stream s
  (l.takeVersion answer, s)

/-! ## 2. All steps -/

/-- Makes calls until the load is done, at most `fuel` of them for pages; `none` if that was not
enough. -/
def run {σ : Type} [EventStore σ] (r : TypeRegistry F) :
    (fuel : Nat) → Loading A → σ → Option (Loaded A) × σ
  | 0, _, s => (none, s)
  | fuel + 1, l, s =>
    match l.callPage r s with
    | (.page l, s) => run r fuel l s
    | (.version l, s) =>
      let (result, s) := l.callVersion s
      (some result, s)
    | (.done result, s) => (some result, s)

end Loading

/-- The calls that suffice for every stream of the store: one for each full page and two more. -/
def pageBound {σ : Type} [EventStore σ] (s : σ) : Nat := EventStore.size s / loadPageSize + 2

/-- Loads an instance from a stream. -/
def load? {σ : Type} [EventStore σ] (r : TypeRegistry F) (A : Aggregate F) (stream : StreamName)
    (id : A.Id) (s : σ) : Option (Loaded A) × σ :=
  (Loading.start A stream id).run r (pageBound s) s

end EventSourcing

/-
# Carrying a command out

A command is carried out in steps, one call of the store each: the pages of the load, the version if
no event was visible, and the append.  Between two steps other writers may change the store.

What the file settles:

* `Execution.step`: the next step;
* `CommandService.handle?`: all steps one after the other.
-/
import EventSourcing.Command

namespace EventSourcing

variable {F : PayloadFamily}

/-! ## 1. Steps -/

/-- What a command that was carried out did. -/
structure Outcome (A : Aggregate F) where
  /-- The state after the new events. -/
  state : A.State
  /-- The new events in the order they were appended. -/
  changes : List A.Event
  /-- What to expect of the stream afterwards. -/
  streamVersion : ExpectedVersion
  /-- The global position of the last new event, `none` if there is none. -/
  globalPosition : Option Nat

/-- How far a command has come. -/
inductive Execution (A : Aggregate F) where
  /-- The next page of the instance is due. -/
  | loading (l : Loading A)
  /-- The version of the stream is due. -/
  | checking (l : Loading A)
  /-- The instance is as expected, and the decision is due. -/
  | deciding (state : AggregateState A)
  /-- The append of the new events is due. -/
  | appending (state : AggregateState A) (events : List NewEvent)
  | finished (result : Except (CommandError A) (Outcome A))

/-- A command with its handler and what goes with them. -/
structure Order (A : Aggregate F) (C σ : Type) where
  registry : TypeRegistry F
  handler : Handler A C σ
  command : C
  metadata : Metadata

namespace Order

variable {A : Aggregate F} {C σ : Type}

/-- The instance the command is aimed at. -/
def target (o : Order A C σ) : A.Id := o.handler.target o.command

/-- The stream the command works on. -/
def stream (o : Order A C σ) : StreamName := o.handler.streamOf o.target o.command

/-- The command before its first step. -/
def start (o : Order A C σ) : Execution A := .loading (Loading.start A o.stream o.target)

/-- What follows the load. -/
def loaded (o : Order A C σ) : Loaded A → Execution A
  | .error error => .finished (.error (.ofAggregateError error))
  | .ok found =>
    if o.handler.expected.allows found.isSome then .deciding (found.getD (.new o.target))
    else .finished (.error (.expectedState o.handler.expected o.stream))

/-- The outcome once there is nothing left to store. -/
def outcome (state : AggregateState A) (appended : Option Appended) : Outcome A :=
  { state := state.inner
    changes := state.changes
    streamVersion := (appended.map (·.nextExpected)).getD state.originalVersion
    globalPosition := appended.map (·.globalPosition) }

/-- The state with the new events applied to it. -/
def decide (o : Order A C σ) (state : AggregateState A) :
    Call (Backend σ) A.Error (AggregateState A) := fun b =>
  match o.handler.action with
  | .act rule => ((rule state.inner o.command).map state.applyAll, b)
  | .actOn rule => (rule state o.command, b)
  | .actWith rule =>
    let (answer, b) := rule state.inner o.command b
    (answer.map state.applyAll, b)

/-- What follows the decision. -/
def decided (o : Order A C σ) (answer : Except A.Error (AggregateState A)) (ids : IdSupply) :
    Execution A × IdSupply :=
  match answer with
  | .error error => (.finished (.error (.domain error)), ids)
  | .ok state =>
    if state.changes.isEmpty then (.finished (.ok (outcome state none)), ids)
    else
      match newEvents o.registry o.metadata state.changes ids with
      | (.error error, ids) => (.finished (.error (.serialization error)), ids)
      | (.ok events, ids) => (.appending state events, ids)

/-- What follows the append. -/
def appended (state : AggregateState A) : Except StoreError Appended → Execution A
  | .error error => .finished (.error (.ofStoreError error))
  | .ok answer => .finished (.ok (outcome state (some answer)))

/-- The next step: at most one call of the store, beside those of the decision itself. -/
def step [EventStore σ] (o : Order A C σ) : Execution A → Backend σ → Execution A × Backend σ
  | .loading l, b =>
    let (next, store) := l.callPage o.registry b.store
    let e := match next with
      | .page l => .loading l
      | .version l => .checking l
      | .done result => o.loaded result
    (e, { b with store })
  | .checking l, b =>
    let (result, store) := l.callVersion b.store
    (o.loaded result, { b with store })
  | .deciding state, b =>
    let (answer, b) := o.decide state b
    let (e, ids) := o.decided answer b.ids
    (e, { b with ids })
  | .appending state events, b =>
    let (answer, store) := EventStore.append o.stream state.originalVersion events b.store
    (appended state answer, { b with store })
  | .finished result, b => (.finished result, b)

/-! ## 2. All steps -/

/-- Takes steps until the command is finished; `none` if `fuel` steps do not suffice. -/
def run [EventStore σ] (o : Order A C σ) :
    (fuel : Nat) → Execution A → Backend σ →
      Option (Except (CommandError A) (Outcome A)) × Backend σ
  | _, .finished result, b => (some result, b)
  | 0, _, b => (none, b)
  | fuel + 1, e, b =>
    let (e, b) := o.step e b
    o.run fuel e b

end Order

namespace CommandService

variable {A : Aggregate F} {K : CommandSet} {σ : Type} [EventStore σ]

/-- Carries a command out.  The metadata goes onto every new event.  Every page takes a step, and so
do the version, the decision and the append. -/
def handle? (s : CommandService A K σ) (k : K.Kind) (c : K.Body k) (metadata : Metadata)
    (b : Backend σ) : Option (Except (CommandError A) (Outcome A)) × Backend σ :=
  match s.handler? k with
  | none => (some (.error (.handlerNotFound (K.name k))), b)
  | some handler =>
    let o : Order A (K.Body k) σ := ⟨s.registry, handler, c, metadata⟩
    o.run (pageBound b.store + 4) o.start b

/-- Loads an instance from its usual stream. -/
def load? (s : CommandService A K σ) (id : A.Id) (b : Backend σ) :
    Option (Except (CommandError A) (Option (AggregateState A))) × Backend σ :=
  let (result, store) := EventSourcing.load? s.registry A (A.streamOf id) id b.store
  (result.map (·.mapError .ofAggregateError), { b with store })

end CommandService

/-- The outcome as a record, its state shown as given. -/
def Outcome.display {A : Aggregate F} (o : Outcome A) (state : A.State → String) : String :=
  Display.record "CommandOutcome" [("state", state o.state), ("changes", toString o.changes.length),
    ("stream_version", o.streamVersion.display),
    ("global_position", Display.optional (o.globalPosition.map toString))]

end EventSourcing

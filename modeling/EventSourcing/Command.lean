/-
# Commands

A command is aimed at an instance of an aggregate.  Its handler says which instance that is, whether
the instance has to exist, and what the command decides on the instance's state.

What the file settles:

* `Handler`: what is registered for a kind of command;
* `CommandService.register`: one handler for each kind;
* `CommandError`: why a command is not carried out.
-/
import EventSourcing.Aggregate.Storing

namespace EventSourcing

variable {F : PayloadFamily}

/-! ## 1. Handlers -/

/-- Whether a command wants its instance to exist. -/
inductive ExpectedState where
  | new
  | existing
  | any
  deriving DecidableEq, Inhabited

/-- The name of the expectation. -/
def ExpectedState.name : ExpectedState → String
  | .new => "New"
  | .existing => "Existing"
  | .any => "Any"

/-- The expectation with this name. -/
def ExpectedState.ofName? (name : String) : Option ExpectedState :=
  [ExpectedState.new, .existing, .any].find? (·.name = name)

/-- Whether the expectation allows an instance to exist, or to be missing. -/
def ExpectedState.allows : ExpectedState → (found : Bool) → Bool
  | .new, found => !found
  | .existing, found => found
  | .any, _ => true

/-- What a command decides. -/
inductive Action (A : Aggregate F) (C σ : Type) where
  /-- New events for the state. -/
  | act (decide : A.State → C → Except A.Error (List A.Event))
  /-- New events for a copy of the state; the store may be used meanwhile. -/
  | actWith (decide : A.State → C → Call (Backend σ) A.Error (List A.Event))
  /-- Applies new events to the state itself. -/
  | actOn (decide : AggregateState A → C → Except A.Error (AggregateState A))

/-- What is registered for a kind of command. -/
structure Handler (A : Aggregate F) (C σ : Type) where
  expected : ExpectedState := .any
  /-- The instance a command is aimed at. -/
  target : C → A.Id
  /-- The stream of the instance, if it is not the usual one. -/
  stream : Option (A.Id → C → StreamName) := none
  action : Action A C σ

/-- The stream a command works on. -/
def Handler.streamOf {A : Aggregate F} {C σ : Type} (h : Handler A C σ) (id : A.Id) (c : C) :
    StreamName :=
  match h.stream with
  | some stream => stream id c
  | none => A.streamOf id

/-! ## 2. Services -/

/-- The kinds of command of an application. -/
structure CommandSet where
  Kind : Type
  decideKind : DecidableEq Kind
  /-- What a command of a kind carries. -/
  Body : Kind → Type
  name : Kind → String

instance (K : CommandSet) : DecidableEq K.Kind := K.decideKind

/-- The handlers of an aggregate's commands. -/
structure CommandService (A : Aggregate F) (K : CommandSet) (σ : Type) where
  registry : TypeRegistry F
  handler? : (k : K.Kind) → Option (Handler A (K.Body k) σ) := fun _ => none

/-- The kind of command already has a handler. -/
structure AlreadyRegistered where
  command : String
  deriving DecidableEq

/-- The text of the refusal. -/
def AlreadyRegistered.message (e : AlreadyRegistered) : String :=
  "a handler for command `" ++ e.command ++ "` is already registered"

namespace CommandService

variable {A : Aggregate F} {K : CommandSet} {σ : Type}

/-- Whether the kind of command has a handler. -/
def isRegistered (s : CommandService A K σ) (k : K.Kind) : Bool := (s.handler? k).isSome

/-- Registers a handler; a kind keeps its first one. -/
def register (s : CommandService A K σ) (k : K.Kind) (h : Handler A (K.Body k) σ) :
    Except AlreadyRegistered (CommandService A K σ) :=
  if s.isRegistered k then .error ⟨K.name k⟩
  else .ok { s with handler? := fun j => if e : j = k then some (e ▸ h) else s.handler? j }

end CommandService

/-! ## 3. Failures -/

/-- Why a command is not carried out. -/
inductive CommandError (A : Aggregate F) where
  /-- The kind of command has no handler. -/
  | handlerNotFound (command : String)
  /-- The instance exists although it must not, or the other way round. -/
  | expectedState (expected : ExpectedState) (stream : StreamName)
  /-- The stream changed between loading and storing. -/
  | conflict (stream : StreamName) (expected : ExpectedVersion) (actual : Option Nat)
  /-- The business rule refused. -/
  | domain (error : A.Error)
  | store (error : StoreError)
  | serialization (error : SerializationError)

namespace CommandError

variable {A : Aggregate F}

/-- The text of the failure. -/
def message : CommandError A → String
  | .handlerNotFound command => "no handler registered for command `" ++ command ++ "`"
  | .expectedState expected stream =>
    "command expected the aggregate to be " ++ expected.name ++ ", stream " ++ stream.text ++
      " does not match"
  | .conflict stream expected actual =>
    "stream " ++ stream.text ++ " changed concurrently: expected version " ++ expected.text
      ++ ", actual "
      ++ Display.optional (actual.map toString)
  | .domain error => A.errorText error
  | .store error => error.message
  | .serialization error => error.message

/-- A version that is not the expected one is a conflict; any other failure of the store stays
one. -/
def ofStoreError : StoreError → CommandError A
  | .wrongExpectedVersion stream expected actual => .conflict stream expected actual
  | error => .store error

/-- The failure to load or to store, as the command's. -/
def ofAggregateError : AggregateError → CommandError A
  | .store error => ofStoreError error
  | .serialization error => .serialization error

/-- Whether the stream changed meanwhile. -/
def isConflict : CommandError A → Bool
  | .conflict .. => true
  | _ => false

/-- Whether the instance was not as expected. -/
def isPrecondition : CommandError A → Bool
  | .expectedState .. => true
  | _ => false

/-- The refusal of the business rule, if it is one. -/
def domain? : CommandError A → Option A.Error
  | .domain error => some error
  | _ => none

end CommandError

end EventSourcing

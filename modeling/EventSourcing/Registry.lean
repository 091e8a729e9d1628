/-
# The registry of event types

Stored events carry a stable type name; payloads carry a shape.  The registry pairs the two: a name
stands for one shape and a shape has one name.  Registering the same pair again changes nothing, and
a pair that contradicts an earlier one is refused.

What the file settles:

* `TypeRegistry.register`: when a pair is taken in;
* `TypeRegistry.resolve`, `TypeRegistry.nameOf`: reading the pairs in both directions.
-/
import EventSourcing.Payload
import EventSourcing.Text.Display

namespace EventSourcing

/-! ## 1. Refusals -/

/-- Why the registry refuses. -/
inductive RegistryError where
  /-- The name already stands for another shape. -/
  | duplicateName (name existing attempted : String)
  /-- The shape already has another name. -/
  | duplicateShape (shape existing attempted : String)
  /-- No shape is registered under the name. -/
  | unknownName (name : String)
  /-- The shape has no name. -/
  | unregisteredShape (shape : String)
  deriving DecidableEq

/-- The text of a refusal. -/
def RegistryError.message : RegistryError → String
  | .duplicateName name existing attempted =>
    "event type `" ++ name ++ "` is already registered for `" ++ existing ++
      "`, cannot register it for `"
      ++ attempted ++ "`"
  | .duplicateShape shape existing attempted =>
    "`" ++ shape ++ "` is already registered as `" ++ existing ++ "`, cannot register it as `" ++
      attempted ++ "`"
  | .unknownName name => "event type `" ++ name ++ "` is not registered"
  | .unregisteredShape shape => "`" ++ shape ++ "` is not registered as an event type"

/-! ## 2. The registry -/

/-- A shape and the name it is stored under. -/
structure RegisteredType (F : PayloadFamily) where
  name : String
  shape : F.Shape

/-- The registered pairs, in the order they were taken in. -/
structure TypeRegistry (F : PayloadFamily) where
  types : List (RegisteredType F)

namespace TypeRegistry

variable {F : PayloadFamily}

/-- The registry with no pair. -/
def empty : TypeRegistry F := ⟨[]⟩

/-- The pair with this name. -/
def byName? (r : TypeRegistry F) (name : String) : Option (RegisteredType F) :=
  r.types.find? (·.name = name)

/-- The pair with this shape. -/
def byShape? (r : TypeRegistry F) (shape : F.Shape) : Option (RegisteredType F) :=
  r.types.find? (·.shape = shape)

/-- Takes a pair in.  The name is looked at first. -/
def register (r : TypeRegistry F) (name : String) (shape : F.Shape) :
    Except RegistryError (TypeRegistry F) :=
  match r.byName? name with
  | some existing =>
    if existing.shape = shape then .ok r
    else .error (.duplicateName name (F.name existing.shape) (F.name shape))
  | none =>
    match r.byShape? shape with
    | some existing => .error (.duplicateShape (F.name shape) existing.name name)
    | none => .ok ⟨r.types ++ [⟨name, shape⟩]⟩

/-- Takes in those of the pairs that are not refused, in order. -/
def registerAll (r : TypeRegistry F) (pairs : List (String × F.Shape)) : TypeRegistry F :=
  pairs.foldl (fun r p => (r.register p.1 p.2).toOption.getD r) r

/-- The pair a stored name stands for. -/
def resolve (r : TypeRegistry F) (name : String) : Except RegistryError (RegisteredType F) :=
  match r.byName? name with
  | some t => .ok t
  | none => .error (.unknownName name)

/-- The name a shape is stored under. -/
def nameOf (r : TypeRegistry F) (shape : F.Shape) : Except RegistryError String :=
  match r.byShape? shape with
  | some t => .ok t.name
  | none => .error (.unregisteredShape (F.name shape))

/-- Whether a shape is registered under the name. -/
def isRegistered (r : TypeRegistry F) (name : String) : Bool := (r.byName? name).isSome

/-- The number of pairs. -/
def size (r : TypeRegistry F) : Nat := r.types.length

end TypeRegistry

/-- A pair as a record of its two names. -/
def RegisteredType.display {F : PayloadFamily} (t : RegisteredType F) : String :=
  Display.record "RegisteredType"
    [("name", Display.quoted t.name), ("rust_type", Display.quoted (F.name t.shape))]

end EventSourcing

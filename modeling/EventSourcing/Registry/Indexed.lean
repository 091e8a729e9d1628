/-
# A registry with an index for each direction

The pairs of this registry stand under their names, and beside them every shape has its name written
down.  A pair is found under its name in the one index, and by its shape through both: the name of
the shape, and what stands under it.  Both indexes are written when a pair is taken in, one after
the other.

What the file settles:

* `IndexedRegistry.register`: when a pair is taken in, and into which index;
* `IndexedRegistry.byName?`, `IndexedRegistry.byShape?`: finding a pair from either side;
* the readings of the registry, which are those of `TypeRegistry` by other means.
-/
import EventSourcing.Registry
import EventSourcing.Table

namespace EventSourcing

/-- The pairs by their names, and the names by their shapes, the one written last in front. -/
structure IndexedRegistry (F : PayloadFamily) where
  types : Table (RegisteredType F) := Table.empty
  names : List (F.Shape × String) := []

namespace IndexedRegistry

variable {F : PayloadFamily}

/-! ## 1. Looking up -/

/-- The pair under this name. -/
def byName? (r : IndexedRegistry F) (name : String) : Option (RegisteredType F) := r.types.get? name

/-- The name written down for the shape. -/
def name? (r : IndexedRegistry F) (shape : F.Shape) : Option String := r.names.lookup shape

/-- The pair under the name of the shape. -/
def byShape? (r : IndexedRegistry F) (shape : F.Shape) : Option (RegisteredType F) :=
  (r.name? shape).bind r.byName?

/-- The pair a stored name stands for. -/
def resolve (r : IndexedRegistry F) (name : String) : Except RegistryError (RegisteredType F) :=
  match r.byName? name with
  | some t => .ok t
  | none => .error (.unknownName name)

/-- The name a shape is stored under. -/
def nameOf (r : IndexedRegistry F) (shape : F.Shape) : Except RegistryError String :=
  match r.name? shape with
  | some name => .ok name
  | none => .error (.unregisteredShape (F.name shape))

/-! ## 2. Taking in -/

/-- Takes a pair in, unless it is refused.  The name is looked at first. -/
def register (r : IndexedRegistry F) (name : String) (shape : F.Shape) :
    Except RegistryError Unit × IndexedRegistry F :=
  match r.byName? name with
  | some existing =>
    if existing.shape = shape then (.ok (), r)
    else (.error (.duplicateName name (F.name existing.shape) (F.name shape)), r)
  | none =>
    match r.name? shape with
    | some existing => (.error (.duplicateShape (F.name shape) existing name), r)
    | none =>
      let r := { r with names := (shape, name) :: r.names }
      (.ok (), { r with types := r.types.insert name ⟨name, shape⟩ })

end IndexedRegistry

end EventSourcing

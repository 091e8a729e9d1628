/-
# Payloads and event sets

An application brings a family of shapes.  A payload is a value of one shape; which shape it has is
known only when the program runs.  An aggregate works with a set of shapes, and an event of the set
is a payload whose shape is among them.

What the file settles:

* `PayloadFamily`: shapes, their values and how values are written and read;
* `EventSet.ofPayload?`: a payload as an event of a set, if it belongs there.
-/
namespace EventSourcing

/-! ## 1. Families of shapes -/

/-- The shapes an application uses.  Writing a value may be refused with a text; reading bytes
either yields a value or does not. -/
structure PayloadFamily where
  /-- The shapes. -/
  Shape : Type
  /-- Shapes can be told apart. -/
  decideShape : DecidableEq Shape
  /-- The values of a shape. -/
  Value : Shape → Type
  /-- The name of a shape, for messages. -/
  name : Shape → String
  /-- The bytes of a value. -/
  encode : (s : Shape) → Value s → Except String (List UInt8)
  /-- The value that bytes spell. -/
  decode : (s : Shape) → List UInt8 → Option (Value s)

instance (F : PayloadFamily) : DecidableEq F.Shape := F.decideShape

/-- A value together with its shape. -/
structure Payload (F : PayloadFamily) where
  shape : F.Shape
  value : F.Value shape

/-- The value of a payload, if it has the shape. -/
def Payload.as? {F : PayloadFamily} (p : Payload F) (s : F.Shape) : Option (F.Value s) :=
  if h : p.shape = s then some (h ▸ p.value) else none

/-- The name of a payload's shape. -/
def Payload.shapeName {F : PayloadFamily} (p : Payload F) : String := F.name p.shape

/-! ## 2. Event sets -/

/-- A named choice of shapes. -/
structure EventSet (F : PayloadFamily) where
  name : String
  shapes : List F.Shape

/-- A payload whose shape belongs to the set. -/
structure EventSet.Event {F : PayloadFamily} (E : EventSet F) where
  payload : Payload F
  shape_mem : payload.shape ∈ E.shapes

namespace EventSet

variable {F : PayloadFamily}

/-- The payload as an event of the set, `none` if its shape is not one of the set's. -/
def ofPayload? (E : EventSet F) (p : Payload F) : Option E.Event :=
  if h : p.shape ∈ E.shapes then some ⟨p, h⟩ else none

theorem payload_of_ofPayload? {E : EventSet F} {p : Payload F} {e : E.Event}
    (h : E.ofPayload? p = some e) : e.payload = p := by
  unfold ofPayload? at h
  split at h
  · cases h
    rfl
  · cases h

theorem ofPayload?_payload {E : EventSet F} (e : E.Event) : E.ofPayload? e.payload = some e := by
  simp [ofPayload?, e.shape_mem]

theorem ofPayload?_eq_none_iff {E : EventSet F} {p : Payload F} :
    E.ofPayload? p = none ↔ p.shape ∉ E.shapes := by
  unfold ofPayload?
  split <;> simp_all

end EventSet

end EventSourcing

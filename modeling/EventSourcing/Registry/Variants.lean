/-
# Events of a sum

A sum has one variant for each of its shapes.  An event of the sum is a value in a variant; it gives
the value away as a payload when it is written, and a payload that was read is tried as each variant
in turn.  The codec of a registered pair knows its own shape only, so it looks at a payload as one
of that shape before it writes it.

What the file settles:

* `EventSum`, `EventSum.ofPayload?`: the variants, tried one after the other;
* `RegisteredType.encode`, `RegisteredType.decode`: the codec of a pair, which takes and gives
  payloads of any shape;
* `IndexedRegistry.serializeEvent`, `IndexedRegistry.deserializeEvent`: events of a sum, by the
  pairs of two indexes.
-/
import EventSourcing.Registry.Codec
import EventSourcing.Registry.Indexed

namespace EventSourcing

variable {F : PayloadFamily}

/-! ## 1. Sums -/

/-- A variant of a sum, and the shape of the values in it. -/
structure Variant (F : PayloadFamily) where
  name : String
  shape : F.Shape

/-- The variants of a sum. -/
structure EventSum (F : PayloadFamily) where
  name : String
  variants : List (Variant F)
  /-- Each shape appears in a single variant. -/
  distinct : (variants.map (·.shape)).Nodup

/-- A value in a variant of the sum. -/
structure EventSum.Event (S : EventSum F) where
  variant : Variant F
  variant_mem : variant ∈ S.variants
  value : F.Value variant.shape

namespace EventSum

/-- The shapes of the sum. -/
def shapes (S : EventSum F) : List F.Shape := S.variants.map (·.shape)

/-- The value of an event, without its variant. -/
def Event.payload {S : EventSum F} (e : S.Event) : Payload F := ⟨e.variant.shape, e.value⟩

/-- The payload as a value in this variant. -/
def fill? (S : EventSum F) (p : Payload F) (v : { v : Variant F // v ∈ S.variants }) :
    Option S.Event :=
  (p.as? v.val.shape).map (Event.mk v.val v.property)

/-- The payload in the first variant it fits, `none` if there is no such variant. -/
def ofPayload? (S : EventSum F) (p : Payload F) : Option S.Event :=
  S.variants.attach.findSome? (S.fill? p)

/-- The sum as a mere choice of shapes. -/
def toSet (S : EventSum F) : EventSet F := ⟨S.name, S.shapes⟩

theorem Event.shape_mem {S : EventSum F} (e : S.Event) : e.payload.shape ∈ S.shapes :=
  List.mem_map_of_mem e.variant_mem

/-- The event without its variant. -/
def Event.inSet {S : EventSum F} (e : S.Event) : S.toSet.Event := ⟨e.payload, e.shape_mem⟩

end EventSum

/-! ## 2. The codec of a pair -/

namespace RegisteredType

/-- The bytes of a payload, which has to have the shape of the pair. -/
def encode (t : RegisteredType F) (p : Payload F) : Except CodecFailure (List UInt8) :=
  match p.as? t.shape with
  | none => .error (.refused ("payload is not a `" ++ F.name t.shape ++ "`"))
  | some value =>
    match F.encode t.shape value with
    | .error text => .error (.refused text)
    | .ok bytes => .ok bytes

/-- The payload that bytes spell. -/
def decode (t : RegisteredType F) (bytes : List UInt8) : Except CodecFailure (Payload F) :=
  match F.decode t.shape bytes with
  | none => .error .malformed
  | some value => .ok ⟨t.shape, value⟩

end RegisteredType

/-! ## 3. Payloads and events by two indexes -/

namespace IndexedRegistry

/-- The stored form of a payload.  `shapeName` names it in the error if its shape is not
registered. -/
def serialize (r : IndexedRegistry F) (p : Payload F) (shapeName : String) :
    Except SerializationError SerializedPayload :=
  match r.byShape? p.shape with
  | none => .error (.registry (.unregisteredShape shapeName))
  | some t =>
    match t.encode p with
    | .error failure => .error (.json t.name failure)
    | .ok bytes => .ok ⟨t.name, jsonContentType, bytes⟩

/-- The payload that a stored form spells. -/
def deserialize (r : IndexedRegistry F) (stored : SerializedPayload) :
    Except SerializationError (Payload F) :=
  if stored.contentType ≠ jsonContentType then .error (.unsupportedContentType stored.contentType)
  else
    match r.resolve stored.eventType with
    | .error error => .error (.registry error)
    | .ok t =>
      match t.decode stored.bytes with
      | .error failure => .error (.json stored.eventType failure)
      | .ok p => .ok p

/-- The stored form of an event. -/
def serializeEvent (r : IndexedRegistry F) {S : EventSum F} (e : S.Event) :
    Except SerializationError SerializedPayload :=
  r.serialize e.payload e.payload.shapeName

/-- The event of the sum that a stored form spells. -/
def deserializeEvent (r : IndexedRegistry F) (S : EventSum F) (stored : SerializedPayload) :
    Except SerializationError S.Event :=
  match r.deserialize stored with
  | .error error => .error error
  | .ok p =>
    match S.ofPayload? p with
    | none => .error (.unexpectedShape stored.eventType S.name)
    | some event => .ok event

end IndexedRegistry

end EventSourcing

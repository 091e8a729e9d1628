/-
# A sample family of payloads

The shapes of a small hotel and of a counter, enough to exercise every kind of field.  A `Poison`
can be read but refuses to be written.
-/
import EventSourcing.Payload
import EventSourcing.Json.Record

namespace EventSourcing.Sample

/-! ## 1. Shapes and values -/

/-- The shapes of the sample. -/
inductive Shape where
  | roomBooked
  | paymentRecorded
  | bookingFullyPaid
  | sendConfirmation
  | note
  | marker
  | added
  | doubled
  | poison
  deriving DecidableEq, Inhabited

/-- All shapes, in a fixed order. -/
def Shape.all : List Shape :=
  [.roomBooked, .paymentRecorded, .bookingFullyPaid, .sendConfirmation, .note, .marker, .added,
    .doubled, .poison]

/-- The name of a shape. -/
def Shape.name : Shape → String
  | .roomBooked => "RoomBooked"
  | .paymentRecorded => "PaymentRecorded"
  | .bookingFullyPaid => "BookingFullyPaid"
  | .sendConfirmation => "SendConfirmation"
  | .note => "Note"
  | .marker => "Marker"
  | .added => "Added"
  | .doubled => "Doubled"
  | .poison => "Poison"

/-- The shape with this name. -/
def Shape.ofName? (name : String) : Option Shape := Shape.all.find? (·.name = name)

/-- A room was booked at a price. -/
structure RoomBooked where
  bookingId : String
  price : Nat
  deriving DecidableEq

/-- Part of the price was paid. -/
structure PaymentRecorded where
  paymentId : String
  amount : Nat
  deriving DecidableEq

/-- A request to confirm a booking. -/
structure SendConfirmation where
  bookingId : String
  amount : Nat
  deriving DecidableEq

/-- A note with an optional priority. -/
structure Note where
  text : String
  tags : List String
  priority : Option Int
  deriving DecidableEq

/-- The values of each shape.  `bookingFullyPaid` names the booking, `added` the amount, `poison`
the reason for which it refuses to be written. -/
def Shape.Value : Shape → Type
  | .roomBooked => RoomBooked
  | .paymentRecorded => PaymentRecorded
  | .bookingFullyPaid => String
  | .sendConfirmation => SendConfirmation
  | .note => Note
  | .marker => Unit
  | .added => Int
  | .doubled => Unit
  | .poison => String

/-! ## 2. Stored values -/

/-- The fields of the shapes that are records. -/
def Shape.layout : Shape → Json.Layout
  | .roomBooked => [("booking_id", .text), ("price", .natural)]
  | .paymentRecorded => [("payment_id", .text), ("amount", .natural)]
  | .bookingFullyPaid => [("booking_id", .text)]
  | .sendConfirmation => [("booking_id", .text), ("amount", .natural)]
  | .note => [("text", .text), ("tags", .texts), ("priority", .optionalInteger)]
  | .poison => [("reason", .text)]
  | .marker | .added | .doubled => []

/-- The text of a value, or why it refuses to be written. -/
def Shape.write : (s : Shape) → s.Value → Except String String
  | .roomBooked, v => .ok (Shape.roomBooked.layout.write [.text v.bookingId, .number v.price])
  | .paymentRecorded, v =>
    .ok (Shape.paymentRecorded.layout.write [.text v.paymentId, .number v.amount])
  | .bookingFullyPaid, id => .ok (Shape.bookingFullyPaid.layout.write [.text id])
  | .sendConfirmation, v =>
    .ok (Shape.sendConfirmation.layout.write [.text v.bookingId, .number v.amount])
  | .note, v =>
    let priority := match v.priority with
      | some n => .number n
      | none => .absent
    .ok (Shape.note.layout.write [.text v.text, .texts v.tags, priority])
  | .marker, _ => .ok "null"
  | .added, n => .ok (Json.Datum.write (.number n))
  | .doubled, _ => .ok "null"
  | .poison, reason => .error (String.append "poison: " reason)

/-- The value that the fields of a record spell. -/
def Shape.ofFields? : (s : Shape) → List Json.Datum → Option s.Value
  | .roomBooked, [.text id, .number price] => some ⟨id, price.toNat⟩
  | .paymentRecorded, [.text id, .number amount] => some ⟨id, amount.toNat⟩
  | .bookingFullyPaid, [.text id] => some id
  | .sendConfirmation, [.text id, .number amount] => some ⟨id, amount.toNat⟩
  | .note, [.text text, .texts tags, .number n] => some ⟨text, tags, some n⟩
  | .note, [.text text, .texts tags, .absent] => some ⟨text, tags, none⟩
  | .poison, [.text reason] => some reason
  | _, _ => none

/-- Reads a record shape. -/
def Shape.readRecord (s : Shape) (bytes : List UInt8) : Option s.Value :=
  (Json.document s.layout.reader bytes).bind s.ofFields?

/-- Reads a value from bytes. -/
def Shape.read : (s : Shape) → List UInt8 → Option s.Value
  | .marker, bytes => Json.document Json.null bytes
  | .doubled, bytes => Json.document Json.null bytes
  | .added, bytes => Json.document Json.signed bytes
  | s, bytes => s.readRecord bytes

/-- The bytes of a value, or why it refuses to be written. -/
def Shape.encode (s : Shape) (v : s.Value) : Except String (List UInt8) :=
  (s.write v).map fun text => text.toUTF8.data.toList

/-- The sample as a family. -/
def family : PayloadFamily where
  Shape := Shape
  decideShape := inferInstance
  Value := Shape.Value
  name := Shape.name
  encode := Shape.encode
  decode := Shape.read

/-- A payload of the sample. -/
abbrev Payload := EventSourcing.Payload family

end EventSourcing.Sample

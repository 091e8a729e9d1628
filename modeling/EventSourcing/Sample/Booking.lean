/-
# The sample booking

A room is booked at a price and paid for in parts.  A payment is recorded once, must not exceed what
is outstanding, and the one that covers the rest closes the booking.

Sections: 1 events and state; 2 business rules; 3 commands and their handlers.
-/
import EventSourcing.Sample.Shapes
import EventSourcing.Command.Execution
import EventSourcing.Store.Faulty

namespace EventSourcing.Sample

/-! ## 1. Events and state -/

/-- The events of a booking. -/
def bookingEvents : EventSet family :=
  ⟨"BookingEvent", [.roomBooked, .paymentRecorded, .bookingFullyPaid, .poison]⟩

/-- A booking: its price, what was paid, the payments known, and whether it is closed. -/
structure BookingState where
  price : Nat := 0
  paid : Nat := 0
  payments : Table Unit := Table.empty
  fullyPaid : Bool := false

/-- Amounts have 64 bits. -/
def greatestAmount : Nat := Nat.pow 2 64 - 1

/-- What an event makes of a booking. -/
def bookingAfter (b : BookingState) (e : bookingEvents.Event) : BookingState :=
  match e.payload with
  | ⟨.roomBooked, v⟩ => { b with price := v.price }
  | ⟨.paymentRecorded, v⟩ =>
    { b with
      paid := min (b.paid + v.amount) greatestAmount
      payments := b.payments.insert v.paymentId () }
  | ⟨.bookingFullyPaid, _⟩ => { b with fullyPaid := true }
  | _ => b

/-- Why a booking refuses a command. -/
inductive BookingError where
  | invalidPrice
  | overpaid (amount outstanding : Nat)
  deriving DecidableEq

/-- The text of a refusal. -/
def BookingError.message : BookingError → String
  | .invalidPrice => "booking price must be positive"
  | .overpaid amount outstanding =>
    "payment of " ++ toString amount ++ " exceeds the outstanding " ++ toString outstanding

/-- The booking as an aggregate, its instances told apart by a text. -/
def booking : Aggregate family where
  name := "booking"
  Id := String
  idText := id
  State := BookingState
  initial := {}
  events := bookingEvents
  Error := BookingError
  errorText := BookingError.message
  apply := bookingAfter

/-- The booking as a record. -/
def BookingState.display (b : BookingState) : String :=
  Display.record "BookingState" [("price", toString b.price), ("paid", toString b.paid),
    ("payments", Display.collection (b.payments.keys.map Display.quoted)),
      ("fully_paid", toString b.fullyPaid)]

/-! ## 2. Business rules -/

/-- The event that a room was booked. -/
def roomBooked (id : String) (price : Nat) : booking.Event :=
  ⟨⟨.roomBooked, RoomBooked.mk id price⟩, .head _⟩

/-- The event that a payment was made. -/
def paymentRecorded (id : String) (amount : Nat) : booking.Event :=
  ⟨⟨.paymentRecorded, PaymentRecorded.mk id amount⟩, .tail _ (.head _)⟩

/-- The event that a booking is closed. -/
def bookingFullyPaid (id : String) : booking.Event :=
  ⟨⟨.bookingFullyPaid, id⟩, .tail _ (.tail _ (.head _))⟩

/-- A price has to be positive. -/
def decideBooking (id : String) (price : Nat) : Except BookingError (List booking.Event) :=
  if price = 0 then .error .invalidPrice else .ok [roomBooked id price]

/-- A payment counts once, and no more is paid than is outstanding. -/
def decidePayment (b : BookingState) (id payment : String) (amount : Nat) :
    Except BookingError (List booking.Event) :=
  if b.payments.contains payment then .ok []
  else
    let outstanding := b.price - b.paid
    if outstanding < amount then .error (.overpaid amount outstanding)
    else
      let closing := if b.paid + amount = b.price then [bookingFullyPaid id] else []
      .ok (paymentRecorded payment amount :: closing)

/-! ## 3. Commands and their handlers -/

/-- The kinds of command. -/
inductive BookingCommand where
  | bookRoom
  | recordPayment
  | importEvents
  | cancelBooking
  deriving DecidableEq

/-- The name of a kind. -/
def BookingCommand.name : BookingCommand → String
  | .bookRoom => "BookRoom"
  | .recordPayment => "RecordPayment"
  | .importEvents => "ImportEvents"
  | .cancelBooking => "CancelBooking"

/-- The kind with this name. -/
def BookingCommand.ofName? (name : String) : Option BookingCommand :=
  [BookingCommand.bookRoom, .recordPayment, .importEvents, .cancelBooking].find? (·.name = name)

/-- What a command carries. -/
structure BookingRequest where
  id : String
  price : Nat := 0
  payment : String := ""
  amount : Nat := 0
  events : List booking.Event := []

/-- The commands of a booking. -/
def bookingCommands : CommandSet where
  Kind := BookingCommand
  decideKind := inferInstance
  Body := fun _ => BookingRequest
  name := BookingCommand.name

/-- What a command decides. -/
def BookingCommand.decide :
    BookingCommand → BookingState → BookingRequest → Except BookingError (List booking.Event)
  | .bookRoom, _, c => decideBooking c.id c.price
  | .recordPayment, b, c => decidePayment b c.id c.payment c.amount
  | .importEvents, _, c => .ok c.events
  | .cancelBooking, _, _ => .ok []

/-- Appends a payment to a stream behind the back of a command, past any faults and whatever comes
of it. -/
def interfere (r : TypeRegistry family) (stream : StreamName) (b : Backend FaultyStore) :
    Backend FaultyStore :=
  match r.serializeEvent (paymentRecorded "concurrent" 1) with
  | .error _ => b
  | .ok stored =>
    let (id, ids) := b.ids.next
    let (_, store) :=
      MemoryStore.append stream .any [NewEvent.of id stored Metadata.empty] b.store.store
    { store := { b.store with store }, ids }

/-- The three ways in which a handler may come to its decision. -/
inductive Style where
  | act
  | actOn
  | actWith (interference : Option StreamName)

/-- The action of a command in the given style. -/
def BookingCommand.action (k : BookingCommand) (r : TypeRegistry family) :
    Style → Action booking BookingRequest FaultyStore
  | .act => .act k.decide
  | .actOn =>
    .actOn fun state c => (k.decide state.inner c).map fun events =>
      events.foldl AggregateState.apply state
  | .actWith interference => .actWith fun state c b =>
    let b := match interference with
      | some stream => interfere r stream b
      | none => b
    (k.decide state c, b)

/-- The handler of a command; the stream may have a front part of its own. -/
def BookingCommand.handler (k : BookingCommand) (r : TypeRegistry family) (expected : ExpectedState)
    (style : Style) (front : Option String) : Handler booking BookingRequest FaultyStore where
  expected := expected
  target := BookingRequest.id
  stream := front.map fun front id _ => ⟨String.append front id⟩
  action := k.action r style

end EventSourcing.Sample

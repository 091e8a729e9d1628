/-
# A sample route

A booked room turns into a request to confirm the booking, and a payment into a marker in a stream
beside it; nothing else is passed on.
-/
import EventSourcing.Publishing.Gateway
import EventSourcing.Sample.Shapes

namespace EventSourcing.Sample

/-- The stream beside a target that payments go to. -/
def paymentsBeside (target : StreamName) : StreamName := ⟨String.append target.text "-payments"⟩

/-- Passes bookings and payments on. -/
def confirmations (target : StreamName) (metadata : Metadata) (options : PublishOptions) :
    Route family := fun m =>
  match m.payload with
  | ⟨.roomBooked, v⟩ =>
    let request : Payload := ⟨.sendConfirmation, SendConfirmation.mk v.bookingId v.price⟩
    some { target, payload := request, type := request.shapeName, metadata, options }
  | ⟨.paymentRecorded, _⟩ =>
    let mark : Payload := ⟨.marker, ()⟩
    some
      { target := paymentsBeside target
        payload := mark
        type := mark.shapeName
        metadata
        options }
  | _ => none

end EventSourcing.Sample

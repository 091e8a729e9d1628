/-
# The sample counter

A counter of 64 bits that wraps around: it can be added to and doubled.
-/
import EventSourcing.Sample.Shapes
import EventSourcing.Aggregate

namespace EventSourcing.Sample

/-- The events of a counter. -/
def counterEvents : EventSet family := ⟨"CounterEvent", [.added, .doubled, .poison]⟩

/-- What an event makes of a count.  A `Poison` leaves it as it is. -/
def countAfter (n : Int) (e : counterEvents.Event) : Int :=
  match e.payload with
  | ⟨.added, amount⟩ => Int.bmod (Int.add n amount) (Nat.pow 2 64)
  | ⟨.doubled, _⟩ => Int.bmod (2 * n) (Nat.pow 2 64)
  | _ => n

/-- The counter as an aggregate, its instances told apart by a number. -/
def counter : Aggregate family where
  name := "counter"
  Id := Nat
  idText := toString
  State := Int
  initial := 0
  events := counterEvents
  Error := Empty
  errorText := nofun
  apply := countAfter

end EventSourcing.Sample

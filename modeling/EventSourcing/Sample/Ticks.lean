/-
# Sample ticks

The smallest family there is: one shape with one value, stored as no bytes.  It is enough where only
the order and the numbers of events matter.
-/
import EventSourcing.Subscription

namespace EventSourcing.Sample

/-- The family of one shape with one value. -/
def ticks : PayloadFamily where
  Shape := Unit
  decideShape := inferInstance
  Value := fun _ => Unit
  name := fun _ => "Tick"
  encode := fun _ _ => .ok []
  decode := fun _ bytes => if bytes.isEmpty then some () else none

/-- The registry of the one shape. -/
def tickRegistry : TypeRegistry ticks := ⟨[⟨"tick", ()⟩]⟩

/-- The `n`-th event of a store that takes in nothing but ticks. -/
def tick (n : Nat) : StoredEvent where
  id := .ofNat n
  stream := ⟨"clock"⟩
  type := "tick"
  contentType := jsonContentType
  payload := []
  metadata := .ofList []
  occurredOn := ⟨n⟩
  streamPosition := n
  globalPosition := n

/-- A subscription to ticks with one handler, which handles two at a time. -/
def tickFeed (failureHandler : Option String) : Subscription ticks where
  options := { id := "feed", mode := .concurrent 2 }
  registry := tickRegistry
  position := (·.globalPosition)
  handlers := ["counter"]
  failureHandler := failureHandler

end EventSourcing.Sample

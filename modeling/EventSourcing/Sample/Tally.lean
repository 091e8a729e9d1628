/-
# The sample tally

An aggregate over ticks: a tally counts what is in its stream, and the one command it knows adds a
tick.
-/
import EventSourcing.Sample.Ticks
import EventSourcing.Command.Execution
import EventSourcing.Store.Memory

namespace EventSourcing.Sample

/-- The one event of a tally. -/
def tallyEvents : EventSet ticks := ⟨"TallyEvent", [()]⟩

/-- The tally as an aggregate with one instance. -/
def tally : Aggregate ticks where
  name := "tally"
  Id := Unit
  idText := fun _ => "1"
  State := Nat
  initial := 0
  events := tallyEvents
  Error := Empty
  errorText := nofun
  apply := fun n _ => n + 1

/-- The event of a tick. -/
def ticked : tally.Event := ⟨⟨(), ()⟩, List.mem_singleton_self ()⟩

/-- The stream of the tally. -/
def tallyStream : StreamName := ⟨"tally"⟩

/-- The command to add a tick. -/
def addTick : Order tally Unit MemoryStore where
  registry := tickRegistry
  handler := {
    target := id
    stream := some fun _ _ => tallyStream
    action := .act fun _ _ => .ok [ticked] }
  command := ()
  metadata := .ofList []

/-- The one kind of command a tally knows. -/
def tallyCommands : CommandSet := ⟨Unit, inferInstance, fun _ => Unit, fun _ => "AddTick"⟩

/-- The service of the tally. -/
def tallyService : CommandService tally tallyCommands MemoryStore :=
  ⟨tickRegistry, fun _ => some addTick.handler⟩

/-- The `n`-th tick as it is handed to the store. -/
def newTick (n : Nat) : NewEvent := ⟨(IdSupply.next ⟨n⟩).1, "tick", jsonContentType, [], .ofList []⟩

end EventSourcing.Sample

/-
# Faults in waiting

To see how a program copes with failing calls, faults can be put in its way: for each kind of call
there is a queue, and every call takes the next entry.  An empty entry, or an empty queue, lets the
call through.
-/
import EventSourcing.Table

namespace EventSourcing

/-- For each kind of call, what its next calls run into. -/
structure FaultQueues (φ : Type) where
  queues : Table (List (Option φ)) := Table.empty

namespace FaultQueues

variable {φ : Type}

instance : Inhabited (FaultQueues φ) := ⟨{}⟩

/-- The fault that the next call of this kind runs into, and the queues after it. -/
def take (q : FaultQueues φ) (call : String) : Option φ × FaultQueues φ :=
  match q.queues.get? call with
  | some (fault :: rest) => (fault, ⟨q.queues.insert call rest⟩)
  | _ => (none, q)

/-- The queues with more entries for one kind of call. -/
def add (q : FaultQueues φ) (call : String) (faults : List (Option φ)) : FaultQueues φ :=
  ⟨q.queues.insert call ((q.queues.get? call).getD [] ++ faults)⟩

/-- The queues with these entries. -/
def ofList (entries : List (String × List (Option φ))) : FaultQueues φ :=
  entries.foldl (fun q e => q.add e.1 e.2) {}

end FaultQueues

end EventSourcing

/-
# Checkpoints under batches

A call through the batches reaches the store behind them or leaves it alone, and a forced call
always reaches it.  The batches keep counts only, so whatever has to outlast a restart is in the
store behind them.

What the file settles:

* `LayeredCheckpoints.load_eq`: a load answers what the store behind the batches has;
* `LayeredCheckpoints.physical_save`, `LayeredCheckpoints.physical_force`: what a call does to it;
* `MemoryCheckpoints.position?_write`: what a subscription finds afterwards.
-/
import EventSourcing.Checkpoint.Batched

namespace EventSourcing

namespace MemoryCheckpoints

/-- A write is found under its own subscription, and nothing else changes. -/
theorem position?_write (s : MemoryCheckpoints) (c : Checkpoint) (subscription : String) :
    (s.write c).position? subscription =
      if subscription = c.subscription then c.position else s.position? subscription := by
  unfold position? write
  rw [Table.get?_insert]
  split <;> rfl

end MemoryCheckpoints

namespace LayeredCheckpoints

theorem physical_ofSizes {σ : Type} (store : σ) (sizes : List Nat) :
    (ofSizes store sizes).physical = store := by
  have of_layers : ∀ layers : LayeredCheckpoints σ,
      (sizes.foldl (fun inner size => .batched ⟨size, Table.empty⟩ inner) layers).physical =
        layers.physical := by
    induction sizes with
    | nil => exact fun _ => rfl
    | cons size rest ih => exact fun layers => ih (.batched ⟨size, Table.empty⟩ layers)
  exact of_layers (.base store)

variable (layers : LayeredCheckpoints MemoryCheckpoints)

theorem load_eq (subscription : String) :
    (load subscription layers).1 = .ok ⟨subscription, layers.physical.position? subscription⟩ := by
  induction layers with
  | base store => rfl
  | batched batch inner ih => exact ih

/-- A call is held back, or it reaches the store behind the batches. -/
theorem physical_save (c : Checkpoint) (force : Bool) :
    (save c force layers).2.physical = layers.physical ∨
      (save c force layers).2.physical = layers.physical.write c := by
  induction layers with
  | base store => exact .inr rfl
  | batched batch inner ih =>
    unfold save
    split
    · exact ih
    · exact .inl rfl

/-- A forced call is not held back. -/
theorem physical_force (c : Checkpoint) :
    (save c true layers).2.physical = layers.physical.write c := by
  induction layers with
  | base store => rfl
  | batched batch inner ih => exact ih

end LayeredCheckpoints
end EventSourcing

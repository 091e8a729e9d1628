/-
# Putting off checkpoint writes

A batch lets only every n-th call of a subscription through to the store behind it, counting the
calls of each subscription on its own.  A forced call goes through at once and starts the count
again.  Batches may be laid over one another.

What the file settles:

* `Batch.pass`: which calls go through;
* `LayeredCheckpoints`: a store of checkpoints under any number of batches.
-/
import EventSourcing.Checkpoint

namespace EventSourcing

/-! ## 1. One batch -/

/-- Counts the calls of each subscription since the last one that went through. -/
structure Batch where
  /-- Every call of this number goes through; zero counts as one. -/
  size : Nat
  counts : Table Nat := Table.empty

namespace Batch

/-- The calls of the subscription since the last one that went through. -/
def count (b : Batch) (subscription : String) : Nat := (b.counts.get? subscription).getD 0

/-- Counts one more call, and says whether it goes through. -/
def pass (b : Batch) (subscription : String) (force : Bool) : Bool × Batch :=
  let count := b.count subscription + 1
  let through := force || decide (max b.size 1 ≤ count)
  (through, { b with counts := b.counts.insert subscription (if through then 0 else count) })

end Batch

/-! ## 2. Layers of batches -/

/-- A store of checkpoints, under any number of batches. -/
inductive LayeredCheckpoints (σ : Type) where
  | base (store : σ)
  | batched (batch : Batch) (inner : LayeredCheckpoints σ)

namespace LayeredCheckpoints

variable {σ : Type}

/-- The store under all batches. -/
def physical : LayeredCheckpoints σ → σ
  | .base store => store
  | .batched _ inner => inner.physical

/-- The layers with another store under them. -/
def withPhysical (store : σ) : LayeredCheckpoints σ → LayeredCheckpoints σ
  | .base _ => .base store
  | .batched batch inner => .batched batch (inner.withPhysical store)

/-- A store under batches of these sizes, the first of them innermost. -/
def ofSizes (store : σ) (sizes : List Nat) : LayeredCheckpoints σ :=
  sizes.foldl (fun inner size => .batched ⟨size, Table.empty⟩ inner) (.base store)

variable [CheckpointStore σ]

/-- Loading looks past all batches. -/
def load (subscription : String) : Call (LayeredCheckpoints σ) CheckpointError Checkpoint
  | .base store =>
    let (answer, store) := CheckpointStore.load subscription store
    (answer, .base store)
  | .batched batch inner =>
    let (answer, inner) := load subscription inner
    (answer, .batched batch inner)

/-- A call that a batch holds back is answered as if it had been stored. -/
def save (c : Checkpoint) (force : Bool) : Call (LayeredCheckpoints σ) CheckpointError Checkpoint
  | .base store =>
    let (answer, store) := CheckpointStore.save c force store
    (answer, .base store)
  | .batched batch inner =>
    match batch.pass c.subscription force with
    | (true, batch) =>
      let (answer, inner) := save c force inner
      (answer, .batched batch inner)
    | (false, batch) => (.ok c, .batched batch inner)

instance : CheckpointStore (LayeredCheckpoints σ) where
  load := load
  save := save

end LayeredCheckpoints

end EventSourcing

/-
# Which writes a batch lets through

A batch counts the calls of each subscription and lets every n-th of them through, and every forced
one.  What it lets through it decides by the calls of that subscription alone, so neither another
subscription nor a failing store changes the schedule.  What it lets through reaches the store
behind it as it came, and that store is all a load sees.

What the file settles:

* `Batch.passages`: the calls in order, each with what the batch does to it, and `pending`: the
  calls of a subscription that wait for a write;
* `Batch.count_after`: the count is the number of pending calls, and smaller than the size;
* `Batch.saved_over`, `Batch.replies_over`: what reaches the store behind it, and what the calls are
  answered;
* `Remembers`: a store that keeps, for each subscription, the last position it took
  (`Remembers.position?_saved`);
* `batches_write_every_nth`: the schedule, its independence, what reaches the store, and what a load
  finds.
-/
import EventSourcing.Proofs.Checkpoint
import Mathlib.Data.List.DropRight
import Mathlib.Data.List.Induction

namespace EventSourcing

/-! ## 1. Calls and replies -/

/-- One call that stores a checkpoint. -/
structure SaveCall where
  checkpoint : Checkpoint
  force : Bool
  deriving DecidableEq

namespace SaveCall

def id (c : SaveCall) : String := c.checkpoint.subscription

variable {σ : Type} [CheckpointStore σ]

def run (c : SaveCall) (s : σ) : Except CheckpointError Checkpoint × σ :=
  CheckpointStore.save c.checkpoint c.force s

end SaveCall

/-- A call and what it was answered. -/
structure SaveReply where
  call : SaveCall
  answer : Except CheckpointError Checkpoint

/-- The checkpoint, if the store took it. -/
def SaveReply.taken? (r : SaveReply) : Option Checkpoint :=
  if r.answer.isOk then some r.call.checkpoint else none

namespace CheckpointStore

variable {σ : Type} [CheckpointStore σ]

/-- What a store answers to the calls, one after the other. -/
def replies (s : σ) : List SaveCall → List SaveReply
  | [] => []
  | c :: calls => ⟨c, (c.run s).1⟩ :: replies (c.run s).2 calls

/-- The store after the calls. -/
def saved (s : σ) (calls : List SaveCall) : σ := calls.foldl (fun s c => (c.run s).2) s

/-- The checkpoints the store took, in order. -/
def taken (s : σ) (calls : List SaveCall) : List Checkpoint :=
  (replies s calls).filterMap SaveReply.taken?

end CheckpointStore

/-- The position of the last of the checkpoints that is the subscription's, or the one there was
before. -/
def Checkpoint.lastPosition (before : Option Nat) (id : String) (checkpoints : List Checkpoint) :
    Option Nat :=
  ((checkpoints.filter (·.subscription = id)).getLast?.map (·.position)).getD before

/-! ## 2. What a batch does to the calls -/

/-- A call and whether the batch let it through. -/
structure Passage where
  call : SaveCall
  through : Bool

namespace Batch

/-- The calls in order, each with what the batch does to it. -/
def passages (b : Batch) : List SaveCall → List Passage
  | [] => []
  | c :: calls => ⟨c, (b.pass c.id c.force).1⟩ :: passages (b.pass c.id c.force).2 calls

/-- The batch after the calls. -/
def after (b : Batch) (calls : List SaveCall) : Batch :=
  calls.foldl (fun b c => (b.pass c.id c.force).2) b

/-- The calls the batch lets through. -/
def through (b : Batch) (calls : List SaveCall) : List SaveCall :=
  ((b.passages calls).filter (·.through)).map (·.call)

/-- A batch that has counted nothing yet. -/
def ofSize (size : Nat) : Batch := ⟨size, Table.empty⟩

end Batch

/-- The number of calls of the subscription since the last of them that went through, or since the
start. -/
def Batch.pending (id : String) (past : List Passage) : Nat :=
  ((past.filter (·.call.id = id)).rtakeWhile (!·.through)).length

/-! ## 3. The schedule -/

theorem Batch.pending_concat (id : String) (past : List Passage) (p : Passage) :
    Batch.pending id (past ++ [p]) =
      if p.call.id = id then (if p.through then 0 else Batch.pending id past + 1)
      else Batch.pending id past := by
  unfold Batch.pending
  by_cases hid : p.call.id = id
  · cases hp : p.through <;> simp [List.filter_append, hid, hp]
  · simp [List.filter_append, hid]

namespace Batch

variable (b : Batch)

theorem pass_iff (id : String) (force : Bool) :
    (b.pass id force).1 = true ↔ force = true ∨ max b.size 1 ≤ b.count id + 1 := by
  simp [pass]

/-- A call counts for its own subscription, and one that goes through starts the count again. -/
theorem count_pass (id other : String) (force : Bool) : (b.pass id force).2.count other =
    if id = other then (if (b.pass id force).1 then 0 else b.count id + 1) else b.count other := by
  unfold count
  simp only [pass, Table.get?_insert, eq_comm (a := other)]
  split <;> rfl

theorem size_after (calls : List SaveCall) : (b.after calls).size = b.size := by
  induction calls generalizing b with
  | nil => rfl
  | cons c calls ih => exact ih _

theorem after_concat (calls : List SaveCall) (c : SaveCall) :
    b.after (calls ++ [c]) = ((b.after calls).pass c.id c.force).2 := by
  simp [after, List.foldl_append]

theorem passages_append (calls later : List SaveCall) :
    b.passages (calls ++ later) = b.passages calls ++ (b.after calls).passages later := by
  induction calls generalizing b with
  | nil => rfl
  | cons c calls ih => exact congrArg (_ :: ·) (ih _)

theorem map_call_passages (calls : List SaveCall) : (b.passages calls).map (·.call) = calls := by
  induction calls generalizing b with
  | nil => rfl
  | cons c calls ih => exact congrArg (c :: ·) (ih _)

/-- A passage stands where its call stood, and the calls before it decide on it. -/
theorem passages_split {calls : List SaveCall} {past later : List Passage} {p : Passage}
    (h : b.passages calls = past ++ p :: later) : ∃ earlier, b.passages earlier = past ∧
      p.through = ((b.after earlier).pass p.call.id p.call.force).1 := by
  induction past generalizing b calls with
  | nil =>
    cases calls with
    | nil => cases h
    | cons c calls =>
      obtain ⟨rfl, -⟩ := List.cons.inj h
      exact ⟨[], rfl, rfl⟩
  | cons q past ih =>
    cases calls with
    | nil => cases h
    | cons c calls =>
      obtain ⟨rfl, hrest⟩ := List.cons.inj h
      obtain ⟨earlier, hearlier, hp⟩ := ih _ hrest
      exact ⟨c :: earlier, congrArg (_ :: ·) hearlier, hp⟩

/-- The count is the number of pending calls, which never fills the batch. -/
theorem count_after (size : Nat) (calls : List SaveCall) (id : String) :
    ((ofSize size).after calls).count id = pending id ((ofSize size).passages calls) ∧
      pending id ((ofSize size).passages calls) < max size 1 := by
  induction calls using List.reverseRecOn with
  | nil => exact ⟨rfl, Nat.lt_of_lt_of_le Nat.one_pos (Nat.le_max_right size 1)⟩
  | append_singleton calls c ih =>
    have hsize : ((ofSize size).after calls).size = size := size_after _ _
    have hpass := pass_iff ((ofSize size).after calls) c.id c.force
    rw [after_concat, count_pass, passages_append]
    simp only [passages, pending_concat]
    by_cases hid : c.id = id
    · obtain rfl := hid
      rw [if_pos rfl, if_pos rfl, ih.1]
      split
      · exact ⟨rfl, Nat.lt_of_le_of_lt (Nat.zero_le _) ih.2⟩
      · rename_i hheld
        have hfull := mt (fun hle => hpass.2 (.inr hle)) hheld
        rw [hsize, ih.1] at hfull
        exact ⟨rfl, Nat.lt_of_not_le hfull⟩
    · rw [if_neg hid, if_neg hid]
      exact ih

/-- A call goes through exactly if it is forced or fills the batch. -/
theorem through_iff {size : Nat} {calls : List SaveCall} {past later : List Passage} {p : Passage}
    (h : (ofSize size).passages calls = past ++ p :: later) :
    p.through = true ↔ p.call.force = true ∨ pending p.call.id past + 1 = max size 1 := by
  obtain ⟨earlier, rfl, hp⟩ := passages_split _ h
  obtain ⟨hcount, hlt⟩ := count_after size earlier p.call.id
  have hsize : ((ofSize size).after earlier).size = size := size_after _ _
  rw [hp, pass_iff, hsize, hcount]
  constructor
  · exact Or.imp_right fun hle => by omega
  · exact Or.imp_right fun heq => by omega

/-- Two batches that agree on a subscription do the same to its calls, whatever other calls come
between. -/
theorem filter_passages {b b' : Batch} {id : String} (hsize : b.size = b'.size)
    (hcount : b.count id = b'.count id) (calls : List SaveCall) :
    (b.passages calls).filter (·.call.id = id) = b'.passages (calls.filter (·.id = id)) := by
  induction calls generalizing b b' with
  | nil => rfl
  | cons c calls ih =>
    by_cases hid : c.id = id
    · obtain rfl := hid
      have hpass : (b.pass c.id c.force).1 = (b'.pass c.id c.force).1 := by
        rw [Bool.eq_iff_iff, pass_iff, pass_iff, hsize, hcount]
      have hlater : (b.pass c.id c.force).2.count c.id = (b'.pass c.id c.force).2.count c.id := by
        rw [count_pass, count_pass, hpass, hcount]
      simp only [passages, List.filter_cons, decide_true, if_true, hpass]
      exact congrArg (_ :: ·) (ih (b := (b.pass c.id c.force).2) hsize hlater)
    · simp only [passages, List.filter_cons, hid, decide_false, Bool.false_eq_true, if_false]
      refine ih (b := (b.pass c.id c.force).2) hsize ?_
      rw [count_pass, if_neg hid]
      exact hcount

/-- The calls of a subscription are the ones up to its last write, and fewer than the size of the
batch after it. -/
theorem filter_calls (size : Nat) (calls : List SaveCall) (id : String) :
    ∃ early late, calls.filter (·.id = id) = early ++ late ∧
      late.length = pending id ((ofSize size).passages calls) ∧
      (((ofSize size).through calls).filter (·.id = id)).getLast? = early.getLast? := by
  induction calls using List.reverseRecOn with
  | nil => exact ⟨[], [], rfl, rfl, rfl⟩
  | append_singleton calls c ih =>
    obtain ⟨early, late, hcalls, hlate, hlast⟩ := ih
    unfold through at hlast ⊢
    rw [passages_append]
    simp only [passages, pending_concat, List.filter_append, hcalls, List.map_append]
    by_cases hid : c.id = id
    · cases hpass : (((ofSize size).after calls).pass c.id c.force).1
      · exact ⟨early, late ++ [c], by simp [hid], by simp [hid, hlate], by simpa using hlast⟩
      · exact ⟨early ++ late ++ [c], [], by simp [hid], by simp [hid], by simp [hid]⟩
    · refine ⟨early, late, by simp [hid], by simp [hid, hlate], ?_⟩
      cases hpass : (((ofSize size).after calls).pass c.id c.force).1 <;> simpa [hid] using hlast

end Batch

/-! ## 4. What reaches the store -/

section Reaching

open CheckpointStore (replies saved)

variable {σ : Type}

/-- The batch over a store. -/
def Batch.over (b : Batch) (s : σ) : LayeredCheckpoints σ := .batched b (.base s)

variable [CheckpointStore σ]

/-- What the calls are answered: what the store answers to the ones that go through, and that they
were stored to the ones held back. -/
def Batch.answered (s : σ) : List Passage → List SaveReply
  | [] => []
  | ⟨c, true⟩ :: later => ⟨c, (c.run s).1⟩ :: Batch.answered (c.run s).2 later
  | ⟨c, false⟩ :: later => ⟨c, .ok c.checkpoint⟩ :: Batch.answered s later

theorem run_of_through {b : Batch} {s : σ} {c : SaveCall} (h : (b.pass c.id c.force).1 = true) :
    c.run (b.over s) = ((c.run s).1, (b.pass c.id c.force).2.over (c.run s).2) := by
  have hpass : b.pass c.checkpoint.subscription c.force = (true, (b.pass c.id c.force).2) :=
    Prod.ext h rfl
  show LayeredCheckpoints.save c.checkpoint c.force (.batched b (.base s)) = _
  rw [LayeredCheckpoints.save, hpass]
  rfl

theorem run_of_held {b : Batch} {s : σ} {c : SaveCall} (h : (b.pass c.id c.force).1 = false) :
    c.run (b.over s) = (.ok c.checkpoint, (b.pass c.id c.force).2.over s) := by
  have hpass : b.pass c.checkpoint.subscription c.force = (false, (b.pass c.id c.force).2) :=
    Prod.ext h rfl
  show LayeredCheckpoints.save c.checkpoint c.force (.batched b (.base s)) = _
  rw [LayeredCheckpoints.save, hpass]
  rfl

theorem Batch.saved_over (b : Batch) (s : σ) (calls : List SaveCall) :
    saved (b.over s) calls = (b.after calls).over (saved s (b.through calls)) := by
  induction calls generalizing b s with
  | nil => rfl
  | cons c calls ih =>
    rw [saved, List.foldl_cons]
    cases h : (b.pass c.id c.force).1
    · rw [run_of_held h, Batch.through, Batch.passages, h]
      exact ih _ _
    · rw [run_of_through h, Batch.through, Batch.passages, h]
      exact ih _ _

theorem Batch.replies_over (b : Batch) (s : σ) (calls : List SaveCall) :
    replies (b.over s) calls = Batch.answered s (b.passages calls) := by
  induction calls generalizing b s with
  | nil => rfl
  | cons c calls ih =>
    rw [replies, Batch.passages]
    cases h : (b.pass c.id c.force).1
    · rw [run_of_held h, Batch.answered, ih]
    · rw [run_of_through h, Batch.answered, ih]

theorem Batch.load_over (b : Batch) (s : σ) (id : String) :
    (CheckpointStore.load id (b.over s)).1 = (CheckpointStore.load id s).1 := rfl

end Reaching

/-! ## 5. What a load finds -/

/-- The store keeps, for each subscription, the position of the last checkpoint it took.  A call
that it refuses changes nothing. -/
structure Remembers (σ : Type) [CheckpointStore σ]
    (position? : σ → String → Option Nat) : Prop where
  save : ∀ (s : σ) (c : SaveCall),
    ((c.run s).1 = .ok c.checkpoint ∧
      ∀ id,
        position? (c.run s).2 id = if id = c.id then c.checkpoint.position else position? s id) ∨
    (∃ e, (c.run s).1 = .error e) ∧ ∀ id, position? (c.run s).2 id = position? s id
  load : ∀ (s : σ) (id : String), (CheckpointStore.load id s).1 = .ok ⟨id, position? s id⟩ ∨
    ∃ e, (CheckpointStore.load id s).1 = .error e

theorem remembers_memory : Remembers MemoryCheckpoints MemoryCheckpoints.position? where
  save s c := .inl ⟨rfl, s.position?_write c.checkpoint⟩
  load _ _ := .inl rfl

theorem remembers_faulty : Remembers FaultyCheckpoints (·.memory.position?) where
  save s c := by
    match h : s.faults.take "store" with
    | (some error, faults) =>
      have hrun : c.run s = (.error error, { s with faults }) := by
        simp only [SaveCall.run, CheckpointStore.save, h]
      rw [hrun]
      exact .inr ⟨⟨error, rfl⟩, fun _ => rfl⟩
    | (none, faults) =>
      have hrun : c.run s = (.ok c.checkpoint,
          ⟨s.memory.write c.checkpoint, faults, ⟨c.checkpoint, c.force⟩ :: s.record⟩) := by
        simp only [SaveCall.run, CheckpointStore.save, h]
      rw [hrun]
      exact .inl ⟨rfl, s.memory.position?_write c.checkpoint⟩
  load s id := by
    match h : s.faults.take "get" with
    | (some error, faults) => exact .inr ⟨error, by simp only [CheckpointStore.load, h]⟩
    | (none, faults) => exact .inl (by simp only [CheckpointStore.load, h])

theorem Checkpoint.lastPosition_cons (before : Option Nat) (id : String) (c : Checkpoint)
    (rest : List Checkpoint) :
    Checkpoint.lastPosition before id (c :: rest) =
      Checkpoint.lastPosition (if id = c.subscription then c.position else before) id rest := by
  unfold Checkpoint.lastPosition
  by_cases h : id = c.subscription
  · subst h
    cases hlast : (rest.filter (·.subscription = c.subscription)).getLast?
      <;> simp [List.getLast?_cons, hlast]
  · simp [h, eq_comm (a := c.subscription)]

section Finding

open CheckpointStore (replies saved taken)
open Checkpoint (lastPosition lastPosition_cons)

variable {σ : Type} [CheckpointStore σ] {position? : σ → String → Option Nat}

theorem taken_cons (s : σ) (c : SaveCall) (calls : List SaveCall) :
    taken s (c :: calls) = (if (c.run s).1.isOk then [c.checkpoint] else []) ++
      taken (c.run s).2 calls := by
  unfold taken
  rw [replies, List.filterMap_cons, SaveReply.taken?]
  cases (c.run s).1.isOk <;> rfl

theorem Remembers.position?_saved (h : Remembers σ position?)
    (s : σ) (calls : List SaveCall) (id : String) :
    position? (saved s calls) id = lastPosition (position? s id) id (taken s calls) := by
  induction calls generalizing s with
  | nil => rfl
  | cons c calls ih =>
    refine (ih (c.run s).2).trans ?_
    rw [taken_cons]
    rcases h.save s c with ⟨hok, hposition⟩ | ⟨⟨e, herror⟩, hposition⟩
    · rw [hok, hposition]
      exact (lastPosition_cons _ id c.checkpoint _).symm
    · rw [herror, hposition]
      rfl

/-- A store that refuses nothing takes every call. -/
theorem taken_of_isOk (s : σ) (calls : List SaveCall) (h : ∀ r ∈ replies s calls, r.answer.isOk) :
    taken s calls = calls.map (·.checkpoint) := by
  induction calls generalizing s with
  | nil => rfl
  | cons c calls ih =>
    obtain ⟨hc, hlater⟩ := List.forall_mem_cons.1 h
    rw [taken_cons, if_pos hc, ih _ hlater]
    rfl

theorem Checkpoint.lastPosition_map (before : Option Nat) (id : String) (calls : List SaveCall) :
    lastPosition before id (calls.map (·.checkpoint)) =
      ((calls.filter (·.id = id)).getLast?.map (·.checkpoint.position)).getD before := by
  unfold lastPosition
  rw [List.filter_map, List.getLast?_map, Option.map_map]
  rfl

end Finding

/-! ## 6. All together -/

section Main

open CheckpointStore (replies saved taken)
open Checkpoint (lastPosition lastPosition_map)

variable {σ : Type} [CheckpointStore σ]

/-- What holds of a batch of this size over a store, after any calls. -/
structure Batches (position? : σ → String → Option Nat) (size : Nat) (store : σ)
    (calls : List SaveCall) : Prop where
  /-- The calls pass in order. -/
  order : ((Batch.ofSize size).passages calls).map (·.call) = calls
  /-- A call goes through if it is forced, or if it is the n-th of its subscription since the last
  that did. -/
  schedule : ∀ past p later, (Batch.ofSize size).passages calls = past ++ p :: later →
    (p.through = true ↔ p.call.force = true ∨ Batch.pending p.call.id past + 1 = max size 1)
  /-- The calls of a subscription fare as if there were no others. -/
  alone : ∀ id, ((Batch.ofSize size).passages calls).filter (·.call.id = id) =
    (Batch.ofSize size).passages (calls.filter (·.id = id))
  /-- The store behind gets the calls that go through, and no others. -/
  reaches : saved ((Batch.ofSize size).over store) calls =
    ((Batch.ofSize size).after calls).over (saved store ((Batch.ofSize size).through calls))
  answers : replies ((Batch.ofSize size).over store) calls =
    Batch.answered store ((Batch.ofSize size).passages calls)
  /-- A load finds the last position that the store took, unless the store refuses that very
  load. -/
  load : ∀ id, (CheckpointStore.load id (saved ((Batch.ofSize size).over store) calls)).1 =
      .ok ⟨id,
        lastPosition (position? store id) id (taken store ((Batch.ofSize size).through calls))⟩ ∨
    ∃ e, (CheckpointStore.load id (saved ((Batch.ofSize size).over store) calls)).1 = .error e ∧
      (CheckpointStore.load id (saved store ((Batch.ofSize size).through calls))).1 = .error e
  /-- If the store refuses none of them, all but fewer calls of a subscription than fill the batch
  are written. -/
  unwritten : (∀ r ∈ replies store ((Batch.ofSize size).through calls), r.answer.isOk) →
    ∀ id, ∃ early late, calls.filter (·.id = id) = early ++ late ∧ late.length < max size 1 ∧
      position? (saved store ((Batch.ofSize size).through calls)) id =
        (early.getLast?.map (·.checkpoint.position)).getD (position? store id)

/-- **A batch writes every n-th call of each subscription, and every forced one.**  Which ones does
not depend on the calls of other subscriptions nor on what the store answers; the store gets them
unchanged; and a load finds the last of them that the store took. -/
theorem batches_write_every_nth {position? : σ → String → Option Nat} (h : Remembers σ position?)
    (size : Nat) (store : σ) (calls : List SaveCall) : Batches position? size store calls := by
  constructor
  case order => exact Batch.map_call_passages _ calls
  case schedule => exact fun past p later => Batch.through_iff
  case alone => exact fun id => Batch.filter_passages rfl rfl calls
  case reaches => exact Batch.saved_over _ store calls
  case answers => exact Batch.replies_over _ store calls
  case load =>
    intro id
    rw [Batch.saved_over, Batch.load_over]
    refine (h.load _ id).imp (fun hload => ?_) fun ⟨e, herror⟩ => ⟨e, herror, herror⟩
    rw [hload, h.position?_saved]
  case unwritten =>
    intro hok id
    obtain ⟨early, late, hcalls, hlate, hlast⟩ := Batch.filter_calls size calls id
    refine ⟨early, late, hcalls, hlate ▸ (Batch.count_after size calls id).2, ?_⟩
    rw [h.position?_saved, taken_of_isOk store _ hok, lastPosition_map, hlast]

/-- Two subscriptions take turns.  The first write is refused; the second call after it is written
again, and the forced call of the other subscription at once. -/
theorem refused_write_is_made_up_for :
    let store : FaultyCheckpoints := { faults := .ofList [("store", [some (.backend "down")])] }
    let calls : List SaveCall :=
      [⟨⟨"a", some 1⟩, false⟩, ⟨⟨"b", some 1⟩, false⟩, ⟨⟨"a", some 2⟩, false⟩,
        ⟨⟨"a", some 3⟩, false⟩, ⟨⟨"a", some 4⟩, false⟩, ⟨⟨"b", some 5⟩, true⟩,
        ⟨⟨"a", some 6⟩, false⟩]
    Batches (·.memory.position?) 2 store calls ∧
      (Batch.ofSize 2).through calls =
        [⟨⟨"a", some 2⟩, false⟩, ⟨⟨"a", some 4⟩, false⟩, ⟨⟨"b", some 5⟩, true⟩] ∧
      taken store ((Batch.ofSize 2).through calls) = [⟨"a", some 4⟩, ⟨"b", some 5⟩] ∧
      (CheckpointStore.load "a" (saved ((Batch.ofSize 2).over store) calls)).1 =
        .ok ⟨"a", some 4⟩ :=
  ⟨batches_write_every_nth remembers_faulty 2 _ _, by decide, by decide, rfl⟩

end Main

end EventSourcing

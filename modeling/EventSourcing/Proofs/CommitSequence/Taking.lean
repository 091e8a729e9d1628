/-
# What the takes of a commit sequence answer

Positions are inserted in any order, again and again, and now and then what has become gapless is
taken out.  Whatever the order, the sequence stands at the least number that was never inserted, as
of its last take; so the takes answer nothing but what their rounds determine, a ROUND being what
had been inserted when a take came.

What the file settles:

* `Keeps`: what the sequence has to do with what was inserted, kept by an insertion and by a take
  (`keeps_reached`);
* `outcome`: what the takes answer, from the rounds alone (`answers_eq_outcome`, `outcome_congr`);
* `takes_depend_on_what_is_in`: the number that comes next, the answers, the size, and what is held,
  after any operations.
-/
import EventSourcing.Proofs.CommitSequence
import Mathlib.Data.Finset.Card
import Mathlib.Order.Bounds.Basic
import Mathlib.Order.Nat

namespace EventSourcing
namespace CommitSequence

/-! ## 1. Operations -/

/-- What can be done with a sequence. -/
inductive Operation where
  | insert (p : CommitPosition)
  | take

def perform (s : CommitSequence) : Operation → CommitSequence
  | .insert p => (s.insert p).2
  | .take => s.takeCommittable.2

/-- The sequence that began at `start`, after the operations. -/
def reached (start : Nat) (ops : List Operation) : CommitSequence :=
  ops.foldl perform (startingAt start)

def Operation.position? : Operation → Option CommitPosition
  | .insert p => some p
  | .take => none

/-- The positions the operations insert, whether or not the sequence keeps them. -/
def inserted (ops : List Operation) : List CommitPosition := ops.filterMap Operation.position?

/-- What the takes among the operations answer. -/
def answers (s : CommitSequence) : List Operation → List (Option CommitPosition)
  | [] => []
  | .insert p :: ops => answers (s.insert p).2 ops
  | .take :: ops => s.takeCommittable.1 :: answers s.takeCommittable.2 ops

/-- What has been inserted when each of the takes comes, after what was inserted before. -/
def rounds (before : List CommitPosition) : List Operation → List (List CommitPosition)
  | [] => []
  | .insert p :: ops => rounds (before ++ [p]) ops
  | .take :: ops => before :: rounds before ops

/-! ## 2. The least number that is missing -/

/-- The number is one of the sequence's, and it was never inserted. -/
def Missing (start : Nat) (taken : List CommitPosition) (n : Nat) : Prop :=
  start ≤ n ∧ ∀ p ∈ taken, p.sequence ≠ n

/-- What the sequence has to do with what was inserted. -/
structure Keeps (start : Nat) (taken : List CommitPosition) (s : CommitSequence) : Prop where
  placed : s.WellPlaced
  le : start ≤ s.next
  covers : ∀ n, s.Covers n ↔ n < start ∨ ∃ p ∈ taken, p.sequence = n
  first : ∀ p ∈ s.waiting, IsFirst taken p

variable {start : Nat} {taken : List CommitPosition} {s s' : CommitSequence}
  {p q last : CommitPosition}

theorem keeps_startingAt (start : Nat) : Keeps start [] (startingAt start) where
  placed := ⟨.nil, nofun⟩
  le := Nat.le_refl start
  covers n := by simp [Covers, startingAt]
  first := nofun

theorem Keeps.not_covers_iff (h : Keeps start taken s) (n : Nat) :
    ¬ s.Covers n ↔ Missing start taken n := by
  rw [h.covers, not_or, Nat.not_lt, not_exists]
  simp only [not_and]
  rfl

/-- The number that comes next is the least one missing, unless it waits to be taken. -/
theorem Keeps.isLeast (h : Keeps start taken s) (hnext : ∀ p ∈ s.waiting, p.sequence ≠ s.next) :
    IsLeast {n | Missing start taken n} s.next := by
  have hmissing (n : Nat) : Missing start taken n ↔ ¬ s.Covers n := (h.not_covers_iff n).symm
  constructor
  · refine (hmissing s.next).2 ?_
    rintro (hlt | ⟨p, hp, heq⟩)
    · exact Nat.lt_irrefl s.next hlt
    · exact hnext p hp heq
  · intro n hn
    exact Nat.le_of_not_lt fun hlt => (hmissing n).1 hn (.inl hlt)

theorem Keeps.insert (h : Keeps start taken s) (p : CommitPosition) :
    Keeps start (taken ++ [p]) (s.insert p).2 where
  placed := h.placed.insert p
  le := by
    rw [next_insert]
    exact h.le
  covers n := by
    rw [covers_insert, h.covers]
    simp [or_and_right, exists_or, or_assoc, eq_comm]
  first q hq := by
    rcases mem_waiting_insert_new h.placed hq with hold | ⟨rfl, hnew⟩
    · exact (h.first q hold).concat p
    · exact isFirst_concat_self ((h.not_covers_iff q.sequence).1 hnew).2

theorem Keeps.take_none (h : Keeps start taken s) (ht : s.takeCommittable = (none, s')) :
    s' = s ∧ IsLeast {n | Missing start taken n} s'.next := by
  obtain ⟨rfl, hgap⟩ := takeCommittable_none ht
  exact ⟨rfl, h.isLeast (hgap h.placed)⟩

theorem Keeps.of_take_some (h : Keeps start taken s) (ht : s.takeCommittable = (some last, s')) :
    Keeps start taken s' := by
  obtain ⟨hmem, hnext, -, hwaiting, -⟩ := takeCommittable_some h.placed ht
  have hfresh := h.placed.fresh last hmem
  constructor
  case placed => exact h.placed.takeCommittable ht
  case le =>
    have := h.le
    omega
  case covers => exact fun n => (covers_takeCommittable h.placed ht n).trans (h.covers n)
  case first => exact fun p hp => h.first p ((hwaiting p).1 hp).1

/-- A take that answers a position moves past it, to the least number missing. -/
theorem Keeps.take_some (h : Keeps start taken s) (ht : s.takeCommittable = (some last, s')) :
    IsFirst taken last ∧ s.next ≤ last.sequence ∧ s'.next = last.sequence + 1 ∧
      IsLeast {n | Missing start taken n} s'.next := by
  obtain ⟨hmem, hnext, -, -, hgap⟩ := takeCommittable_some h.placed ht
  exact ⟨h.first last hmem, h.placed.fresh last hmem, hnext, (h.of_take_some ht).isLeast hgap⟩

theorem Keeps.take (h : Keeps start taken s) : Keeps start taken s.takeCommittable.2 := by
  match ht : s.takeCommittable with
  | (none, s') =>
    rw [(h.take_none ht).1]
    exact h
  | (some last, s') => exact h.of_take_some ht

theorem Keeps.isLeast_take (h : Keeps start taken s) :
    IsLeast {n | Missing start taken n} s.takeCommittable.2.next := by
  match ht : s.takeCommittable with
  | (none, s') => exact (h.take_none ht).2
  | (some last, s') => exact (h.take_some ht).2.2.2

/-! ## 3. Any operations -/

theorem inserted_concat (ops : List Operation) (op : Operation) :
    inserted (ops ++ [op]) = inserted ops ++ op.position?.toList := by
  unfold inserted
  cases h : op.position? <;> simp [List.filterMap_append, h]

theorem keeps_reached (start : Nat) (ops : List Operation) :
    Keeps start (inserted ops) (reached start ops) := by
  induction ops using List.reverseRecOn with
  | nil => exact keeps_startingAt start
  | append_singleton ops op ih =>
    rw [inserted_concat, reached, List.foldl_concat]
    cases op with
    | insert p => exact ih.insert p
    | take =>
      rw [show Operation.take.position?.toList = [] from rfl, List.append_nil]
      exact ih.take

/-- What waits is what was inserted first under its number, from the number that comes next on. -/
theorem Keeps.mem_waiting_iff (h : Keeps start taken s) (q : CommitPosition) :
    q ∈ s.waiting ↔ s.next ≤ q.sequence ∧ IsFirst taken q := by
  constructor
  · exact fun hq => ⟨h.placed.fresh q hq, h.first q hq⟩
  · rintro ⟨hle, hq⟩
    rcases (h.covers q.sequence).2 (.inr ⟨q, hq.mem, rfl⟩) with hlt | ⟨x, hx, heq⟩
    · omega
    · have hfirst := h.first x hx
      unfold IsFirst at hfirst hq
      rw [heq, hq] at hfirst
      cases hfirst
      exact hx

theorem nodup_numbers (h : s.WellPlaced) : (s.waiting.map (·.sequence)).Nodup :=
  (List.pairwise_map.2 h.sorted).imp Nat.ne_of_lt

theorem Keeps.size_eq (h : Keeps start taken s) :
    s.size = ((taken.map (·.sequence)).toFinset.filter (s.next ≤ ·)).card := by
  have hnumbers : (s.waiting.map (·.sequence)).toFinset =
      (taken.map (·.sequence)).toFinset.filter (s.next ≤ ·) := by
    ext n
    simp only [List.mem_toFinset, List.mem_map, Finset.mem_filter]
    constructor
    · rintro ⟨p, hp, rfl⟩
      exact ⟨⟨p, (h.first p hp).mem, rfl⟩, h.placed.fresh p hp⟩
    · rintro ⟨hn, hle⟩
      exact ((h.covers n).2 (.inr hn)).resolve_left (Nat.not_lt.2 hle)
  rw [← hnumbers, List.toFinset_card_of_nodup (nodup_numbers h.placed), List.length_map]
  rfl

/-- A position is new exactly if its number may still be taken and does not wait. -/
theorem Keeps.insert_fst_iff (h : Keeps start taken s) (p : CommitPosition) :
    (s.insert p).1 = true ↔ s.next ≤ p.sequence ∧ ∀ q ∈ s.waiting, q.sequence ≠ p.sequence := by
  unfold CommitSequence.insert
  split
  · rename_i hlt
    exact ⟨nofun, fun hp => absurd hp.1 (Nat.not_le.2 hlt)⟩
  · rename_i hle
    rw [place_fst_iff h.placed.sorted]
    exact ⟨fun hnew => ⟨Nat.not_lt.1 hle, hnew⟩, And.right⟩

theorem Keeps.next_le (h : Keeps start taken s) {bound : Nat} (hstart : start ≤ bound)
    (hbound : ∀ p ∈ taken, p.sequence < bound) : s.next ≤ bound := by
  refine Nat.le_of_not_lt fun hlt => ?_
  rcases (h.covers bound).1 (.inl hlt) with hlow | ⟨p, hp, heq⟩
  · exact Nat.not_lt.2 hstart hlow
  · exact Nat.ne_of_lt (hbound p hp) heq

/-- A sequence of which no take has answered a position stands where it stood. -/
theorem next_of_answers (ops : List Operation) (h : ∀ a ∈ answers s ops, a = none) :
    (ops.foldl perform s).next = s.next := by
  induction ops generalizing s with
  | nil => rfl
  | cons op ops ih =>
    cases op with
    | insert p => exact (ih h).trans (next_insert s p)
    | take =>
      obtain ⟨hnone, hlater⟩ := List.forall_mem_cons.1 h
      refine (ih hlater).trans ?_
      have hsame : s.takeCommittable.2 = s := (takeCommittable_none (Prod.ext hnone rfl)).1
      rw [hsame]

/-! ## 4. What the takes answer -/

section Outcome

variable {β : Type} {a b : List CommitPosition} {n : Nat}

/-- The two rounds have the same numbers in them, and `f` sees no difference between their first
positions. -/
def Agree (f : CommitPosition → β) (a b : List CommitPosition) : Prop :=
  ∀ n, (a.find? (·.sequence = n)).map f = (b.find? (·.sequence = n)).map f

/-- The same numbers are in. -/
def SameNumbers (a b : List CommitPosition) : Prop :=
  ∀ n, (∃ p ∈ a, p.sequence = n) ↔ ∃ p ∈ b, p.sequence = n

/-- The same positions came first. -/
def SameFirst (a b : List CommitPosition) : Prop := ∀ p, IsFirst a p ↔ IsFirst b p

theorem sequence_of_find? (h : a.find? (·.sequence = n) = some p) : p.sequence = n := by
  simpa using List.find?_some h

theorem exists_find?_iff : (∃ p, a.find? (·.sequence = n) = some p) ↔ ∃ p ∈ a, p.sequence = n := by
  rw [← Option.isSome_iff_exists, List.find?_isSome]
  simp

theorem SameNumbers.agree (h : SameNumbers a b) : Agree (·.sequence) a b := by
  have found (l : List CommitPosition) (n m : Nat) :
      (l.find? (·.sequence = n)).map (·.sequence) = some m ↔ m = n ∧ ∃ p ∈ l, p.sequence = n := by
    rw [Option.map_eq_some_iff, ← exists_find?_iff]
    constructor
    · rintro ⟨p, hp, rfl⟩
      exact ⟨sequence_of_find? hp, p, hp⟩
    · rintro ⟨rfl, p, hp⟩
      exact ⟨p, hp, sequence_of_find? hp⟩
  intro n
  ext m
  rw [found, found, h n]

theorem SameFirst.agree (h : SameFirst a b) : Agree id a b := by
  intro n
  have found {l l' : List CommitPosition}
      (hl : ∀ p, IsFirst l p → IsFirst l' p) (p : CommitPosition)
      (hp : l.find? (·.sequence = n) = some p) : l'.find? (·.sequence = n) = some p := by
    obtain rfl := sequence_of_find? hp
    exact hl p hp
  rw [Option.map_id]
  ext p
  exact ⟨found (fun x => (h x).1) p, found (fun x => (h x).2) p⟩

/-- Rounds that agree have the same numbers missing. -/
theorem Agree.missing_iff {f : CommitPosition → β} (h : Agree f a b) :
    Missing start a n ↔ Missing start b n := by
  have numbers (l : List CommitPosition) :
      (∀ p ∈ l, p.sequence ≠ n) ↔ ((l.find? (·.sequence = n)).map f).isNone = true := by
    simp
  unfold Missing
  rw [numbers, numbers, h n]

theorem exists_missing (start : Nat) (taken : List CommitPosition) :
    ∃ n, Missing start taken n := by
  obtain ⟨bound, hbound⟩ := (taken.map (·.sequence)).toFinset.exists_nat_subset_range
  refine ⟨start + bound, Nat.le_add_right start bound, fun p hp => ?_⟩
  have hlt : p.sequence < bound :=
    Finset.mem_range.1 (hbound (List.mem_toFinset.2 (List.mem_map_of_mem hp)))
  omega

instance (start : Nat) (taken : List CommitPosition) : DecidablePred (Missing start taken) :=
  fun n =>
  inferInstanceAs (Decidable (start ≤ n ∧ ∀ p ∈ taken, p.sequence ≠ n))

/-- The least number from `start` on that was never inserted. -/
def firstMissing (start : Nat) (taken : List CommitPosition) : Nat :=
  Nat.find (exists_missing start taken)

theorem firstMissing_eq (h : IsLeast {n | Missing start taken n} n) :
    firstMissing start taken = n :=
  (Nat.isLeast_find (exists_missing start taken)).unique h

theorem Agree.firstMissing_eq {f : CommitPosition → β} (h : Agree f a b) :
    firstMissing start a = firstMissing start b := Nat.find_congr' h.missing_iff

/-- What the takes of these rounds answer, of a sequence that began at `start` and stands at `next`:
nothing if it stands still, and otherwise the first position under the last number it moves past. -/
def outcome (start next : Nat) : List (List CommitPosition) → List (Option CommitPosition)
  | [] => []
  | round :: later =>
    (if firstMissing start round = next then none
      else round.find? (·.sequence = firstMissing start round - 1)) ::
        outcome start (firstMissing start round) later

/-- The takes answer what their rounds determine. -/
theorem Keeps.answers_eq_outcome (h : Keeps start taken s) (ops : List Operation) :
    answers s ops = outcome start s.next (rounds taken ops) := by
  induction ops generalizing s taken with
  | nil => rfl
  | cons op ops ih =>
    cases op with
    | insert p =>
      rw [answers, rounds, ih (h.insert p), next_insert]
    | take =>
      rw [answers, rounds, outcome, firstMissing_eq h.isLeast_take, ih h.take]
      congr 1
      match ht : s.takeCommittable with
      | (none, s') => simp [(h.take_none ht).1]
      | (some last, s') =>
        obtain ⟨hfirst, hle, hnext, -⟩ := h.take_some ht
        have hmoved : s'.next ≠ s.next := by omega
        simp only [hnext, Nat.add_sub_cancel]
        rw [if_neg (hnext ▸ hmoved)]
        exact hfirst.symm

theorem outcome_congr {f : CommitPosition → β} {later later' : List (List CommitPosition)}
    {next : Nat} (h : List.Forall₂ (Agree f) later later') :
    (outcome start next later).map (·.map f) = (outcome start next later').map (·.map f) := by
  induction h generalizing next with
  | nil => rfl
  | @cons a b _ _ hab _ ih =>
    rw [outcome, outcome, ← hab.firstMissing_eq, List.map_cons, List.map_cons, ih]
    congr 1
    split
    · rfl
    · exact hab _

theorem answers_congr {f : CommitPosition → β} {ops ops' : List Operation}
    (h : List.Forall₂ (Agree f) (rounds [] ops) (rounds [] ops')) :
    (answers (startingAt start) ops).map (·.map f) =
      (answers (startingAt start) ops').map (·.map f) := by
  rw [(keeps_startingAt start).answers_eq_outcome, (keeps_startingAt start).answers_eq_outcome]
  exact outcome_congr h

end Outcome

/-! ## 5. The whole sequence -/

/-- What holds of a sequence that began at `start`, after any operations. -/
structure Sequenced (start : Nat) (ops : List Operation) (s : CommitSequence) : Prop where
  /-- Until a take answers a position, the first number has to come next. -/
  begins : (∀ a ∈ answers (startingAt start) ops, a = none) → s.next = start
  /-- After a take, the least number that was never inserted has to. -/
  takes : IsLeast {n | start ≤ n ∧ ∀ p ∈ inserted ops, p.sequence ≠ n} s.takeCommittable.2.next
  inserts : ∀ p, (s.insert p).2.next = s.next
  grows : s.takeCommittable.1.isSome ↔ s.next < s.takeCommittable.2.next
  answer : ∀ p, s.takeCommittable.1 = some p →
    IsFirst (inserted ops) p ∧ p.sequence + 1 = s.takeCommittable.2.next
  size : s.size = (((inserted ops).map (·.sequence)).toFinset.filter (s.next ≤ ·)).card
  held : ∀ p, p ∈ s.waiting ↔ s.next ≤ p.sequence ∧ IsFirst (inserted ops) p
  new : ∀ p, (s.insert p).1 = true ↔ s.next ≤ p.sequence ∧ ∀ q ∈ s.waiting, q.sequence ≠ p.sequence
  /-- The number that comes next stays within any bound on the numbers inserted. -/
  within : ∀ bound, start ≤ bound → (∀ p ∈ inserted ops, p.sequence < bound) → s.next ≤ bound
  /-- The numbers of the answers depend on the numbers that are in at each take. -/
  numbers : ∀ ops', List.Forall₂ SameNumbers (rounds [] ops) (rounds [] ops') →
    (answers (startingAt start) ops).map (·.map (·.sequence)) =
      (answers (startingAt start) ops').map (·.map (·.sequence))
  /-- The answers depend on the positions that came first under them. -/
  positions : ∀ ops', List.Forall₂ SameFirst (rounds [] ops) (rounds [] ops') →
    answers (startingAt start) ops = answers (startingAt start) ops'

theorem Keeps.isSome_take_iff (h : Keeps start taken s) :
    s.takeCommittable.1.isSome ↔ s.next < s.takeCommittable.2.next := by
  match ht : s.takeCommittable with
  | (none, s') => simp [(h.take_none ht).1]
  | (some last, s') =>
    obtain ⟨-, hle, hnext, -⟩ := h.take_some ht
    simp only [Option.isSome_some, true_iff, hnext]
    omega

/-- **Whatever is inserted and taken in whatever order, the sequence stands where the numbers that
are in say.**  It begins at its first number; every take moves it to the least number that was never
inserted, and answers a position exactly if that is further on: the one inserted first under the
number just below.  What it holds are the first positions from there on. -/
theorem takes_depend_on_what_is_in (start : Nat) (ops : List Operation) :
    Sequenced start ops (reached start ops) := by
  have keeps := keeps_reached start ops
  constructor
  case begins => exact next_of_answers ops
  case takes => exact keeps.isLeast_take
  case inserts => exact next_insert _
  case grows => exact keeps.isSome_take_iff
  case answer =>
    intro p hp
    obtain ⟨hfirst, -, hnext, -⟩ := keeps.take_some (Prod.ext hp rfl)
    exact ⟨hfirst, hnext.symm⟩
  case size => exact keeps.size_eq
  case held => exact keeps.mem_waiting_iff
  case new => exact keeps.insert_fst_iff
  case within => exact fun bound => keeps.next_le
  case numbers => exact fun ops' h => answers_congr (h.imp fun _ _ => SameNumbers.agree)
  case positions =>
    intro ops' h
    have heq : (answers (startingAt start) ops).map (·.map id) =
        (answers (startingAt start) ops').map (·.map id) :=
      answers_congr (h.imp fun _ _ => SameFirst.agree)
    simpa using heq

/-- The position that fills the gap lets the ones behind it go, whichever came first. -/
example :
    let early := [6, 9, 5, 8].map fun n => Operation.insert ⟨n * 10, n, ⟨0⟩⟩
    (answers (startingAt 5) (early ++ [.take, .take, .insert ⟨70, 7, ⟨0⟩⟩, .take])).map
      (·.map (·.position)) = [some 60, none, some 90] := by decide

end CommitSequence
end EventSourcing

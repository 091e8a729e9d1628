/-
# What a commit sequence takes out

The sequence keeps confirmed positions in order of their numbers, all of them from `next` on.  A
number is COVERED if it was taken out before or is waiting.  Taking in covers one more number,
taking out covers the same numbers as before, and what is taken out is a position up to which every
number is covered.

What the file settles:

* `IsFirst`: the first of the positions with one number;
* `WellPlaced`: the order of what waits, kept by both operations;
* `covers_insert`, `covers_takeCommittable`: which numbers are covered afterwards;
* `takeCommittable_some`: the position taken out, and that the number after it is not waiting;
* `Committer.confirms`: what a confirmation leaves behind.
-/
import EventSourcing.Subscription.Committer

namespace EventSourcing

/-! ## 1. What waits, and what is covered -/

/-- The first of the confirmations with this number. -/
def IsFirst (confirmed : List CommitPosition) (p : CommitPosition) : Prop :=
  confirmed.find? (·.sequence = p.sequence) = some p

section First

variable {confirmed : List CommitPosition} {p : CommitPosition}

theorem IsFirst.mem (h : IsFirst confirmed p) : p ∈ confirmed := List.mem_of_find?_eq_some h

theorem IsFirst.concat (h : IsFirst confirmed p) (q : CommitPosition) :
    IsFirst (confirmed ++ [q]) p := by
  unfold IsFirst at h ⊢
  rw [List.find?_append, h]
  rfl

/-- A new number is confirmed for the first time. -/
theorem isFirst_concat_self (hnew : ∀ q ∈ confirmed, q.sequence ≠ p.sequence) :
    IsFirst (confirmed ++ [p]) p := by
  unfold IsFirst
  rw [List.find?_append, List.find?_eq_none.2 fun q hq => by simpa using hnew q hq]
  simp

end First

namespace CommitSequence

/-- What waits stands in order of its numbers, and none of it was taken out before. -/
structure WellPlaced (s : CommitSequence) : Prop where
  sorted : s.waiting.Pairwise fun a b => a.sequence < b.sequence
  fresh : ∀ p ∈ s.waiting, s.next ≤ p.sequence

/-- The number was taken out before or is waiting. -/
def Covers (s : CommitSequence) (n : Nat) : Prop := n < s.next ∨ ∃ p ∈ s.waiting, p.sequence = n

theorem wellPlaced_empty : WellPlaced {} := ⟨List.Pairwise.nil, by simp⟩

theorem not_covers_empty (n : Nat) : ¬ Covers {} n := by simp [Covers]

/-! ## 2. Taking in -/

theorem mem_place {p q : CommitPosition} {l : List CommitPosition} (h : q ∈ (place p l).2) :
    q = p ∨ q ∈ l := by
  induction l with
  | nil => exact .inl (by simpa [place] using h)
  | cons x rest ih =>
    simp only [place] at h
    split at h
    · simpa using h
    · split at h
      · exact .inr h
      · rcases List.mem_cons.1 h with rfl | h
        · exact .inr List.mem_cons_self
        · exact (ih h).imp_right (List.mem_cons_of_mem x)

theorem mem_place_of_mem {p q : CommitPosition} {l : List CommitPosition} (h : q ∈ l) :
    q ∈ (place p l).2 := by
  induction l with
  | nil => simp at h
  | cons x rest ih =>
    simp only [place]
    split
    · exact List.mem_cons_of_mem p h
    · split
      · exact h
      · rcases List.mem_cons.1 h with rfl | h
        · exact List.mem_cons_self
        · exact List.mem_cons_of_mem x (ih h)

/-- The number of the position is there afterwards, with the position itself or with the one that
was there. -/
theorem exists_mem_place (p : CommitPosition) (l : List CommitPosition) :
    ∃ q ∈ (place p l).2, q.sequence = p.sequence := by
  induction l with
  | nil => exact ⟨p, by simp [place], rfl⟩
  | cons x rest ih =>
    simp only [place]
    split
    · exact ⟨p, List.mem_cons_self, rfl⟩
    · split
      · rename_i heq
        exact ⟨x, List.mem_cons_self, heq.symm⟩
      · obtain ⟨q, hq, hqp⟩ := ih
        exact ⟨q, List.mem_cons_of_mem x hq, hqp⟩

theorem sorted_place {p : CommitPosition} {l : List CommitPosition}
    (h : l.Pairwise fun a b => a.sequence < b.sequence) :
    (place p l).2.Pairwise fun a b => a.sequence < b.sequence := by
  induction l with
  | nil => simp [place]
  | cons x rest ih =>
    obtain ⟨hx, hrest⟩ := List.pairwise_cons.1 h
    simp only [place]
    split
    · rename_i hlt
      refine List.pairwise_cons.2 ⟨fun q hq => ?_, h⟩
      rcases List.mem_cons.1 hq with rfl | hq
      · exact hlt
      · exact Nat.lt_trans hlt (hx q hq)
    · split
      · exact h
      · rename_i hnlt hne
        refine List.pairwise_cons.2 ⟨fun q hq => ?_, ih hrest⟩
        rcases mem_place hq with rfl | hq
        · omega
        · exact hx q hq

theorem next_insert (s : CommitSequence) (p : CommitPosition) : (s.insert p).2.next = s.next := by
  unfold insert
  split <;> rfl

/-- A position is put in its place exactly if its number is not there. -/
theorem place_fst_iff {p : CommitPosition} {l : List CommitPosition}
    (h : l.Pairwise fun a b => a.sequence < b.sequence) :
    (place p l).1 = true ↔ ∀ x ∈ l, x.sequence ≠ p.sequence := by
  induction l with
  | nil => simp [place]
  | cons x rest ih =>
    obtain ⟨hx, hrest⟩ := List.pairwise_cons.1 h
    simp only [place]
    split
    · rename_i hlt
      refine ⟨fun _ y hy => ?_, fun _ => rfl⟩
      rcases List.mem_cons.1 hy with rfl | hy
      · omega
      · have := hx y hy
        omega
    · split
      · rename_i heq
        exact ⟨nofun, fun hnew => absurd heq.symm (hnew x List.mem_cons_self)⟩
      · rename_i hne
        simp only [ih hrest, List.forall_mem_cons]
        exact ⟨fun hnew => ⟨fun heq => hne heq.symm, hnew⟩, And.right⟩

theorem mem_waiting_insert {s : CommitSequence} {p q : CommitPosition}
    (h : q ∈ (s.insert p).2.waiting) : q = p ∨ q ∈ s.waiting := by
  unfold insert at h
  split at h
  · exact .inr h
  · exact mem_place h

theorem WellPlaced.insert {s : CommitSequence} (h : s.WellPlaced) (p : CommitPosition) :
    (s.insert p).2.WellPlaced := by
  unfold CommitSequence.insert
  split
  · exact h
  · rename_i hle
    refine ⟨sorted_place h.sorted, fun q hq => ?_⟩
    rcases mem_place hq with rfl | hq
    · simpa using hle
    · exact h.fresh q hq

theorem covers_insert (s : CommitSequence) (p : CommitPosition) (n : Nat) :
    (s.insert p).2.Covers n ↔ s.Covers n ∨ n = p.sequence := by
  unfold insert Covers
  split
  · rename_i hlt
    constructor
    · exact .inl
    · rintro (h | rfl)
      · exact h
      · exact .inl hlt
  · constructor
    · rintro (h | ⟨q, hq, rfl⟩)
      · exact .inl (.inl h)
      · rcases mem_place hq with rfl | hq
        · exact .inr rfl
        · exact .inl (.inr ⟨q, hq, rfl⟩)
    · rintro ((h | ⟨q, hq, hqn⟩) | rfl)
      · exact .inl h
      · exact .inr ⟨q, mem_place_of_mem hq, hqn⟩
      · exact .inr (exists_mem_place p s.waiting)

/-- A position that was put in its place has a number that was not there. -/
theorem mem_place_new {p q : CommitPosition} {l : List CommitPosition}
    (h : l.Pairwise fun a b => a.sequence < b.sequence) (hq : q ∈ (place p l).2) :
    q ∈ l ∨ q = p ∧ ∀ x ∈ l, x.sequence ≠ p.sequence := by
  induction l with
  | nil => exact .inr ⟨by simpa [place] using hq, by simp⟩
  | cons x rest ih =>
    obtain ⟨hx, hrest⟩ := List.pairwise_cons.1 h
    simp only [place] at hq
    split at hq
    · rename_i hlt
      rcases List.mem_cons.1 hq with rfl | hq
      · refine .inr ⟨rfl, fun y hy => ?_⟩
        rcases List.mem_cons.1 hy with rfl | hy
        · omega
        · have := hx y hy
          omega
      · exact .inl hq
    · split at hq
      · exact .inl hq
      · rename_i hnlt hne
        rcases List.mem_cons.1 hq with rfl | hq
        · exact .inl List.mem_cons_self
        · refine (ih hrest hq).imp (List.mem_cons_of_mem x) fun hnew => ⟨hnew.1, fun y hy => ?_⟩
          rcases List.mem_cons.1 hy with rfl | hy
          · omega
          · exact hnew.2 y hy

/-- What waits after a position was taken in waited before, unless it is that position, and its
number was not covered. -/
theorem mem_waiting_insert_new {s : CommitSequence} {p q : CommitPosition} (h : s.WellPlaced)
    (hq : q ∈ (s.insert p).2.waiting) : q ∈ s.waiting ∨ q = p ∧ ¬ s.Covers p.sequence := by
  unfold insert at hq
  split at hq
  · exact .inl hq
  · rename_i hle
    refine (mem_place_new h.sorted hq).imp_right fun ⟨heq, hnew⟩ => ⟨heq, ?_⟩
    rintro (hlt | ⟨x, hx, hxp⟩)
    · exact hle hlt
    · exact hnew x hx hxp

/-! ## 3. Taking out -/

theorem mem_dropWhile_of_sorted {l : List CommitPosition}
    (h : l.Pairwise fun a b => a.sequence < b.sequence) (bound : Nat) (p : CommitPosition) :
    p ∈ l.dropWhile (·.sequence ≤ bound) ↔ p ∈ l ∧ bound < p.sequence := by
  induction l with
  | nil => simp
  | cons x rest ih =>
    obtain ⟨hx, hrest⟩ := List.pairwise_cons.1 h
    rw [List.dropWhile_cons]
    split
    · rename_i hle
      have hxb : x.sequence ≤ bound := by simpa using hle
      rw [ih hrest, List.mem_cons]
      constructor
      · exact fun hp => ⟨.inr hp.1, hp.2⟩
      · rintro ⟨rfl | hp, hlt⟩
        · omega
        · exact ⟨hp, hlt⟩
    · rename_i hlt
      have hxb : bound < x.sequence := by simpa using hlt
      refine ⟨fun hp => ⟨hp, ?_⟩, And.left⟩
      rcases List.mem_cons.1 hp with rfl | hp
      · exact hxb
      · exact Nat.lt_trans hxb (hx p hp)

/-- What `followed` answers on a list in order: a member reached without a gap, and no member
follows on it. -/
theorem followed_spec {α : Type} {number : α → Nat} (first : α) (rest : List α)
    (h : (first :: rest).Pairwise fun a b => number a < number b) :
    followed number first rest ∈ first :: rest ∧
      number first ≤ number (followed number first rest) ∧
      (∀ n, number first ≤ n → n ≤ number (followed number first rest) →
        ∃ p ∈ first :: rest, number p = n) ∧
      ∀ p ∈ first :: rest, number p ≠ number (followed number first rest) + 1 := by
  induction rest generalizing first with
  | nil =>
    refine ⟨by simp [followed], by simp [followed], fun n hn hn' => ⟨first, by simp, ?_⟩, ?_⟩
    · simp only [followed] at hn'
      omega
    · simp [followed]
  | cons x rest ih =>
    obtain ⟨hfirst, hrest⟩ := List.pairwise_cons.1 h
    obtain ⟨hx, hrest'⟩ := List.pairwise_cons.1 hrest
    simp only [followed]
    split
    · rename_i hnext
      obtain ⟨hmem, hle, hreach, hstop⟩ := ih x hrest
      refine ⟨List.mem_cons_of_mem first hmem, by omega, fun n hn hn' => ?_, fun p hp => ?_⟩
      · rcases Nat.eq_or_lt_of_le hn with heq | hlt
        · exact ⟨first, by simp, heq⟩
        · obtain ⟨p, hp, hpn⟩ := hreach n (by omega) hn'
          exact ⟨p, List.mem_cons_of_mem first hp, hpn⟩
      · rcases List.mem_cons.1 hp with rfl | hp
        · omega
        · exact hstop p hp
    · rename_i hgap
      refine ⟨by simp, Nat.le_refl _, fun n hn hn' => ⟨first, by simp, by omega⟩, fun p hp => ?_⟩
      rcases List.mem_cons.1 hp with rfl | hp
      · omega
      · rcases List.mem_cons.1 hp with rfl | hp
        · exact hgap
        · have h1 := hfirst x List.mem_cons_self
          have h2 := hx p hp
          omega

/-- Nothing is taken out unless the number that has to come next is waiting. -/
theorem takeCommittable_none {s s' : CommitSequence} (h : s.takeCommittable = (none, s')) :
    s' = s ∧ (s.WellPlaced → ∀ p ∈ s.waiting, p.sequence ≠ s.next) := by
  unfold takeCommittable lastBeforeGap? at h
  match hw : s.waiting with
  | [] =>
    simp only [hw, List.head?_nil, Prod.mk.injEq] at h
    exact ⟨h.2.symm, by simp⟩
  | first :: rest =>
    simp only [hw, List.head?_cons] at h
    split at h
    · simp at h
    · rename_i hne
      refine ⟨(Prod.mk.inj h).2.symm, fun hs p hp => ?_⟩
      have hsorted := hs.sorted
      rw [hw] at hsorted
      have hfirst : s.next ≤ first.sequence := hs.fresh first (by simp [hw])
      rcases List.mem_cons.1 hp with rfl | hp
      · exact hne
      · have := (List.pairwise_cons.1 hsorted).1 p hp
        omega

/-- What is taken out was waiting, every number up to it is covered, and the number after it is
not. -/
theorem takeCommittable_some {s s' : CommitSequence} {last : CommitPosition} (hs : s.WellPlaced)
    (h : s.takeCommittable = (some last, s')) :
    last ∈ s.waiting ∧ s'.next = last.sequence + 1 ∧ (∀ n ≤ last.sequence, s.Covers n) ∧
      (∀ p, p ∈ s'.waiting ↔ p ∈ s.waiting ∧ last.sequence < p.sequence) ∧
      ∀ p ∈ s'.waiting, p.sequence ≠ s'.next := by
  unfold takeCommittable lastBeforeGap? at h
  match hw : s.waiting with
  | [] => simp [hw] at h
  | first :: rest =>
    have hsorted := hs.sorted
    rw [hw] at hsorted
    obtain ⟨hmem, hle, hreach, hstop⟩ := followed_spec first rest hsorted
    simp only [hw, List.head?_cons] at h
    split at h
    · rename_i hfirst
      simp only [Prod.mk.injEq, Option.some.injEq] at h
      obtain ⟨rfl, rfl⟩ := h
      have hdrop : ∀ p, p ∈ (first :: rest).dropWhile
            (·.sequence ≤ (followed (·.sequence) first rest).sequence) ↔
          p ∈ first :: rest ∧ (followed (·.sequence) first rest).sequence < p.sequence :=
        mem_dropWhile_of_sorted hsorted _
      refine ⟨hmem, rfl, fun n hn => ?_, hdrop, fun p hp => hstop p ((hdrop p).1 hp).1⟩
      rcases Nat.lt_or_ge n s.next with hlt | hge
      · exact .inl hlt
      · obtain ⟨p, hp, hpn⟩ := hreach n (by omega) hn
        exact .inr ⟨p, by rw [hw]; exact hp, hpn⟩
    · simp at h

theorem sorted_takeCommittable {s s' : CommitSequence} {answer : Option CommitPosition}
    (hs : s.WellPlaced) (h : s.takeCommittable = (answer, s')) :
    s'.waiting.Pairwise fun a b => a.sequence < b.sequence := by
  unfold takeCommittable at h
  split at h
  · split at h
    · cases h
      exact hs.sorted.sublist (List.dropWhile_sublist _)
    · cases h
      exact hs.sorted
  · cases h
    exact hs.sorted

theorem WellPlaced.takeCommittable {s s' : CommitSequence} {answer : Option CommitPosition}
    (hs : s.WellPlaced) (h : s.takeCommittable = (answer, s')) : s'.WellPlaced := by
  refine ⟨sorted_takeCommittable hs h, ?_⟩
  cases answer with
  | none =>
    rw [(takeCommittable_none h).1]
    exact hs.fresh
  | some last =>
    obtain ⟨-, hnext, -, hwaiting, -⟩ := takeCommittable_some hs h
    intro p hp
    rw [hnext]
    exact ((hwaiting p).1 hp).2

/-- Taking out covers the same numbers as before. -/
theorem covers_takeCommittable {s s' : CommitSequence} {last : CommitPosition} (hs : s.WellPlaced)
    (h : s.takeCommittable = (some last, s')) (n : Nat) : s'.Covers n ↔ s.Covers n := by
  obtain ⟨hmem, hnext, hreach, hwaiting, -⟩ := takeCommittable_some hs h
  have hfresh := hs.fresh last hmem
  constructor
  · rintro (hlt | ⟨p, hp, rfl⟩)
    · exact hreach n (by omega)
    · exact .inr ⟨p, ((hwaiting p).1 hp).1, rfl⟩
  · rintro (hlt | ⟨p, hp, rfl⟩)
    · exact .inl (by omega)
    · rcases Nat.lt_or_ge last.sequence p.sequence with hlt | hge
      · exact .inr ⟨p, (hwaiting p).2 ⟨hp, hlt⟩, rfl⟩
      · exact .inl (by omega)

end CommitSequence

/-! ## 4. Confirming -/

namespace Committer

/-- The sequence is in order, and the number that has to come next is not waiting. -/
structure WellKept (c : Committer) : Prop where
  placed : c.sequence.WellPlaced
  gap : ∀ p ∈ c.sequence.waiting, p.sequence ≠ c.sequence.next

theorem wellKept_empty : WellKept {} := ⟨CommitSequence.wellPlaced_empty, by simp⟩

/-- What a confirmation leaves behind, whatever it answers. -/
structure Confirms (c : Committer) (p : CommitPosition) (asked : Option CommitPosition)
    (c' : Committer) : Prop where
  kept : c'.WellKept
  covers : ∀ n, c'.sequence.Covers n ↔ c.sequence.Covers n ∨ n = p.sequence
  waiting : ∀ q ∈ c'.sequence.waiting, q = p ∨ q ∈ c.sequence.waiting
  last : c'.last = c.last
  dirty : c'.dirty = c.dirty
  /-- Nothing new is gapless, or everything up to the answer is. -/
  answer : match asked with
    | none => c'.sequence.next = c.sequence.next
    | some q =>
      (q = p ∨ q ∈ c.sequence.waiting) ∧ c.sequence.next ≤ q.sequence ∧
        c'.sequence.next = q.sequence + 1

theorem confirms {c c' : Committer} {p : CommitPosition} {asked : Option CommitPosition}
    (h : c.WellKept) (answer : c.confirm p = (asked, c')) : c.Confirms p asked c' := by
  have hs := h.placed.insert p
  have hnext := CommitSequence.next_insert c.sequence p
  have hcovers := CommitSequence.covers_insert c.sequence p
  unfold confirm at answer
  match ht : (c.sequence.insert p).2.takeCommittable with
  | (none, s') =>
    rw [ht] at answer
    cases answer
    obtain ⟨rfl, hgap⟩ := CommitSequence.takeCommittable_none ht
    exact ⟨⟨hs, hgap hs⟩, hcovers, fun q => CommitSequence.mem_waiting_insert, rfl, rfl, hnext⟩
  | (some q, s') =>
    rw [ht] at answer
    cases answer
    obtain ⟨hmem, hnext', hreach, hwaiting, hgap⟩ := CommitSequence.takeCommittable_some hs ht
    have hsub : ∀ x ∈ s'.waiting, x ∈ (c.sequence.insert p).2.waiting :=
      fun x hx => ((hwaiting x).1 hx).1
    refine ⟨⟨hs.takeCommittable ht, hgap⟩, fun n => ?_,
      fun x hx => CommitSequence.mem_waiting_insert (hsub x hx), rfl, rfl,
      CommitSequence.mem_waiting_insert hmem, ?_, hnext'⟩
    · rw [← hcovers n]
      exact CommitSequence.covers_takeCommittable hs ht n
    · rw [← hnext]
      exact hs.fresh q hmem

/-- What was taken out stays taken out. -/
theorem Confirms.next_le {c c' : Committer} {p : CommitPosition} {asked : Option CommitPosition}
    (confirms : c.Confirms p asked c') : c.sequence.next ≤ c'.sequence.next := by
  have hanswer := confirms.answer
  cases asked with
  | none => exact Nat.le_of_eq hanswer.symm
  | some q =>
    obtain ⟨-, hle, hnext⟩ := hanswer
    omega

/-- What is due is what was stored last. -/
theorem last_of_due {c : Committer} {p : CommitPosition} (h : c.due = some p) :
    c.last = some p := by
  unfold due at h
  split at h
  · exact h
  · cases h

end Committer
end EventSourcing

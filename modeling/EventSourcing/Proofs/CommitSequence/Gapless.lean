/-
# Where the numbers have their first gap

The last number before a gap is searched twice: among bare numbers, which are put in order first,
and among the positions a sequence holds, which are in order of their numbers.  Both walk along as
long as the next one follows on.  So both find the greatest number up to which nothing is missing,
and it only matters which numbers are there.

The walk adds one to every number it passes but the last one.  A number behind which another one
comes is not the greatest there is, so the sum always fits.

What the file settles:

* `Reaches`: up to a number, nothing is missing from the least one on;
* `search`: the walk along anything in order of its numbers, and `search_eq_some_iff`: what it
  finds;
* `searchChecked`: the same with every addition checked, and `searchChecked_eq`: no check ever
  fails;
* `gap_is_found_both_ways`: both searches, for all numbers.
-/
import EventSourcing.Proofs.CommitSequence.Taking

namespace EventSourcing

/-! ## 1. Up to a gap -/

/-- The number is one of these, and so is every number from the least of them up to it. -/
def Reaches (numbers : List Nat) (p : Nat) : Prop :=
  p ∈ numbers ∧ ∀ least, IsLeast {n | n ∈ numbers} least → ∀ n, least ≤ n → n ≤ p → n ∈ numbers

theorem reaches_congr {a b : List Nat} (same : ∀ n, n ∈ a ↔ n ∈ b) :
    {p | Reaches a p} = {p | Reaches b p} := by
  ext p
  simp only [Reaches, Set.mem_ofPred_eq, same]

/-- The walk along anything in order of its numbers. -/
def search {α : Type} (number : α → Nat) : List α → Option α
  | [] => none
  | first :: rest => some (followed number first rest)

section Walk

variable {α : Type} {number : α → Nat} {l : List α}

theorem isLeast_first {first : α} {rest : List α}
    (sorted : (first :: rest).Pairwise (number · < number ·)) :
    IsLeast {n | n ∈ (first :: rest).map number} (number first) := by
  refine ⟨List.mem_map_of_mem List.mem_cons_self, fun n hn => ?_⟩
  obtain ⟨a, ha, rfl⟩ := List.mem_map.1 hn
  obtain rfl | ha := List.mem_cons.1 ha
  · exact Nat.le_refl _
  · exact Nat.le_of_lt ((List.pairwise_cons.1 sorted).1 a ha)

theorem followed_isGreatest {first : α} {rest : List α}
    (sorted : (first :: rest).Pairwise (number · < number ·)) :
    IsGreatest {p | Reaches ((first :: rest).map number) p}
      (number (followed number first rest)) := by
  obtain ⟨mem, le, reached, stops⟩ := CommitSequence.followed_spec first rest sorted
  have hfirst := isLeast_first sorted
  constructor
  · refine ⟨List.mem_map_of_mem mem, fun least hleast n hle hn => List.mem_map.2 ?_⟩
    obtain rfl := hleast.unique hfirst
    exact reached n hle hn
  · rintro p ⟨-, hreaches⟩
    refine Nat.le_of_not_lt fun past => ?_
    obtain ⟨a, ha, next⟩ := List.mem_map.1 (hreaches _ hfirst _ (Nat.le_succ_of_le le) past)
    exact stops a ha next

/-- The walk ends at the greatest number up to which nothing is missing. -/
theorem search_eq_some_iff (sorted : l.Pairwise (number · < number ·)) (p : Nat) :
    (search number l).map number = some p ↔ IsGreatest {q | Reaches (l.map number) q} p := by
  cases l with
  | nil => exact iff_of_false nofun fun greatest => absurd greatest.1.1 List.not_mem_nil
  | cons first rest =>
    rw [search, Option.map_some, Option.some_inj]
    have greatest := followed_isGreatest sorted
    constructor
    · rintro rfl
      exact greatest
    · exact greatest.unique

theorem search_eq_none_iff : search number l = none ↔ l = [] := by
  cases l with
  | nil => exact iff_of_true rfl rfl
  | cons first rest => exact iff_of_false nofun nofun

theorem mem_of_search {a : α} (sorted : l.Pairwise (number · < number ·))
    (found : search number l = some a) : a ∈ l := by
  cases l with
  | nil => cases found
  | cons first rest =>
    cases found
    exact (CommitSequence.followed_spec first rest sorted).1

end Walk

/-! ## 2. Numbers of 64 bits -/

/-- The greatest number of 64 bits. -/
def greatestPosition : Nat := Nat.pow 2 64 - 1

/-- `followed` with every addition checked: `none` if one goes past the greatest number. -/
def followedChecked {α : Type} (number : α → Nat) (last : α) : List α → Option α
  | [] => some last
  | a :: rest =>
    if greatestPosition < number last + 1 then none
    else if number a = number last + 1 then followedChecked number a rest
    else some last

/-- `search` with every addition checked. -/
def searchChecked {α : Type} (number : α → Nat) : List α → Option (Option α)
  | [] => some none
  | first :: rest => (followedChecked number first rest).map some

section Checks

variable {α : Type} {number : α → Nat}

/-- What is added to has a greater number behind it, which fits. -/
theorem followedChecked_eq {first : α} {rest : List α}
    (sorted : (first :: rest).Pairwise (number · < number ·))
    (fits : ∀ a ∈ rest, number a ≤ greatestPosition) :
    followedChecked number first rest = some (followed number first rest) := by
  induction rest generalizing first with
  | nil => rfl
  | cons a rest ih =>
    obtain ⟨hfirst, hrest⟩ := List.pairwise_cons.1 sorted
    have hlt : number first < number a := hfirst a List.mem_cons_self
    have hle : number a ≤ greatestPosition := fits a List.mem_cons_self
    rw [followedChecked, followed, if_neg (by omega)]
    split
    · exact ih hrest fun b hb => fits b (List.mem_cons_of_mem a hb)
    · rfl

theorem searchChecked_eq {l : List α} (sorted : l.Pairwise (number · < number ·))
    (fits : ∀ a ∈ l, number a ≤ greatestPosition) :
    searchChecked number l = some (search number l) := by
  cases l with
  | nil => rfl
  | cons first rest =>
    rw [searchChecked, followedChecked_eq sorted fun a ha => fits a (List.mem_cons_of_mem first ha)]
    rfl

end Checks

/-! ## 3. Bare numbers -/

theorem mem_insertNumber {m n : Nat} {l : List Nat} : m ∈ insertNumber n l ↔ m = n ∨ m ∈ l := by
  induction l with
  | nil => simp [insertNumber]
  | cons x rest ih =>
    rw [insertNumber]
    split
    · exact List.mem_cons
    · split
      · rename_i same
        simp [same]
      · rw [List.mem_cons, ih, List.mem_cons]
        exact or_left_comm

theorem sorted_insertNumber {n : Nat} {l : List Nat} (sorted : l.Pairwise (· < ·)) :
    (insertNumber n l).Pairwise (· < ·) := by
  induction l with
  | nil => exact List.pairwise_singleton _ n
  | cons x rest ih =>
    obtain ⟨hx, hrest⟩ := List.pairwise_cons.1 sorted
    rw [insertNumber]
    split
    · rename_i hlt
      refine List.pairwise_cons.2 ⟨fun m hm => ?_, sorted⟩
      obtain rfl | hm := List.mem_cons.1 hm
      · exact hlt
      · exact Nat.lt_trans hlt (hx m hm)
    · split
      · exact sorted
      · refine List.pairwise_cons.2 ⟨fun m hm => ?_, ih hrest⟩
        obtain rfl | hm := mem_insertNumber.1 hm
        · omega
        · exact hx m hm

/-- The numbers in order, each of them once. -/
def inOrder (numbers : List Nat) : List Nat := numbers.foldr insertNumber []

theorem mem_inOrder {n : Nat} {numbers : List Nat} : n ∈ inOrder numbers ↔ n ∈ numbers := by
  induction numbers with
  | nil => rfl
  | cons m rest ih => rw [inOrder, List.foldr_cons, mem_insertNumber, List.mem_cons, ← ih, inOrder]

theorem sorted_inOrder (numbers : List Nat) : (inOrder numbers).Pairwise (· < ·) := by
  induction numbers with
  | nil => exact .nil
  | cons m rest ih => exact sorted_insertNumber ih

theorem lastBeforeGap_eq (numbers : List Nat) :
    lastBeforeGap numbers = search id (inOrder numbers) := by
  rw [lastBeforeGap, inOrder]
  split <;> simp_all [search]

/-- `lastBeforeGap` with every addition checked. -/
def lastBeforeGapChecked (numbers : List Nat) : Option (Option Nat) :=
  searchChecked id (inOrder numbers)

theorem lastBeforeGap_eq_some_iff (numbers : List Nat) (p : Nat) :
    lastBeforeGap numbers = some p ↔ IsGreatest {q | Reaches numbers q} p := by
  have found := @search_eq_some_iff Nat id (inOrder numbers) (sorted_inOrder numbers) p
  rw [Option.map_id, List.map_id, reaches_congr fun n => mem_inOrder] at found
  rw [lastBeforeGap_eq]
  exact found

theorem lastBeforeGap_congr {a b : List Nat} (same : ∀ n, n ∈ a ↔ n ∈ b) :
    lastBeforeGap a = lastBeforeGap b := by
  ext p
  rw [lastBeforeGap_eq_some_iff, lastBeforeGap_eq_some_iff, reaches_congr same]

theorem lastBeforeGap_eq_none_iff (numbers : List Nat) :
    lastBeforeGap numbers = none ↔ numbers = [] := by
  rw [lastBeforeGap_eq, search_eq_none_iff, List.eq_nil_iff_forall_not_mem,
    List.eq_nil_iff_forall_not_mem]
  exact forall_congr' fun n => not_congr mem_inOrder

/-! ## 4. The positions of a sequence -/

namespace CommitSequence

/-- The sequence after all the positions were inserted. -/
def insertAll (s : CommitSequence) (confirmed : List CommitPosition) : CommitSequence :=
  confirmed.foldl (fun s p => (s.insert p).2) s

/-- `lastBeforeGap?` with every addition checked. -/
def lastBeforeGapChecked? (s : CommitSequence) : Option (Option CommitPosition) :=
  searchChecked (·.sequence) s.waiting

theorem lastBeforeGap?_eq (s : CommitSequence) :
    s.lastBeforeGap? = search (·.sequence) s.waiting := by
  unfold lastBeforeGap?
  split <;> simp_all [search]

/-- What a fresh sequence holds after the insertions: nothing was taken out, so every number is
there. -/
theorem keeps_insertAll (confirmed : List CommitPosition) :
    Keeps 0 confirmed (insertAll {} confirmed) ∧ (insertAll {} confirmed).next = 0 := by
  induction confirmed using List.reverseRecOn with
  | nil => exact ⟨keeps_startingAt 0, rfl⟩
  | append_singleton confirmed p ih =>
    rw [insertAll, List.foldl_concat]
    exact ⟨ih.1.insert p, (next_insert _ p).trans ih.2⟩

theorem mem_numbers_insertAll (confirmed : List CommitPosition) (n : Nat) :
    n ∈ (insertAll {} confirmed).waiting.map (·.sequence) ↔ n ∈ confirmed.map (·.sequence) := by
  obtain ⟨keeps, hnext⟩ := keeps_insertAll confirmed
  have covers := keeps.covers n
  simp only [Covers, hnext, Nat.not_lt_zero, false_or] at covers
  simpa only [List.mem_map] using covers

/-- What is searched in a sequence depends on the numbers that were inserted. -/
theorem number_lastBeforeGap? {numbers : List Nat} {confirmed : List CommitPosition}
    (same : ∀ n, n ∈ confirmed.map (·.sequence) ↔ n ∈ numbers) :
    (insertAll {} confirmed).lastBeforeGap?.map (·.sequence) = lastBeforeGap numbers := by
  have placed := (keeps_insertAll confirmed).1.placed
  ext p
  rw [lastBeforeGap?_eq, lastBeforeGap_eq_some_iff, search_eq_some_iff placed.sorted,
    reaches_congr fun n => (mem_numbers_insertAll confirmed n).trans (same n)]

end CommitSequence

/-! ## 5. Both searches -/

/-- What the two searches find among the numbers. -/
structure GapFound (numbers : List Nat) : Prop where
  empty : lastBeforeGap numbers = none ↔ numbers = []
  greatest : ∀ p, lastBeforeGap numbers = some p ↔ IsGreatest {q | Reaches numbers q} p
  /-- Order and repetitions make no difference. -/
  congr : ∀ others, (∀ n, n ∈ others ↔ n ∈ numbers) → lastBeforeGap others = lastBeforeGap numbers
  fits : (∀ n ∈ numbers, n ≤ greatestPosition) →
    lastBeforeGapChecked numbers = some (lastBeforeGap numbers)
  /-- A fresh sequence into which these numbers were inserted, in whatever order, finds the same
  number, and the position that was inserted first under it. -/
  sequence : ∀ confirmed : List CommitPosition,
    (∀ n, n ∈ confirmed.map (·.sequence) ↔ n ∈ numbers) →
    ((CommitSequence.insertAll {} confirmed).lastBeforeGap?.map (·.sequence) =
        lastBeforeGap numbers ∧
      ∀ p, (CommitSequence.insertAll {} confirmed).lastBeforeGap? = some p → IsFirst confirmed p) ∧
    ((∀ n ∈ numbers, n ≤ greatestPosition) →
      (CommitSequence.insertAll {} confirmed).lastBeforeGapChecked? =
        some (CommitSequence.insertAll {} confirmed).lastBeforeGap?)

/-- **Both searches find the greatest number up to which nothing is missing.**  They find nothing
only where there is nothing, they depend on which numbers are there and not on their order, they
agree with each other, and with numbers of 64 bits no addition goes past the greatest one. -/
theorem gap_is_found_both_ways (numbers : List Nat) : GapFound numbers where
  empty := lastBeforeGap_eq_none_iff numbers
  greatest := lastBeforeGap_eq_some_iff numbers
  congr others := lastBeforeGap_congr
  fits within := by
    rw [lastBeforeGap_eq]
    exact searchChecked_eq (sorted_inOrder numbers) fun n hn => within n (mem_inOrder.1 hn)
  sequence confirmed same := by
    obtain ⟨keeps, -⟩ := CommitSequence.keeps_insertAll confirmed
    refine ⟨⟨CommitSequence.number_lastBeforeGap? same, fun p found => ?_⟩, fun within => ?_⟩
    · rw [CommitSequence.lastBeforeGap?_eq] at found
      exact keeps.first p (mem_of_search keeps.placed.sorted found)
    · rw [CommitSequence.lastBeforeGap?_eq]
      refine searchChecked_eq keeps.placed.sorted fun p hp => within _ ((same _).1 ?_)
      exact (CommitSequence.mem_numbers_insertAll confirmed _).1 (List.mem_map_of_mem hp)

/-- The greatest number of all is reached from the one before it without an addition that does not
fit, although it came first and twice. -/
theorem greatest_position_is_reached :
    let numbers := [greatestPosition, greatestPosition - 1, greatestPosition]
    let confirmed : List CommitPosition :=
      [⟨20, greatestPosition, ⟨0⟩⟩, ⟨10, greatestPosition - 1, ⟨0⟩⟩, ⟨30, greatestPosition, ⟨0⟩⟩]
    (∀ n ∈ numbers, n ≤ greatestPosition) ∧ (∀ n, n ∈ confirmed.map (·.sequence) ↔ n ∈ numbers) ∧
    lastBeforeGapChecked numbers = some (some greatestPosition) ∧
    (CommitSequence.insertAll {} confirmed).lastBeforeGapChecked? =
      some (some ⟨20, greatestPosition, ⟨0⟩⟩) := by
  intro numbers confirmed
  have found := gap_is_found_both_ways numbers
  have within : ∀ n ∈ numbers, n ≤ greatestPosition := by decide
  have same : ∀ n, n ∈ confirmed.map (·.sequence) ↔ n ∈ numbers := fun n => Iff.rfl
  refine ⟨within, same, ?_, ?_⟩
  · exact (found.fits within).trans (by decide)
  · exact ((found.sequence confirmed same).2 within).trans (by decide)

end EventSourcing

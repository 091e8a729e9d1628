/-
# Commit positions and the gapless part of them

A subscription numbers the events it receives; an event is confirmed in any order, but its position
may be stored only once every event received before it is confirmed too.  A `CommitSequence` keeps
the confirmed positions that wait behind a gap and knows which number comes next.

What the file settles:

* `lastBeforeGap`: the last of a list of numbers that is reached from the least one without a gap;
* `CommitSequence.insert`, `CommitSequence.takeCommittable`: taking a confirmation in, and taking
  out what has become gapless.
-/
import EventSourcing.Time

namespace EventSourcing

/-! ## 1. Positions -/

/-- Where a received event stands: the position to store for it, its number in the order of receipt,
and when it was written. -/
structure CommitPosition where
  position : Nat
  sequence : Nat
  timestamp : Instant
  deriving DecidableEq, Inhabited

namespace CommitPosition

/-- Positions are ordered by the order of receipt alone. -/
def order (a b : CommitPosition) : Ordering := compare a.sequence b.sequence

/-- Positions count as the same if they were received as the same number. -/
def same (a b : CommitPosition) : Bool := a.sequence == b.sequence

/-- Whether `a` was received before `b`. -/
def before (a b : CommitPosition) : Bool := a.sequence < b.sequence

end CommitPosition

/-! ## 2. Gaps -/

/-- The last of the numbers that follows on from `last` without a gap; the numbers are in order. -/
def followed {α : Type} (number : α → Nat) (last : α) : List α → α
  | [] => last
  | a :: rest => if number a = number last + 1 then followed number a rest else last

/-- Puts a number in its place among numbers in order, unless it is there already. -/
def insertNumber (n : Nat) : List Nat → List Nat
  | [] => [n]
  | m :: rest =>
    if n < m then n :: m :: rest else if n = m then m :: rest else m :: insertNumber n rest

/-- The greatest of the numbers such that every number from the least of them up to it is among
them.  `none` if there are no numbers. -/
def lastBeforeGap (numbers : List Nat) : Option Nat :=
  match numbers.foldr insertNumber [] with
  | [] => none
  | first :: rest => some (followed id first rest)

/-! ## 3. The sequence of confirmed positions -/

/-- The confirmed positions not yet taken out, in order of receipt, and the number that has to come
next. -/
structure CommitSequence where
  waiting : List CommitPosition := []
  next : Nat := 0
  deriving DecidableEq, Inhabited

namespace CommitSequence

/-- The empty sequence in which `next` has to come first. -/
def startingAt (next : Nat) : CommitSequence := ⟨[], next⟩

/-- Puts a position in its place, unless one with its number is there; says whether it did. -/
def place (p : CommitPosition) : List CommitPosition → Bool × List CommitPosition
  | [] => (true, [p])
  | q :: rest =>
    if p.sequence < q.sequence then (true, p :: q :: rest)
    else if p.sequence = q.sequence then (false, q :: rest)
    else
      let (placed, rest) := place p rest
      (placed, q :: rest)

/-- Takes a confirmed position in.  One that was taken out before, or is waiting already, is
ignored; the answer says whether it was new. -/
def insert (s : CommitSequence) (p : CommitPosition) : Bool × CommitSequence :=
  if p.sequence < s.next then (false, s)
  else
    let (placed, waiting) := place p s.waiting
    (placed, { s with waiting })

/-- The last waiting position reached from the first one without a gap. -/
def lastBeforeGap? (s : CommitSequence) : Option CommitPosition :=
  match s.waiting with
  | [] => none
  | first :: rest => some (followed (·.sequence) first rest)

/-- Takes out the positions that follow on from the ones taken before, and answers the last of
them. -/
def takeCommittable (s : CommitSequence) : Option CommitPosition × CommitSequence :=
  match s.waiting.head?, s.lastBeforeGap? with
  | some first, some last =>
    if first.sequence = s.next then
      (some last, ⟨s.waiting.dropWhile (·.sequence ≤ last.sequence), last.sequence + 1⟩)
    else (none, s)
  | _, _ => (none, s)

/-- The number of positions that wait for a gap to be filled. -/
def size (s : CommitSequence) : Nat := s.waiting.length

end CommitSequence

end EventSourcing

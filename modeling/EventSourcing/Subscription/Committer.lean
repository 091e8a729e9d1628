/-
# Committing positions

A run confirms messages in any order.  The committer stores a checkpoint whenever the gapless part
of the confirmed ones has grown, and once more, by force, at the end of the run if anything was
stored since the last forced write.  The sequence moves on before a write, and what was written is
noted only after it succeeded.

What the file settles:

* `Committer.confirm`: the position to store after a confirmation, if any;
* `Committer.recorded`, `Committer.due`, `Committer.flushed`: what a successful write leaves behind.
-/
import EventSourcing.Subscription.CommitSequence

namespace EventSourcing

/-- What a run has confirmed and committed. -/
structure Committer where
  sequence : CommitSequence := {}
  /-- The last position stored. -/
  last : Option CommitPosition := none
  /-- Whether anything was stored that was not forced yet. -/
  dirty : Bool := false
  deriving DecidableEq, Inhabited

namespace Committer

/-- Confirms a position; the answer is the position to store now. -/
def confirm (c : Committer) (p : CommitPosition) : Option CommitPosition × Committer :=
  let (committable, sequence) := (c.sequence.insert p).2.takeCommittable
  (committable, { c with sequence })

/-- Notes a position that was stored. -/
def recorded (c : Committer) (p : CommitPosition) : Committer :=
  { c with last := some p, dirty := true }

/-- The position to store by force at the end. -/
def due (c : Committer) : Option CommitPosition := if c.dirty then c.last else none

/-- Notes that the last position was stored by force. -/
def flushed (c : Committer) : Committer := { c with dirty := false }

/-- The number of confirmed positions behind a gap. -/
def waiting (c : Committer) : Nat := c.sequence.size

end Committer

end EventSourcing

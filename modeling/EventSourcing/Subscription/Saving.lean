/-
# Saving what is confirmed

A committer and the store behind it: a confirmation that makes more gapless asks the store to take
the position, and a flush asks it by force to take the last one it took.  The sequence of
confirmations has moved on by the time the store is asked, and stays where it is when the store
refuses.

What the file settles:

* `Saving.confirm`, `Saving.flush`: the two calls, and what the store was asked;
* `Saving.confirmAll`: confirmations one after the other, whatever the store answers.
-/
import EventSourcing.Checkpoint
import EventSourcing.Subscription.Committer

namespace EventSourcing

/-- A call to a store of checkpoints, and whether the store took the position. -/
structure Asked where
  position : CommitPosition
  force : Bool
  taken : Bool

/-- A committer at work for a subscription, the store, and what the store was asked so far. -/
structure Saving (σ : Type) where
  subscription : String
  committer : Committer := {}
  store : σ
  asked : List Asked := []

namespace Saving

variable {σ : Type} [CheckpointStore σ]

/-- Asks the store to take a position. -/
def ask (p : CommitPosition) (force : Bool) : Call (Saving σ) CheckpointError Unit := fun s =>
  match CheckpointStore.save ⟨s.subscription, some p.position⟩ force s.store with
  | (.ok _, store) => (.ok (), { s with store, asked := s.asked ++ [⟨p, force, true⟩] })
  | (.error error, store) =>
    (.error error, { s with store, asked := s.asked ++ [⟨p, force, false⟩] })

/-- Confirms a position, and has the gapless part stored if it grew. -/
def confirm (p : CommitPosition) : Call (Saving σ) CheckpointError Unit := fun s =>
  match s.committer.confirm p with
  | (none, committer) => (.ok (), { s with committer })
  | (some q, committer) =>
    match ask q false { s with committer } with
    | (.ok (), s) => (.ok (), { s with committer := s.committer.recorded q })
    | (.error error, s) => (.error error, s)

/-- Has the last position stored by force if that is due, and answers it. -/
def flush : Call (Saving σ) CheckpointError (Option Nat) := fun s =>
  match s.committer.due with
  | some p =>
    match ask p true s with
    | (.ok (), s) => (.ok (some p.position), { s with committer := s.committer.flushed })
    | (.error error, s) => (.error error, s)
  | none => (.ok (s.committer.last.map (·.position)), s)

/-- Confirms the positions one after the other. -/
def confirmAll (s : Saving σ) : List CommitPosition → Saving σ
  | [] => s
  | p :: rest => (s.confirm p).2.confirmAll rest

end Saving

end EventSourcing

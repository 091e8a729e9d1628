/-
# What the stage of a task says

How far a task has come is a statement about its history: a task whose third handler is being called
has had two handlers return, and a task that is confirming has been confirmed for one of the three
reasons.  A step changes one task at most and its history only grows, so the statement is carried
from one entry of the history to the next.

What the file settles:

* `Arises`, `Transition.arises`: where a task of the run after a step comes from;
* `Becomes`, `Transition.becomes`: where a task of the run before it goes;
* `Grounded`: a task's stage and acknowledgement are borne out by the history;
* `grounded`: every task of every history is.
-/
import EventSourcing.Proofs.Run.Dispatching

namespace EventSourcing
namespace Run

variable {F : PayloadFamily} {s : Subscription F} {r r' : Run F} {a : Action}
  {effects : List (Effect F)} {h : List (Entry F)}

/-! ## 1. Where tasks come from -/

/-- A task is not as it was before the step. -/
inductive Arises (s : Subscription F) (r : Run F) : Action → Task F → List (Effect F) → Prop where
  | advanced {t u : Task F} {a : Action} {effects : List (Effect F)}
    (task : r.task? t.sequence = some t) (advance : Advance s r t a u effects) :
    Arises s r a u effects
  | asked {t : Task F} {p : CommitPosition} {c : Committer} (task : r.task? t.sequence = some t)
    (stage : t.stage = .confirming) (free : r.isStoring = false)
    (answer : r.committer.confirm t.message.position = (some p, c)) :
    Arises s r (.confirm t.sequence) { t with stage := .storing p }
      [.storing (s.checkpoint p.position) false]
  | delivered {cursor : Cursor} {m : Message F} {lane : Option Nat} {effects : List (Effect F)}
    (here : r.phase.cursor? = some cursor) (number : m.sequence = cursor.sequence) :
    Arises s r .deliver { message := m, lane } (.dispatched m :: effects)

theorem mem_put_iff {t u : Task F} (task : r.task? t.sequence = some t)
    (heq : u.sequence = t.sequence) (v : Task F) :
    v ∈ (r.put u).tasks ↔ v = u ∨ v ∈ r.tasks ∧ v.sequence ≠ t.sequence := by
  constructor
  · intro hv
    exact (mem_put hv).imp_right fun old => ⟨old.1, heq ▸ old.2⟩
  · rintro (rfl | ⟨hv, hne⟩)
    · exact List.mem_map.2 ⟨t, (mem_of_task? task).1, by rw [if_pos heq.symm]⟩
    · exact List.mem_map.2 ⟨v, hv, by rw [if_neg (heq ▸ hne)]⟩

/-- A task of the run after a step was there before, or is what the step is about. -/
theorem Transition.arises (made : Transition s r a r' effects) {u : Task F} (hu : u ∈ r'.tasks) :
    u ∈ r.tasks ∨ Arises s r a u effects := by
  cases made with
  | advanced task advance =>
    rcases mem_put hu with rfl | ⟨hu, -⟩
    · exact .inr (.advanced task advance)
    · exact .inl hu
  | letGo | ended | confirmed | stored => exact .inl (List.mem_of_mem_filter hu)
  | @broken t _ task reason =>
    obtain ⟨gone, lanes, hrun, -⟩ := loseWorker_spec r t
    rw [hrun] at hu
    exact .inl (List.mem_of_mem_filter hu)
  | @asked t p c task stage free answer =>
    rcases mem_put (t := { t with stage := .storing p }) hu with rfl | ⟨hu, -⟩
    · exact .inr (.asked task stage free answer)
    · exact .inl hu
  | cancelled => exact .inl hu
  | polled polls =>
    cases polls with
    | delivered phase decoded place continues =>
      rcases List.mem_append.1 hu with hu | hu
      · exact .inl hu
      · cases List.mem_singleton.1 hu
        exact .inr (.delivered (by rw [phase]; rfl) (sequence_of_decode decoded))
    | _ => exact .inl hu

/-! ## 2. Where tasks go -/

/-- What becomes of a task: it stays as it is, the step is about it, or what held it breaks down. -/
inductive Becomes (s : Subscription F) (r : Run F) (t : Task F) :
    Action → Run F → List (Effect F) → Prop where
  | stays {a : Action} {r' : Run F} {effects : List (Effect F)} (mem : t ∈ r'.tasks) :
    Becomes s r t a r' effects
  | advanced {u : Task F} {a : Action} {r' : Run F} {effects : List (Effect F)}
    (advance : Advance s r t a u effects) (mem : u ∈ r'.tasks) : Becomes s r t a r' effects
  | letGo {a : Action} (halted : r.isHalted = true) (reason : LetsGo s t a) :
    Becomes s r t a (r.remove t.sequence) [.abandoned t.sequence]
  | ended {a : Action} {e : SubscriptionError} (reason : Ends s r t a e) :
    Becomes s r t a ((r.remove t.sequence).drop e) [.dropped e]
  | broken {u : Task F} {a : Action} (task : r.task? u.sequence = some u) (reason : Breaks s u a) :
    Becomes s r t a (loseWorker r u).1 (loseWorker r u).2
  | confirmed {r' : Run F} (stage : t.stage = .confirming) :
    Becomes s r t (.confirm t.sequence) r' []
  | asked {p : CommitPosition} {r' : Run F} {effects : List (Effect F)}
    (stage : t.stage = .confirming) (mem : { t with stage := .storing p } ∈ r'.tasks) :
    Becomes s r t (.confirm t.sequence) r' effects
  | stored {p : CommitPosition} {r' : Run F} {effects : List (Effect F)}
    (stage : t.stage = .storing p) :
    Becomes s r t (.stored t.sequence (.ok ())) r' effects

theorem Transition.becomes (made : Transition s r a r' effects) (hn : Numbered h r) {t : Task F}
    (ht : t ∈ r.tasks) : Becomes s r t a r' effects := by
  -- The step is about one task, and this is the one with its number.
  have same : ∀ {v : Task F}, r.task? v.sequence = some v → t.sequence = v.sequence → v = t :=
    fun task heq =>
    (hn.task_eq_of_sequence ht (mem_of_task? task).1 heq).symm
  have others : ∀ {n : Nat}, t.sequence ≠ n → t ∈ (r.remove n).tasks := fun hne =>
    List.mem_filter.2 ⟨ht, by simpa using hne⟩
  cases made with
  | @advanced v u _ _ task advance =>
    have mem := mem_put_iff task (congrArg (·.sequence) advance.position_eq)
    by_cases heq : t.sequence = v.sequence
    · cases same task heq
      exact .advanced advance ((mem u).2 (.inl rfl))
    · exact .stays ((mem t).2 (.inr ⟨ht, heq⟩))
  | @letGo v _ task halted reason =>
    by_cases heq : t.sequence = v.sequence
    · cases same task heq
      exact .letGo halted reason
    · exact .stays (others heq)
  | @ended v _ _ task reason =>
    by_cases heq : t.sequence = v.sequence
    · cases same task heq
      exact .ended reason
    · exact .stays (others heq)
  | broken task reason => exact .broken task reason
  | @confirmed v c task stage =>
    by_cases heq : t.sequence = v.sequence
    · cases same task heq
      exact .confirmed stage
    · exact .stays (others heq)
  | @asked v p c task stage =>
    have mem := mem_put_iff (u := { v with stage := .storing p }) task rfl
    by_cases heq : t.sequence = v.sequence
    · cases same task heq
      exact .asked stage ((mem _).2 (.inl rfl))
    · exact .stays ((mem t).2 (.inr ⟨ht, heq⟩))
  | @stored v p task stage =>
    by_cases heq : t.sequence = v.sequence
    · cases same task heq
      exact .stored stage
    · exact .stays (others heq)
  | cancelled => exact .stays ht
  | polled polls =>
    cases polls with
    | delivered => exact .stays (List.mem_append_left _ ht)
    | _ => exact .stays ht

/-! ## 3. Statements about the history -/

/-- What the stage says about the message with number `n`. -/
def StageHolds (s : Subscription F) (h : List (Entry F)) (n : Nat) : Stage → Prop
  | .queued | .recovering _ => True
  | .calling attempt status | .backingOff attempt status _ =>
    attempt.handler < s.handlers.length ∧ HandledUpTo h n attempt.handler status
  | .awaitingAck => Handled s h n .pending
  | .confirming | .storing _ => IsConfirmed s h n

/-- The stage of the task and its acknowledgement are borne out by the history. -/
structure Grounded (s : Subscription F) (h : List (Entry F)) (t : Task F) : Prop where
  stage : StageHolds s h t.sequence t.stage
  ack : ∀ taker answer, t.ack = .settled taker answer → AckSettled h t.sequence answer

theorem StageHolds.mono {n : Nat} {stage : Stage} (holds : StageHolds s h n stage)
    (h' : List (Entry F)) : StageHolds s (h ++ h') n stage := by
  cases stage with
  | queued | recovering => trivial
  | calling | backingOff => exact ⟨holds.1, holds.2.mono h'⟩
  | awaitingAck => exact HandledUpTo.mono holds h'
  | confirming | storing => exact IsConfirmed.mono holds h'

theorem Grounded.mono {t : Task F} (grounded : Grounded s h t) (h' : List (Entry F)) :
    Grounded s (h ++ h') t :=
  ⟨grounded.stage.mono h', fun taker answer hack => (grounded.ack taker answer hack).mono h'⟩

theorem settled_of_close {slot : AckSlot} {taker : Attempt} {answer : Acknowledgement}
    (hclose : slot.close = .settled taker answer) : slot = .settled taker answer := by
  cases slot <;> simp_all [AckSlot.close]

theorem settled_of_answer {slot : AckSlot} {answer : Acknowledgement}
    (known : slot.answer? = some answer) (hne : answer ≠ .dropped) :
    ∃ taker, slot = .settled taker answer := by
  cases slot with
  | settled taker answer' =>
    cases known
    exact ⟨taker, rfl⟩
  | closed =>
    cases known
    exact absurd rfl hne
  | armed | taken => cases known

/-! ## 4. A step keeps them -/

/-- Going on is borne out once `count` handlers have returned. -/
theorem Onward.grounded {t u : Task F} {count : Nat} {status : HandlingStatus}
    (onward : Onward s t count status u effects) (handled : HandledUpTo h t.sequence count status)
    (within : count ≤ s.handlers.length) (seen : ∀ e ∈ effects, e ∈ trace h)
    (ack : ∀ taker answer, t.ack = .settled taker answer → AckSettled h t.sequence answer) :
    Grounded s h u := by
  cases onward with
  | called more => exact ⟨⟨more, handled⟩, ack⟩
  | pending all status_eq =>
    have hcount : count = s.handlers.length := Nat.le_antisymm within all
    subst hcount status_eq
    exact ⟨handled, fun taker answer hack => ack taker answer (settled_of_close hack)⟩
  | handled all status_ne =>
    have hcount : count = s.handlers.length := Nat.le_antisymm within all
    subst hcount
    refine ⟨.handled (seen _ (List.mem_singleton_self _)) handled status_ne,
      fun taker answer hack => ?_⟩
    exact ack taker answer (settled_of_close hack)

theorem Fails.ack_of_settled {t u : Task F} {name : String} {error : HandlerError}
    (fails : Fails s t a name error u) {taker : Attempt} {answer : Acknowledgement}
    (hack : u.ack = .settled taker answer) : t.ack = .settled taker answer := by
  cases fails with
  | exhausted => exact settled_of_close hack
  | refused => exact hack

theorem Advance.grounded {t u : Task F} (advance : Advance s r t a u effects)
    (task : r.task? t.sequence = some t) (hg : Grounded s h t) :
    Grounded s (h ++ [⟨r, a, r', effects⟩]) u := by
  have hlater := hg.mono [⟨r, a, r', effects⟩]
  have hseen : ∀ e ∈ effects, e ∈ trace (h ++ [⟨r, a, r', effects⟩]) := by
    intro e he
    simp [trace, he]
  have hlast : (⟨r, a, r', effects⟩ : Entry F) ∈ h ++ [⟨r, a, r', effects⟩] := by simp
  cases advance with
  | started stage free going onward =>
    exact onward.grounded (handledUpTo_zero _ _) (Nat.zero_le _) hseen (by simp)
  | @returned attempt status answer _ _ stage onward =>
    obtain ⟨hlt, hupTo⟩ : StageHolds s h t.sequence (.calling attempt status) := stage ▸ hg.stage
    exact onward.grounded (hupTo.succ ⟨rfl, t, attempt.retry, status, task, stage⟩) hlt
      hseen hlater.ack
  | @backedOff attempt status outcome error stage ends more =>
    obtain ⟨hlt, hupTo⟩ : StageHolds s _ t.sequence (.calling attempt status) :=
      stage ▸ hlater.stage
    exact ⟨⟨hlt, hupTo⟩, hlater.ack⟩
  | @retried next status error stage =>
    obtain ⟨hlt, hupTo⟩ : StageHolds s _ t.sequence (.backingOff next status error) :=
      stage ▸ hlater.stage
    exact ⟨⟨hlt, hupTo⟩, hlater.ack⟩
  | recovering fails going rescue =>
    refine ⟨trivial, fun taker answer hack => ?_⟩
    have hsettled := hlater.ack taker answer (fails.ack_of_settled hack)
    rwa [← show _ = t.sequence from congrArg (·.sequence) fails.position_eq] at hsettled
  | ackTaken armed made => exact ⟨hlater.stage, by simp⟩
  | @ackSettled attempt answer taken =>
    refine ⟨hlater.stage, fun taker answer' hack => ?_⟩
    cases hack
    exact ⟨_, hlast, rfl, t, attempt, task, taken⟩
  | acknowledged stage known =>
    obtain ⟨taker, hsettled⟩ := settled_of_answer known (by simp)
    have hpending : StageHolds s _ t.sequence .awaitingAck := stage ▸ hlater.stage
    exact ⟨.acknowledged (hseen _ (List.mem_singleton_self _)) hpending
      (hlater.ack taker .acked hsettled), hlater.ack⟩
  | @recovered error rescuer stage rescue =>
    exact ⟨.recovered (hseen _ (List.mem_singleton_self _)) ⟨_, hlast, rfl, t, error, task,
      stage⟩, hlater.ack⟩

theorem Transition.grounded (made : Transition s r a r' effects)
    (hg : ∀ t ∈ r.tasks, Grounded s h t) :
    ∀ u ∈ r'.tasks, Grounded s (h ++ [⟨r, a, r', effects⟩]) u := by
  intro u hu
  rcases made.arises hu with hold | arises
  · exact (hg u hold).mono _
  · cases arises with
    | advanced task advance => exact advance.grounded task (hg _ (mem_of_task? task).1)
    | @asked t p c task stage free answer =>
      have hlater := (hg t (mem_of_task? task).1).mono
        [⟨r, .confirm t.sequence, r', [.storing (s.checkpoint p.position) false]⟩]
      have hconfirmed : StageHolds s _ t.sequence .confirming := stage ▸ hlater.stage
      exact ⟨hconfirmed, hlater.ack⟩
    | delivered => exact ⟨trivial, by simp⟩

/-- **The stages of all tasks are borne out by the history.** -/
theorem grounded (hist : History s h r) : ∀ t ∈ r.tasks, Grounded s h t := by
  induction hist with
  | begin => simp
  | step past made ih => exact (transition_of_step made).grounded ih

end Run
end EventSourcing

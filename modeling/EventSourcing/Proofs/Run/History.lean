/-
# Histories of a run

A history is what a run went through from its beginning: one entry for each step, with the run
before it, the action, and what it led to.  What has happened to a message is read off the history
and never off the run, so it stays true however the run goes on.

What the file settles:

* `History`: the histories of a subscription's runs, which are those of `Run.replay?`
  (`history_of_replay?`);
* `dispatched`: the messages handed out so far;
* `HandledUpTo`, `IsConfirmed`: what its handlers made of a message, and when it counts as dealt
  with.
-/
import EventSourcing.Proofs.Run.Transition

namespace EventSourcing
namespace Run

variable {F : PayloadFamily}

/-! ## 1. Histories -/

/-- One step of a run, with the run before and after it. -/
structure Entry (F : PayloadFamily) where
  before : Run F
  action : Action
  after : Run F
  effects : List (Effect F)

/-- The steps of a run from its beginning, and the run they lead to. -/
inductive History (s : Subscription F) : List (Entry F) → Run F → Prop where
  | begin : History s [] {}
  | step {h : List (Entry F)} {r r' : Run F} {a : Action} {effects : List (Effect F)}
    (past : History s h r) (made : step s r a = some (r', effects)) :
    History s (h ++ [⟨r, a, r', effects⟩]) r'

/-- All effects of a history in order. -/
def trace (h : List (Entry F)) : List (Effect F) := h.flatMap (·.effects)

@[simp] theorem trace_append (h h' : List (Entry F)) : trace (h ++ h') = trace h ++ trace h' := by
  simp [trace]

theorem history_append_replay? {s : Subscription F} {actions : List Action}
    {h : List (Entry F)} {r r' : Run F} {effects : List (Effect F)}
    (past : History s h r) (replayed : replay? s r actions = some (r', effects)) :
    ∃ h', History s (h ++ h') r' ∧ h'.map (·.action) = actions ∧ trace h' = effects := by
  induction actions generalizing h r effects with
  | nil =>
    cases replayed
    exact ⟨[], by simpa using past, rfl, rfl⟩
  | cons a rest ih =>
    simp only [replay?] at replayed
    split at replayed
    · cases replayed
    · rename_i r₁ effects₁ made
      obtain ⟨⟨r₂, effects₂⟩, rest_replayed, heq⟩ := Option.map_eq_some_iff.1 replayed
      cases heq
      obtain ⟨h', hist, hactions, htrace⟩ := ih (past.step made) rest_replayed
      refine ⟨⟨r, a, r₁, effects₁⟩ :: h', by simpa using hist, by simp [hactions], ?_⟩
      simpa [trace] using htrace

/-- Whatever can be replayed is a history, with the same actions and effects. -/
theorem history_of_replay? {s : Subscription F} {actions : List Action} {r : Run F}
    {effects : List (Effect F)} (replayed : replay? s {} actions = some (r, effects)) :
    ∃ h, History s h r ∧ h.map (·.action) = actions ∧ trace h = effects := by
  simpa using history_append_replay? .begin replayed

theorem replay?_append_singleton {s : Subscription F} {actions : List Action}
    {a : Action} {r₀ r r' : Run F} {before effects : List (Effect F)}
    (replayed : replay? s r₀ actions = some (r, before)) (made : step s r a = some (r', effects)) :
    replay? s r₀ (actions ++ [a]) = some (r', before ++ effects) := by
  induction actions generalizing r₀ before with
  | nil =>
    cases replayed
    simp [replay?, made]
  | cons b rest ih =>
    simp only [replay?, List.cons_append] at replayed ⊢
    split at replayed
    · cases replayed
    · rename_i r₁ first made₁
      obtain ⟨⟨r₂, later⟩, hrest, heq⟩ := Option.map_eq_some_iff.1 replayed
      cases heq
      rw [ih hrest]
      simp

/-- Every history can be replayed. -/
theorem replay?_of_history {s : Subscription F} {h : List (Entry F)} {r : Run F}
    (hist : History s h r) : replay? s {} (h.map (·.action)) = some (r, trace h) := by
  induction hist with
  | begin => rfl
  | step past made ih =>
    rw [List.map_append, List.map_singleton]
    simpa [trace] using replay?_append_singleton ih made

/-! ## 2. Messages handed out -/

/-- The message an effect hands out. -/
def Effect.dispatched? : Effect F → Option (Message F)
  | .dispatched m => some m
  | _ => none

theorem filterMap_dispatched (m : Message F) (effects : List (Effect F)) :
    (Effect.dispatched m :: effects).filterMap Effect.dispatched? =
      m :: effects.filterMap Effect.dispatched? := rfl

/-- The messages handed out, in order. -/
def dispatched (h : List (Entry F)) : List (Message F) := (trace h).filterMap Effect.dispatched?

@[simp] theorem dispatched_append (h h' : List (Entry F)) :
    dispatched (h ++ h') = dispatched h ++ dispatched h' := by
  simp [dispatched]

theorem dispatched_snoc (h : List (Entry F)) (e : Entry F) :
    dispatched (h ++ [e]) = dispatched h ++ e.effects.filterMap Effect.dispatched? := by
  simp [dispatched, trace]

/-! ## 3. What has become of a message -/

/-- In this step the handler returned with `status` for the message. -/
def Entry.Returns (e : Entry F) (n handler : Nat) (status : HandlingStatus) : Prop :=
  e.action = .attemptEnded n (.returned status) ∧
    ∃ t retry made, e.before.task? n = some t ∧ t.stage = .calling ⟨handler, retry⟩ made

/-- The first `count` handlers returned for the message, and `status` is what they made of it
together. -/
def HandledUpTo (h : List (Entry F)) (n count : Nat) (status : HandlingStatus) : Prop :=
  ∃ answers : List HandlingStatus, answers.length = count ∧
    (∀ i (hi : i < answers.length), ∃ e ∈ h, e.Returns n i answers[i]) ∧
    answers.foldl HandlingStatus.combine .ignored = status

/-- All handlers returned for the message, and `status` is what they made of it together. -/
def Handled (s : Subscription F) (h : List (Entry F)) (n : Nat) (status : HandlingStatus) : Prop :=
  HandledUpTo h n s.handlers.length status

/-- The acknowledgement of the message that an attempt had taken over was settled with this
answer. -/
def AckSettled (h : List (Entry F)) (n : Nat) (answer : Acknowledgement) : Prop :=
  ∃ e ∈ h, e.action = .settleAck n answer ∧ ∃ t attempt, e.before.task? n = some t ∧
    t.ack = .taken attempt

/-- The handler of failed messages was given the message and took it. -/
def Rescued (h : List (Entry F)) (n : Nat) : Prop :=
  ∃ e ∈ h, e.action = .recovered n (.ok ()) ∧ ∃ t error, e.before.task? n = some t ∧
    t.stage = .recovering error

/-- The run has confirmed the message, for one of the three reasons there are. -/
inductive IsConfirmed (s : Subscription F) (h : List (Entry F)) (n : Nat) : Prop where
  | handled {status : HandlingStatus} (seen : Effect.confirmed n .handled ∈ trace h)
    (all : Handled s h n status) (done : status ≠ .pending)
  | acknowledged (seen : Effect.confirmed n .acknowledged ∈ trace h) (all : Handled s h n .pending)
    (acked : AckSettled h n .acked)
  | recovered (seen : Effect.confirmed n .recovered ∈ trace h) (rescued : Rescued h n)

theorem HandledUpTo.mono {h : List (Entry F)} {n count : Nat} {status : HandlingStatus}
    (handled : HandledUpTo h n count status) (h' : List (Entry F)) :
    HandledUpTo (h ++ h') n count status := by
  obtain ⟨answers, hlength, hanswers, hstatus⟩ := handled
  refine ⟨answers, hlength, fun i hi => ?_, hstatus⟩
  obtain ⟨e, he, hreturns⟩ := hanswers i hi
  exact ⟨e, List.mem_append_left h' he, hreturns⟩

theorem handledUpTo_zero (h : List (Entry F)) (n : Nat) : HandledUpTo h n 0 .ignored :=
  ⟨[], rfl, by simp, rfl⟩

/-- One more handler returned. -/
theorem HandledUpTo.succ {h : List (Entry F)} {e : Entry F}
    {n count : Nat} {status answer : HandlingStatus}
    (handled : HandledUpTo h n count status) (returns : e.Returns n count answer) :
    HandledUpTo (h ++ [e]) n (count + 1) (status.combine answer) := by
  obtain ⟨answers, rfl, hanswers, rfl⟩ := handled
  refine ⟨answers ++ [answer], by simp, fun i hi => ?_, by simp⟩
  rcases Nat.lt_or_ge i answers.length with hlt | hge
  · obtain ⟨e', he', hreturns⟩ := hanswers i hlt
    exact ⟨e', List.mem_append_left [e] he', by rwa [List.getElem_append_left hlt]⟩
  · have hi' : i = answers.length := by
      rw [List.length_append, List.length_singleton] at hi
      omega
    subst hi'
    exact ⟨e, by simp, by simpa using returns⟩

theorem AckSettled.mono {h : List (Entry F)} {n : Nat} {answer : Acknowledgement}
    (settled : AckSettled h n answer) (h' : List (Entry F)) : AckSettled (h ++ h') n answer := by
  obtain ⟨e, he, hsettled⟩ := settled
  exact ⟨e, List.mem_append_left h' he, hsettled⟩

theorem Rescued.mono {h : List (Entry F)} {n : Nat} (rescued : Rescued h n) (h' : List (Entry F)) :
    Rescued (h ++ h') n := by
  obtain ⟨e, he, hrescued⟩ := rescued
  exact ⟨e, List.mem_append_left h' he, hrescued⟩

theorem IsConfirmed.mono {s : Subscription F} {h : List (Entry F)} {n : Nat}
    (confirmed : IsConfirmed s h n) (h' : List (Entry F)) : IsConfirmed s (h ++ h') n := by
  cases confirmed with
  | handled seen all done => exact .handled (by simp [seen]) (all.mono h') done
  | acknowledged seen all acked =>
    exact .acknowledged (by simp [seen]) (all.mono h') (acked.mono h')
  | recovered seen rescued => exact .recovered (by simp [seen]) (rescued.mono h')

end Run
end EventSourcing

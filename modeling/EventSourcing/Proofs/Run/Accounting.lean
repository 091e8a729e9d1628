/-
# What becomes of every message

A message that was handed out has a task, or has been confirmed, or was still waiting for its
acknowledgement when the run halted; the run is dropped otherwise, with two exceptions.  A breakdown
of what a worker called, other than a handler, takes the worker with it and nobody notices; and an
acknowledgement that arrived just before the halt may be overlooked, as the waiting side learns of
both at the same time.

What the file settles:

* `Fate`, `fates`: the fate of every message;
* `all_accounted_for_iff`: a run that ends well has lost no message if and only if neither exception
  came about.
-/
import EventSourcing.Proofs.Run.Ending
import EventSourcing.Sample.Ticks

namespace EventSourcing
namespace Run

variable {F : PayloadFamily} {s : Subscription F} {r r' : Run F} {a : Action}
  {effects : List (Effect F)} {h : List (Entry F)}

/-! ## 1. Fates -/

/-- The handlers left the message to its acknowledgement, and none had arrived when the run
halted. -/
def StillWaiting (s : Subscription F) (h : List (Entry F)) (n : Nat) : Prop :=
  Handled s h n .pending ∧ ∃ t, WaitedAtHalt h n t ∧ t.ack.answer? = none

/-- The message was let go although its acknowledgement had arrived when the run halted. -/
def Overlooked (h : List (Entry F)) (n : Nat) : Prop :=
  Effect.abandoned n ∈ trace h ∧ ∃ t, WaitedAtHalt h n t ∧ t.ack.answer?.isSome = true

/-- What has become of a message that was handed out, or what has come over the run. -/
inductive Fate (s : Subscription F) (h : List (Entry F)) (r : Run F) (n : Nat) : Prop where
  | kept {t : Task F} (mem : t ∈ r.tasks) (number : t.sequence = n)
  | confirmed (confirmed : IsConfirmed s h n)
  | waiting (waiting : StillWaiting s h n)
  | dropped (dropped : r.isDropped = true)
  | stranded {k : Nat} (stranded : Stranded h k)
  | overlooked {k : Nat} (overlooked : Overlooked h k)

theorem StillWaiting.mono {n : Nat} (waiting : StillWaiting s h n) (h' : List (Entry F)) :
    StillWaiting s (h ++ h') n := by
  obtain ⟨handled, t, waited, nothing⟩ := waiting
  exact ⟨handled.mono h', t, waited.mono h', nothing⟩

theorem Stranded.mono {n : Nat} (stranded : Stranded h n) (h' : List (Entry F)) :
    Stranded (h ++ h') n := by
  obtain ⟨e, he, strands⟩ := stranded
  exact ⟨e, List.mem_append_left h' he, strands⟩

theorem Overlooked.mono {n : Nat} (overlooked : Overlooked h n) (h' : List (Entry F)) :
    Overlooked (h ++ h') n := by
  obtain ⟨seen, t, waited, arrived⟩ := overlooked
  exact ⟨by simp [seen], t, waited.mono h', arrived⟩

theorem Transition.isDropped (made : Transition s r a r' effects) (dropped : r.isDropped = true) :
    r'.isDropped = true := by
  cases made with
  | advanced | letGo | confirmed | asked | stored | cancelled => exact dropped
  | ended => exact isDropped_drop _ _
  | @broken t _ task reason =>
    obtain ⟨gone, lanes, hrun, -⟩ := loseWorker_spec r t
    rw [hrun]
    exact dropped
  | polled polls =>
    cases polls with
    | stopped | undelivered | flushFailed => exact isDropped_drop _ _
    | _ => exact dropped

/-! ## 2. A step keeps every fate -/

/-- After the halt the tasks that are let go wait for their acknowledgement. -/
theorem LetsGo.awaitingAck {t : Task F} (h : LetsGo s t a) (late : Late t.stage) :
    t.stage = .awaitingAck := by
  cases h with
  | untouched stage | cutShort stage => simp [stage, Late] at late
  | failed fails =>
    cases fails with
    | exhausted stage => simp [stage, Late] at late
    | refused stage => exact stage
  | unanswered stage => exact stage

theorem Transition.fate_of_let_go {t : Task F} (ht : t ∈ r.tasks) (hw : Winding h r)
    (hg : Grounded s h t) (halted : r.isHalted = true) (reason : LetsGo s t a) :
    Fate s (h ++ [⟨r, a, r.remove t.sequence, [.abandoned t.sequence]⟩]) (r.remove t.sequence)
      t.sequence := by
  cases hdropped : r.isDropped with
  | true => exact .dropped hdropped
  | false =>
    have hd : r.drained = true := by simpa [isHalted, hdropped] using halted
    have stage := reason.awaitingAck (hw.late t ht (hw.idle hd t ht))
    obtain ⟨t₀, waited⟩ := hw.waited hd t ht stage
    have handled : StageHolds s h t.sequence .awaitingAck := stage ▸ hg.stage
    cases answer : t₀.ack.answer? with
    | none => exact .waiting ⟨HandledUpTo.mono handled _, t₀, waited.mono _, answer⟩
    | some answer' => exact .overlooked ⟨by simp [trace], t₀, waited.mono _, by simp [answer]⟩

theorem Transition.fate_of_broken {t u : Task F} (ht : t ∈ r.tasks)
    (task : r.task? u.sequence = some u) (hn : Numbered h r) (hg : Grounded s h t)
    (reason : Breaks s u a) :
    Fate s (h ++ [⟨r, a, (loseWorker r u).1, (loseWorker r u).2⟩]) (loseWorker r u).1
      t.sequence := by
  obtain ⟨gone, lanes, hrun, hgone, -⟩ := loseWorker_spec r u
  have hlast : (⟨r, a, (loseWorker r u).1, (loseWorker r u).2⟩ : Entry F) ∈
      h ++ [⟨r, a, (loseWorker r u).1, (loseWorker r u).2⟩] := by simp
  cases hg' : gone t with
  | false =>
    refine .kept (t := t) ?_ rfl
    rw [hrun]
    simp [ht, hg']
  | true =>
    cases reason with
    | recovering stage rescue => exact .stranded ⟨_, hlast, .inl rfl⟩
    | @storing p stage =>
      rcases (hgone t).1 hg' with heq | ⟨lane, holder, hlane, queued⟩
      · cases hn.task_eq_of_sequence ht (mem_of_task? task).1 heq
        have confirmed : StageHolds s h t.sequence (.storing p) := stage ▸ hg.stage
        exact .confirmed (IsConfirmed.mono confirmed _)
      · exact .stranded ⟨_, hlast, .inr ⟨_, u, t, lane, rfl, task, holder, hlane, ht, rfl, queued⟩⟩

/-- A task goes on, or its message meets its fate. -/
theorem Transition.fate_of_task (made : Transition s r a r' effects) (hn : Numbered h r)
    (hw : Winding h r) (hg : ∀ t ∈ r.tasks, Grounded s h t) {t : Task F} (ht : t ∈ r.tasks) :
    Fate s (h ++ [⟨r, a, r', effects⟩]) r' t.sequence := by
  cases made.becomes hn ht with
  | stays mem => exact .kept mem rfl
  | advanced advance mem => exact .kept mem (congrArg (·.sequence) advance.position_eq)
  | letGo halted reason => exact fate_of_let_go ht hw (hg t ht) halted reason
  | ended => exact .dropped (isDropped_drop _ _)
  | broken task reason => exact fate_of_broken ht task hn (hg t ht) reason
  | confirmed stage =>
    have confirmed : StageHolds s h t.sequence .confirming := stage ▸ (hg t ht).stage
    exact .confirmed (IsConfirmed.mono confirmed _)
  | asked stage mem => exact .kept mem rfl
  | @stored p _ _ stage =>
    have confirmed : StageHolds s h t.sequence (.storing p) := stage ▸ (hg t ht).stage
    exact .confirmed (IsConfirmed.mono confirmed _)

theorem Fate.step {n : Nat} (fate : Fate s h r n) (made : Transition s r a r' effects)
    (hn : Numbered h r) (hw : Winding h r) (hg : ∀ t ∈ r.tasks, Grounded s h t) :
    Fate s (h ++ [⟨r, a, r', effects⟩]) r' n := by
  cases fate with
  | kept mem number => exact number ▸ made.fate_of_task hn hw hg mem
  | confirmed confirmed => exact .confirmed (confirmed.mono _)
  | waiting waiting => exact .waiting (waiting.mono _)
  | dropped dropped => exact .dropped (made.isDropped dropped)
  | stranded stranded => exact .stranded (stranded.mono _)
  | overlooked overlooked => exact .overlooked (overlooked.mono _)

/-- A message that is handed out gets a task, or drops the subscription. -/
theorem Transition.fate_of_message (made : Transition s r a r' effects) {m : Message F}
    (seen : m ∈ effects.filterMap Effect.dispatched?) :
    Fate s (h ++ [⟨r, a, r', effects⟩]) r' m.sequence := by
  rcases made.polls_or_aside with polls | aside
  · cases polls with
    | @delivered _ _ _ m' lane _ fx phase decoded place continues =>
      rw [filterMap_dispatched, continues.quiet] at seen
      cases List.mem_singleton.1 seen
      exact .kept (t := { message := m, lane }) (by simp) rfl
    | undelivered => exact .dropped (isDropped_drop _ _)
    | _ => simp [Effect.dispatched?] at seen
  · rw [aside.quiet] at seen
    cases seen

/-- **Every message has one of the fates.** -/
theorem fates (hist : History s h r) : ∀ m ∈ dispatched h, Fate s h r m.sequence := by
  induction hist with
  | begin => simp [dispatched, trace]
  | step past made ih =>
    intro m hm
    rw [dispatched_snoc] at hm
    rcases List.mem_append.1 hm with hm | hm
    · exact (ih m hm).step (transition_of_step made) (numbered past) (winding past) (grounded past)
    · exact (transition_of_step made).fate_of_message hm

/-! ## 3. Runs that end well -/

theorem failure_of_verdict (hv : r.verdict = .ok ()) : r.failure = none := by
  unfold verdict at hv
  split at hv
  · cases hv
  · assumption

theorem failure_of_finished (hist : History s h r) (ok : r.phase = .finished (.ok ())) :
    r.failure = none := by
  induction hist with
  | begin => rfl
  | step past made ih =>
    rcases (transition_of_step made).polls_or_aside with polls | aside
    · cases polls with
      | unflushed | flushed | flushFailed =>
        injection ok with hv
        exact failure_of_verdict hv
      | delivered _ _ _ continues => cases continues <;> cases ok
      | _ => cases ok
    · -- Nothing but the wish to stop can come after the end.
      have finished := aside.phase.symm.trans ok
      cases rests_of_finished past made finished
      exact ih finished

/-- A message that a breakdown took away was not waiting at the halt. -/
theorem not_waitedAtHalt_of_stranded (hist : History s h r) {n : Nat} (stranded : Stranded h n)
    (t : Task F) : ¬ WaitedAtHalt h n t := by
  induction hist with
  | begin => exact absurd stranded (by simp [Stranded])
  | @step h r r' a effects past made ih =>
    intro waited
    have hn := numbered past
    rcases stranded_snoc.1 stranded with stranded | strands
    · rcases waitedAtHalt_snoc.1 waited with waited | ⟨-, task, -⟩
      · exact ih stranded waited
      · exact ((recorded past).forgotten n (.inr stranded)).gone t (mem_of_task? task).1
          (mem_of_task? task).2
    · have since : ∀ u ∈ r.tasks, u.sequence = n →
          ¬ Late u.stage ∨ (∃ error, u.stage = .recovering error) →
          a ≠ .halt → False := by
        rintro u hu rfl hstage hne
        rcases waitedAtHalt_snoc.1 waited with waited | ⟨hhalt, -⟩
        · rcases (winding past).since u hu t waited with stage | settled
          · simp [stage, Late] at hstage
          · rcases hstage with early | ⟨error, stage⟩
            · cases hu' : u.stage <;> simp_all [Settled, Late]
            · simp [stage, Settled] at settled
        · exact hne hhalt
      rcases strands with action | ⟨k, _, u, lane, action, -, -, -, hu, hun, queued⟩
      · dsimp only at action
        subst action
        obtain ⟨u, task, reason, -⟩ := (transition_of_step made).breaks (.inl rfl)
        cases reason with
        | recovering stage rescue =>
          exact since u (mem_of_task? task).1 rfl (.inr ⟨_, stage⟩) (by simp)
      · dsimp only at action hu
        simp only [Task.isQueuedIn, Task.isQueued, Bool.and_eq_true, decide_eq_true_eq] at queued
        exact since u hu hun (.inl (by simp [queued.1, Late])) (by simp [action])

/-- **What it takes for a run that ends well to have lost no message.**  Every message it handed out
was confirmed, or still waited for its acknowledgement when the run halted, if and only if no
breakdown took a message away and no acknowledgement was overlooked at the halt. -/
theorem all_accounted_for_iff (hist : History s h r) (ok : r.phase = .finished (.ok ())) :
    (∀ m ∈ dispatched h, IsConfirmed s h m.sequence ∨ StillWaiting s h m.sequence) ↔
      ∀ n, ¬ Stranded h n ∧ ¬ Overlooked h n := by
  constructor
  · intro accounted n
    -- A message that is gone was handed out, and it is neither confirmed nor, by `waiting`, still
    -- waiting.
    have absurd_of_lost : Effect.abandoned n ∈ trace h ∨ Stranded h n →
        (StillWaiting s h n → False) → False := by
      intro lost waiting
      have forgotten := (recorded hist).forgotten n lost
      obtain ⟨m, hm, rfl⟩ := (numbered hist).exists_of_lt forgotten.known
      rcases accounted m hm with confirmed | still
      · cases confirmed with
        | handled seen | acknowledged seen | recovered seen => exact forgotten.unconfirmed _ seen
      · exact waiting still
    refine ⟨fun stranded => ?_, fun ⟨seen, t, ⟨e, he, hhalt, task, _⟩, arrived⟩ => ?_⟩
    · refine absurd_of_lost (.inr stranded) ?_
      rintro ⟨-, t, waited, -⟩
      exact not_waitedAtHalt_of_stranded hist stranded t waited
    · refine absurd_of_lost (.inl seen) ?_
      rintro ⟨-, t', ⟨e', he', hhalt', task', -⟩, nothing⟩
      cases (winding hist).once e he e' he' hhalt hhalt'
      cases task.symm.trans task'
      simp [nothing] at arrived
  · intro clear m hm
    cases fates hist m hm with
    | kept mem =>
      rw [(winding hist).empty (by simp [ok, Phase.IsOver])] at mem
      cases mem
    | confirmed confirmed => exact .inl confirmed
    | waiting waiting => exact .inr waiting
    | dropped dropped => simp [isDropped, failure_of_finished hist ok] at dropped
    | stranded stranded => exact absurd stranded (clear _).1
    | overlooked overlooked => exact absurd overlooked (clear _).2

section Runs

open Sample

/-- The first message is rescued, the second one waits for its acknowledgement. -/
def untilHalt : List Action :=
  [.subscribe, .checkpointLoaded (.ok ⟨"feed", none⟩), .pageRead (.ok [tick 0, tick 1]),
    .deliver, .deliver, .start 0, .attemptEnded 0 (.failed (.failed "no")), .recovered 0 (.ok ()),
    .confirm 0, .stored 0 (.ok ()), .start 1, .takeAck 1 ⟨0, 0⟩,
    .attemptEnded 1 (.returned .pending), .cancel, .interrupt]

/-- The task of the second message then. -/
def waitingTask : Task ticks where
  message := .ofEvent "feed" (tick 1) 1 1 ⟨(), ()⟩
  lane := none
  stage := .awaitingAck
  holder := .acknowledgement
  ack := .taken ⟨0, 0⟩

/-- The run as it is then. -/
def atHalt : Run ticks where
  phase := .draining
  cancelled := true
  committer := { sequence := { next := 1 }, last := some ⟨0, 0, ⟨0⟩⟩, dirty := true }
  tasks := [waitingTask]

theorem replay?_untilHalt :
    (replay? (tickFeed (some "parking")) {} untilHalt).map (·.1) = some atHalt := rfl

theorem rescued_and_waiting_are_accounted_for : ∃ (h : List (Entry ticks)) (r : Run ticks),
    History (tickFeed (some "parking")) h r ∧ r.phase = .finished (.ok ()) ∧
      StillWaiting (tickFeed (some "parking")) h 1 ∧
      ∀ m ∈ dispatched h, IsConfirmed (tickFeed (some "parking")) h m.sequence ∨
        StillWaiting (tickFeed (some "parking")) h m.sequence := by
  obtain ⟨⟨_, _⟩, replayed, rfl⟩ := Option.map_eq_some_iff.1 replay?_untilHalt
  obtain ⟨h₀, past₀, hactions₀, -⟩ := history_of_replay? replayed
  have past₁ := past₀.step (a := .halt) rfl
  obtain ⟨h₂, hist, hactions₂, -⟩ := history_append_replay? past₁
    (show replay? (tickFeed (some "parking")) _ [.abandon 1, .flush, .flushed (.ok ())] =
      some (_, _) from rfl)
  have hnone : ∀ (l : List (Entry ticks)) (actions : List Action) (a : Action),
      l.map (·.action) = actions → a ∉ actions → ∀ e ∈ l, e.action ≠ a := by
    rintro l _ a rfl hnot e he rfl
    exact hnot (List.mem_map_of_mem he)
  refine ⟨_, _, hist, rfl, ?_, (all_accounted_for_iff hist rfl).2 fun n => ⟨?_, ?_⟩⟩
  · have waiting := grounded past₀ waitingTask List.mem_cons_self
    refine ⟨HandledUpTo.mono (HandledUpTo.mono waiting.stage _) _, waitingTask, ?_, rfl⟩
    exact ⟨_, List.mem_append_left _ (List.mem_append_right _ (List.mem_singleton_self _)),
      rfl, rfl, rfl⟩
  · rintro ⟨e, he, strands⟩
    have hcalm : ∀ n, e.action ≠ .recovered n .panicked ∧ e.action ≠ .stored n .panicked := by
      intro n
      rcases List.mem_append.1 he with he | he
      · rcases List.mem_append.1 he with he | he
        · exact ⟨hnone h₀ _ _ hactions₀ (by simp [untilHalt]) e he,
            hnone h₀ _ _ hactions₀ (by simp [untilHalt]) e he⟩
        · rw [List.mem_singleton.1 he]
          simp
      · exact ⟨hnone h₂ _ _ hactions₂ (by simp) e he, hnone h₂ _ _ hactions₂ (by simp) e he⟩
    rcases strands with action | ⟨k, _, _, _, action, -⟩
    · exact (hcalm n).1 action
    · exact (hcalm k).2 action
  · rintro ⟨-, t, ⟨e, he, hhalt, task, -⟩, arrived⟩
    rcases List.mem_append.1 he with he | he
    · rcases List.mem_append.1 he with he | he
      · exact hnone h₀ _ _ hactions₀ (by simp [untilHalt]) e he hhalt
      · cases List.mem_singleton.1 he
        cases List.mem_singleton.1 (mem_of_task? task).1
        cases arrived
    · exact hnone h₂ _ _ hactions₂ (by simp) e he hhalt

/-- A run that ends well although its only message was neither confirmed nor waiting: the handler of
failed messages broke down on it. -/
theorem breakdown_goes_unnoticed : ∃ (h : List (Entry ticks)) (r : Run ticks),
    History (tickFeed (some "parking")) h r ∧ r.phase = .finished (.ok ()) ∧
      ∃ m ∈ dispatched h, ¬ IsConfirmed (tickFeed (some "parking")) h m.sequence ∧
        ¬ StillWaiting (tickFeed (some "parking")) h m.sequence := by
  have replayed : replay? (tickFeed (some "parking")) {}
      [.subscribe, .checkpointLoaded (.ok ⟨"feed", none⟩), .pageRead (.ok [tick 0]), .deliver,
        .start 0, .attemptEnded 0 (.failed (.failed "no")), .recovered 0 .panicked, .cancel,
        .interrupt, .halt, .flush] = some (_, _) := rfl
  obtain ⟨h, hist, hactions, -⟩ := history_of_replay? replayed
  have stranded : Stranded h 0 := by
    have hmem : Action.recovered 0 .panicked ∈ h.map (·.action) := by
      rw [hactions]
      simp
    obtain ⟨e, he, action⟩ := List.mem_map.1 hmem
    exact ⟨e, he, .inl action⟩
  have forgotten := (recorded hist).forgotten 0 (.inr stranded)
  obtain ⟨m, hm, number⟩ := (numbered hist).exists_of_lt forgotten.known
  refine ⟨h, _, hist, rfl, m, hm, ?_, ?_⟩
  · rw [number]
    intro confirmed
    cases confirmed with
    | handled seen | acknowledged seen | recovered seen => exact forgotten.unconfirmed _ seen
  · rw [number]
    rintro ⟨-, t, waited, -⟩
    exact not_waitedAtHalt_of_stranded hist stranded t waited

end Runs

end Run
end EventSourcing

/-
# What still happens after a drop

An error drops the run, and the drop is a fence: whoever is about to begin something looks for it
first.  Messages that nothing has looked at stay so, the handler of failed messages is not called
any more, and calls that are going on come to their end and count.  Two of those who wait do not
look, they only learn of the drop beside what they wait for: the delay before another attempt and
the acknowledgement.  If both have come they may take either, so this is where the fence is open.

What the file settles:

* `Begun`, `Transition.treats`: what is shown to a handler or confirmed was taken up before;
* `confirmed_of_handled`: a message all handlers are done with is confirmed;
* `LastCheckpoint`: the checkpoint a run forces at its end counts everything up to the first message
  that is missing;
* `after_drop`: what happens after a drop, in every history.
-/
import EventSourcing.Proofs.Run.Acknowledging
import EventSourcing.Proofs.Run.Committing
import EventSourcing.Proofs.Run.Lanes
import EventSourcing.Proofs.Run.Verdict

namespace EventSourcing
namespace Run

variable {F : PayloadFamily} {s : Subscription F} {r₀ r r' : Run F} {a : Action}
  {effects : List (Effect F)} {h before later : List (Entry F)} {n : Nat}

/-! ## 1. Messages that were taken up -/

/-- The message that is shown to a handler or confirmed. -/
def Effect.treats? : Effect F → Option Nat
  | .called _ m => some m.sequence
  | .confirmed n _ => some n
  | _ => none

/-- A worker has taken the message up. -/
def Begun (h : List (Entry F)) (n : Nat) : Prop := ∃ e ∈ h, e.action = .start n

theorem begun_snoc {e : Entry F} : Begun (h ++ [e]) n ↔ Begun h n ∨ e.action = .start n := by
  simp [Begun, or_and_right, exists_or]

/-- A message is treated by the step of its own task. -/
theorem Transition.treats (made : Transition s r a r' effects) {x : Effect F} (seen : x ∈ effects)
    (treats : x.treats? = some n) :
    ∃ t u, r.task? t.sequence = some t ∧ t.sequence = n ∧ Advance s r t a u effects ∧
      r' = r.put u := by
  have onward : x.IsOnward := by
    cases x with
    | called | confirmed => trivial
    | _ => cases treats
  obtain ⟨t, u, task, advance, hrun⟩ := made.goes_on seen onward
  refine ⟨t, u, task, ?_, advance, hrun⟩
  cases x with
  | called i m =>
    cases treats
    exact (advance.calls seen).1.symm
  | confirmed k cause =>
    cases treats
    exact (advance.confirmed seen).1.symm
  | _ => cases treats

/-- A task stays in the queue, and nothing is seen of it, until a worker takes it up. -/
theorem Advance.of_queued {t u : Task F}
    (advance : Advance s r t a u effects) (stage : t.stage = .queued) :
    a = .start t.sequence ∧ r.isHalted = false ∨ u.stage = .queued ∧ effects = [] := by
  cases advance with
  | started _ _ going => exact .inl ⟨rfl, going⟩
  | ackTaken | ackSettled => exact .inr ⟨stage, rfl⟩
  | recovering fails => cases fails <;> rename_i other _ _ <;> cases stage.symm.trans other
  | returned other | backedOff other | retried other | acknowledged other | recovered other =>
    cases stage.symm.trans other

/-- Whatever has left the queue, or was treated, was taken up. -/
structure TakenUp (h : List (Entry F)) (r : Run F) : Prop where
  tasks : ∀ t ∈ r.tasks, t.stage ≠ .queued → Begun h t.sequence
  treated : ∀ n, ∀ x ∈ trace h, x.treats? = some n → Begun h n

theorem TakenUp.step (taken : TakenUp h r) (made : Transition s r a r' effects) :
    TakenUp (h ++ [⟨r, a, r', effects⟩]) r' := by
  have kept {n : Nat} (begun : Begun h n) : Begun (h ++ [⟨r, a, r', effects⟩]) n :=
    begun_snoc.2 (.inl begun)
  -- A task that leaves the queue in this step is taken up in it.
  have begins {t u : Task F} (task : r.task? t.sequence = some t)
      (advance : Advance s r t a u effects) (left : u.stage ≠ .queued ∨ effects ≠ []) :
      Begun (h ++ [⟨r, a, r', effects⟩]) t.sequence := by
    by_cases queued : t.stage = .queued
    · rcases advance.of_queued queued with ⟨starts, -⟩ | ⟨stays, none⟩
      · exact begun_snoc.2 (.inr starts)
      · exact absurd (left.resolve_left (absurd stays)) (absurd none)
    · exact kept (taken.tasks t (mem_of_task? task).1 queued)
  constructor
  case tasks =>
    intro u hu left
    rcases made.arises hu with hold | arises
    · exact kept (taken.tasks u hold left)
    · cases arises with
      | @advanced t _ _ _ task advance =>
        rw [show u.sequence = t.sequence from congrArg (·.sequence) advance.position_eq]
        exact begins task advance (.inl left)
      | @asked t _ _ task stage =>
        exact kept (taken.tasks t (mem_of_task? task).1 (by simp [stage]))
      | delivered => exact absurd rfl left
  case treated =>
    intro n x seen treats
    rcases mem_trace_snoc.1 seen with old | new
    · exact kept (taken.treated n x old treats)
    · obtain ⟨t, u, task, rfl, advance, -⟩ := made.treats new treats
      exact begins task advance (.inr (List.ne_nil_of_mem new))

theorem takenUp (hist : History s h r) : TakenUp h r := by
  induction hist with
  | begin => exact ⟨by simp, by simp [trace]⟩
  | step past made ih => exact ih.step (transition_of_step made)

/-! ## 2. Messages all handlers are done with -/

/-- A message all handlers are done with is confirmed in the same step. -/
theorem confirmed_of_handled (hist : History s h r) (some : 0 < s.handlers.length)
    {status : HandlingStatus} (handled : Handled s h n status) (done : status ≠ .pending) :
    Effect.confirmed n .handled ∈ trace h := by
  induction hist with
  | begin =>
    obtain ⟨e, he, -⟩ := HandledUpTo.returned handled some
    cases he
  | step past made ih =>
    rcases all_returned_snoc past made some handled with old | ⟨pending, -⟩ | ⟨-, now⟩
    · exact mem_trace_snoc.2 (.inl (ih old))
    · exact absurd pending done
    · exact mem_trace_snoc.2 (.inr now)

/-- An attempt that is repeated is not the first one. -/
theorem retry_pos (hist : History s h r) {t : Task F} (ht : t ∈ r.tasks)
    {next : Attempt} {status : HandlingStatus} {error : HandlerError}
    (stage : t.stage = .backingOff next status error) : 0 < next.retry := by
  induction hist generalizing t with
  | begin => cases ht
  | step past made ih =>
    rcases (transition_of_step made).arises ht with hold | arises
    · exact ih hold stage
    · cases arises with
      | advanced task advance =>
        cases advance with
        | started _ _ _ onward | returned _ onward => cases onward <;> cases stage
        | backedOff =>
          cases stage
          exact Nat.succ_pos _
        | ackTaken | ackSettled => exact ih (mem_of_task? task).1 stage
        | retried | recovering | acknowledged | recovered => cases stage
      | asked | delivered => cases stage

theorem step_retry (made : step s r (.retry n) = some (r', effects)) :
    ∃ t next status error, r.task? n = some t ∧ t.stage = .backingOff next status error ∧
      effects = [.called next.handler { t.message with retryCount := next.retry }] := by
  obtain ⟨t, task, moved⟩ := Option.bind_eq_some_iff.1 made
  cases stage : t.stage <;> simp only [taskStep, stage, reduceCtorEq] at moved
  cases moved
  exact ⟨t, _, _, _, task, stage, rfl⟩

/-! ## 3. The last checkpoint -/

/-- The checkpoint forced at the end of the run is that of the `count`-th message handed out:
everything before is confirmed, and the message after it is not. -/
structure LastCheckpoint (s : Subscription F) (h : List (Entry F)) (count : Nat) : Prop where
  confirmed : ∀ n < count, ∃ cause, Effect.confirmed n cause ∈ trace h
  missing : ∀ cause, Effect.confirmed count cause ∉ trace h
  forced : count = 0 ∨ ∃ p ∈ (dispatched h).map (·.position), p.sequence + 1 = count ∧
    Effect.storing (s.checkpoint p.position) true ∈ trace h

theorem forced_of_flushing (hist : History s h r) {p : CommitPosition}
    (phase : r.phase = .flushing p) : Effect.storing (s.checkpoint p.position) true ∈ trace h := by
  induction hist with
  | begin => cases phase
  | step past made ih =>
    rw [mem_trace_snoc]
    rcases (transition_of_step made).polls_or_aside with polls | aside
    · cases polls with
      | flushing =>
        cases phase
        exact .inr (List.mem_singleton_self _)
      | delivered here decoded place continues =>
        dsimp only at phase
        subst phase
        cases continues
      | _ => cases phase
    · exact .inl (ih (aside.phase.symm.trans phase))

/-- A run that has ended has forced the checkpoint it stored last. -/
theorem forced_of_finished (hist : History s h r) (served : Served h)
    {result : Except SubscriptionError Unit} (finished : r.phase = .finished result)
    {p : CommitPosition} (last : r.committer.last = some p) :
    Effect.storing (s.checkpoint p.position) true ∈ trace h := by
  induction hist with
  | begin => cases finished
  | @step h r r' a effects past made ih =>
    have hc := committing past served.of_append
    have made' := transition_of_step made
    rw [mem_trace_snoc]
    rcases made'.polls_or_aside with polls | aside
    · cases polls with
      | unloaded phase =>
        obtain ⟨mem, -⟩ := (gapless past).last p last
        rw [(numbered past).early (by simp [phase, Phase.IsEarly])] at mem
        cases mem
      | unflushed phase empty due =>
        rcases hc.dirty p last with dirty | ⟨_, before⟩
        · simp [Committer.due, dirty, show r.committer.last = some p from last] at due
        · cases phase.symm.trans before
      | flushed phase =>
        cases (hc.flushing _ phase).symm.trans (show r.committer.last = some p from last)
        exact .inl (forced_of_flushing past phase)
      | flushFailed phase =>
        have := (served _ (List.mem_append_right h (List.mem_singleton_self _))).2 _ rfl
        cases this
      | delivered _ _ _ continues => cases continues <;> cases finished
      | _ => cases finished
    · have before := aside.phase.symm.trans finished
      cases rests_of_finished past made before
      exact .inl (ih served.of_append before last)

theorem confirmed_iff_covers (hist : History s h r) (served : Served h) (empty : r.tasks = [])
    (n : Nat) : (∃ cause, Effect.confirmed n cause ∈ trace h) ↔ r.committer.sequence.Covers n := by
  constructor
  · rintro ⟨cause, seen⟩
    rcases (committing hist served).confirmed n cause seen with covers | ⟨t, ht, -⟩
    · exact covers
    · rw [empty] at ht
      cases ht
  · intro covers
    cases ((gapless hist).covered n covers).2 with
    | handled seen | acknowledged seen | recovered seen => exact ⟨_, seen⟩

theorem lastCheckpoint (hist : History s h r) (served : Served h)
    {result : Except SubscriptionError Unit} (finished : r.phase = .finished result) :
    ∃ count, LastCheckpoint s h count := by
  have empty := (winding hist).empty (by rw [finished]; trivial)
  have covers := confirmed_iff_covers hist served empty
  have hg := gapless hist
  refine ⟨r.committer.sequence.next, fun n hlt => (covers n).2 (.inl hlt), fun cause seen => ?_, ?_⟩
  · rcases (covers _).1 ⟨cause, seen⟩ with hlt | ⟨p, hp, heq⟩
    · exact Nat.lt_irrefl _ hlt
    · exact hg.kept.gap p hp heq
  · refine ((committing hist served).last_of_free (by simp [empty])).imp (fun none => none.1) ?_
    rintro ⟨p, last, next⟩
    exact ⟨p, (hg.last p last).1, next, forced_of_finished hist served finished last⟩

/-! ## 4. The steps after a drop -/

/-- What holds at a point of a history and is kept from there on holds at its end. -/
theorem later_induction (past : History s before r₀) (hist : History s (before ++ later) r)
    {motive : List (Entry F) → Run F → Prop} (start : motive [] r₀)
    (next : ∀ {later : List (Entry F)} {r r' : Run F} {a : Action} {effects : List (Effect F)},
      History s (before ++ later) r → step s r a = some (r', effects) → motive later r →
        motive (later ++ [⟨r, a, r', effects⟩]) r') : motive later r := by
  generalize heq : before ++ later = h at hist
  induction hist generalizing later with
  | begin =>
    obtain ⟨rfl, rfl⟩ := List.append_eq_nil_iff.1 heq
    cases replay?_of_history past
    exact start
  | @step h r r' a effects past' made ih =>
    rcases List.eq_nil_or_concat later with rfl | ⟨later, e, rfl⟩
    · rw [List.append_nil] at heq
      subst heq
      cases (replay?_of_history past).symm.trans (replay?_of_history (past'.step made))
      exact start
    · rw [List.concat_eq_append, ← List.append_assoc] at heq
      obtain ⟨rfl, hlast⟩ := List.append_inj' heq rfl
      cases hlast
      rw [List.concat_eq_append]
      exact next past' made (ih rfl)

theorem isDropped_later (past : History s before r₀) (hist : History s (before ++ later) r)
    (dropped : r₀.isDropped = true) : r.isDropped = true :=
  later_induction (motive := fun _ r => r.isDropped = true) past hist dropped fun _ made =>
    (transition_of_step made).isDropped

/-- Every later step is one of a dropped run. -/
theorem step_later (past : History s before r₀) (hist : History s (before ++ later) r)
    (dropped : r₀.isDropped = true) {e : Entry F} (he : e ∈ later) :
    e.before.isHalted = true ∧ ∃ h, History s h e.before ∧
      step s e.before e.action = some (e.after, e.effects) := by
  obtain ⟨earlier, rest, rfl⟩ := List.append_of_mem he
  obtain ⟨past', made⟩ := history_at hist (List.append_assoc _ _ _).symm
  exact ⟨by simp [isHalted, isDropped_later past past' dropped], _, past', made⟩

theorem mem_later {x : Effect F} (seen : x ∈ trace later) : ∃ e ∈ later, x ∈ e.effects := by
  simpa [trace] using seen

/-- A message that nobody has taken up is not treated any more. -/
theorem untreated_later (past : History s before r₀) (hist : History s (before ++ later) r)
    (dropped : r₀.isDropped = true) (idle : ¬ Begun before n) :
    ∀ x ∈ trace (before ++ later), x.treats? ≠ some n := by
  have queued : (∀ t ∈ r.tasks, t.sequence = n → t.stage = .queued) ∧
      ∀ x ∈ trace later, x.treats? ≠ some n := by
    refine later_induction
      (motive := fun later r => (∀ t ∈ r.tasks, t.sequence = n → t.stage = .queued) ∧
        ∀ x ∈ trace later, x.treats? ≠ some n)
      past hist ⟨?_, by simp [trace]⟩ fun hist made ih => ?_
    · rintro t ht rfl
      exact Classical.byContradiction fun left => idle ((takenUp past).tasks t ht left)
    · obtain ⟨ihq, iht⟩ := ih
      rename_i r r' a effects
      have halted : r.isHalted = true := by simp [isHalted, isDropped_later past hist dropped]
      have made' := transition_of_step made
      -- No worker takes the task up, as the run is halted.
      have stays {t u : Task F} (task : r.task? t.sequence = some t) (number : t.sequence = n)
          (advance : Advance s r t a u effects) : u.stage = .queued ∧ effects = [] := by
        refine (advance.of_queued (ihq t (mem_of_task? task).1 number)).resolve_left ?_
        rintro ⟨-, going⟩
        rw [halted] at going
        cases going
      constructor
      · rintro u hu number
        rcases made'.arises hu with hold | arises
        · exact ihq u hold number
        · cases arises with
          | advanced task advance =>
            exact (stays task
              ((congrArg (·.sequence) advance.position_eq).symm.trans number) advance).1
          | asked task stage => cases (ihq _ (mem_of_task? task).1 number).symm.trans stage
          | delivered => rfl
      · intro x seen treats
        rcases mem_trace_snoc.1 seen with old | new
        · exact iht x old treats
        · obtain ⟨t, u, task, number, advance, -⟩ := made'.treats new treats
          rw [(stays task number advance).2] at new
          cases new
  intro x seen treats
  rw [trace_append] at seen
  rcases List.mem_append.1 seen with old | new
  · exact idle ((takenUp past).treated n x old treats)
  · exact queued.2 x new treats

theorem unoffered_later (past : History s before r₀) (hist : History s (before ++ later) r)
    (dropped : r₀.isDropped = true) (m : Message F) (error : HandlerError) :
    Effect.recovering m error ∉ trace later := by
  intro seen
  obtain ⟨e, he, seen⟩ := mem_later seen
  obtain ⟨halted, _, -, made⟩ := step_later past hist dropped he
  obtain ⟨-, -, -, -, -, -, -, -, going⟩ := (transition_of_step made).hands_over seen
  rw [halted] at going
  cases going

/-- Attempts after a drop are first ones, of handlers whose turn has come, unless the delay before
another one is over and the drop is not noticed. -/
theorem retries_later (past : History s before r₀) (hist : History s (before ++ later) r)
    (dropped : r₀.isDropped = true) :
    (∀ handler m, Effect.called handler m ∈ trace later → m.retryCount = 0) ↔
      ∀ e ∈ later, ∀ n, e.action ≠ .retry n := by
  constructor
  · intro first e he n action
    obtain ⟨-, h, past', made⟩ := step_later past hist dropped he
    rw [action] at made
    obtain ⟨t, next, status, error, task, stage, called⟩ := step_retry made
    have pos := retry_pos past' (mem_of_task? task).1 stage
    have seen : Effect.called next.handler { t.message with retryCount := next.retry } ∈
        trace later :=
      List.mem_flatMap.2 ⟨e, he, called ▸ List.mem_singleton_self _⟩
    exact Nat.ne_of_gt pos (first _ _ seen)
  · intro none handler m seen
    obtain ⟨e, he, seen⟩ := mem_later seen
    obtain ⟨halted, h, past', made⟩ := step_later past hist dropped he
    obtain ⟨t, u, -, advance, -⟩ := (transition_of_step made).goes_on seen trivial
    generalize action : e.action = a at advance
    generalize e.effects = effects at advance seen
    cases advance with
    | started _ _ going =>
      rw [halted] at going
      cases going
    | returned _ onward =>
      cases onward with
      | called =>
        cases List.mem_singleton.1 seen
        rfl
      | pending | handled => simp at seen
    | retried => exact absurd action (none e he _)
    | _ => simp at seen

/-! ## 5. Messages that wait for their acknowledgement -/

/-- The message waits for its acknowledgement, and none has arrived. -/
def Unanswered (r : Run F) (n : Nat) : Prop :=
  ∃ t ∈ r.tasks, t.sequence = n ∧ t.stage = .awaitingAck ∧ t.ack.answer? = none

/-- In this step the side that waits notices that the message was acked. -/
def Entry.NoticesAck (e : Entry F) (n : Nat) : Prop :=
  e.action = .resume n ∧ ∃ t, e.before.task? n = some t ∧ t.ack.answer? = some .acked

/-- A message that waits stays so or goes, until its acknowledgement is noticed. -/
theorem Transition.unnoticed (made : Transition s r a r' effects) (hn : Numbered h r)
    (known : n < (dispatched h).length) (halted : r.isHalted = true)
    (waits : ∀ t ∈ r.tasks, t.sequence = n → t.stage = .awaitingAck)
    (unnoticed : ¬ (⟨r, a, r', effects⟩ : Entry F).NoticesAck n) :
    (∀ u ∈ r'.tasks, u.sequence = n → u.stage = .awaitingAck) ∧
      ∀ cause, Effect.confirmed n cause ∉ effects := by
  have stays {t u : Task F} (task : r.task? t.sequence = some t) (number : t.sequence = n)
      (advance : Advance s r t a u effects) : u.stage = .awaitingAck ∧
        ∀ cause, Effect.confirmed n cause ∉ effects := by
    have stage := waits t (mem_of_task? task).1 number
    cases advance with
    | started other | returned other | backedOff other | retried other | recovered other =>
      cases stage.symm.trans other
    | recovering _ going =>
      rw [halted] at going
      cases going
    | ackTaken | ackSettled => exact ⟨stage, by simp⟩
    | acknowledged _ known => exact absurd ⟨number ▸ rfl, t, number ▸ task, known⟩ unnoticed
  constructor
  · rintro u hu number
    rcases made.arises hu with hold | arises
    · exact waits u hold number
    · cases arises with
      | advanced task advance =>
        exact (stays task ((congrArg (·.sequence) advance.position_eq).symm.trans number) advance).1
      | asked task stage => cases (waits _ (mem_of_task? task).1 number).symm.trans stage
      | delivered here fresh =>
        have := fresh.symm.trans number
        have := hn.cursor _ here
        omega
  · intro cause seen
    obtain ⟨t, u, task, number, advance, -⟩ := made.treats seen rfl
    exact (stays task number advance).2 cause seen

theorem unnoticed_later (past : History s before r₀) (hist : History s (before ++ later) r)
    (dropped : r₀.isDropped = true) (waits : Unanswered r₀ n)
    (unnoticed : ∀ e ∈ later, ¬ e.NoticesAck n) :
    (∀ t ∈ r.tasks, t.sequence = n → t.stage = .awaitingAck) ∧
      ∀ cause, Effect.confirmed n cause ∉ trace later := by
  obtain ⟨t₀, ht₀, rfl, stage, -⟩ := waits
  refine later_induction
    (motive := fun later r => (∀ e ∈ later, ¬ e.NoticesAck t₀.sequence) →
      (∀ t ∈ r.tasks, t.sequence = t₀.sequence → t.stage = .awaitingAck) ∧
        ∀ cause, Effect.confirmed t₀.sequence cause ∉ trace later)
    past hist (fun _ => ⟨?_, by simp [trace]⟩)
    (fun {later r r' a effects} hist made ih unnoticed => ?_) unnoticed
  · intro t ht number
    rw [(numbered past).task_eq_of_sequence ht ht₀ number]
    exact stage
  · obtain ⟨waits, unconfirmed⟩ := ih fun e he => unnoticed e (List.mem_append_left _ he)
    have known : t₀.sequence < (dispatched (before ++ later)).length :=
      Nat.lt_of_lt_of_le ((numbered past).task_sequence_lt ht₀) (length_dispatched_le before later)
    have halted : r.isHalted = true := by simp [isHalted, isDropped_later past hist dropped]
    obtain ⟨waits', none⟩ := (transition_of_step made).unnoticed (numbered hist) known halted waits
      (unnoticed _ (List.mem_append_right _ (List.mem_singleton_self _)))
    refine ⟨waits', fun cause seen => ?_⟩
    rcases mem_trace_snoc.1 seen with old | new
    · exact unconfirmed cause old
    · exact none cause new

/-- A message that waits is let go after a drop, unless its acknowledgement is noticed and the drop
is not. -/
theorem acks_later (past : History s before r₀) (hist : History s (before ++ later) r)
    (dropped : r₀.isDropped = true) (waits : Unanswered r₀ n) :
    (∀ cause, Effect.confirmed n cause ∉ trace (before ++ later)) ↔
      ∀ e ∈ later, ¬ e.NoticesAck n := by
  constructor
  · rintro unconfirmed e he ⟨action, t, task, acked⟩
    obtain ⟨-, -, -, made⟩ := step_later past hist dropped he
    rw [action, step_resume, task, Option.bind_some, acked] at made
    obtain ⟨-, moved⟩ := Option.ite_none_right_eq_some.1 made
    have seen : Effect.confirmed n .acknowledged ∈ e.effects := by
      obtain ⟨-, rfl⟩ := mem_of_task? task
      rw [← (Prod.mk.inj (Option.some.inj moved)).2]
      exact List.mem_singleton_self _
    refine unconfirmed .acknowledged ?_
    rw [trace_append]
    exact List.mem_append_right _ (List.mem_flatMap.2 ⟨e, he, seen⟩)
  · intro unnoticed cause seen
    rw [trace_append] at seen
    rcases List.mem_append.1 seen with old | new
    · obtain ⟨t, ht, rfl, stage, -⟩ := waits
      exact (recorded past).unconfirmed t ht (by simp [stage, Settled]) cause old
    · exact (unnoticed_later past hist dropped waits unnoticed).2 cause new

/-! ## 6. The fence -/

/-- The calls going on at a drop end by themselves, and the run does not end before. -/
theorem calls_later (past : History s before r₀) (hist : History s (before ++ later) r)
    {attempt : Attempt} (call : InCall n attempt r₀) :
    (∃ e ∈ later, e.EndsCall n attempt) ∨ InCall n attempt r ∧ ¬ r.phase.IsOver := by
  have goes : (∃ e ∈ later, e.EndsCall n attempt) ∨ InCall n attempt r := by
    refine later_induction
      (motive := fun later r => (∃ e ∈ later, e.EndsCall n attempt) ∨ InCall n attempt r)
      past hist (.inr call) fun hist made ih => ?_
    rcases ih with ⟨e, he, ends⟩ | call
    · exact .inl ⟨e, List.mem_append_left _ he, ends⟩
    · exact (call.step hist (transition_of_step made)).imp_left fun ends =>
        ⟨_, List.mem_append_right _ (List.mem_singleton_self _), ends⟩
  refine goes.imp_right fun call => ⟨call, fun hover => ?_⟩
  obtain ⟨t, ht, -⟩ := call
  rw [(winding hist).empty hover] at ht
  cases ht

/-- What happens in the steps `later` of a run that `r₀` was dropped at. -/
structure AfterDrop (s : Subscription F) (before later : List (Entry F)) (r₀ r : Run F) : Prop where
  /-- A message nobody had taken up is neither shown to a handler nor confirmed. -/
  untreated : ∀ n, ¬ Begun before n → ∀ x ∈ trace (before ++ later), x.treats? ≠ some n
  /-- No message is given to the handler of failed messages. -/
  unoffered : ∀ m error, Effect.recovering m error ∉ trace later
  /-- An attempt is repeated only where its delay is taken to be over instead of the run. -/
  retries : (∀ handler m, Effect.called handler m ∈ trace later → m.retryCount = 0) ↔
    ∀ e ∈ later, ∀ n, e.action ≠ .retry n
  /-- A message that waited in vain is confirmed only where its acknowledgement is noticed instead
  of the drop. -/
  acks : ∀ n, Unanswered r₀ n →
    ((∀ cause, Effect.confirmed n cause ∉ trace (before ++ later)) ↔ ∀ e ∈ later, ¬ e.NoticesAck n)
  /-- A call that was going on comes to its end, before the last checkpoint is forced. -/
  calls : ∀ n attempt, InCall n attempt r₀ →
    (∃ e ∈ later, e.EndsCall n attempt) ∨ InCall n attempt r ∧ ¬ r.phase.IsOver
  /-- If all handlers are done with the message then, it is confirmed. -/
  confirmed : ∀ n attempt, InCall n attempt r₀ → ∀ status, Handled s (before ++ later) n status →
    status ≠ .pending → Effect.confirmed n .handled ∈ trace (before ++ later)
  /-- What is confirmed counts for the last checkpoint, when the store takes all of them. -/
  flushed : Served (before ++ later) → ∀ result, r.phase = .finished result →
    ∃ count, LastCheckpoint s (before ++ later) count
  /-- The run ends on the error it was dropped with, which is the first one. -/
  result : ∀ result, r.phase = .finished result →
    ∃ e, r₀.failure = some e ∧ (errors (before ++ later)).head? = some e ∧ result = .error e

/-- **A drop is a fence but for two openings.**  After a drop, by whomever and whatever else goes
on, nothing new is begun and what was going on counts to the end, except that the delay before
another attempt and an acknowledgement that comes may be taken for what was waited for although the
run is dropped. -/
theorem after_drop (past : History s before r₀) (hist : History s (before ++ later) r)
    (dropped : r₀.isDropped = true) : AfterDrop s before later r₀ r where
  untreated := fun _ idle => untreated_later past hist dropped idle
  unoffered := unoffered_later past hist dropped
  retries := retries_later past hist dropped
  acks := fun _ waits => acks_later past hist dropped waits
  calls := fun _ _ call => calls_later past hist call
  confirmed := by
    rintro n attempt ⟨t, ht, rfl, status, stage⟩ status' handled done
    have holds : StageHolds s before t.sequence (.calling attempt status) :=
      stage ▸ (grounded past t ht).stage
    exact confirmed_of_handled hist (Nat.lt_of_le_of_lt (Nat.zero_le _) holds.1) handled done
  flushed := fun served _ finished => lastCheckpoint hist served finished
  result := by
    intro result finished
    obtain ⟨e, failed⟩ := Option.isSome_iff_exists.1 dropped
    have kept := failure_kept past hist failed
    refine ⟨e, failed, (failure_eq hist).symm.trans kept, ?_⟩
    rcases result_of_finished hist finished with rfl | ⟨none, -⟩
    · rw [verdict, kept]
    · rw [kept] at none
      cases none

section Runs

open Sample

/-- Ticks for one handler that may try twice, and handles four at a time. -/
def fourTicks : Subscription ticks :=
  { tickFeed none with
    options := { id := "feed", mode := .concurrent 4, retry := { maxRetries := 1 } } }

/-- Four ticks come to the handler: the first one stays with it, the second one is left pending, the
third one fails, and the handler breaks down with the fourth. -/
def untilDrop : List Action :=
  [.subscribe, .checkpointLoaded (.ok ⟨"feed", none⟩),
    .pageRead (.ok [tick 0, tick 1, tick 2, tick 3]), .deliver, .deliver, .deliver, .deliver,
    .start 0, .start 1, .start 2, .start 3, .takeAck 1 ⟨0, 0⟩,
    .attemptEnded 1 (.returned .pending), .attemptEnded 2 (.failed (.failed "no")),
    .attemptEnded 3 (.panicked none)]

/-- The error the run is dropped with. -/
def breakdown : SubscriptionError := .handlerPanicked "counter" (.ofNat 3) "unknown panic"

/-- The run as it is when it was dropped. -/
def atDrop : Run ticks where
  phase := .reading { after := some 3, sequence := 4 }
  failure := some breakdown
  tasks := [
    { message := .ofEvent "feed" (tick 0) 0 0 ⟨(), ()⟩
      lane := none
      stage := .calling ⟨0, 0⟩ .ignored
      ack := .armed },
    { message := .ofEvent "feed" (tick 1) 1 1 ⟨(), ()⟩
      lane := none
      stage := .awaitingAck
      holder := .acknowledgement
      ack := .taken ⟨0, 0⟩ },
    { message := { Message.ofEvent "feed" (tick 2) 2 2 ⟨(), ()⟩ with retryCount := 1 }
      lane := none
      stage := .backingOff ⟨0, 1⟩ .ignored (.failed "no")
      ack := .armed }]

theorem history_atDrop : ∃ h : List (Entry ticks), History fourTicks h atDrop := by
  obtain ⟨h, hist, -⟩ := history_of_replay?
    (show replay? fourTicks {} untilDrop = some (atDrop, _) from rfl)
  exact ⟨h, hist⟩

/-- The steps in which the drop is noticed everywhere: the first tick is dealt with, and the others
are let go. -/
def noticed : List Action :=
  [.attemptEnded 0 (.returned .success), .confirm 0, .stored 0 (.ok ()), .giveUp 2, .abandon 1,
    .interrupt, .halt, .flush, .flushed (.ok ())]

/-- The tick that was with the handler is confirmed and counts for the last checkpoint. -/
theorem first_tick_counts_after_drop : ∃ (before later : List (Entry ticks)) (r : Run ticks),
    AfterDrop fourTicks before later atDrop r ∧ InCall 0 ⟨0, 0⟩ atDrop ∧ Unanswered atDrop 1 ∧
      later.map (·.action) = noticed ∧ r.phase = .finished (.error breakdown) ∧
      Effect.storing (fourTicks.checkpoint 0) true ∈ trace later := by
  obtain ⟨before, past⟩ := history_atDrop
  obtain ⟨later, hist, actions, htrace⟩ :=
    history_append_replay? past (show replay? fourTicks atDrop noticed = some (_, _) from rfl)
  refine ⟨before, later, _, after_drop past hist rfl, ?_, ?_, actions, rfl, ?_⟩
  · exact ⟨_, List.mem_cons_self, rfl, _, rfl⟩
  · exact ⟨_, List.mem_cons_of_mem _ List.mem_cons_self, rfl, rfl, rfl⟩
  · rw [htrace]
    exact List.mem_of_getElem? (i := 5) rfl

/-- **The fence is open in two places.**  After the drop the second tick is confirmed, whose
acknowledgement came later, and the handler is called for the third one again. -/
theorem fence_has_two_openings : ∃ (before later : List (Entry ticks)) (r : Run ticks),
    History fourTicks before atDrop ∧ History fourTicks (before ++ later) r ∧
      atDrop.isDropped = true ∧
      (Unanswered atDrop 1 ∧ Effect.confirmed 1 .acknowledged ∈ trace later) ∧
      ∃ m, Effect.called 0 m ∈ trace later ∧ m.sequence = 2 ∧ m.retryCount = 1 := by
  obtain ⟨before, past⟩ := history_atDrop
  obtain ⟨later, hist, -, htrace⟩ := history_append_replay? past
    (show replay? fourTicks atDrop [.settleAck 1 .acked, .resume 1, .retry 2] =
      some (_, _) from rfl)
  refine ⟨before, later, _, past, hist, rfl, ⟨?_, ?_⟩, ?_⟩
  · exact ⟨_, List.mem_cons_of_mem _ List.mem_cons_self, rfl, rfl, rfl⟩
  · rw [htrace]
    exact List.mem_of_getElem? (i := 0) rfl
  · rw [htrace]
    exact ⟨_, List.mem_of_getElem? (i := 1) rfl, rfl, rfl⟩

end Runs

end Run
end EventSourcing

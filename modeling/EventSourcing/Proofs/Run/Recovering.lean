/-
# The handler of failed messages

A message that failed is given to the handler of failed messages, and this is the last thing that is
tried with it.  It comes there from its handlers, when one of them has used up its attempts, or from
the side that waits for its acknowledgement, when that was refused.  A task goes only one of these
two ways, and it goes there with a message that is not confirmed; from then on the answer of the
handler of failed messages alone decides.

What the file settles:

* `attempts`, `Counted`: the attempts of a handler are numbered from zero and every one before the
  last has failed;
* `Offered`, `Parked`: a message that was given to the handler of failed messages stays with it
  until it answers;
* `rescued_of_confirmed`, `confirmed_of_rescued`: it is confirmed from then on exactly if it was
  taken;
* `failure_path`: when the handler of failed messages is called, and what its answer does, in every
  history.
-/
import EventSourcing.Proofs.Run.Acknowledging
import EventSourcing.Proofs.Run.Committing
import EventSourcing.Proofs.Run.Lanes
import EventSourcing.Proofs.Run.Verdict

namespace EventSourcing
namespace Run

variable {F : PayloadFamily} {s : Subscription F} {r r' : Run F} {a : Action}
  {effects : List (Effect F)} {h : List (Entry F)} {n handler : Nat}

/-! ## 1. The attempts of a handler -/

/-- The number of the attempt, if the effect calls this handler for the message. -/
def Effect.attempt? (n handler : Nat) : Effect F → Option Nat
  | .called i m => if m.sequence = n ∧ i = handler then some m.retryCount else none
  | _ => none

/-- The attempts of a handler at a message, by their numbers, in the order they were made. -/
def attempts (h : List (Entry F)) (n handler : Nat) : List Nat :=
  (trace h).filterMap (Effect.attempt? n handler)

/-- In this step the attempt comes to a bad end. -/
def Entry.FailsAttempt (s : Subscription F) (e : Entry F) (n : Nat) (attempt : Attempt)
    (error : HandlerError) : Prop :=
  ∃ outcome, e.action = .attemptEnded n outcome ∧ AttemptFails s outcome error ∧
    ∃ t status, e.before.task? n = some t ∧ t.stage = .calling attempt status

/-- The first `count` attempts of the handler at the message have failed. -/
def AllFailed (s : Subscription F) (h : List (Entry F)) (n handler count : Nat) : Prop :=
  ∀ retry < count, ∃ e ∈ h, ∃ error, e.FailsAttempt s n ⟨handler, retry⟩ error

/-- A handler has made all the attempts it may make at the message; all have failed, the last one
with this error. -/
def Exhausted (s : Subscription F) (h : List (Entry F)) (n : Nat) (error : HandlerError) : Prop :=
  ∃ handler, attempts h n handler = List.range (s.options.retry.maxRetries + 1) ∧
    AllFailed s h n handler s.options.retry.maxRetries ∧
    ∃ e ∈ h, e.FailsAttempt s n ⟨handler, s.options.retry.maxRetries⟩ error

theorem attempts_snoc (h : List (Entry F)) (e : Entry F) (n handler : Nat) :
    attempts (h ++ [e]) n handler =
      attempts h n handler ++ e.effects.filterMap (Effect.attempt? n handler) := by
  simp [attempts, trace]

/-- No handler is called for the message. -/
def NoCall (effects : List (Effect F)) (n : Nat) : Prop :=
  ∀ handler m, Effect.called handler m ∈ effects → m.sequence ≠ n

theorem NoCall.attempts_snoc {e : Entry F} (none : NoCall e.effects n) (handler : Nat) :
    attempts (h ++ [e]) n handler = attempts h n handler := by
  rw [Run.attempts_snoc, List.filterMap_eq_nil_iff.2, List.append_nil]
  intro x hx
  cases x with
  | called i m =>
    refine if_neg fun about => ?_
    exact none i m hx about.1
  | _ => rfl

theorem AllFailed.mono {count : Nat} (failed : AllFailed s h n handler count)
    (h' : List (Entry F)) : AllFailed s (h ++ h') n handler count := by
  intro retry within
  obtain ⟨e, he, fails⟩ := failed retry within
  exact ⟨e, List.mem_append_left h' he, fails⟩

/-- One more attempt has failed. -/
theorem AllFailed.succ {count : Nat} {error : HandlerError} {e : Entry F}
    (failed : AllFailed s h n handler count) (fails : e.FailsAttempt s n ⟨handler, count⟩ error) :
    AllFailed s (h ++ [e]) n handler (count + 1) := by
  intro retry within
  rcases Nat.lt_succ_iff_lt_or_eq.1 within with before | rfl
  · exact failed.mono [e] retry before
  · exact ⟨e, List.mem_append_right h (List.mem_singleton_self e), error, fails⟩

/-- What the stage says about the attempts at the message with number `n`. -/
def StageCounts (s : Subscription F) (h : List (Entry F)) (n : Nat) : Stage → Prop
  | .queued => ∀ handler, attempts h n handler = []
  | .calling now _ =>
    now.retry ≤ s.options.retry.maxRetries ∧ attempts h n now.handler = List.range (now.retry + 1) ∧
      AllFailed s h n now.handler now.retry ∧
      ∀ handler, now.handler < handler → attempts h n handler = []
  | .backingOff next _ _ =>
    next.retry ≤ s.options.retry.maxRetries ∧ attempts h n next.handler = List.range next.retry ∧
      AllFailed s h n next.handler next.retry ∧
      ∀ handler, next.handler < handler → attempts h n handler = []
  | _ => True

/-- The attempts at a message that is with its handlers are those its stage says. -/
structure Counted (s : Subscription F) (h : List (Entry F)) (r : Run F) : Prop where
  fresh : ∀ n, (dispatched h).length ≤ n → ∀ handler, attempts h n handler = []
  stage : ∀ t ∈ r.tasks, StageCounts s h t.sequence t.stage

theorem StageCounts.kept {stage : Stage} (counts : StageCounts s h n stage) {e : Entry F}
    (none : NoCall e.effects n) : StageCounts s (h ++ [e]) n stage := by
  cases stage with
  | queued => exact fun handler => (none.attempts_snoc handler).trans (counts handler)
  | calling | backingOff =>
    obtain ⟨within, made, failed, later⟩ := counts
    refine ⟨within, (none.attempts_snoc _).trans made, failed.mono _, fun handler behind => ?_⟩
    exact (none.attempts_snoc handler).trans (later handler behind)
  | _ => trivial

theorem StageCounts.of_late {stage : Stage} (late : Late stage) : StageCounts s h n stage := by
  cases stage with
  | queued | calling | backingOff => exact late.elim
  | _ => trivial

/-- The message of a task that calls a handler now is counted with one more attempt. -/
theorem StageCounts.called {attempt : Attempt} {status : HandlingStatus}
    {m : Message F} {e : Entry F} (within : attempt.retry ≤ s.options.retry.maxRetries)
    (made : attempts h n attempt.handler = List.range attempt.retry)
    (failed : AllFailed s h n attempt.handler attempt.retry)
    (later : ∀ handler, attempt.handler < handler → attempts h n handler = [])
    (calls : e.effects = [.called attempt.handler m])
    (number : m.sequence = n) (retry : m.retryCount = attempt.retry) :
    StageCounts s (h ++ [e]) n (.calling attempt status) := by
  refine ⟨within, ?_, failed.mono _, fun handler behind => ?_⟩
  · rw [attempts_snoc, calls, made, List.range_succ]
    simp [Effect.attempt?, number, retry]
  · rw [attempts_snoc, calls, later handler behind]
    simp [Effect.attempt?, Nat.ne_of_lt behind]

theorem Onward.counts {t u : Task F} {count : Nat} {status : HandlingStatus} {e : Entry F}
    (onward : Onward s t count status u e.effects)
    (untried : ∀ handler, count ≤ handler → attempts h t.sequence handler = []) :
    StageCounts s (h ++ [e]) t.sequence u.stage := by
  rcases onward.stage_cases with stage | late
  · generalize heffects : e.effects = effects at onward
    cases onward with
    | called more =>
      refine .called (Nat.zero_le _) (untried count (Nat.le_refl _))
        (fun _ hlt => absurd hlt (Nat.not_lt_zero _)) ?_ heffects rfl rfl
      exact fun handler behind => untried handler (Nat.le_of_lt behind)
    | pending | handled => cases stage
  · exact .of_late late

theorem Advance.counts {t u : Task F} (advance : Advance s r t a u effects)
    (task : r.task? t.sequence = some t) (counts : StageCounts s h t.sequence t.stage) :
    StageCounts s (h ++ [⟨r, a, r', effects⟩]) t.sequence u.stage := by
  have quiet (none : effects = []) : NoCall (⟨r, a, r', effects⟩ : Entry F).effects t.sequence := by
    subst none
    exact fun _ _ hm => absurd hm List.not_mem_nil
  cases advance with
  | started stage _ _ onward =>
    rw [stage] at counts
    exact onward.counts (e := ⟨r, _, r', effects⟩) fun handler _ => counts handler
  | @returned attempt _ _ _ _ stage onward =>
    rw [stage] at counts
    exact onward.counts (e := ⟨r, _, r', effects⟩) fun handler hle => counts.2.2.2 handler hle
  | @backedOff attempt status outcome error stage ends more =>
    rw [stage] at counts
    obtain ⟨-, made, failed, later⟩ := counts
    have none : NoCall (⟨r, .attemptEnded t.sequence outcome, r',
        [.backedOff t.sequence (s.options.retry.delayFor (attempt.retry + 1))]⟩ : Entry F).effects
        t.sequence := by
      simp [NoCall]
    refine ⟨more, (none.attempts_snoc _).trans made, ?_, fun handler behind => ?_⟩
    · exact failed.succ ⟨outcome, rfl, ends, t, status, task, stage⟩
    · exact (none.attempts_snoc handler).trans (later handler behind)
  | retried stage =>
    rw [stage] at counts
    obtain ⟨within, made, failed, later⟩ := counts
    exact .called within made failed later rfl rfl rfl
  | ackTaken | ackSettled => exact counts.kept (quiet rfl)
  | recovering | acknowledged | recovered => trivial

/-- Whoever calls a handler for a message puts its task in place. -/
theorem Transition.calls_or_not (made : Transition s r a r' effects) (n : Nat) :
    NoCall effects n ∨ ∃ t u, t.sequence = n ∧ r.task? n = some t ∧ Advance s r t a u effects ∧
        r' = r.put u := by
  by_cases called : ∃ handler m, Effect.called handler m ∈ effects ∧ m.sequence = n
  · obtain ⟨handler, m, seen, rfl⟩ := called
    obtain ⟨t, u, task, advance, hrun⟩ := made.goes_on seen trivial
    have number := (advance.calls seen).1
    exact .inr ⟨t, u, number.symm, number ▸ task, advance, hrun⟩
  · exact .inl fun handler m seen number => called ⟨handler, m, seen, number⟩

theorem Counted.step (hc : Counted s h r) (hn : Numbered h r) (made : Transition s r a r' effects) :
    Counted s (h ++ [⟨r, a, r', effects⟩]) r' := by
  constructor
  case fresh =>
    intro n unknown handler
    have hgrows : (dispatched h).length ≤ (dispatched (h ++ [⟨r, a, r', effects⟩])).length := by
      simp
    rcases made.calls_or_not n with none | ⟨t, u, rfl, task, -⟩
    · exact (NoCall.attempts_snoc none handler).trans
        (hc.fresh n (Nat.le_trans hgrows unknown) handler)
    · have := hn.task_sequence_lt (mem_of_task? task).1
      omega
  case stage =>
    intro u hu
    rcases made.calls_or_not u.sequence with none | ⟨t, v, number, task, advance, rfl⟩
    · rcases made.arises hu with hold | arises
      · exact (hc.stage u hold).kept none
      · cases arises with
        | @advanced t _ _ _ task advance =>
          rw [show u.sequence = t.sequence from congrArg (·.sequence) advance.position_eq]
          exact advance.counts task (hc.stage t (mem_of_task? task).1)
        | asked => trivial
        | delivered here number =>
          intro handler
          rw [NoCall.attempts_snoc none]
          exact hc.fresh _ (Nat.le_of_eq ((hn.cursor _ here).symm.trans number.symm)) handler
    · rw [← number] at task ⊢
      cases eq_of_mem_put task advance.position_eq hu number.symm
      exact advance.counts task (hc.stage t (mem_of_task? task).1)

theorem counted (hist : History s h r) : Counted s h r := by
  induction hist with
  | begin => exact ⟨fun _ _ _ => rfl, by simp⟩
  | step past made ih => exact ih.step (numbered past) (transition_of_step made)

/-! ## 2. Messages with the handler of failed messages -/

/-- The message was given to the handler of failed messages. -/
def Offered (h : List (Entry F)) (n : Nat) : Prop :=
  ∃ m error, Effect.recovering m error ∈ trace h ∧ m.sequence = n

/-- Whether the effect gives the message to the handler of failed messages. -/
def Effect.isOffer (n : Nat) : Effect F → Bool
  | .recovering m _ => m.sequence == n
  | _ => false

/-- How often the message was given to the handler of failed messages. -/
def offers (h : List (Entry F)) (n : Nat) : Nat := (trace h).countP (·.isOffer n)

/-- The handler of failed messages has answered for the message. -/
def Answered (h : List (Entry F)) (n : Nat) : Prop :=
  ∃ e ∈ h, ∃ reply, e.action = .recovered n reply

/-- A message that was given to the handler of failed messages is there, or is dealt with, or is
gone. -/
structure Parked (h : List (Entry F)) (r : Run F) : Prop where
  known : ∀ n, Offered h n → n < (dispatched h).length
  stage : ∀ t ∈ r.tasks, Offered h t.sequence →
    (∃ error, t.stage = .recovering error) ∨ Settled t.stage
  message : ∀ t ∈ r.tasks, ∀ error, t.stage = .recovering error →
    Effect.recovering t.message error ∈ trace h
  answered : ∀ t ∈ r.tasks, Answered h t.sequence → Settled t.stage
  answerKnown : ∀ n, Answered h n → n < (dispatched h).length

theorem offered_snoc {e : Entry F} : Offered (h ++ [e]) n ↔ Offered h n ∨
    ∃ m error, Effect.recovering m error ∈ e.effects ∧ m.sequence = n := by
  simp only [Offered, mem_trace_snoc, or_and_right, exists_or]

theorem Offered.mono (offered : Offered h n) (h' : List (Entry F)) : Offered (h ++ h') n := by
  obtain ⟨m, error, seen, number⟩ := offered
  exact ⟨m, error, by simp [seen], number⟩

theorem answered_snoc {e : Entry F} :
    Answered (h ++ [e]) n ↔ Answered h n ∨ ∃ reply, e.action = .recovered n reply := by
  simp [Answered, or_and_right, exists_or]

theorem offers_snoc (h : List (Entry F)) (e : Entry F) (n : Nat) :
    offers (h ++ [e]) n = offers h n + e.effects.countP (·.isOffer n) := by
  simp [offers, trace]

theorem offers_eq_zero (untouched : ¬ Offered h n) : offers h n = 0 := by
  refine List.countP_eq_zero.2 fun x hx => ?_
  cases x with
  | recovering m error =>
    simpa [Effect.isOffer] using fun number => untouched ⟨m, error, hx, number⟩
  | _ => simp [Effect.isOffer]

/-- A message is given away by its handlers or by the side that waits, and by nobody else. -/
theorem Fails.early {t u : Task F} {name : String}
    {error : HandlerError} (fails : Fails s t a name error u) :
    ¬ ((∃ error, t.stage = .recovering error) ∨ Settled t.stage) := by
  cases fails with
  | exhausted stage | refused stage => simp [stage, Settled]

/-- A message that is with the handler of failed messages, or dealt with, stays so. -/
theorem Advance.parked {t u : Task F} (advance : Advance s r t a u effects)
    (parked : (∃ error, t.stage = .recovering error) ∨ Settled t.stage) :
    (∃ error, u.stage = .recovering error) ∨ Settled u.stage := by
  rcases parked with ⟨error, stage⟩ | settled
  · cases advance with
    | started other | returned other | backedOff other | retried other | acknowledged other =>
      cases stage.symm.trans other
    | recovering fails => exact (fails.early (.inl ⟨error, stage⟩)).elim
    | ackTaken | ackSettled => exact .inl ⟨error, stage⟩
    | recovered => exact .inr trivial
  · exact .inr (advance.settled settled)

/-- Where a task comes from that is with the handler of failed messages. -/
theorem Advance.message_of_recovering {t u : Task F} (advance : Advance s r t a u effects)
    {error : HandlerError} (stage : u.stage = .recovering error) :
    Effect.recovering u.message error ∈ effects ∨
      t.stage = .recovering error ∧ t.message = u.message := by
  cases advance with
  | started _ _ _ onward | returned _ onward =>
    rcases onward.stage_cases with calling | late
    · cases stage.symm.trans calling
    · cases onward <;> cases stage
  | recovering fails =>
    cases stage
    exact .inl (List.mem_singleton_self _)
  | ackTaken | ackSettled => exact .inr ⟨stage, rfl⟩
  | backedOff | retried | acknowledged | recovered => cases stage

/-- The handler of failed messages answers to the task that is with it. -/
theorem step_recovered {reply : Reply HandlerError Unit}
    (made : step s r (.recovered n reply) = some (r', effects)) :
    ∃ t error name, r.task? n = some t ∧ t.stage = .recovering error ∧
      s.failureHandler = some name ∧
      recovered r t name reply = (r', effects) := by
  obtain ⟨t, task, moved⟩ := Option.bind_eq_some_iff.1 made
  cases stage : t.stage <;> simp only [taskStep, stage, reduceCtorEq] at moved
  obtain ⟨name, rescue, moved⟩ := Option.map_eq_some_iff.1 moved
  exact ⟨t, _, name, task, stage, rescue, moved⟩

/-- What is left of the message after an answer is a task that is dealt with. -/
theorem settled_of_answer_made {reply : Reply HandlerError Unit}
    (made : step s r (.recovered n reply) = some (r', effects)) :
    ∀ u ∈ r'.tasks, u.sequence = n → Settled u.stage := by
  obtain ⟨t, error, name, task, stage, -, moved⟩ := step_recovered made
  obtain ⟨ht, rfl⟩ := mem_of_task? task
  intro u hu number
  cases reply with
  | ok value =>
    cases moved
    cases eq_of_mem_put (u := { t with stage := .confirming }) task rfl hu number
    trivial
  | failed failure =>
    cases moved
    have := List.of_mem_filter hu
    simp [number] at this
  | panicked =>
    obtain ⟨gone, lanes, hrun, hgone, -⟩ := loseWorker_spec r t
    rw [show r' = (loseWorker r t).1 from congrArg (·.1) moved.symm, hrun] at hu
    have := List.of_mem_filter hu
    simp [(hgone u).2 (.inl number)] at this

namespace Parked

theorem step_stage (hp : Parked h r) (hn : Numbered h r) (made : Transition s r a r' effects)
    {u : Task F} (hu : u ∈ r'.tasks) (offered : Offered (h ++ [⟨r, a, r', effects⟩]) u.sequence) :
    (∃ error, u.stage = .recovering error) ∨ Settled u.stage := by
  rcases offered_snoc.1 offered with old | ⟨m, error, seen, number⟩
  · rcases made.arises hu with hold | arises
    · exact hp.stage u hold old
    · cases arises with
      | @advanced t _ _ _ task advance =>
        rw [show u.sequence = t.sequence from congrArg (·.sequence) advance.position_eq] at old
        exact advance.parked (hp.stage t (mem_of_task? task).1 old)
      | asked => exact .inr trivial
      | delivered here number =>
        exact absurd (number.trans (hn.cursor _ here)) (Nat.ne_of_lt (hp.known _ old))
  · obtain ⟨t, v, name, task, fails, rfl, rfl, -⟩ := made.hands_over seen
    cases eq_of_mem_put (u := { v with stage := .recovering error }) task
      (congrArg (·.position) fails.message_eq) hu number.symm
    exact .inl ⟨error, rfl⟩

theorem step_message (hp : Parked h r) (made : Transition s r a r' effects) {u : Task F}
    (hu : u ∈ r'.tasks) {error : HandlerError} (stage : u.stage = .recovering error) :
    Effect.recovering u.message error ∈ trace (h ++ [⟨r, a, r', effects⟩]) := by
  rw [mem_trace_snoc]
  rcases made.arises hu with hold | arises
  · exact .inl (hp.message u hold error stage)
  · cases arises with
    | @advanced t _ _ _ task advance =>
      rcases advance.message_of_recovering stage with seen | ⟨before, same⟩
      · exact .inr seen
      · exact .inl (same ▸ hp.message t (mem_of_task? task).1 error before)
    | asked | delivered => cases stage

theorem step_answered (hp : Parked h r) (hn : Numbered h r) (made : step s r a = some (r', effects))
    {u : Task F} (hu : u ∈ r'.tasks) (answered : Answered (h ++ [⟨r, a, r', effects⟩]) u.sequence) :
    Settled u.stage := by
  rcases answered_snoc.1 answered with old | ⟨reply, action⟩
  · by_contra unsettled
    rcases (transition_of_step made).unsettled_before hn hu unsettled
      with ⟨t, ht, number, unsettled⟩ | number
    · exact unsettled (hp.answered t ht (number ▸ old))
    · have := hp.answerKnown _ old
      omega
  · dsimp only at action
    subst action
    exact settled_of_answer_made made u hu rfl

theorem step (hp : Parked h r) (hn : Numbered h r) (made : step s r a = some (r', effects)) :
    Parked (h ++ [⟨r, a, r', effects⟩]) r' := by
  have made' := transition_of_step made
  have hgrows : (dispatched h).length ≤ (dispatched (h ++ [⟨r, a, r', effects⟩])).length := by simp
  have ofTask {n : Nat} {t : Task F} (task : r.task? n = some t) : n < (dispatched h).length := by
    obtain ⟨ht, rfl⟩ := mem_of_task? task
    exact hn.task_sequence_lt ht
  constructor
  case stage => exact fun u hu => hp.step_stage hn made' hu
  case message => exact fun u hu error => hp.step_message made' hu
  case answered => exact fun u hu => hp.step_answered hn made hu
  case known =>
    intro n offered
    refine Nat.lt_of_lt_of_le ?_ hgrows
    rcases offered_snoc.1 offered with old | ⟨m, error, seen, rfl⟩
    · exact hp.known n old
    · obtain ⟨t, u, name, task, -, -, rfl, -⟩ := made'.hands_over seen
      exact ofTask task
  case answerKnown =>
    intro n answered
    refine Nat.lt_of_lt_of_le ?_ hgrows
    rcases answered_snoc.1 answered with old | ⟨reply, action⟩
    · exact hp.answerKnown n old
    · dsimp only at action
      subst action
      obtain ⟨t, error, name, task, -⟩ := step_recovered made
      exact ofTask task

end Parked

theorem parked (hist : History s h r) : Parked h r := by
  induction hist with
  | begin => exact ⟨by simp [Offered, trace], by simp, by simp, by simp, by simp [Answered]⟩
  | step past made ih => exact ih.step (numbered past) made

/-! ## 3. Called once, answered once -/

/-- The first offer of a message finds it untouched, so there is no second one. -/
theorem offers_le_one (hist : History s h r) (n : Nat) : offers h n ≤ 1 := by
  induction hist with
  | begin => exact Nat.zero_le 1
  | @step h r r' a effects past made ih =>
    rw [offers_snoc]
    by_cases seen : ∃ m error, Effect.recovering m error ∈ effects ∧ m.sequence = n
    · obtain ⟨m, error, seen, rfl⟩ := seen
      obtain ⟨t, u, name, task, fails, -, rfl, rfl, -⟩ := (transition_of_step made).hands_over seen
      have untouched : ¬ Offered h t.sequence := fun offered =>
        fails.early ((parked past).stage t (mem_of_task? task).1 offered)
      simp [offers_eq_zero untouched, Effect.isOffer]
    · have none : effects.countP (·.isOffer n) = 0 := by
        refine List.countP_eq_zero.2 fun x hx => ?_
        cases x with
        | recovering m error =>
          simpa [Effect.isOffer] using fun number => seen ⟨m, error, hx, number⟩
        | _ => simp [Effect.isOffer]
      rw [none]
      exact ih

theorem answers_once (hist : History s h r) {e e' : Entry F} (he : e ∈ h) (he' : e' ∈ h)
    {reply reply' : Reply HandlerError Unit} (action : e.action = .recovered n reply)
    (action' : e'.action = .recovered n reply') : reply = reply' := by
  induction hist with
  | begin => cases he
  | @step h r r' a effects past made ih =>
    -- After an answer the message is dealt with or gone, so the handler has nothing to answer to.
    have fresh {reply : Reply HandlerError Unit}
        (action : a = .recovered n reply) : ¬ Answered h n := by
      intro answered
      subst action
      obtain ⟨t, error, name, task, stage, -⟩ := step_recovered made
      obtain ⟨ht, rfl⟩ := mem_of_task? task
      have settled := (parked past).answered t ht answered
      simp [stage, Settled] at settled
    rcases List.mem_append.1 he with he | he <;> rcases List.mem_append.1 he' with he' | he'
    · exact ih he he'
    · cases List.mem_singleton.1 he'
      exact absurd ⟨e, he, reply, action⟩ (fresh action')
    · cases List.mem_singleton.1 he
      exact absurd ⟨e', he', reply', action'⟩ (fresh action)
    · cases List.mem_singleton.1 he
      cases List.mem_singleton.1 he'
      exact (Action.recovered.inj (action.symm.trans action')).2

/-! ## 4. What its answer decides -/

/-- A message that is confirmed while the handler of failed messages has it was taken by it. -/
theorem Transition.rescues (made : Transition s r a r' effects) {t : Task F} (ht : t ∈ r.tasks)
    (hn : Numbered h r) {error : HandlerError} (stage : t.stage = .recovering error)
    {cause : Cause} (seen : Effect.confirmed t.sequence cause ∈ effects) :
    cause = .recovered ∧ a = .recovered t.sequence (.ok ()) := by
  obtain ⟨v, u, task, advance, -⟩ := made.goes_on seen trivial
  have number := (advance.confirmed seen).1
  cases hn.task_eq_of_sequence ht (mem_of_task? task).1 number
  cases advance with
  | started other | returned other | backedOff other | retried other | acknowledged other =>
    cases stage.symm.trans other
  | recovering | ackTaken | ackSettled => simp at seen
  | recovered => exact ⟨by simpa using seen, rfl⟩

theorem rescued_of_confirmed (hist : History s h r) (offered : Offered h n) {cause : Cause}
    (seen : Effect.confirmed n cause ∈ trace h) : cause = .recovered ∧ Rescued h n := by
  induction hist with
  | begin => cases seen
  | @step h r r' a effects past made ih =>
    have made' := transition_of_step made
    rcases offered_snoc.1 offered with old | ⟨m, error, new, rfl⟩
    · rcases mem_trace_snoc.1 seen with before | now
      · obtain ⟨rfl, rescued⟩ := ih old before
        exact ⟨rfl, rescued.mono _⟩
      · obtain ⟨⟨t, ht, rfl, unsettled⟩, -⟩ := made'.confirmed_effect now
        obtain ⟨error, stage⟩ := ((parked past).stage t ht old).resolve_right unsettled
        obtain ⟨rfl, rfl⟩ := made'.rescues ht (numbered past) stage now
        exact ⟨rfl, _, List.mem_append_right h (List.mem_singleton_self _), rfl, t, error,
          (numbered past).task?_eq ht, stage⟩
    · obtain ⟨t, u, name, task, fails, -, rfl, rfl, -⟩ := made'.hands_over new
      rcases mem_trace_snoc.1 seen with before | now
      · have unsettled : ¬ Settled t.stage := fun settled => fails.early (.inr settled)
        exact absurd before ((recorded past).unconfirmed t (mem_of_task? task).1 unsettled cause)
      · simp at now

/-- The answer of the handler of failed messages confirms the message when it took it. -/
theorem confirmed_of_rescued (hist : History s h r) (rescued : Rescued h n) :
    Effect.confirmed n .recovered ∈ trace h := by
  obtain ⟨e, he, action, -⟩ := rescued
  obtain ⟨before, later, rfl⟩ := List.append_of_mem he
  obtain ⟨-, made⟩ := history_at hist rfl
  rw [action] at made
  obtain ⟨t, error, name, task, -, -, moved⟩ := step_recovered made
  obtain ⟨-, rfl⟩ := mem_of_task? task
  have seen : Effect.confirmed t.sequence .recovered ∈ e.effects := by
    rw [← (Prod.mk.inj moved).2]
    exact List.mem_singleton_self _
  simp [trace, seen]

/-- A message that is confirmed has its position given to the committer, and nothing comes in
between. -/
theorem reaches_committer (hist : History s h r) {cause : Cause}
    (seen : Effect.confirmed n cause ∈ trace h) :
    (∃ t ∈ r.tasks, t.sequence = n ∧ t.stage = .confirming) ∨ ∃ e ∈ h, e.action = .confirm n := by
  induction hist with
  | begin => cases seen
  | step past made ih =>
    rcases mem_trace_snoc.1 seen with before | now
    · rcases ih before with ⟨t, ht, rfl, stage⟩ | ⟨e, he, action⟩
      · have settled : Settled t.stage := by rw [stage]; trivial
        rcases (transition_of_step made).settled_stays (numbered past) ht settled with
          ⟨u, hu, number, same⟩ | ⟨-, action⟩ | ⟨p, storing, -⟩
        · exact .inl ⟨u, hu, number, same.trans stage⟩
        · exact .inr ⟨_, List.mem_append_right _ (List.mem_singleton_self _), action⟩
        · cases stage.symm.trans storing
      · exact .inr ⟨e, List.mem_append_left _ he, action⟩
    · exact .inl ((transition_of_step made).confirming_of_effect now)

/-! ## 5. The failure path -/

/-- Why a message is given to the handler of failed messages in this step. -/
inductive Reason (s : Subscription F) (before : List (Entry F)) (e : Entry F)
    (acks : List DeferredAck) (n : Nat) (error : HandlerError) : Prop where
  /-- One of its handlers has used up its attempts. -/
  | exhausted (exhausted : Exhausted s (before ++ [e]) n error)
  /-- Its handlers left it pending, and its live acknowledgement was refused or let go. -/
  | refused {answer : Acknowledgement} (pending : Handled s before n .pending)
    (arrived : ∃ t, e.before.task? n = some t ∧ t.ack.answer? = some answer)
    (ruled : ruling acks n = some answer) (refuses : Refuses answer error)

/-- The handler of failed messages gave an error back, and the subscription is dropped. -/
structure GivenBack (s : Subscription F) (h : List (Entry F)) (r : Run F) (e : Entry F)
    (m : Message F) (name : String) (failure : HandlerError) : Prop where
  offered : ∃ error, Effect.recovering m error ∈ trace h
  rescuer : s.failureHandler = some name
  recorded : e.after.failure = e.before.failure.or (some (handlerError m name failure))
  kept : r.failure = e.after.failure
  result : ∀ result, r.phase = .finished result → result = r.verdict
  unconfirmed : ∀ cause, Effect.confirmed m.sequence cause ∉ trace h

/-- What the handler of failed messages has to do with the messages of a history. -/
structure FailurePath (s : Subscription F) (h : List (Entry F)) (r : Run F)
    (acks : List DeferredAck) : Prop where
  /-- It is called once for a message at most. -/
  once : ∀ n, offers h n ≤ 1
  /-- It is called for one of two reasons. -/
  reason : ∀ before e later, h = before ++ e :: later →
    ∀ m error, Effect.recovering m error ∈ e.effects →
    Reason s before e acks m.sequence error
  /-- It is not called for a message that was confirmed before. -/
  unconfirmed : ∀ before e later, h = before ++ e :: later →
    ∀ m error, Effect.recovering m error ∈ e.effects →
    ∀ cause, Effect.confirmed m.sequence cause ∉ trace before
  /-- A message it was called for is confirmed if and only if it took the message. -/
  confirmed : ∀ n, Offered h n → ∀ cause, Effect.confirmed n cause ∈ trace h ↔
    cause = .recovered ∧ Rescued h n
  /-- The position of a message it took goes to the committer. -/
  committed : ∀ n, Rescued h n →
    (∃ t ∈ r.tasks, t.sequence = n ∧ t.stage = .confirming) ∨ ∃ e ∈ h, e.action = .confirm n
  /-- An error of its own drops the subscription. -/
  failed : ∀ e ∈ h, ∀ n failure, e.action = .recovered n (.failed failure) →
    ∃ m name, m.sequence = n ∧ GivenBack s h r e m name failure

theorem Reason.of_kept {before : List (Entry F)} {e : Entry F} {acks acks' : List DeferredAck}
    {error : HandlerError} (reason : Reason s before e acks n error)
    (kept : Handled s before n .pending →
      ∀ ruled, ruling acks n = some ruled → ruling acks' n = some ruled) :
    Reason s before e acks' n error := by
  cases reason with
  | exhausted exhausted => exact .exhausted exhausted
  | refused pending arrived ruled refuses =>
    exact .refused pending arrived (kept pending _ ruled) refuses

/-- The step that gives a message away has its reason in what happened before. -/
theorem reason_of_step {acks : List DeferredAck} (past : Deferral s h r acks)
    (made : step s r a = some (r', effects)) {m : Message F}
    {error : HandlerError} (seen : Effect.recovering m error ∈ effects) :
    Reason s h ⟨r, a, r', effects⟩ acks m.sequence error := by
  have hist := past.history
  obtain ⟨t, u, name, task, fails, -, rfl, heffects, -⟩ := (transition_of_step made).hands_over seen
  obtain ⟨ht, -⟩ := mem_of_task? task
  cases fails with
  | @exhausted attempt status outcome _ stage ends last =>
    have counts := (counted hist).stage t ht
    rw [stage] at counts
    obtain ⟨within, tried, failed, -⟩ := counts
    have retry : attempt.retry = s.options.retry.maxRetries := Nat.le_antisymm within last
    rw [retry] at tried failed
    have none : NoCall effects t.sequence := by
      rw [heffects]
      simp [NoCall]
    refine .exhausted ⟨attempt.handler, (NoCall.attempts_snoc none _).trans tried, failed.mono _, _,
      List.mem_append_right h (List.mem_singleton_self _), outcome, rfl, ends, t, status, task, ?_⟩
    rw [← retry, stage]
  | @refused answer _ stage known refuses =>
    have pending : StageHolds s h t.sequence .awaitingAck := stage ▸ (grounded hist t ht).stage
    exact .refused pending ⟨t, task, known⟩
      ((past.slotted.answer?_eq hist ht stage).symm.trans known) refuses

theorem Deferral.reason {acks : List DeferredAck} (deferral : Deferral s h r acks)
    {before later : List (Entry F)} {e : Entry F} (heq : h = before ++ e :: later)
    {m : Message F} {error : HandlerError} (seen : Effect.recovering m error ∈ e.effects) :
    Reason s before e acks m.sequence error := by
  induction deferral generalizing later with
  | begin => simp at heq
  | @step h r r' a effects acks acks' past made books ih =>
    have kept : Handled s h m.sequence .pending → ∀ ruled, ruling acks m.sequence = some ruled →
        ruling acks' m.sequence = some ruled :=
      fun pending _ => books.ruling_kept past.slotted past.history made pending
    rcases split_snoc heq with ⟨rfl, rfl, rfl⟩ | ⟨later', rfl, rfl⟩
    · exact (reason_of_step past made seen).of_kept kept
    · exact (ih rfl).of_kept fun pending => kept (HandledUpTo.mono pending _)
  | idle past unheard ih => exact (ih heq).of_kept fun _ _ => unheard.ruling_kept past.slotted

/-- What an error of the handler of failed messages leads to. -/
theorem givenBack_of_answer (hist : History s h r) {e : Entry F} (he : e ∈ h)
    {failure : HandlerError} (action : e.action = .recovered n (.failed failure)) :
    ∃ m name, m.sequence = n ∧ GivenBack s h r e m name failure := by
  obtain ⟨before, later, heq⟩ := List.append_of_mem he
  obtain ⟨past, made⟩ := history_at hist heq
  have now := past.step made
  rw [action] at made
  obtain ⟨t, error, name, task, stage, rescue, moved⟩ := step_recovered made
  obtain ⟨ht, rfl⟩ := mem_of_task? task
  have offered : Effect.recovering t.message error ∈ trace h := by
    rw [heq, trace_append]
    exact List.mem_append_left _ ((parked past).message t ht error stage)
  have failed : e.after.failure =
      e.before.failure.or (some (handlerError t.message name failure)) := by
    rw [← (Prod.mk.inj moved).1]
    rfl
  obtain ⟨first, hfirst⟩ : ∃ first, e.after.failure = some first := by
    rw [failed]
    cases e.before.failure <;> exact ⟨_, rfl⟩
  have last : r.failure = some first := by
    have whole : History s (before ++ [⟨e.before, e.action, e.after, e.effects⟩] ++ later) r := by
      simpa [heq] using hist
    exact failure_kept now whole hfirst
  refine ⟨t.message, name, rfl,
    ⟨⟨error, offered⟩, rescue, failed, last.trans hfirst.symm, fun result finished => ?_, ?_⟩⟩
  · rcases result_of_finished hist finished with rfl | ⟨none, -⟩
    · rfl
    · rw [last] at none
      cases none
  · intro cause seen
    obtain ⟨-, e', he', action', -⟩ := rescued_of_confirmed hist ⟨_, _, offered, rfl⟩ seen
    cases answers_once hist he he' action action'

/-- **The failure path is taken once at most, and never for a confirmed message.**  In every
history, whoever was given which acknowledgement and whatever became of it, a message goes to the
handler of failed messages once at most, when a handler has used up all its attempts or when its
live acknowledgement was refused; it was not confirmed before, it is confirmed afterwards if and
only if the handler took it, and an error of that handler drops the subscription. -/
theorem failure_path {acks : List DeferredAck} (deferral : Deferral s h r acks) :
    FailurePath s h r acks where
  once := offers_le_one deferral.history
  reason := fun _ _ _ heq _ _ seen => deferral.reason heq seen
  unconfirmed := by
    intro before e later heq m error seen cause confirmed
    obtain ⟨past, made⟩ := history_at deferral.history heq
    obtain ⟨t, u, name, task, fails, -, rfl, -⟩ := (transition_of_step made).hands_over seen
    have unsettled : ¬ Settled t.stage := fun settled => fails.early (.inr settled)
    exact (recorded past).unconfirmed t (mem_of_task? task).1 unsettled cause confirmed
  confirmed := by
    intro n offered cause
    refine ⟨rescued_of_confirmed deferral.history offered, ?_⟩
    rintro ⟨rfl, rescued⟩
    exact confirmed_of_rescued deferral.history rescued
  committed := fun _ rescued =>
    reaches_committer deferral.history (confirmed_of_rescued deferral.history rescued)
  failed := fun _ he _ _ action => givenBack_of_answer deferral.history he action

section Runs

open Sample

/-- Ticks for one handler that may try twice, with a handler of failed messages. -/
def parkedTicks : Subscription ticks :=
  { tickFeed (some "parking") with
    options := { (tickFeed none).options with retry := { maxRetries := 1 } } }

/-- The steps by which the first tick fails twice and is taken, and the second one comes to its
handler. -/
def untilParked : List Action :=
  [.subscribe, .checkpointLoaded (.ok ⟨"feed", none⟩), .pageRead (.ok [tick 0, tick 1]),
    .deliver, .deliver, .start 0, .attemptEnded 0 (.failed (.failed "no")), .retry 0,
    .attemptEnded 0 (.failed (.failed "no")),
    .recovered 0 (.ok ()), .confirm 0, .stored 0 (.ok ()), .start 1]

/-- The run as it is then: the second tick is with its handler. -/
def afterParking : Run ticks where
  phase := .reading { after := some 1, sequence := 2 }
  committer := { sequence := { next := 1 }, last := some ⟨0, 0, ⟨0⟩⟩, dirty := true }
  tasks := [{
    message := .ofEvent "feed" (tick 1) 1 1 ⟨(), ()⟩
    lane := none
    stage := .calling ⟨0, 0⟩ .ignored
    ack := .armed }]

theorem deferral_untilParked : ∃ h : List (Entry ticks), Deferral parkedTicks h afterParking [] ∧
    Called h 1 ⟨0, 0⟩ ∧ Offered h 0 ∧ Effect.confirmed 0 .recovered ∈ trace h := by
  obtain ⟨h, deferral, -, htrace⟩ := Deferral.begin.append_replay? (by decide)
    (show replay? parkedTicks {} untilParked = some (afterParking, _) from rfl)
  refine ⟨h, deferral, ?_, ?_, ?_⟩
  · rw [Called, htrace]
    exact ⟨_, List.mem_of_getElem? (i := 14) rfl, rfl, rfl⟩
  · rw [Offered, htrace]
    exact ⟨_, _, List.mem_of_getElem? (i := 10) rfl, rfl⟩
  · rw [htrace]
    exact List.mem_of_getElem? (i := 11) rfl

/-- The second tick is left pending and nacked then, and the handler of failed messages gives it
back. -/
theorem one_tick_is_parked_and_one_given_back :
    ∃ (h : List (Entry ticks)) (r : Run ticks) (acks : List DeferredAck),
      Deferral parkedTicks h r acks ∧ FailurePath parkedTicks h r acks ∧ Offered h 0 ∧ Rescued h 0 ∧
      Offered h 1 ∧ r.failure = some (.handler "parking" (.ofNat 1) 1 (.failed "full")) := by
  obtain ⟨h₁, d₁, called, offered₁, taken₁⟩ := deferral_untilParked
  have d₂ := d₁.step (a := .takeAck 1 ⟨0, 0⟩) rfl (.given called)
  have d₃ := d₂.step (a := .attemptEnded 1 (.returned .pending)) rfl (.aside rfl)
  have d₄ := d₃.step (a := .settleAck 1 (.nacked "later")) rfl
    (show Books _ _ ([] ++ ⟨1, ⟨0, 0⟩, true, none⟩ :: []) ([] ++ _ :: _) from .used rfl rfl)
  have d₅ := d₄.step (a := .resume 1) rfl (.aside rfl)
  have d₆ := d₅.step (a := .recovered 1 (.failed (.failed "full"))) rfl (.aside rfl)
  have path := failure_path d₆
  have rescued :=
    (path.confirmed 0 (.mono (.mono (.mono (.mono (.mono offered₁ _) _) _) _) _) .recovered).1
      (by simp [taken₁])
  refine ⟨_, _, _, d₆, path, .mono (.mono (.mono (.mono (.mono offered₁ _) _) _) _) _,
    rescued.2, ?_, rfl⟩
  refine .mono (offered_snoc.2 (.inr ?_)) _
  exact ⟨_, _, List.mem_singleton_self _, rfl⟩

end Runs

end Run
end EventSourcing

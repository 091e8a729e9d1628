/-
# The attempts of a message

Handlers are called one after the other, and an attempt is repeated until it returns or is given up.
So the attempts of a message go up in order, and a handler that has returned is behind its message
for good: it returns once.

What the file settles:

* `Called`: an attempt of a message was made; `Transition.goes_on`: the steps that call handlers or
  confirm;
* `Tried`, `tried`: a message that is still with its handlers is past everything they have done with
  it;
* `Handled.unique`: what the handlers made of a message together is one status;
* `late_of_all_returned`, `all_returned_snoc`: a message all handlers returned for has left them,
  and waits if it is pending; otherwise it is confirmed.
-/
import EventSourcing.Proofs.Run.Ending

namespace EventSourcing
namespace Run

variable {F : PayloadFamily} {s : Subscription F} {r r' : Run F} {a : Action}
  {effects : List (Effect F)} {h : List (Entry F)} {n : Nat}

/-! ## 1. Calls and returns -/

/-- This attempt of the message was made. -/
def Called (h : List (Entry F)) (n : Nat) (attempt : Attempt) : Prop :=
  ∃ m, Effect.called attempt.handler m ∈ trace h ∧ m.sequence = n ∧ m.retryCount = attempt.retry

/-- The handler has returned for the message. -/
def Returned (h : List (Entry F)) (n handler : Nat) : Prop :=
  ∃ e ∈ h, ∃ answer, e.Returns n handler answer

/-- The handlers that are done with a message at this stage, while it is with them. -/
def handlersDone : Stage → Nat
  | .calling attempt _ | .backingOff attempt _ _ => attempt.handler
  | _ => 0

theorem called_snoc {attempt : Attempt} {e : Entry F} :
    Called (h ++ [e]) n attempt ↔ Called h n attempt ∨
      ∃ m, Effect.called attempt.handler m ∈ e.effects ∧ m.sequence = n ∧
        m.retryCount = attempt.retry := by
  simp only [Called, mem_trace_snoc, or_and_right, exists_or]

theorem returned_snoc {handler : Nat} {e : Entry F} :
    Returned (h ++ [e]) n handler ↔
      Returned h n handler ∨ ∃ answer, e.Returns n handler answer := by
  simp [Returned, or_and_right, exists_or]

theorem Called.mono {attempt : Attempt} (called : Called h n attempt) (h' : List (Entry F)) :
    Called (h ++ h') n attempt := by
  obtain ⟨m, seen, about⟩ := called
  exact ⟨m, by simp [seen], about⟩

theorem Onward.calls {t u : Task F} {count handler : Nat} {status : HandlingStatus} {m : Message F}
    (onward : Onward s t count status u effects) (seen : Effect.called handler m ∈ effects) :
    m.sequence = t.sequence ∧ u.stage = .calling ⟨handler, m.retryCount⟩ status := by
  cases onward with
  | called more =>
    cases List.mem_singleton.1 seen
    exact ⟨rfl, rfl⟩
  | pending | handled => simp at seen

theorem Advance.calls {t u : Task F} {handler : Nat} {m : Message F}
    (advance : Advance s r t a u effects) (seen : Effect.called handler m ∈ effects) :
    m.sequence = t.sequence ∧ ∃ status, u.stage = .calling ⟨handler, m.retryCount⟩ status := by
  cases advance with
  | started _ _ _ onward | returned _ onward =>
    obtain ⟨number, stage⟩ := onward.calls seen
    exact ⟨number, _, stage⟩
  | retried =>
    cases List.mem_singleton.1 seen
    exact ⟨rfl, _, rfl⟩
  | _ => simp at seen

/-- What can be seen of tasks that go on: handlers are called and messages are confirmed. -/
def Effect.IsOnward : Effect F → Prop
  | .called _ _ | .confirmed _ _ => True
  | _ => False

theorem Polls.not_onward (polls : Polls s r a r' effects) : ∀ x ∈ effects, ¬ x.IsOnward := by
  cases polls with
  | delivered phase decoded place continues => cases continues <;> simp [Effect.IsOnward]
  | _ => simp [Effect.IsOnward]

/-- A step with such an effect is one of a task that goes on. -/
theorem Transition.goes_on (made : Transition s r a r' effects) {x : Effect F} (seen : x ∈ effects)
    (onward : x.IsOnward) :
    ∃ t u, r.task? t.sequence = some t ∧ Advance s r t a u effects ∧ r' = r.put u := by
  cases made with
  | advanced task advance => exact ⟨_, _, task, advance, rfl⟩
  | @broken t _ task reason =>
    obtain ⟨gone, lanes, -, -, -, hlost⟩ := loseWorker_spec r t
    obtain ⟨k, rfl⟩ := hlost _ seen
    exact onward.elim
  | letGo | ended | asked | stored =>
    cases List.mem_singleton.1 seen
    exact onward.elim
  | confirmed | cancelled => cases seen
  | polled polls => exact absurd onward (polls.not_onward x seen)

/-- A handler returns to the task of the message, which goes on with the next one. -/
theorem Transition.returns (made : Transition s r a r' effects) {handler : Nat}
    {answer : HandlingStatus} (returns : (⟨r, a, r', effects⟩ : Entry F).Returns n handler answer) :
    ∃ t u retry status, r.task? n = some t ∧ t.stage = .calling ⟨handler, retry⟩ status ∧
      Onward s t (handler + 1) (status.combine answer) u effects ∧ r' = r.put u := by
  obtain ⟨action, t, retry, status, task, stage⟩ := returns
  dsimp only at action task
  -- The step is about this task, and the attempt neither failed nor broke down.
  have same : ∀ {v : Task F}, r.task? v.sequence = some v →
      a.sequence? = some v.sequence → v = t := by
    intro v task' about
    rw [action] at about
    cases about
    exact Option.some.inj (task'.symm.trans task)
  have not_fails : ∀ {t u : Task F} {name : String} {error : HandlerError},
      ¬ Fails s t a name error u := by
    intro t u name error fails
    cases fails with
    | exhausted _ ends =>
      injection action with _ outcome
      cases outcome
      cases ends
    | refused => cases action
  cases made with
  | advanced task' advance =>
    cases same task' advance.about
    cases advance with
    | returned stage' onward =>
      cases stage.symm.trans stage'
      injection action with _ outcome
      cases outcome
      exact ⟨_, _, _, _, task, stage, onward, rfl⟩
    | backedOff _ ends =>
      injection action with _ outcome
      cases outcome
      cases ends
    | recovering fails => exact (not_fails fails).elim
    | _ => cases action
  | letGo _ _ reason =>
    cases reason with
    | failed fails => exact (not_fails fails).elim
    | _ => cases action
  | ended _ reason =>
    cases reason with
    | failed fails => exact (not_fails fails).elim
    | _ => cases action
  | broken _ reason => cases reason <;> cases action
  | confirmed | asked | stored | cancelled => cases action
  | polled polls =>
    cases polls with
    | aborted reason | stopped reason => cases reason <;> cases action
    | _ => cases action

/-! ## 2. Messages with their handlers -/

/-- What its handlers have done with a message is behind it, as long as it is with them. -/
structure Tried (h : List (Entry F)) (r : Run F) : Prop where
  calledKnown : ∀ n attempt, Called h n attempt → n < (dispatched h).length
  returnedKnown : ∀ n handler, Returned h n handler → n < (dispatched h).length
  called : ∀ t ∈ r.tasks, ¬ Late t.stage → ∀ attempt, Called h t.sequence attempt →
    t.hasMade attempt = true
  returned : ∀ t ∈ r.tasks, ¬ Late t.stage → ∀ handler, Returned h t.sequence handler →
    handler < handlersDone t.stage

theorem Onward.stage_cases {t u : Task F} {count : Nat} {status : HandlingStatus}
    (onward : Onward s t count status u effects) :
    u.stage = .calling ⟨count, 0⟩ status ∨ Late u.stage := by
  cases onward with
  | called => exact .inl rfl
  | pending | handled => exact .inr trivial

theorem hasMade_calling {t : Task F} {attempt now : Attempt} {status : HandlingStatus}
    (stage : t.stage = .calling now status) : t.hasMade attempt = true ↔
      attempt.handler < now.handler ∨
      attempt.handler = now.handler ∧ attempt.retry ≤ now.retry := by
  simp [Task.hasMade, stage]

theorem hasMade_backingOff {t : Task F} {attempt next : Attempt} {status : HandlingStatus}
    {error : HandlerError} (stage : t.stage = .backingOff next status error) :
    t.hasMade attempt = true ↔
      attempt.handler < next.handler ∨
      attempt.handler = next.handler ∧ attempt.retry < next.retry := by
  simp [Task.hasMade, stage]

/-- A task never goes back to its handlers, and no attempt is taken back. -/
theorem Advance.hasMade {t u : Task F}
    (advance : Advance s r t a u effects) (early : ¬ Late u.stage) :
    ¬ Late t.stage ∧ ∀ attempt, t.hasMade attempt = true → u.hasMade attempt = true := by
  cases advance with
  | started stage =>
    refine ⟨by simp [stage, Late], fun attempt made => ?_⟩
    simp [Task.hasMade, stage] at made
  | returned stage onward =>
    refine ⟨by simp [stage, Late], fun attempt made => ?_⟩
    rcases onward.stage_cases with stage' | late
    · rw [hasMade_calling stage] at made
      rw [hasMade_calling stage']
      dsimp only
      omega
    · exact absurd late early
  | backedOff stage ends more =>
    refine ⟨by simp [stage, Late], fun attempt made => ?_⟩
    rw [hasMade_calling stage] at made
    rw [hasMade_backingOff rfl]
    dsimp only
    omega
  | retried stage =>
    refine ⟨by simp [stage, Late], fun attempt made => ?_⟩
    rw [hasMade_backingOff stage] at made
    rw [hasMade_calling rfl]
    omega
  | ackTaken | ackSettled => exact ⟨early, fun _ made => made⟩
  | recovering | acknowledged | recovered => exact absurd trivial early

theorem Advance.handlersDone_le {t u : Task F} (advance : Advance s r t a u effects)
    (early : ¬ Late u.stage) : handlersDone t.stage ≤ handlersDone u.stage := by
  cases advance with
  | started stage => simp [stage, handlersDone]
  | returned stage onward =>
    rcases onward.stage_cases with stage' | late
    · rw [stage, stage']
      exact Nat.le_succ _
    · exact absurd late early
  | backedOff stage | retried stage =>
    rw [stage]
    exact Nat.le_refl _
  | ackTaken | ackSettled => exact Nat.le_refl _
  | recovering | acknowledged | recovered => exact absurd trivial early

/-- A task that is with its handlers after a step was with them before, or has just been handed
out. -/
theorem Transition.early_before (made : Transition s r a r' effects) (hn : Numbered h r)
    {u : Task F} (hu : u ∈ r'.tasks) (early : ¬ Late u.stage) :
    (∃ t ∈ r.tasks, t.sequence = u.sequence ∧ ¬ Late t.stage ∧
      handlersDone t.stage ≤ handlersDone u.stage ∧
        ∀ attempt, t.hasMade attempt = true → u.hasMade attempt = true) ∨
            u.sequence = (dispatched h).length := by
  rcases made.arises hu with hold | arises
  · exact .inl ⟨u, hold, rfl, early, Nat.le_refl _, fun _ made => made⟩
  · cases arises with
    | @advanced t _ _ _ task advance =>
      obtain ⟨hearly, hmade⟩ := advance.hasMade early
      exact .inl ⟨t, (mem_of_task? task).1, (congrArg (·.sequence) advance.position_eq).symm,
        hearly, advance.handlersDone_le early, hmade⟩
    | asked => exact absurd trivial early
    | delivered here number => exact .inr (number.trans (hn.cursor _ here))

/-- The task a step puts in place is the only one of its message. -/
theorem eq_of_mem_put {t u v : Task F} (task : r.task? t.sequence = some t)
    (heq : u.message.position = t.message.position) (hv : v ∈ (r.put u).tasks)
    (number : v.sequence = t.sequence) : v = u := by
  rcases (mem_put_iff task (congrArg (·.sequence) heq) v).1 hv with rfl | ⟨-, hne⟩
  · rfl
  · exact absurd number hne

namespace Tried

theorem step_called (ht : Tried h r) (hn : Numbered h r) (made : Transition s r a r' effects)
    {u : Task F} (hu : u ∈ r'.tasks) (early : ¬ Late u.stage) {attempt : Attempt}
    (called : Called (h ++ [⟨r, a, r', effects⟩]) u.sequence attempt) :
    u.hasMade attempt = true := by
  rcases called_snoc.1 called with old | ⟨m, seen, number, retry⟩
  · rcases made.early_before hn hu early with ⟨t, mem, number, hearly, -, hmade⟩ | hnew
    · exact hmade attempt (ht.called t mem hearly attempt (number ▸ old))
    · have := ht.calledKnown _ _ old
      omega
  · obtain ⟨t, v, task, advance, rfl⟩ := made.goes_on seen trivial
    obtain ⟨hnumber, status, stage⟩ := advance.calls seen
    cases eq_of_mem_put task advance.position_eq hu (number.symm.trans hnumber)
    rw [hasMade_calling stage]
    exact .inr ⟨rfl, Nat.le_of_eq retry.symm⟩

theorem step_returned (ht : Tried h r) (hn : Numbered h r) (made : Transition s r a r' effects)
    {u : Task F} (hu : u ∈ r'.tasks) (early : ¬ Late u.stage) {handler : Nat}
    (returned : Returned (h ++ [⟨r, a, r', effects⟩]) u.sequence handler) :
    handler < handlersDone u.stage := by
  rcases returned_snoc.1 returned with old | ⟨answer, returns⟩
  · rcases made.early_before hn hu early with ⟨t, mem, number, hearly, hdone, -⟩ | hnew
    · exact Nat.lt_of_lt_of_le (ht.returned t mem hearly handler (number ▸ old)) hdone
    · have := ht.returnedKnown _ _ old
      omega
  · obtain ⟨t, v, retry, status, task, stage, onward, rfl⟩ := made.returns returns
    obtain ⟨-, number⟩ := mem_of_task? task
    rw [← number] at task
    cases eq_of_mem_put task onward.position_eq hu number.symm
    rcases onward.stage_cases with stage' | late
    · rw [stage']
      exact Nat.lt_succ_self handler
    · exact absurd late early

theorem step (ht : Tried h r) (hn : Numbered h r) (made : Transition s r a r' effects) :
    Tried (h ++ [⟨r, a, r', effects⟩]) r' := by
  have hgrows : (dispatched h).length ≤ (dispatched (h ++ [⟨r, a, r', effects⟩])).length := by simp
  constructor
  case called => exact fun u hu early attempt => ht.step_called hn made hu early
  case returned => exact fun u hu early handler => ht.step_returned hn made hu early
  case calledKnown =>
    intro n attempt called
    refine Nat.lt_of_lt_of_le ?_ hgrows
    rcases called_snoc.1 called with old | ⟨m, seen, rfl, -⟩
    · exact ht.calledKnown n attempt old
    · obtain ⟨t, v, task, advance, -⟩ := made.goes_on seen trivial
      rw [(advance.calls seen).1]
      exact hn.task_sequence_lt (mem_of_task? task).1
  case returnedKnown =>
    intro n handler returned
    refine Nat.lt_of_lt_of_le ?_ hgrows
    rcases returned_snoc.1 returned with old | ⟨answer, -, t, -, -, task, -⟩
    · exact ht.returnedKnown n handler old
    · obtain ⟨mem, rfl⟩ := mem_of_task? task
      exact hn.task_sequence_lt mem

end Tried

theorem tried (hist : History s h r) : Tried h r := by
  induction hist with
  | begin => exact ⟨by simp [Called, trace], by simp [Returned], by simp, by simp⟩
  | step past made ih => exact ih.step (numbered past) (transition_of_step made)

/-! ## 3. Handlers return once -/

theorem returns_once (hist : History s h r) {handler : Nat} {first second : HandlingStatus}
    {e e' : Entry F} (he : e ∈ h) (he' : e' ∈ h) (returns : e.Returns n handler first)
    (returns' : e'.Returns n handler second) : e = e' := by
  induction hist with
  | begin => cases he
  | @step h r r' a effects past made ih =>
    -- After the earlier of two returns the message is past the handler.
    have fresh : ∀ e ∈ h, ∀ answer, e.Returns n handler answer →
        ∀ answer', ¬ (⟨r, a, r', effects⟩ : Entry F).Returns n handler answer' := by
      rintro e he answer returns answer' ⟨-, t, retry, status, task, stage⟩
      obtain ⟨mem, rfl⟩ := mem_of_task? task
      have hlt :=
        (tried past).returned t mem (by simp [stage, Late]) handler ⟨e, he, answer, returns⟩
      simp [stage, handlersDone] at hlt
    rcases List.mem_append.1 he with he | he <;> rcases List.mem_append.1 he' with he' | he'
    · exact ih he he'
    · cases List.mem_singleton.1 he'
      exact absurd returns' (fresh e he first returns second)
    · cases List.mem_singleton.1 he
      exact absurd returns (fresh e' he' second returns' first)
    · rw [List.mem_singleton.1 he, List.mem_singleton.1 he']

theorem Entry.Returns.answer_eq {e : Entry F} {handler : Nat} {first second : HandlingStatus}
    (returns : e.Returns n handler first) (returns' : e.Returns n handler second) :
    first = second := by
  have := returns.1.symm.trans returns'.1
  injection this with _ heq
  injection heq

/-- What the first handlers made of a message together is one status. -/
theorem HandledUpTo.unique (hist : History s h r) {count : Nat} {first second : HandlingStatus}
    (handled : HandledUpTo h n count first) (handled' : HandledUpTo h n count second) :
    first = second := by
  obtain ⟨answers, hlength, hreturns, rfl⟩ := handled
  obtain ⟨answers', hlength', hreturns', rfl⟩ := handled'
  have heq : answers = answers' := by
    refine List.ext_getElem (hlength.trans hlength'.symm) fun i hi hi' => ?_
    obtain ⟨e, he, returns⟩ := hreturns i hi
    obtain ⟨e', he', returns'⟩ := hreturns' i hi'
    cases returns_once hist he he' returns returns'
    exact returns.answer_eq returns'
  rw [heq]

theorem HandledUpTo.returned {count handler : Nat} {status : HandlingStatus}
    (handled : HandledUpTo h n count status) (within : handler < count) : Returned h n handler := by
  obtain ⟨answers, rfl, hreturns, -⟩ := handled
  obtain ⟨e, he, returns⟩ := hreturns handler within
  exact ⟨e, he, _, returns⟩

/-- Without handlers nothing is pending. -/
theorem Handled.exists_handler (handled : Handled s h n .pending) : 0 < s.handlers.length := by
  obtain ⟨answers, hlength, -, hstatus⟩ := handled
  rw [← hlength]
  cases answers with
  | nil => cases hstatus
  | cons => exact Nat.succ_pos _

/-- A message all handlers returned for is no longer with them. -/
theorem late_of_all_returned (hist : History s h r) (some : 0 < s.handlers.length)
    {status : HandlingStatus} (handled : Handled s h n status) {t : Task F} (ht : t ∈ r.tasks)
    (number : t.sequence = n) : Late t.stage := by
  subst number
  refine Classical.byContradiction fun early => ?_
  have hlast := (tried hist).returned t ht early (s.handlers.length - 1)
    (HandledUpTo.returned handled (by omega))
  -- The handler at the task's place has not been reached by all of them.
  have hstage := (grounded hist t ht).stage
  cases stage : t.stage with
  | calling attempt status | backingOff attempt status error =>
    rw [stage] at hlast hstage
    have : attempt.handler < s.handlers.length := hstage.1
    simp only [handlersDone] at hlast
    omega
  | queued =>
    rw [stage] at hlast
    simp [handlersDone] at hlast
  | awaitingAck | recovering | confirming | storing => simp [stage, Late] at early

theorem late_of_handled (hist : History s h r) (handled : Handled s h n .pending) {t : Task F}
    (ht : t ∈ r.tasks) (number : t.sequence = n) : Late t.stage :=
  late_of_all_returned hist handled.exists_handler handled ht number

/-- The step by which the last handler returns for a message leaves it waiting if it is pending
then, and confirms it otherwise. -/
theorem all_returned_snoc (hist : History s h r) (made : step s r a = some (r', effects))
    (some : 0 < s.handlers.length) {status : HandlingStatus}
    (handled : Handled s (h ++ [⟨r, a, r', effects⟩]) n status) :
    Handled s h n status ∨
      (status = .pending ∧ ∃ u ∈ r'.tasks, u.sequence = n ∧ u.stage = .awaitingAck) ∨
      status ≠ .pending ∧ Effect.confirmed n .handled ∈ effects := by
  by_cases now : ∃ handler answer, (⟨r, a, r', effects⟩ : Entry F).Returns n handler answer
  · obtain ⟨handler, answer, returns⟩ := now
    obtain ⟨t, u, retry, before, task, stage, onward, rfl⟩ :=
      (transition_of_step made).returns returns
    obtain ⟨ht, rfl⟩ := mem_of_task? task
    have number := congrArg (·.sequence) onward.position_eq
    have hu : u ∈ (r.put u).tasks := (mem_put_iff task number u).2 (.inl rfl)
    have late := late_of_all_returned (hist.step made) some handled hu number
    obtain ⟨hlt, upTo⟩ : StageHolds s h t.sequence (.calling ⟨handler, retry⟩ before) :=
      stage ▸ (grounded hist t ht).stage
    have whole := upTo.succ returns
    right
    cases onward with
    | called => exact late.elim
    | pending all status_eq =>
      rw [show handler + 1 = s.handlers.length from Nat.le_antisymm hlt all, status_eq] at whole
      exact .inl ⟨handled.unique (hist.step made) whole, _, hu, number, rfl⟩
    | handled all status_ne =>
      rw [show handler + 1 = s.handlers.length from Nat.le_antisymm hlt all] at whole
      exact .inr ⟨handled.unique (hist.step made) whole ▸ status_ne, List.mem_singleton_self _⟩
  · left
    obtain ⟨answers, hlength, hreturns, hstatus⟩ := handled
    refine ⟨answers, hlength, fun i hi => ?_, hstatus⟩
    obtain ⟨e, he, returns⟩ := hreturns i hi
    rcases List.mem_append.1 he with he | he
    · exact ⟨e, he, returns⟩
    · cases List.mem_singleton.1 he
      exact absurd ⟨_, _, returns⟩ now

/-- The step by which the last handler returns for a message that is pending then leaves it
waiting. -/
theorem handled_snoc (hist : History s h r) (made : step s r a = some (r', effects))
    (handled : Handled s (h ++ [⟨r, a, r', effects⟩]) n .pending) :
    Handled s h n .pending ∨ ∃ u ∈ r'.tasks, u.sequence = n ∧ u.stage = .awaitingAck := by
  rcases all_returned_snoc hist made handled.exists_handler handled
    with old | ⟨-, waits⟩ | ⟨none, -⟩
  · exact .inl old
  · exact .inr waits
  · exact absurd rfl none

end Run
end EventSourcing

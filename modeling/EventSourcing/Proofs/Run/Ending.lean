/-
# How a run winds down

Once all handling has ended the run is halted: from then on no task goes back to its handlers, none
is taken up, and those that are left wait for their acknowledgement or are being settled.  A message
that leaves the run without having been confirmed is never confirmed later.

What the file settles:

* `Recorded`: a task that is not settled has not been confirmed, and neither has a message that was
  let go or lost;
* `WaitedAtHalt`: the messages that wait for their acknowledgement when the run halts;
* `Winding`: what holds from the halt on;
* `rests_of_finished`: a run that has ended stays as it is.
-/
import EventSourcing.Proofs.Run.Settling

namespace EventSourcing
namespace Run

variable {F : PayloadFamily} {s : Subscription F} {r r' : Run F} {a : Action}
  {effects : List (Effect F)} {h : List (Entry F)}

/-! ## 1. Settled tasks -/

/-- The message counts as dealt with. -/
def Settled : Stage → Prop
  | .confirming | .storing _ => True
  | _ => False

/-- The message is no longer with its handlers. -/
def Late : Stage → Prop
  | .awaitingAck | .recovering _ | .confirming | .storing _ => True
  | _ => False

theorem Advance.settled {t u : Task F} (advance : Advance s r t a u effects)
    (ht : Settled t.stage) : Settled u.stage := by
  cases advance with
  | started stage | returned stage | backedOff stage | retried stage => simp [stage, Settled] at ht
  | recovering fails => cases fails <;> simp_all [Settled]
  | ackTaken | ackSettled => exact ht
  | acknowledged | recovered => trivial

theorem Onward.confirmed {t u : Task F} {handler n : Nat} {status : HandlingStatus} {cause : Cause}
    (onward : Onward s t handler status u effects) (seen : Effect.confirmed n cause ∈ effects) :
    n = t.sequence ∧ u.stage = .confirming := by
  cases onward with
  | handled => exact ⟨(by simpa using seen : _ ∧ _).1, rfl⟩
  | _ => simp at seen

/-- Only a task that is not settled is confirmed, and it is settled then. -/
theorem Advance.confirmed {t u : Task F} {n : Nat} {cause : Cause}
    (advance : Advance s r t a u effects) (seen : Effect.confirmed n cause ∈ effects) :
    n = t.sequence ∧ ¬ Settled t.stage ∧ Settled u.stage := by
  cases advance with
  | started stage _ _ onward | returned stage onward =>
    obtain ⟨hn, hstage⟩ := onward.confirmed seen
    exact ⟨hn, by simp [stage, Settled], by simp [hstage, Settled]⟩
  | acknowledged stage | recovered stage =>
    exact ⟨(by simpa using seen : _ ∧ _).1, by simp [stage, Settled], trivial⟩
  | _ => simp at seen

theorem Transition.confirmed_effect (made : Transition s r a r' effects) {n : Nat} {cause : Cause}
    (seen : Effect.confirmed n cause ∈ effects) :
    (∃ t ∈ r.tasks, t.sequence = n ∧ ¬ Settled t.stage) ∧
      ∀ u ∈ r'.tasks, u.sequence = n → Settled u.stage := by
  cases made with
  | @advanced t u _ _ task advance =>
    obtain ⟨rfl, hopen, hsettled⟩ := advance.confirmed seen
    refine ⟨⟨t, (mem_of_task? task).1, rfl, hopen⟩, fun v hv hvn => ?_⟩
    rcases (mem_put_iff task (congrArg (·.sequence) advance.position_eq) v).1 hv with rfl | ⟨-, hne⟩
    · exact hsettled
    · exact absurd hvn hne
  | @broken t _ task reason =>
    obtain ⟨gone, lanes, -, -, -, hlost⟩ := loseWorker_spec r t
    obtain ⟨k, heq⟩ := hlost _ seen
    cases heq
  | letGo | ended | confirmed | asked | stored | cancelled => simp at seen
  | polled polls =>
    cases polls with
    | delivered phase decoded place continues => cases continues <;> simp at seen
    | _ => simp at seen

/-- A task that is not settled was there before and was not settled, or has just been handed out. -/
theorem Transition.unsettled_before (made : Transition s r a r' effects) (hn : Numbered h r)
    {u : Task F} (hu : u ∈ r'.tasks) (hopen : ¬ Settled u.stage) :
    (∃ t ∈ r.tasks, t.sequence = u.sequence ∧ ¬ Settled t.stage) ∨
      u.sequence = (dispatched h).length := by
  rcases made.arises hu with hold | arises
  · exact .inl ⟨u, hold, rfl, hopen⟩
  · cases arises with
    | @advanced t _ _ _ task advance =>
      refine .inl ⟨t, (mem_of_task? task).1, (congrArg (·.sequence) advance.position_eq).symm, ?_⟩
      exact fun ht => hopen (advance.settled ht)
    | asked => exact absurd trivial hopen
    | delivered here number => exact .inr (number.trans (hn.cursor _ here))

/-- A task was there before, or has just been handed out. -/
theorem Transition.task_before (made : Transition s r a r' effects) (hn : Numbered h r) {u : Task F}
    (hu : u ∈ r'.tasks) :
    (∃ t ∈ r.tasks, t.sequence = u.sequence) ∨ u.sequence = (dispatched h).length := by
  rcases made.arises hu with hold | arises
  · exact .inl ⟨u, hold, rfl⟩
  · cases arises with
    | @advanced t _ _ _ task advance =>
      exact .inl ⟨t, (mem_of_task? task).1, (congrArg (·.sequence) advance.position_eq).symm⟩
    | @asked t _ _ task => exact .inl ⟨t, (mem_of_task? task).1, rfl⟩
    | delivered here number => exact .inr (number.trans (hn.cursor _ here))

/-! ## 2. Messages that are gone -/

/-- The step takes the message away with what broke down: the message was with the handler of failed
messages, or it waited in the queue of the worker that was asking the store. -/
def Entry.Strands (e : Entry F) (n : Nat) : Prop :=
  e.action = .recovered n .panicked ∨
    ∃ k t u lane, e.action = .stored k .panicked ∧ e.before.task? k = some t ∧ t.holder = .worker ∧
      t.lane = some lane ∧ u ∈ e.before.tasks ∧ u.sequence = n ∧ u.isQueuedIn lane = true

/-- A breakdown took the message away. -/
def Stranded (h : List (Entry F)) (n : Nat) : Prop := ∃ e ∈ h, e.Strands n

/-- The message was handed out, the run no longer has it, and it was not confirmed. -/
structure Forgotten (h : List (Entry F)) (r : Run F) (n : Nat) : Prop where
  known : n < (dispatched h).length
  gone : ∀ t ∈ r.tasks, t.sequence ≠ n
  unconfirmed : ∀ cause, Effect.confirmed n cause ∉ trace h

/-- The confirmations of a history are those of messages that are settled, and of none that were let
go or lost. -/
structure Recorded (h : List (Entry F)) (r : Run F) : Prop where
  known : ∀ n cause, Effect.confirmed n cause ∈ trace h → n < (dispatched h).length
  unconfirmed : ∀ t ∈ r.tasks, ¬ Settled t.stage →
    ∀ cause, Effect.confirmed t.sequence cause ∉ trace h
  forgotten : ∀ n, Effect.abandoned n ∈ trace h ∨ Stranded h n → Forgotten h r n

theorem mem_trace_snoc {x : Effect F} {e : Entry F} :
    x ∈ trace (h ++ [e]) ↔ x ∈ trace h ∨ x ∈ e.effects := by
  simp [trace]

theorem stranded_snoc {n : Nat} {e : Entry F} :
    Stranded (h ++ [e]) n ↔ Stranded h n ∨ e.Strands n := by
  simp [Stranded, or_and_right, exists_or]

theorem Forgotten.step {n : Nat} (hf : Forgotten h r n) (hn : Numbered h r)
    (made : Transition s r a r' effects) : Forgotten (h ++ [⟨r, a, r', effects⟩]) r' n := by
  constructor
  case known => exact Nat.lt_of_lt_of_le hf.known (by simp)
  case gone =>
    intro u hu heq
    rcases made.task_before hn hu with ⟨t, ht, htu⟩ | hnew
    · exact hf.gone t ht (htu.trans heq)
    · have := hf.known
      omega
  case unconfirmed =>
    intro cause seen
    rcases mem_trace_snoc.1 seen with seen | seen
    · exact hf.unconfirmed cause seen
    · obtain ⟨⟨t, ht, htn, -⟩, -⟩ := made.confirmed_effect seen
      exact hf.gone t ht htn

/-- A step that lets a message go ends its task. -/
theorem Transition.abandoned_effect (made : Transition s r a r' effects) {n : Nat}
    (seen : Effect.abandoned n ∈ effects) :
    ∃ t, r.task? n = some t ∧ r.isHalted = true ∧ LetsGo s t a ∧ r' = r.remove n ∧
      effects = [.abandoned n] := by
  cases made with
  | letGo task halted reason =>
    cases List.mem_singleton.1 seen
    exact ⟨_, task, halted, reason, rfl, rfl⟩
  | advanced task advance =>
    cases advance with
    | started _ _ _ onward | returned _ onward => cases onward <;> simp at seen
    | _ => simp at seen
  | @broken t _ task reason =>
    obtain ⟨gone, lanes, -, -, -, hlost⟩ := loseWorker_spec r t
    obtain ⟨k, heq⟩ := hlost _ seen
    cases heq
  | ended | confirmed | asked | stored | cancelled => simp at seen
  | polled polls =>
    cases polls with
    | delivered phase decoded place continues => cases continues <;> simp at seen
    | _ => simp at seen

theorem LetsGo.not_settled {t : Task F} (h : LetsGo s t a) : ¬ Settled t.stage := by
  cases h with
  | failed fails => cases fails <;> simp_all [Settled]
  | _ => simp_all [Settled]

/-- What the worker of the message called broke down: the handler of failed messages, or the
store. -/
def Action.Panics (a : Action) (n : Nat) : Prop :=
  a = .recovered n .panicked ∨ a = .stored n .panicked

theorem Fails.not_panics {t u : Task F} {name : String} {error : HandlerError}
    (h : Fails s t a name error u) (n : Nat) : ¬ a.Panics n := by
  cases h <;> simp [Action.Panics]

theorem Advance.not_panics {t u : Task F} (h : Advance s r t a u effects) (n : Nat) :
    ¬ a.Panics n := by
  cases h with
  | recovering fails _ _ => exact fails.not_panics n
  | _ => simp [Action.Panics]

theorem LetsGo.not_panics {t : Task F} (h : LetsGo s t a) (n : Nat) : ¬ a.Panics n := by
  cases h with
  | failed fails => exact fails.not_panics n
  | _ => simp [Action.Panics]

theorem Ends.not_panics {t : Task F} {e : SubscriptionError} (h : Ends s r t a e) (n : Nat) :
    ¬ a.Panics n := by
  cases h with
  | failed fails _ _ => exact fails.not_panics n
  | _ => simp [Action.Panics]

theorem Breaks.about_panics {t : Task F} {n : Nat} (h : Breaks s t a) (panics : a.Panics n) :
    t.sequence = n := by
  cases h <;> simpa [Action.Panics] using panics

/-- A breakdown takes the worker with it, and confirms nothing. -/
theorem Transition.breaks (made : Transition s r a r' effects) {n : Nat} (panics : a.Panics n) :
    ∃ t, r.task? n = some t ∧ Breaks s t a ∧ r' = (loseWorker r t).1 ∧
      effects = (loseWorker r t).2 := by
  cases made with
  | broken task reason =>
    cases reason.about_panics panics
    exact ⟨_, task, reason, rfl, rfl⟩
  | advanced task advance => exact absurd panics (advance.not_panics n)
  | letGo task halted reason => exact absurd panics (reason.not_panics n)
  | ended task reason => exact absurd panics (reason.not_panics n)
  | confirmed | asked | stored | cancelled => simp [Action.Panics] at panics
  | polled polls =>
    rcases panics with rfl | rfl
    · cases polls with
      | aborted reason | stopped reason => cases reason
    · cases polls with
      | aborted reason | stopped reason => cases reason

theorem Transition.forgets_stranded (made : Transition s r a r' effects) (hn : Numbered h r)
    (hr : ∀ t ∈ r.tasks, ¬ Settled t.stage → ∀ cause, Effect.confirmed t.sequence cause ∉ trace h)
    {n : Nat} (strands : (⟨r, a, r', effects⟩ : Entry F).Strands n) :
    Forgotten (h ++ [⟨r, a, r', effects⟩]) r' n := by
  -- Both kinds take an unsettled task of the message away, and nothing else of the run can confirm
  -- it.
  have of_gone : ∀ k, a.Panics k → ∀ t ∈ r.tasks, t.sequence = n → ¬ Settled t.stage →
      (∀ u ∈ r'.tasks, u.sequence ≠ n) → Forgotten (h ++ [⟨r, a, r', effects⟩]) r' n := by
    rintro k panics t ht rfl hopen gone
    refine ⟨Nat.lt_of_lt_of_le (hn.task_sequence_lt ht) (by simp), gone, fun cause seen => ?_⟩
    rcases mem_trace_snoc.1 seen with seen | seen
    · exact hr t ht hopen cause seen
    · obtain ⟨t', -, -, -, rfl⟩ := made.breaks panics
      obtain ⟨_, _, -, -, -, hlost⟩ := loseWorker_spec r t'
      obtain ⟨_, heq⟩ := hlost _ seen
      cases heq
  rcases strands with action | ⟨k, t, u, lane, action, task, holder, hlane, hu, rfl, queued⟩
  · dsimp only at action
    obtain ⟨t, task, reason, hrun, -⟩ := made.breaks (.inl action)
    obtain ⟨ht, rfl⟩ := mem_of_task? task
    obtain ⟨gone, lanes, hlose, hgone, -⟩ := loseWorker_spec r t
    have hopen : ¬ Settled t.stage := by
      subst action
      cases reason with
      | recovering stage => simp [stage, Settled]
    have hnone : ∀ v ∈ r'.tasks, v.sequence ≠ t.sequence := by
      intro v hv heq
      rw [hrun, hlose] at hv
      have hgv := (hgone v).2 (.inl heq)
      simp [hgv] at hv
    exact of_gone _ (.inl action) t ht rfl hopen hnone
  · dsimp only at action task hu
    obtain ⟨t', task', reason, hrun, -⟩ := made.breaks (.inr action)
    cases task.symm.trans task'
    obtain ⟨gone, lanes, hlose, hgone, -⟩ := loseWorker_spec r t
    have hopen : ¬ Settled u.stage := by
      simp only [Task.isQueuedIn, Task.isQueued, Bool.and_eq_true, decide_eq_true_eq] at queued
      simp [queued.1, Settled]
    have hnone : ∀ v ∈ r'.tasks, v.sequence ≠ u.sequence := by
      intro v hv heq
      rw [hrun, hlose] at hv
      have hvu := hn.task_eq_of_sequence (List.mem_of_mem_filter hv) hu heq
      subst hvu
      have hgv := (hgone v).2 (.inr ⟨lane, holder, hlane, queued⟩)
      simp [hgv] at hv
    exact of_gone _ (.inr action) u hu rfl hopen hnone

theorem Transition.forgets_abandoned (made : Transition s r a r' effects) (hn : Numbered h r)
    (hr : ∀ t ∈ r.tasks, ¬ Settled t.stage → ∀ cause, Effect.confirmed t.sequence cause ∉ trace h)
    {n : Nat} (seen : Effect.abandoned n ∈ effects) :
    Forgotten (h ++ [⟨r, a, r', effects⟩]) r' n := by
  obtain ⟨t, task, -, reason, rfl, rfl⟩ := made.abandoned_effect seen
  obtain ⟨ht, rfl⟩ := mem_of_task? task
  constructor
  case known => exact Nat.lt_of_lt_of_le (hn.task_sequence_lt ht) (by simp)
  case gone =>
    intro u hu
    simpa using List.of_mem_filter hu
  case unconfirmed =>
    intro cause confirmed
    rcases mem_trace_snoc.1 confirmed with confirmed | confirmed
    · exact hr t ht reason.not_settled cause confirmed
    · simp at confirmed

theorem Recorded.step (hr : Recorded h r) (hn : Numbered h r) (made : Transition s r a r' effects) :
    Recorded (h ++ [⟨r, a, r', effects⟩]) r' := by
  constructor
  case known =>
    intro n cause seen
    refine Nat.lt_of_lt_of_le ?_ (by simp : (dispatched h).length ≤ _)
    rcases mem_trace_snoc.1 seen with seen | seen
    · exact hr.known n cause seen
    · obtain ⟨⟨t, ht, rfl, -⟩, -⟩ := made.confirmed_effect seen
      exact hn.task_sequence_lt ht
  case unconfirmed =>
    intro u hu hopen cause seen
    rcases mem_trace_snoc.1 seen with seen | seen
    · rcases made.unsettled_before hn hu hopen with ⟨t, ht, heq, hopen'⟩ | hnew
      · exact hr.unconfirmed t ht hopen' cause (heq ▸ seen)
      · have := hr.known _ cause seen
        omega
    · exact hopen ((made.confirmed_effect seen).2 u hu rfl)
  case forgotten =>
    intro n lost
    rw [mem_trace_snoc, stranded_snoc] at lost
    rcases lost with (old | seen) | (old | strands)
    · exact (hr.forgotten n (.inl old)).step hn made
    · exact made.forgets_abandoned hn hr.unconfirmed seen
    · exact (hr.forgotten n (.inr old)).step hn made
    · exact made.forgets_stranded hn hr.unconfirmed strands

theorem recorded (hist : History s h r) : Recorded h r := by
  induction hist with
  | begin => exact ⟨by simp [trace], by simp, by simp [trace, Stranded]⟩
  | step past made ih => exact ih.step (numbered past) (transition_of_step made)

/-! ## 3. The halt -/

namespace Phase

/-- The poller may come here after the halt. -/
def IsWinding : Phase → Prop
  | .settling | .flushing _ | .finished _ | .aborted => True
  | _ => False

/-- Nothing is left to wait for. -/
def IsOver : Phase → Prop
  | .flushing _ | .finished _ => True
  | _ => False

end Phase

/-- The message waits for its acknowledgement when the run halts, and `t` is its task then. -/
def WaitedAtHalt (h : List (Entry F)) (n : Nat) (t : Task F) : Prop :=
  ∃ e ∈ h, e.action = .halt ∧ e.before.task? n = some t ∧ t.stage = .awaitingAck

/-- Since the halt no task is with a worker, and none is given back to one. -/
structure Winding (h : List (Entry F)) (r : Run F) : Prop where
  late : ∀ t ∈ r.tasks, t.holder = .acknowledgement → Late t.stage
  polling : r.drained = true → r.phase.IsWinding
  idle : r.drained = true → ∀ t ∈ r.tasks, t.holder = .acknowledgement
  halts : ∀ e ∈ h, e.action = .halt → r.drained = true
  once : ∀ e ∈ h, ∀ e' ∈ h, e.action = .halt → e'.action = .halt → e = e'
  waited : r.drained = true → ∀ t ∈ r.tasks, t.stage = .awaitingAck →
    ∃ t₀, WaitedAtHalt h t.sequence t₀
  since : ∀ t ∈ r.tasks, ∀ t₀, WaitedAtHalt h t.sequence t₀ →
    t.stage = .awaitingAck ∨ Settled t.stage
  empty : r.phase.IsOver → r.tasks = []

theorem WaitedAtHalt.mono {n : Nat} {t : Task F} (waited : WaitedAtHalt h n t)
    (h' : List (Entry F)) : WaitedAtHalt (h ++ h') n t := by
  obtain ⟨e, he, hwaited⟩ := waited
  exact ⟨e, List.mem_append_left h' he, hwaited⟩

theorem waitedAtHalt_snoc {n : Nat} {t : Task F} {e : Entry F} : WaitedAtHalt (h ++ [e]) n t ↔
    WaitedAtHalt h n t ∨ e.action = .halt ∧ e.before.task? n = some t ∧ t.stage = .awaitingAck := by
  simp [WaitedAtHalt, or_and_right, exists_or]

/-- The task of a message is found under its number. -/
theorem Numbered.task?_eq (hn : Numbered h r) {t : Task F} (ht : t ∈ r.tasks) :
    r.task? t.sequence = some t := by
  cases hfound : r.task? t.sequence with
  | none =>
    have hnone := List.find?_eq_none.1 hfound t ht
    simp at hnone
  | some u =>
    obtain ⟨hu, heq⟩ := mem_of_task? hfound
    rw [hn.task_eq_of_sequence hu ht heq]

theorem Onward.holder_late {t u : Task F} {handler : Nat} {status : HandlingStatus}
    (onward : Onward s t handler status u effects) (ht : t.holder ≠ .acknowledgement)
    (hu : u.holder = .acknowledgement) : Late u.stage := by
  cases onward with
  | pending => trivial
  | called | handled => exact absurd hu ht

theorem Advance.late {t u : Task F} (advance : Advance s r t a u effects)
    (ht : t.holder = .acknowledgement → Late t.stage) (hu : u.holder = .acknowledgement) :
    Late u.stage := by
  have early : ∀ {stage : Stage}, t.stage = stage → ¬ Late stage → t.holder ≠ .acknowledgement := by
    rintro stage rfl hearly holder
    exact hearly (ht holder)
  cases advance with
  | started stage _ _ onward =>
    exact onward.holder_late (t := { t with ack := .armed }) (early stage id) hu
  | returned stage onward => exact onward.holder_late (early stage id) hu
  | backedOff stage | retried stage => exact absurd hu (early stage id)
  | recovering | acknowledged | recovered => trivial
  | ackTaken | ackSettled => exact ht hu

/-- A task whose message is no longer with its handlers stays with what holds it. -/
theorem Advance.holder_eq {t u : Task F} (advance : Advance s r t a u effects)
    (late : Late t.stage) : u.holder = t.holder := by
  cases advance with
  | started stage | returned stage | backedOff stage | retried stage => simp [stage, Late] at late
  | recovering fails => cases fails <;> rfl
  | _ => rfl

/-- A task that waits for its acknowledgement goes on waiting, is settled, or fails before the
halt. -/
theorem Advance.of_awaitingAck {t u : Task F} (advance : Advance s r t a u effects)
    (stage : t.stage = .awaitingAck) :
    u.stage = .awaitingAck ∨ Settled u.stage ∨ r.isHalted = false := by
  cases advance with
  | recovering _ going => exact .inr (.inr going)
  | acknowledged => exact .inr (.inl trivial)
  | ackTaken | ackSettled => exact .inl stage
  | _ => simp_all

theorem Advance.awaitingAck {t u : Task F} (advance : Advance s r t a u effects)
    (late : Late t.stage) (stage : u.stage = .awaitingAck) : t.stage = .awaitingAck := by
  cases advance with
  | started ht | returned ht | backedOff ht | retried ht => simp [ht, Late] at late
  | ackTaken | ackSettled => exact stage
  | _ => simp at stage

theorem isHalted_of_drained (hd : r.drained = true) : r.isHalted = true := by
  simp [isHalted, hd]

theorem holder_of_heldCount (idle : r.heldCount = 0) :
    ∀ t ∈ r.tasks, t.holder = .acknowledgement := by
  intro t ht
  have hnot := List.countP_eq_zero.1 idle t ht
  cases hholder : t.holder with
  | acknowledgement => rfl
  | worker => simp [Task.isHeld, hholder] at hnot

/-- The halt is the one step that drains the run. -/
theorem Transition.drained (made : Transition s r a r' effects) :
    (a ≠ .halt ∧ r'.drained = r.drained) ∨
      (a = .halt ∧ r.phase = .draining ∧ r'.drained = true ∧ r'.tasks = r.tasks ∧ r.heldCount = 0 ∧
        r'.phase = .settling) := by
  rcases made.polls_or_aside with polls | aside
  · cases polls with
    | halted phase idle => exact .inr ⟨rfl, phase, rfl, rfl, idle, rfl⟩
    | aborted reason => exact .inl ⟨(by rintro rfl; cases reason), rfl⟩
    | stopped reason => exact .inl ⟨(by rintro rfl; cases reason), rfl⟩
    | _ => exact .inl ⟨by simp, rfl⟩
  · refine .inl ⟨?_, aside.drained⟩
    rintro rfl
    rcases aside.about with heq | ⟨n, heq⟩ <;> cases heq

/-- Where the poller goes from where it may be after the halt. -/
theorem Polls.winding (polls : Polls s r a r' effects) (hw : r.phase.IsWinding) :
    r'.phase.IsWinding := by
  cases polls with
  | subscribed phase | loaded phase | unloaded phase | nothingNew phase | pageArrived phase
  | readAgain phase
  | woken phase | delivered phase | undelivered phase | halted phase =>
    simp [phase, Phase.IsWinding] at hw
  | stopped reason => cases reason <;> rename_i phase _ <;> simp [phase, Phase.IsWinding] at hw
  | interrupted phase => rcases phase with phase | phase <;> simp [phase, Phase.IsWinding] at hw
  | aborted | flushing | unflushed | flushed | flushFailed => trivial

theorem not_isWinding_of_cursor {phase : Phase} {cursor : Cursor}
    (here : phase.cursor? = some cursor) : ¬ phase.IsWinding := by
  cases phase <;> first | exact id | cases here

namespace Winding

theorem step_late (hw : Winding h r) (made : Transition s r a r' effects) :
    ∀ u ∈ r'.tasks, u.holder = .acknowledgement → Late u.stage := by
  intro u hu holder
  rcases made.arises hu with hold | arises
  · exact hw.late u hold holder
  · cases arises with
    | advanced task advance => exact advance.late (hw.late _ (mem_of_task? task).1) holder
    | asked => trivial
    | delivered => cases holder

theorem step_idle (hw : Winding h r) (made : Transition s r a r' effects) (hd : r.drained = true) :
    ∀ u ∈ r'.tasks, u.holder = .acknowledgement := by
  intro u hu
  rcases made.arises hu with hold | arises
  · exact hw.idle hd u hold
  · cases arises with
    | @advanced t _ _ _ task advance =>
      have holder := hw.idle hd t (mem_of_task? task).1
      rw [advance.holder_eq (hw.late t (mem_of_task? task).1 holder), holder]
    | @asked t _ _ task => exact hw.idle hd t (mem_of_task? task).1
    | delivered here => exact absurd (hw.polling hd) (not_isWinding_of_cursor here)

theorem step_waited (hw : Winding h r)
    (made : Transition s r a r' effects) (hd : r.drained = true) :
    ∀ u ∈ r'.tasks, u.stage = .awaitingAck → ∃ t₀, WaitedAtHalt h u.sequence t₀ := by
  intro u hu stage
  rcases made.arises hu with hold | arises
  · exact hw.waited hd u hold stage
  · cases arises with
    | @advanced t _ _ _ task advance =>
      have ht := (mem_of_task? task).1
      have hwaits := advance.awaitingAck (hw.late t ht (hw.idle hd t ht)) stage
      rw [show u.sequence = t.sequence from congrArg (·.sequence) advance.position_eq]
      exact hw.waited hd t ht hwaits
    | asked => cases stage
    | delivered => cases stage

theorem step_since (hw : Winding h r) (made : Transition s r a r' effects) {u : Task F}
    (hu : u ∈ r'.tasks) {t₀ : Task F} (waited : WaitedAtHalt h u.sequence t₀) :
    u.stage = .awaitingAck ∨ Settled u.stage := by
  have hd : r.drained = true := by
    obtain ⟨e, he, hhalt, -⟩ := waited
    exact hw.halts e he hhalt
  rcases made.arises hu with hold | arises
  · exact hw.since u hold t₀ waited
  · cases arises with
    | @advanced t _ _ _ task advance =>
      rw [show u.sequence = t.sequence from congrArg (·.sequence) advance.position_eq] at waited
      rcases hw.since t (mem_of_task? task).1 t₀ waited with stage | settled
      · rcases advance.of_awaitingAck stage with hstage | hsettled | going
        · exact .inl hstage
        · exact .inr hsettled
        · rw [isHalted_of_drained hd] at going
          cases going
      · exact .inr (advance.settled settled)
    | asked => exact .inr trivial
    | delivered here => exact absurd (hw.polling hd) (not_isWinding_of_cursor here)

theorem step_empty (hw : Winding h r) (hn : Numbered h r) (made : Transition s r a r' effects)
    (done : r'.phase.IsOver) : r'.tasks = [] := by
  rcases made.polls_or_aside with polls | aside
  · cases polls with
    | unloaded phase =>
      have hsub := hn.tasks
      rw [hn.early (by simp [phase, Phase.IsEarly])] at hsub
      simpa using hsub
    | flushing phase empty | unflushed phase empty => exact empty
    | flushed phase | flushFailed phase => exact hw.empty (by simp [phase, Phase.IsOver])
    | delivered phase decoded place continues => cases continues <;> exact absurd done id
    | _ => exact absurd done id
  · rw [aside.phase] at done
    have hsub := made.tasks_sublist hn.nodup aside.quiet
    rw [hw.empty done] at hsub
    simpa using hsub

/-- Any step but the halt. -/
theorem step_going (hw : Winding h r) (hn : Numbered h r) (made : Transition s r a r' effects)
    (hne : a ≠ .halt) (heq : r'.drained = r.drained) : Winding (h ++ [⟨r, a, r', effects⟩]) r' := by
  have hold : ∀ e ∈ h ++ [(⟨r, a, r', effects⟩ : Entry F)], e.action = .halt → e ∈ h := by
    intro e he hhalt
    rcases List.mem_append.1 he with he | he
    · exact he
    · cases List.mem_singleton.1 he
      exact absurd hhalt hne
  constructor
  case late => exact hw.step_late made
  case empty => exact hw.step_empty hn made
  case idle => exact fun hd => hw.step_idle made (heq ▸ hd)
  case polling =>
    intro hd
    rw [heq] at hd
    rcases made.polls_or_aside with polls | aside
    · exact polls.winding (hw.polling hd)
    · rw [aside.phase]
      exact hw.polling hd
  case halts =>
    intro e he hhalt
    rw [heq]
    exact hw.halts e (hold e he hhalt) hhalt
  case once =>
    intro e he e' he' hhalt hhalt'
    exact hw.once e (hold e he hhalt) e' (hold e' he' hhalt') hhalt hhalt'
  case waited =>
    intro hd u hu stage
    obtain ⟨t₀, waited⟩ := hw.step_waited made (heq ▸ hd) u hu stage
    exact ⟨t₀, waited.mono _⟩
  case since =>
    intro u hu t₀ waited
    rcases waitedAtHalt_snoc.1 waited with waited | ⟨hhalt, -⟩
    · exact hw.step_since made hu waited
    · exact absurd hhalt hne

/-- The halt.  The run was not drained before, so this is the first one. -/
theorem step_halt (hw : Winding h r) (hn : Numbered h r) (made : Transition s r .halt r' effects)
    (phase : r.phase = .draining) (hd : r'.drained = true) (htasks : r'.tasks = r.tasks)
    (idle : r.heldCount = 0) (phase' : r'.phase = .settling) :
    Winding (h ++ [⟨r, .halt, r', effects⟩]) r' := by
  have first : r.drained ≠ true := by
    intro hd
    have := hw.polling hd
    simp [phase, Phase.IsWinding] at this
  have fresh : ∀ e ∈ h, e.action ≠ .halt := fun e he hhalt => first (hw.halts e he hhalt)
  have hlast : ∀ e ∈ h ++ [(⟨r, .halt, r', effects⟩ : Entry F)], e.action = .halt →
      e = ⟨r, .halt, r', effects⟩ := by
    intro e he hhalt
    rcases List.mem_append.1 he with he | he
    · exact absurd hhalt (fresh e he)
    · exact List.mem_singleton.1 he
  constructor
  case late => exact hw.step_late made
  case empty => exact hw.step_empty hn made
  case polling =>
    intro _
    simp [phase', Phase.IsWinding]
  case idle =>
    intro _
    rw [htasks]
    exact holder_of_heldCount idle
  case halts => exact fun _ _ _ => hd
  case once =>
    intro e he e' he' hhalt hhalt'
    rw [hlast e he hhalt, hlast e' he' hhalt']
  case waited =>
    intro _ u hu stage
    rw [htasks] at hu
    exact ⟨u, waitedAtHalt_snoc.2 (.inr ⟨rfl, hn.task?_eq hu, stage⟩)⟩
  case since =>
    intro u hu t₀ waited
    rw [htasks] at hu
    rcases waitedAtHalt_snoc.1 waited with ⟨e, he, hhalt, -⟩ | ⟨-, task, stage⟩
    · exact absurd hhalt (fresh e he)
    · cases (hn.task?_eq hu).symm.trans task
      exact .inl stage

theorem step (hw : Winding h r) (hn : Numbered h r) (made : Transition s r a r' effects) :
    Winding (h ++ [⟨r, a, r', effects⟩]) r' := by
  rcases made.drained with ⟨hne, heq⟩ | ⟨rfl, phase, hd, htasks, idle, phase'⟩
  · exact hw.step_going hn made hne heq
  · exact hw.step_halt hn made phase hd htasks idle phase'

end Winding

theorem winding (hist : History s h r) : Winding h r := by
  induction hist with
  | begin => exact ⟨by simp, by simp, by simp, by simp, by simp, by simp, by simp, fun _ => rfl⟩
  | step past made ih => exact ih.step (numbered past) (transition_of_step made)

theorem Polls.not_finished (h : Polls s r a r' effects) (result : Except SubscriptionError Unit) :
    r.phase ≠ .finished result := by
  intro finished
  cases h with
  | aborted reason | stopped reason => cases reason <;> simp_all
  | interrupted phase => simp_all
  | _ => simp_all

/-- A run that has ended makes no step but to be asked to stop. -/
theorem rests_of_finished (hist : History s h r) (made : step s r a = some (r', effects))
    {result : Except SubscriptionError Unit} (finished : r.phase = .finished result) :
    r' = { r with cancelled := true } := by
  have hnone := (winding hist).empty (by rw [finished]; trivial)
  rcases (transition_of_step made).polls_or_aside with polls | aside
  · exact (polls.not_finished result finished).elim
  · rcases aside.about with rfl | ⟨n, about⟩
    · cases made
      rfl
    · simp [step, about, task?, hnone] at made

theorem Transition.stays_finished (made : Transition s r a r' effects)
    {result : Except SubscriptionError Unit} (finished : r.phase = .finished result) :
    r'.phase = .finished result := by
  rcases made.polls_or_aside with polls | aside
  · exact (polls.not_finished result finished).elim
  · exact aside.phase.trans finished

end Run
end EventSourcing

/-
# What a step of a run can do

`Run.step` opens into a few kinds of change: a task goes on in its place, a task ends in one of six
ways, or the poller moves.  Each kind is a constructor here, with everything the step checks and
everything it changes, so that later arguments go through the kinds and never through the code of a
step.

What the file settles:

* `Onward`, `Advance`: a task that goes on, with its new stage;
* `Transition`: all steps, with what becomes of the run;
* `transition_of_step`: a step is one of these.
-/
import EventSourcing.Subscription.Run.Step

namespace EventSourcing
namespace Run

variable {F : PayloadFamily}

/-! ## 1. Tasks of a run -/

theorem mem_of_task? {r : Run F} {n : Nat} {t : Task F} (h : r.task? n = some t) :
    t ∈ r.tasks ∧ t.sequence = n := by
  refine ⟨List.mem_of_find?_eq_some h, ?_⟩
  simpa using List.find?_some h

@[simp] theorem tasks_drop (r : Run F) (e : SubscriptionError) : (r.drop e).tasks = r.tasks := rfl

theorem isDropped_drop (r : Run F) (e : SubscriptionError) : (r.drop e).isDropped = true := by
  cases h : r.failure <;> simp [drop, isDropped, h]

/-- A task of the run after a replacement is the new one, or an old one of another message. -/
theorem mem_put {r : Run F} {t u : Task F} (h : u ∈ (r.put t).tasks) :
    u = t ∨ u ∈ r.tasks ∧ u.sequence ≠ t.sequence := by
  obtain ⟨v, hv, rfl⟩ := List.mem_map.1 h
  split
  · exact .inl rfl
  · rename_i hne
    exact .inr ⟨hv, hne⟩

/-! ## 2. Tasks that go on -/

/-- Where a task goes once the handlers before `handler` made `status` of its message. -/
inductive Onward (s : Subscription F) (t : Task F) (handler : Nat) (status : HandlingStatus) :
    Task F → List (Effect F) → Prop where
  | called (more : handler < s.handlers.length) :
    Onward s t handler status
      { t with
        message := { t.message with retryCount := 0 }
        stage := .calling ⟨handler, 0⟩ status }
      [.called handler { t.message with retryCount := 0 }]
  | pending (all : s.handlers.length ≤ handler) (status_eq : status = .pending) :
    Onward s t handler status
      { t with ack := t.ack.close, stage := .awaitingAck, holder := .acknowledgement } []
  | handled (all : s.handlers.length ≤ handler) (status_ne : status ≠ .pending) :
    Onward s t handler status { t with ack := t.ack.close, stage := .confirming }
      [.confirmed t.sequence .handled]

/-- An attempt came to a bad end with this error. -/
inductive AttemptFails (s : Subscription F) : AttemptEnd → HandlerError → Prop where
  | failed (error : HandlerError) : AttemptFails s (.failed error) error
  | timedOut {limit : Duration} (limited : s.options.handlerTimeout = some limit) :
    AttemptFails s .timedOut (.timedOut limit)

/-- The waiting side was refused the acknowledgement for this reason. -/
inductive Refuses : Acknowledgement → HandlerError → Prop where
  | nacked (reason : String) : Refuses (.nacked reason) (.nacked reason)
  | dropped : Refuses .dropped (.nacked "acknowledgement dropped")

/-- The message of a task has failed for good: an attempt was the last one, or the acknowledgement
was refused.  `name` appears in errors, and `u` is the task as it is then. -/
inductive Fails (s : Subscription F) (t : Task F) :
    Action → (name : String) → HandlerError → (u : Task F) → Prop where
  | exhausted {attempt : Attempt} {status : HandlingStatus} {outcome : AttemptEnd}
    {error : HandlerError} (stage : t.stage = .calling attempt status)
    (ends : AttemptFails s outcome error) (last : s.options.retry.maxRetries ≤ attempt.retry) :
    Fails s t (.attemptEnded t.sequence outcome) (s.handlerName attempt.handler) error
      { t with ack := t.ack.close }
  | refused {answer : Acknowledgement} {error : HandlerError} (stage : t.stage = .awaitingAck)
    (known : t.ack.answer? = some answer) (refuses : Refuses answer error) :
    Fails s t (.resume t.sequence) acknowledgementName error t

/-- How a task goes on in its place. -/
inductive Advance (s : Subscription F) (r : Run F) (t : Task F) :
    Action → Task F → List (Effect F) → Prop where
  | started {u : Task F} {effects : List (Effect F)} (stage : t.stage = .queued)
    (free : r.mayStart t = true) (going : r.isHalted = false)
    (onward : Onward s { t with ack := .armed } 0 .ignored u effects) :
    Advance s r t (.start t.sequence) u effects
  | returned {attempt : Attempt} {status answer : HandlingStatus} {u : Task F}
    {effects : List (Effect F)} (stage : t.stage = .calling attempt status)
    (onward : Onward s t (attempt.handler + 1) (status.combine answer) u effects) :
    Advance s r t (.attemptEnded t.sequence (.returned answer)) u effects
  | backedOff {attempt : Attempt} {status : HandlingStatus} {outcome : AttemptEnd}
    {error : HandlerError} (stage : t.stage = .calling attempt status)
    (ends : AttemptFails s outcome error) (more : attempt.retry < s.options.retry.maxRetries) :
    Advance s r t (.attemptEnded t.sequence outcome)
      { t with
        message := { t.message with retryCount := attempt.retry + 1 }
        stage := .backingOff ⟨attempt.handler, attempt.retry + 1⟩ status error }
      [.backedOff t.sequence (s.options.retry.delayFor (attempt.retry + 1))]
  | retried {next : Attempt} {status : HandlingStatus} {error : HandlerError}
    (stage : t.stage = .backingOff next status error) :
    Advance s r t (.retry t.sequence)
      { t with
        message := { t.message with retryCount := next.retry }
        stage := .calling next status }
      [.called next.handler { t.message with retryCount := next.retry }]
  | recovering {a : Action} {name rescuer : String} {error : HandlerError} {u : Task F}
    (fails : Fails s t a name error u) (going : r.isHalted = false)
    (rescue : s.failureHandler = some rescuer) :
    Advance s r t a { u with stage := .recovering error } [.recovering u.message error]
  | ackTaken {attempt : Attempt} (armed : t.ack = .armed) (made : t.hasMade attempt = true) :
    Advance s r t (.takeAck t.sequence attempt) { t with ack := .taken attempt } []
  | ackSettled {attempt : Attempt} {answer : Acknowledgement} (taken : t.ack = .taken attempt) :
    Advance s r t (.settleAck t.sequence answer) { t with ack := .settled attempt answer } []
  | acknowledged (stage : t.stage = .awaitingAck) (known : t.ack.answer? = some .acked) :
    Advance s r t (.resume t.sequence) { t with stage := .confirming }
      [.confirmed t.sequence .acknowledged]
  | recovered {error : HandlerError} {rescuer : String} (stage : t.stage = .recovering error)
    (rescue : s.failureHandler = some rescuer) :
    Advance s r t (.recovered t.sequence (.ok ())) { t with stage := .confirming }
      [.confirmed t.sequence .recovered]

/-! ## 3. Tasks that end -/

/-- The message of a task is let go because the run is coming to its end. -/
inductive LetsGo (s : Subscription F) (t : Task F) : Action → Prop where
  | untouched (stage : t.stage = .queued) : LetsGo s t (.start t.sequence)
  | failed {a : Action} {name : String} {error : HandlerError} {u : Task F}
    (fails : Fails s t a name error u) :
    LetsGo s t a
  | cutShort {next : Attempt} {status : HandlingStatus} {error : HandlerError}
    (stage : t.stage = .backingOff next status error) : LetsGo s t (.giveUp t.sequence)
  | unanswered (stage : t.stage = .awaitingAck) : LetsGo s t (.abandon t.sequence)

/-- The message of a task ends the subscription with an error. -/
inductive Ends (s : Subscription F) (r : Run F) (t : Task F) :
    Action → SubscriptionError → Prop where
  | failed {a : Action} {name : String} {error : HandlerError} {u : Task F}
    (fails : Fails s t a name error u) (going : r.isHalted = false)
    (alone : s.failureHandler = none) :
    Ends s r t a (handlerError t.message name error)
  | panicked {attempt : Attempt} {status : HandlingStatus} {text : Option String}
    (stage : t.stage = .calling attempt status) :
    Ends s r t (.attemptEnded t.sequence (.panicked text))
      (.handlerPanicked (s.handlerName attempt.handler) t.message.id (text.getD "unknown panic"))
  | unrecovered {error failure : HandlerError} {rescuer : String}
    (stage : t.stage = .recovering error) (rescue : s.failureHandler = some rescuer) :
    Ends s r t (.recovered t.sequence (.failed failure)) (handlerError t.message rescuer failure)
  | unstored {p : CommitPosition} {error : CheckpointError} (stage : t.stage = .storing p) :
    Ends s r t (.stored t.sequence (.failed error)) (.checkpoint error)

/-- What holds the task breaks down with what it called. -/
inductive Breaks (s : Subscription F) (t : Task F) : Action → Prop where
  | recovering {error : HandlerError} {rescuer : String} (stage : t.stage = .recovering error)
    (rescue : s.failureHandler = some rescuer) : Breaks s t (.recovered t.sequence .panicked)
  | storing {p : CommitPosition} (stage : t.stage = .storing p) :
    Breaks s t (.stored t.sequence .panicked)

/-! ## 4. The poller -/

/-- How a run ends whose handling is done. -/
def verdict (r : Run F) : Except SubscriptionError Unit :=
  match r.failure with
  | some e => .error e
  | none => .ok ()

/-- The status a run ends in. -/
def lastStatus (r : Run F) : SubscriptionStatus := if r.isDropped then .dropped else .stopped

theorem finish_eq (r : Run F) :
    finish r =
      ({ r with phase := .finished r.verdict }, [.status r.lastStatus, .finished r.verdict]) := by
  unfold finish verdict lastStatus isDropped
  cases r.failure <;> rfl

/-- Where the poller goes after it handed an event out; `rest` is what is left of the page. -/
inductive Continues (s : Subscription F) (r : Run F) (cursor : Cursor) :
    List StoredEvent → Phase → List (Effect F) → Prop where
  | interrupted {rest : List StoredEvent} (stop : r.isInterrupted = true) :
    Continues s r cursor rest .draining []
  | nextPage (going : r.isInterrupted = false) :
    Continues s r cursor [] (.reading cursor) [.reading cursor.after s.options.pageSize]
  | nextEvent {e : StoredEvent} {rest : List StoredEvent} (going : r.isInterrupted = false) :
    Continues s r cursor (e :: rest) (.delivering cursor (e :: rest)) []

/-- The cursor after an event was handed out. -/
def cursorAfter (s : Subscription F) (cursor : Cursor) (e : StoredEvent) : Cursor :=
  { cursor with after := some (s.position e), sequence := cursor.sequence + 1 }

/-- The poller breaks down. -/
inductive Aborts (s : Subscription F) (r : Run F) : Action → Prop where
  | infeasible {c : Checkpoint} (phase : r.phase = .loading)
    (mode : s.options.mode.isFeasible = false) :
    Aborts s r (.checkpointLoaded (.ok c))
  | loading (phase : r.phase = .loading) : Aborts s r (.checkpointLoaded .panicked)
  | reading {cursor : Cursor} (phase : r.phase = .reading cursor) : Aborts s r (.pageRead .panicked)
  | delivering {cursor : Cursor} {e : StoredEvent} {rest : List StoredEvent} {m : Message F}
    (phase : r.phase = .delivering cursor (e :: rest))
    (decoded : s.decode e cursor.sequence = .ok m) (place : destination s r m = .unknown) :
    Aborts s r .deliver
  | flushing {p : CommitPosition} (phase : r.phase = .flushing p) : Aborts s r (.flushed .panicked)

/-- Polling stops on an error. -/
inductive Stops (s : Subscription F) (r : Run F) : Action → SubscriptionError → Prop where
  | unreadable {cursor : Cursor} {error : StoreError} (phase : r.phase = .reading cursor)
    (final : (error.isTransient && decide (cursor.failures < s.options.maxPollFailures)) = false) :
    Stops s r (.pageRead (.failed error)) (.store error)
  | undecodable {cursor : Cursor} {e : StoredEvent} {rest : List StoredEvent}
    {error : SubscriptionError} (phase : r.phase = .delivering cursor (e :: rest))
    (refused : s.decode e cursor.sequence = .error error) :
    Stops s r .deliver error

/-- How the poller moves. -/
inductive Polls (s : Subscription F) (r : Run F) : Action → Run F → List (Effect F) → Prop where
  | subscribed (phase : r.phase = .created) :
    Polls s r .subscribe { r with phase := .loading } [.status .subscribing, .loading]
  | loaded {c : Checkpoint} (phase : r.phase = .loading) (mode : s.options.mode.isFeasible = true) :
    Polls s r (.checkpointLoaded (.ok c)) { r with phase := .reading { after := c.position } }
      [.status .running, .reading c.position s.options.pageSize]
  | unloaded {error : CheckpointError} (phase : r.phase = .loading) :
    Polls s r (.checkpointLoaded (.failed error))
      { r with phase := .finished (.error (.checkpoint error)) }
      [.status .dropped, .finished (.error (.checkpoint error))]
  | aborted {a : Action} (reason : Aborts s r a) :
    Polls s r a { r with phase := .aborted } [.aborted]
  | stopped {a : Action} {e : SubscriptionError} (reason : Stops s r a e) :
    Polls s r a { r.drop e with phase := .draining } [.dropped e]
  | nothingNew {cursor : Cursor} (phase : r.phase = .reading cursor) :
    Polls s r (.pageRead (.ok [])) { r with phase := .sleeping { cursor with failures := 0 } }
      [.sleeping s.options.pollInterval]
  | pageArrived {cursor : Cursor} {e : StoredEvent} {rest : List StoredEvent}
    (phase : r.phase = .reading cursor) :
    Polls s r (.pageRead (.ok (e :: rest)))
      { r with phase := .delivering { cursor with failures := 0 } (e :: rest) } []
  | readAgain {cursor : Cursor} {error : StoreError} (phase : r.phase = .reading cursor)
    (transient : error.isTransient = true)
    (tolerated : cursor.failures < s.options.maxPollFailures) :
    Polls s r (.pageRead (.failed error))
      { r with phase := .sleeping { cursor with failures := cursor.failures + 1 } }
      [.sleeping (s.options.pollBackoff (cursor.failures + 1))]
  | woken {cursor : Cursor} (phase : r.phase = .sleeping cursor) :
    Polls s r .wake { r with phase := .reading cursor } [.reading cursor.after s.options.pageSize]
  | interrupted {cursor : Cursor} (phase : r.phase = .reading cursor ∨ r.phase = .sleeping cursor)
    (stop : r.isInterrupted = true) : Polls s r .interrupt { r with phase := .draining } []
  | delivered {cursor : Cursor} {e : StoredEvent} {rest : List StoredEvent}
    {m : Message F} {lane : Option Nat} {phase' : Phase}
    {effects : List (Effect F)} (phase : r.phase = .delivering cursor (e :: rest))
    (decoded : s.decode e cursor.sequence = .ok m) (place : destination s r m = .open lane)
    (continues : Continues s r (cursorAfter s cursor e) rest phase' effects) :
    Polls s r .deliver { r with tasks := r.tasks ++ [{ message := m, lane }], phase := phase' }
      (.dispatched m :: effects)
  | undelivered {cursor : Cursor} {e : StoredEvent} {rest : List StoredEvent}
    {m : Message F} {lane : Nat} (phase : r.phase = .delivering cursor (e :: rest))
    (decoded : s.decode e cursor.sequence = .ok m) (place : destination s r m = .stopped lane) :
    Polls s r .deliver { r.drop (.workerStopped lane) with phase := .draining }
      [.dispatched m, .lost m.sequence, .dropped (.workerStopped lane)]
  | halted (phase : r.phase = .draining) (idle : r.heldCount = 0) :
    Polls s r .halt { r with phase := .settling, drained := true } []
  | flushing {p : CommitPosition} (phase : r.phase = .settling) (empty : r.tasks = [])
    (due : r.committer.due = some p) :
    Polls s r .flush { r with phase := .flushing p } [.storing (s.checkpoint p.position) true]
  | unflushed (phase : r.phase = .settling) (empty : r.tasks = []) (due : r.committer.due = none) :
    Polls s r .flush { r with phase := .finished r.verdict }
      [.status r.lastStatus, .finished r.verdict]
  | flushed {p : CommitPosition} (phase : r.phase = .flushing p) :
    Polls s r (.flushed (.ok ()))
      { r with committer := r.committer.flushed, phase := .finished r.verdict }
      [.status r.lastStatus, .finished r.verdict]
  | flushFailed {p : CommitPosition} {error : CheckpointError} (phase : r.phase = .flushing p) :
    Polls s r (.flushed (.failed error))
      { r.drop (.checkpoint error) with phase := .finished (r.drop (.checkpoint error)).verdict }
      [.dropped (.checkpoint error), .status .dropped,
        .finished (r.drop (.checkpoint error)).verdict]

/-! ## 5. All steps -/

/-- What a step of a run does. -/
inductive Transition (s : Subscription F) (r : Run F) :
    Action → Run F → List (Effect F) → Prop where
  | advanced {t u : Task F} {a : Action} {effects : List (Effect F)}
    (task : r.task? t.sequence = some t) (advance : Advance s r t a u effects) :
    Transition s r a (r.put u) effects
  | letGo {t : Task F} {a : Action} (task : r.task? t.sequence = some t)
    (halted : r.isHalted = true) (reason : LetsGo s t a) :
    Transition s r a (r.remove t.sequence) [.abandoned t.sequence]
  | ended {t : Task F} {a : Action} {e : SubscriptionError} (task : r.task? t.sequence = some t)
    (reason : Ends s r t a e) : Transition s r a ((r.remove t.sequence).drop e) [.dropped e]
  | broken {t : Task F} {a : Action} (task : r.task? t.sequence = some t) (reason : Breaks s t a) :
    Transition s r a (loseWorker r t).1 (loseWorker r t).2
  | confirmed {t : Task F} {c : Committer} (task : r.task? t.sequence = some t)
    (stage : t.stage = .confirming) (free : r.isStoring = false)
    (answer : r.committer.confirm t.message.position = (none, c)) :
    Transition s r (.confirm t.sequence) { r.remove t.sequence with committer := c } []
  | asked {t : Task F} {p : CommitPosition} {c : Committer} (task : r.task? t.sequence = some t)
    (stage : t.stage = .confirming) (free : r.isStoring = false)
    (answer : r.committer.confirm t.message.position = (some p, c)) :
    Transition s r (.confirm t.sequence)
      { r.put { t with stage := .storing p } with committer := c }
      [.storing (s.checkpoint p.position) false]
  | stored {t : Task F} {p : CommitPosition} (task : r.task? t.sequence = some t)
    (stage : t.stage = .storing p) :
    Transition s r (.stored t.sequence (.ok ()))
      { r.remove t.sequence with committer := r.committer.recorded p } [.committed p]
  | cancelled : Transition s r .cancel { r with cancelled := true } []
  | polled {a : Action} {r' : Run F} {effects : List (Effect F)} (polls : Polls s r a r' effects) :
    Transition s r a r' effects

/-! ## 6. Every step is a transition -/

theorem Transition.of_move {s : Subscription F} {r r' : Run F} {a : Action}
    {effects : List (Effect F)} {m : Move F} (move : Transition s r a m.1 m.2)
    (h : some m = some (r', effects)) : Transition s r a r' effects := by
  cases h
  exact move

theorem Polls.of_move {s : Subscription F} {r r' : Run F} {a : Action} {effects : List (Effect F)}
    {m : Move F} (move : Polls s r a m.1 m.2) (h : some m = some (r', effects)) :
    Polls s r a r' effects := by
  cases h
  exact move

theorem callNext_spec (s : Subscription F) (r : Run F) (t : Task F) (handler : Nat)
    (status : HandlingStatus) :
    ∃ u effects, Onward s t handler status u effects ∧
      callNext s r t handler status = (r.put u, effects) := by
  unfold callNext
  split
  · rename_i more
    exact ⟨_, _, .called more, rfl⟩
  · rename_i all
    have all : s.handlers.length ≤ handler := Nat.le_of_not_lt all
    cases status with
    | pending => exact ⟨_, _, .pending all rfl, rfl⟩
    | ignored => exact ⟨_, _, .handled all (by simp), rfl⟩
    | success => exact ⟨_, _, .handled all (by simp), rfl⟩

/-- A message that failed goes one of three ways. -/
theorem transition_of_fail {s : Subscription F} {r : Run F}
    {t u : Task F} {a : Action} {name : String} {error : HandlerError}
    (task : r.task? t.sequence = some t) (fails : Fails s t a name error u) :
    Transition s r a (fail s r u name error).1 (fail s r u name error).2 := by
  have hmessage : u.message = t.message := by cases fails <;> rfl
  have hsequence : u.sequence = t.sequence := congrArg (·.sequence) hmessage
  unfold fail
  split
  · rename_i halted
    simp only [abandonTask, hsequence]
    exact .letGo task halted (.failed fails)
  · rename_i going
    split
    · rename_i alone
      simp only [dropTask, hsequence, hmessage]
      exact .ended task (.failed fails (by simpa using going) alone)
    · rename_i rescuer rescue
      exact .advanced task (.recovering fails (by simpa using going) rescue)

theorem transition_of_attemptFailed {s : Subscription F} {r : Run F} {t : Task F}
    {attempt : Attempt} {status : HandlingStatus} {outcome : AttemptEnd} {error : HandlerError}
    (task : r.task? t.sequence = some t) (stage : t.stage = .calling attempt status)
    (ends : AttemptFails s outcome error) :
    Transition s r (.attemptEnded t.sequence outcome) (attemptFailed s r t attempt status error).1
      (attemptFailed s r t attempt status error).2 := by
  unfold attemptFailed
  split
  · rename_i last
    exact transition_of_fail task (.exhausted stage ends last)
  · rename_i more
    exact .advanced task (.backedOff stage ends (by omega))

theorem transition_of_attemptEnded {s : Subscription F} {r r' : Run F} {t : Task F}
    {attempt : Attempt} {status : HandlingStatus} {outcome : AttemptEnd} {effects : List (Effect F)}
    (task : r.task? t.sequence = some t) (stage : t.stage = .calling attempt status)
    (h : attemptEnded s r t attempt status outcome = some (r', effects)) :
    Transition s r (.attemptEnded t.sequence outcome) r' effects := by
  cases outcome with
  | returned answer =>
    obtain ⟨u, fx, onward, heq⟩ := callNext_spec s r t (attempt.handler + 1) (status.combine answer)
    simp only [attemptEnded, heq, Option.some.injEq, Prod.mk.injEq] at h
    obtain ⟨rfl, rfl⟩ := h
    exact .advanced task (.returned stage onward)
  | failed error => exact (transition_of_attemptFailed task stage (.failed error)).of_move h
  | timedOut =>
    obtain ⟨limit, limited, h⟩ := Option.map_eq_some_iff.1 h
    exact (transition_of_attemptFailed task stage (.timedOut limited)).of_move (congrArg some h)
  | panicked text =>
    cases h
    exact .ended task (.panicked stage)

theorem transition_of_resume {s : Subscription F} {r : Run F} {t : Task F}
    {answer : Acknowledgement} (task : r.task? t.sequence = some t) (stage : t.stage = .awaitingAck)
    (known : t.ack.answer? = some answer) :
    Transition s r (.resume t.sequence) (acknowledged s r t answer).1
      (acknowledged s r t answer).2 := by
  cases answer with
  | acked => exact .advanced task (.acknowledged stage known)
  | nacked reason => exact transition_of_fail task (.refused stage known (.nacked reason))
  | dropped => exact transition_of_fail task (.refused stage known .dropped)

theorem transition_of_confirm {s : Subscription F} {r : Run F}
    {t : Task F} (task : r.task? t.sequence = some t)
    (stage : t.stage = .confirming) (free : r.isStoring = false) :
    Transition s r (.confirm t.sequence) (confirm s r t).1 (confirm s r t).2 := by
  unfold confirm
  split
  · rename_i c answer
    exact .confirmed task stage free answer
  · rename_i p c answer
    exact .asked task stage free answer

theorem transition_of_stored {s : Subscription F} {r : Run F} {t : Task F} {p : CommitPosition}
    {reply : Reply CheckpointError Unit}
    (task : r.task? t.sequence = some t) (stage : t.stage = .storing p) :
    Transition s r (.stored t.sequence reply) (stored r t p reply).1 (stored r t p reply).2 := by
  cases reply with
  | ok _ => exact .stored task stage
  | failed error => exact .ended task (.unstored stage)
  | panicked => exact .broken task (.storing stage)

theorem transition_of_recovered {s : Subscription F} {r : Run F} {t : Task F} {error : HandlerError}
    {rescuer : String} {reply : Reply HandlerError Unit} (task : r.task? t.sequence = some t)
    (stage : t.stage = .recovering error) (rescue : s.failureHandler = some rescuer) :
    Transition s r (.recovered t.sequence reply) (recovered r t rescuer reply).1
      (recovered r t rescuer reply).2 := by
  cases reply with
  | ok _ => exact .advanced task (.recovered stage rescue)
  | failed failure => exact .ended task (.unrecovered stage rescue)
  | panicked => exact .broken task (.recovering stage rescue)

theorem transition_of_start {s : Subscription F} {r : Run F} {t : Task F}
    (task : r.task? t.sequence = some t) (stage : t.stage = .queued) (free : r.mayStart t = true) :
    Transition s r (.start t.sequence) (start s r t).1 (start s r t).2 := by
  unfold start
  split
  · rename_i halted
    exact .letGo task halted (.untouched stage)
  · rename_i going
    obtain ⟨u, effects, onward, heq⟩ := callNext_spec s r { t with ack := .armed } 0 .ignored
    rw [heq]
    exact .advanced task (.started stage free (by simpa using going) onward)

/-- A retry that is given up is let go. -/
theorem transition_of_giveUp {s : Subscription F} {r : Run F} {t : Task F} {next : Attempt}
    {status : HandlingStatus} {error : HandlerError} (task : r.task? t.sequence = some t)
    (stage : t.stage = .backingOff next status error) (halted : r.isHalted = true) (name : String) :
    Transition s r (.giveUp t.sequence) (fail s r { t with ack := t.ack.close } name error).1
      (fail s r { t with ack := t.ack.close } name error).2 := by
  unfold fail
  rw [if_pos halted]
  exact .letGo (t := t) task halted (.cutShort stage)

theorem transition_of_taskStep {s : Subscription F} {r r' : Run F} {t : Task F} {a : Action}
    {effects : List (Effect F)} (task : r.task? t.sequence = some t)
    (about : a.sequence? = some t.sequence) (h : taskStep s r t a = some (r', effects)) :
    Transition s r a r' effects := by
  cases a <;> simp only [Action.sequence?, Option.some.injEq, reduceCtorEq] at about
    <;> subst about <;>
    simp only [taskStep] at h
  case start =>
    split at h
    · rename_i ready
      simp only [Bool.and_eq_true, Task.isQueued, decide_eq_true_eq] at ready
      exact (transition_of_start task ready.1 ready.2).of_move h
    · cases h
  case attemptEnded =>
    split at h
    · rename_i attempt status stage
      exact transition_of_attemptEnded task stage h
    · cases h
  case retry =>
    split at h
    · rename_i next status error stage
      cases h
      exact .advanced task (.retried stage)
    · cases h
  case giveUp =>
    split at h
    · rename_i next status error stage
      split at h
      · rename_i halted
        exact (transition_of_giveUp task stage halted _).of_move h
      · cases h
    · cases h
  case takeAck =>
    split at h
    · rename_i ready
      simp only [Bool.and_eq_true, decide_eq_true_eq] at ready
      cases h
      exact .advanced task (.ackTaken ready.1 ready.2)
    · cases h
  case settleAck =>
    split at h
    · rename_i attempt taken
      cases h
      exact .advanced task (.ackSettled taken)
    · cases h
  case resume =>
    split at h
    · rename_i stage
      obtain ⟨answer, known, h⟩ := Option.map_eq_some_iff.1 h
      exact (transition_of_resume task stage known).of_move (congrArg some h)
    · cases h
  case abandon =>
    split at h
    · rename_i ready
      simp only [Bool.and_eq_true, decide_eq_true_eq] at ready
      cases h
      exact .letGo task ready.2 (.unanswered ready.1)
    · cases h
  case recovered =>
    split at h
    · rename_i error stage
      obtain ⟨rescuer, rescue, h⟩ := Option.map_eq_some_iff.1 h
      exact (transition_of_recovered task stage rescue).of_move (congrArg some h)
    · cases h
  case confirm =>
    split at h
    · rename_i ready
      simp only [Bool.and_eq_true, decide_eq_true_eq, Bool.not_eq_true'] at ready
      exact (transition_of_confirm task ready.1 ready.2).of_move h
    · cases h
  case stored =>
    split at h
    · rename_i p stage
      exact (transition_of_stored task stage).of_move h
    · cases h

theorem continues_of_advance (s : Subscription F) (r : Run F) (cursor : Cursor) (e : StoredEvent)
    (rest : List StoredEvent) :
    ∃ phase' effects, Continues s r (cursorAfter s cursor e) rest phase' effects ∧
      advance s r cursor e rest = ({ r with phase := phase' }, effects) := by
  unfold advance cursorAfter
  dsimp only
  split
  · rename_i stop
    exact ⟨_, _, .interrupted stop, rfl⟩
  · rename_i going
    cases rest with
    | nil => exact ⟨_, _, .nextPage (by simpa using going), rfl⟩
    | cons e' rest => exact ⟨_, _, .nextEvent (by simpa using going), rfl⟩

theorem polls_of_deliver {s : Subscription F} {r r' : Run F} {cursor : Cursor} {e : StoredEvent}
    {rest : List StoredEvent} {effects : List (Effect F)}
    (phase : r.phase = .delivering cursor (e :: rest))
    (h : deliver s r cursor e rest = some (r', effects)) : Polls s r .deliver r' effects := by
  unfold deliver at h
  split at h
  · rename_i error refused
    cases h
    exact .stopped (.undecodable phase refused)
  · rename_i m decoded
    split at h
    · cases h
    · rename_i place
      cases h
      exact .aborted (.delivering phase decoded place)
    · rename_i lane place
      obtain ⟨phase', fx, continues, heq⟩ :=
        continues_of_advance s (r.drop (.workerStopped lane)) cursor e rest
      have stop : (r.drop (.workerStopped lane)).isInterrupted = true := by
        simp [isInterrupted, isDropped_drop]
      cases continues with
      | interrupted _ =>
        simp only [heq, Option.some.injEq, Prod.mk.injEq] at h
        obtain ⟨rfl, rfl⟩ := h
        exact .undelivered phase decoded place
      | nextPage going => simp [stop] at going
      | nextEvent going => simp [stop] at going
    · rename_i lane place
      obtain ⟨phase', fx, continues, heq⟩ :=
        continues_of_advance s { r with tasks := r.tasks ++ [{ message := m, lane }] } cursor e rest
      simp only [heq, Option.some.injEq, Prod.mk.injEq] at h
      obtain ⟨rfl, rfl⟩ := h
      refine .delivered phase decoded place ?_
      cases continues with
      | interrupted stop => exact .interrupted stop
      | nextPage going => exact .nextPage going
      | nextEvent going => exact .nextEvent going

theorem polls_of_checkpointLoaded {s : Subscription F} {r : Run F}
    {reply : Reply CheckpointError Checkpoint} (phase : r.phase = .loading) :
    Polls s r (.checkpointLoaded reply) (checkpointLoaded s r reply).1
      (checkpointLoaded s r reply).2 := by
  cases reply with
  | ok c =>
    simp only [checkpointLoaded]
    split
    · rename_i mode
      exact .loaded phase mode
    · rename_i mode
      exact .aborted (.infeasible phase (by simpa using mode))
  | failed error => exact .unloaded phase
  | panicked => exact .aborted (.loading phase)

theorem polls_of_pageRead {s : Subscription F} {r : Run F} {cursor : Cursor}
    {reply : Reply StoreError (List StoredEvent)} (phase : r.phase = .reading cursor) :
    Polls s r (.pageRead reply) (pageRead s r cursor reply).1 (pageRead s r cursor reply).2 := by
  cases reply with
  | ok page =>
    cases page with
    | nil => exact .nothingNew phase
    | cons e rest => exact .pageArrived phase
  | failed error =>
    simp only [pageRead]
    split
    · rename_i again
      simp only [Bool.and_eq_true, decide_eq_true_eq] at again
      exact .readAgain phase again.1 again.2
    · rename_i final
      exact .stopped (.unreadable phase (by simpa using final))
  | panicked => exact .aborted (.reading phase)

theorem polls_of_flush {s : Subscription F} {r : Run F} (phase : r.phase = .settling)
    (empty : r.tasks = []) : Polls s r .flush (flush s r).1 (flush s r).2 := by
  unfold flush
  split
  · rename_i p due
    exact .flushing phase empty due
  · rename_i due
    rw [finish_eq]
    exact .unflushed phase empty due

theorem polls_of_flushed {s : Subscription F} {r : Run F} {p : CommitPosition}
    {reply : Reply CheckpointError Unit} (phase : r.phase = .flushing p) :
    Polls s r (.flushed reply) (flushed r reply).1 (flushed r reply).2 := by
  cases reply with
  | ok _ =>
    simp only [flushed, finish_eq]
    exact .flushed phase
  | failed error =>
    simp only [flushed, finish_eq]
    have := @Polls.flushFailed _ s r _ error phase
    simpa [lastStatus, isDropped_drop] using this
  | panicked => exact .aborted (.flushing phase)

theorem polls_of_pollerStep {s : Subscription F} {r r' : Run F} {a : Action}
    {effects : List (Effect F)} (h : pollerStep s r a = some (r', effects)) :
    Polls s r a r' effects := by
  cases a <;> simp only [pollerStep, reduceCtorEq] at h
  case subscribe =>
    split at h
    · rename_i phase
      cases h
      exact .subscribed phase
    · cases h
  case checkpointLoaded reply =>
    split at h
    · rename_i phase
      exact (polls_of_checkpointLoaded phase).of_move h
    · cases h
  case pageRead reply =>
    split at h
    · rename_i cursor phase
      exact (polls_of_pageRead phase).of_move h
    · cases h
  case wake =>
    split at h
    · rename_i cursor phase
      cases h
      exact .woken phase
    · cases h
  case interrupt =>
    split at h
    · rename_i cursor phase
      split at h
      · rename_i stop
        cases h
        exact .interrupted (.inl phase) stop
      · cases h
    · rename_i cursor phase
      split at h
      · rename_i stop
        cases h
        exact .interrupted (.inr phase) stop
      · cases h
    · cases h
  case deliver =>
    split at h
    · rename_i cursor e rest phase
      exact polls_of_deliver phase h
    · cases h
  case halt =>
    split at h
    · rename_i phase
      split at h
      · rename_i idle
        cases h
        exact .halted phase idle
      · cases h
    · cases h
  case flush =>
    split at h
    · rename_i phase
      split at h
      · rename_i empty
        exact (polls_of_flush phase (by simpa using empty)).of_move h
      · cases h
    · cases h
  case flushed reply =>
    split at h
    · rename_i p phase
      exact (polls_of_flushed phase).of_move h
    · cases h

/-- **A step is a transition.** -/
theorem transition_of_step {s : Subscription F} {r r' : Run F} {a : Action}
    {effects : List (Effect F)} (h : step s r a = some (r', effects)) :
    Transition s r a r' effects := by
  unfold step at h
  split at h
  · rename_i n about
    obtain ⟨t, task, moved⟩ := Option.bind_eq_some_iff.1 h
    obtain ⟨-, rfl⟩ := mem_of_task? task
    exact transition_of_taskStep task about moved
  · split at h
    · cases h
      exact .cancelled
    · exact .polled (polls_of_pollerStep h)

end Run
end EventSourcing

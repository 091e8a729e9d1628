/-
# How reading copes with failures

A read that fails for the moment is repeated, after a delay that doubles with every failure in a
row; any answer that is not such a failure starts the count again.  Reading ends on a failure that
is not for the moment, and on the first one that comes when as many as are tolerated have come in a
row.  How many those are is read off the answers, and the poller's counter is that number.

What the file settles:

* `reads`, `streak`: the answers to the reads of a history, and the failures in a row at their end;
* `Reacts`, `Transition.reacts`: what a read leads to, and `Transition.of_reading`: what nothing
  else leads to;
* `Counts`, `counts`: the counter is the streak, and never more than is tolerated;
* `reads_of_fatal`: a fatal answer is the last one, and polling is over;
* `Calm`, `standing`: without a disturbance polling goes on, or the last answer was fatal;
* `reading_is_patient`: all of it, for every history.
-/
import EventSourcing.Proofs.Run.Drawing
import EventSourcing.Proofs.Run.Lanes
import EventSourcing.Proofs.Run.Verdict
import Mathlib.Data.List.DropRight

namespace EventSourcing
namespace Run

variable {F : PayloadFamily} {s : Subscription F} {r r' : Run F} {a : Action}
  {effects : List (Effect F)} {h : List (Entry F)}

/-! ## 1. Answers -/

/-- The answer to a read. -/
abbrev PageAnswer := Reply StoreError (List StoredEvent)

/-- The answer an action brings. -/
def Action.read? : Action → Option PageAnswer
  | .pageRead answer => some answer
  | _ => none

/-- What the reads so far were answered, in order. -/
def reads (h : List (Entry F)) : List PageAnswer := h.filterMap (·.action.read?)

/-- The read failed, and may be repeated. -/
def isTransientFailure : PageAnswer → Bool
  | .failed error => error.isTransient
  | _ => false

/-- The number of such failures in a row, at the end. -/
def streak (past : List PageAnswer) : Nat := (past.rtakeWhile isTransientFailure).length

/-- An error that ends polling if `failed` reads have failed in a row before. -/
def IsFatal (options : SubscriptionOptions F) (failed : Nat) (error : StoreError) : Prop :=
  error.isTransient = false ∨ options.maxPollFailures ≤ failed

theorem Action.read?_eq_some {answer : PageAnswer} (read : a.read? = some answer) :
    a = .pageRead answer := by
  cases a <;> cases read
  rfl

theorem reads_snoc (h : List (Entry F)) (e : Entry F) :
    reads (h ++ [e]) = reads h ++ e.action.read?.toList := by
  unfold reads
  cases heq : e.action.read? <;> simp [List.filterMap_append, heq]

theorem streak_concat (past : List PageAnswer) (answer : PageAnswer) :
    streak (past ++ [answer]) = if isTransientFailure answer then streak past + 1 else 0 := by
  unfold streak
  cases hfailed : isTransientFailure answer <;> simp [hfailed]

/-! ## 2. What a read leads to -/

/-- What an answer leads to if `failed` reads have failed in a row before: where the poller goes,
and what it asks for. -/
inductive Reacts (s : Subscription F) (failed : Nat) (cursor : Cursor) :
    PageAnswer → Phase → List (Effect F) → Prop where
  | page (e : StoredEvent) (rest : List StoredEvent) :
    Reacts s failed cursor (.ok (e :: rest))
      (.delivering { cursor with failures := 0 } (e :: rest)) []
  | nothingNew :
    Reacts s failed cursor (.ok []) (.sleeping { cursor with failures := 0 })
      [.sleeping s.options.pollInterval]
  /-- The delay is the interval, doubled for every failure before this one, up to the greatest
  delay. -/
  | tolerated {error : StoreError} {delay : Duration} (tolerable : ¬ IsFatal s.options failed error)
    (doubled : delay.nanos =
      min (s.options.pollInterval.nanos * min (Nat.pow 2 failed) greatestWord)
        s.options.pollBackoffMax.nanos) :
    Reacts s failed cursor (.failed error) (.sleeping { cursor with failures := failed + 1 })
      [.sleeping delay]
  | fatal {error : StoreError} (final : IsFatal s.options failed error) :
    Reacts s failed cursor (.failed error) .draining [.dropped (.store error)]
  | panicked : Reacts s failed cursor .panicked .aborted [.aborted]

theorem isFatal_iff {failed : Nat} {error : StoreError} : IsFatal s.options failed error ↔
    (error.isTransient && decide (failed < s.options.maxPollFailures)) = false := by
  rw [IsFatal, Bool.and_eq_false_iff, decide_eq_false_iff_not, Nat.not_lt]

theorem pollBackoff_nanos (options : SubscriptionOptions F) (failed : Nat) :
    (options.pollBackoff (failed + 1)).nanos =
      min (options.pollInterval.nanos * min (Nat.pow 2 failed) greatestWord)
        options.pollBackoffMax.nanos := by
  rw [SubscriptionOptions.pollBackoff, Duration.nanos_grown, Nat.add_sub_cancel]

theorem Aside.read?_eq (aside : Aside r a r' effects) : a.read? = none := by
  rcases aside.about with rfl | ⟨n, about⟩
  · rfl
  · cases a <;> first | rfl | cases about

theorem Transition.reacts (made : Transition s r a r' effects) {answer : PageAnswer}
    (read : a.read? = some answer) :
    ∃ cursor, r.phase = .reading cursor ∧
      Reacts s cursor.failures cursor answer r'.phase effects := by
  rcases made.polls_or_aside with polls | aside
  · cases polls with
    | nothingNew phase =>
      cases read
      exact ⟨_, phase, .nothingNew⟩
    | pageArrived phase =>
      cases read
      exact ⟨_, phase, .page _ _⟩
    | readAgain phase transient below =>
      cases read
      refine ⟨_, phase, .tolerated ?_ (pollBackoff_nanos _ _)⟩
      simp [isFatal_iff, transient, below]
    | stopped reason =>
      cases reason with
      | unreadable phase final =>
        cases read
        exact ⟨_, phase, .fatal (isFatal_iff.2 final)⟩
      | undecodable => cases read
    | aborted reason =>
      cases reason with
      | reading phase =>
        cases read
        exact ⟨_, phase, .panicked⟩
      | _ => cases read
    | _ => cases read
  · rw [aside.read?_eq] at read
    cases read

/-- The effect is a delay before the next read, or an error of the source. -/
def Effect.IsOfReading : Effect F → Prop
  | .sleeping _ | .dropped (.store _) => True
  | _ => False

theorem Continues.not_isOfReading {cursor : Cursor} {rest : List StoredEvent} {phase' : Phase}
    (continues : Continues s r cursor rest phase' effects) : ∀ x ∈ effects, ¬ x.IsOfReading := by
  cases continues <;> simp [Effect.IsOfReading]

theorem Onward.not_isOfReading {t u : Task F} {handler : Nat} {status : HandlingStatus}
    (onward : Onward s t handler status u effects) : ∀ x ∈ effects, ¬ x.IsOfReading := by
  cases onward <;> simp [Effect.IsOfReading]

/-- Nothing but a read puts the poller to sleep or brings up an error of the source. -/
theorem Transition.of_reading (made : Transition s r a r' effects) {x : Effect F}
    (seen : x ∈ effects) (reading : x.IsOfReading) : ∃ answer, a.read? = some answer := by
  have quiet {p : Prop} (others : ∀ x ∈ effects, ¬ x.IsOfReading) : p :=
    (others x seen reading).elim
  cases made with
  | advanced task advance =>
    cases advance with
    | started _ _ _ onward | returned _ onward => exact quiet onward.not_isOfReading
    | _ => exact quiet (by simp [Effect.IsOfReading])
  | @broken t _ task reason =>
    obtain ⟨gone, lanes, -, -, -, hlost⟩ := loseWorker_spec r t
    obtain ⟨k, rfl⟩ := hlost x seen
    exact reading.elim
  | ended task reason => cases reason <;> exact quiet (by simp [Effect.IsOfReading, handlerError])
  | letGo | confirmed | asked | stored | cancelled => exact quiet (by simp [Effect.IsOfReading])
  | polled polls =>
    cases polls with
    | nothingNew | readAgain => exact ⟨_, rfl⟩
    | stopped reason =>
      cases reason with
      | unreadable => exact ⟨_, rfl⟩
      | undecodable phase refused =>
        obtain ⟨reason, -, rfl⟩ := blames_of_decode refused
        exact quiet (by simp [Effect.IsOfReading])
    | delivered phase decoded place continues =>
      rcases List.mem_cons.1 seen with rfl | seen
      · exact reading.elim
      · exact (continues.not_isOfReading x seen reading).elim
    | _ => exact quiet (by simp [Effect.IsOfReading])

/-! ## 3. The counter -/

/-- Before polling nothing is read, and the poller counts the failures in a row, of which there are
never more than are tolerated. -/
structure Counts (s : Subscription F) (h : List (Entry F)) (r : Run F) : Prop where
  early : r.phase.IsEarly → reads h = []
  counter : ∀ cursor, r.phase.cursor? = some cursor →
    cursor.failures = streak (reads h) ∧ cursor.failures ≤ s.options.maxPollFailures

theorem Counts.step_read (hc : Counts s h r) (made : Transition s r a r' effects)
    {answer : PageAnswer} (read : a.read? = some answer) :
    Counts s (h ++ [⟨r, a, r', effects⟩]) r' := by
  obtain ⟨cursor, phase, reacts⟩ := made.reacts read
  obtain ⟨hstreak, -⟩ := hc.counter cursor (congrArg Phase.cursor? phase)
  have hreads : reads (h ++ [⟨r, a, r', effects⟩]) = reads h ++ [answer] := by
    rw [reads_snoc, read]
    rfl
  generalize hphase : r'.phase = phase' at reacts
  constructor
  case early =>
    rw [hphase]
    intro early
    cases reacts <;> exact early.elim
  case counter =>
    intro cursor' here
    rw [hphase] at here
    rw [hreads, streak_concat, ← hstreak]
    cases reacts with
    | page | nothingNew =>
      cases here
      exact ⟨rfl, Nat.zero_le _⟩
    | @tolerated error delay tolerable =>
      cases here
      obtain ⟨transient, below⟩ := not_or.1 tolerable
      rw [isTransientFailure, if_pos (by simpa using transient)]
      exact ⟨rfl, Nat.lt_of_not_le below⟩
    | fatal | panicked => cases here

theorem Counts.step_other (hc : Counts s h r) (made : Transition s r a r' effects)
    (other : a.read? = none) : Counts s (h ++ [⟨r, a, r', effects⟩]) r' := by
  have hreads : reads (h ++ [⟨r, a, r', effects⟩]) = reads h := by
    rw [reads_snoc, other]
    exact List.append_nil _
  constructor <;> rw [hreads]
  case early =>
    intro early
    cases made.draws with
    | begun _ late => exact absurd early late
    | arrived => cases other
    | handed _ _ _ _ _ late => exact absurd early late
    | nothing _ _ _ _ before => exact hc.early (before early)
  case counter =>
    intro cursor' here
    rcases made.polls_or_aside with polls | aside
    · cases polls with
      | loaded phase =>
        cases here
        rw [hc.early (by rw [phase]; trivial)]
        exact ⟨rfl, Nat.zero_le _⟩
      | woken phase =>
        cases here
        exact hc.counter _ (congrArg Phase.cursor? phase)
      | @delivered cursor _ _ _ _ _ _ phase decoded place continues =>
        obtain rfl := continues.cursor_eq here
        exact hc.counter cursor (congrArg Phase.cursor? phase)
      | nothingNew | pageArrived | readAgain => cases other
      | _ => cases here
    · rw [aside.phase] at here
      exact hc.counter cursor' here

theorem counts (hist : History s h r) : Counts s h r := by
  induction hist with
  | begin => exact ⟨fun _ => rfl, nofun⟩
  | @step h r r' a effects past made ih =>
    cases read : a.read? with
    | some answer => exact ih.step_read (transition_of_step made) read
    | none => exact ih.step_other (transition_of_step made) read

/-! ## 4. The end of polling -/

/-- A fatal answer is the last one, and polling is over. -/
theorem reads_of_fatal (hist : History s h r) {past later : List PageAnswer} {error : StoreError}
    (heq : reads h = past ++ .failed error :: later)
    (final : IsFatal s.options (streak past) error) : later = [] ∧ r.phase.IsDone := by
  induction hist generalizing later with
  | begin => simp [reads] at heq
  | @step h r r' a effects before made ih =>
    have made := transition_of_step made
    rw [reads_snoc] at heq
    cases read : a.read? with
    | none =>
      simp only [read, Option.toList_none, List.append_nil] at heq
      obtain ⟨hlater, done⟩ := ih heq
      exact ⟨hlater, (made.stays_done done).1⟩
    | some answer =>
      obtain ⟨cursor, phase, reacts⟩ := made.reacts read
      simp only [read, Option.toList_some] at heq
      rcases List.eq_nil_or_concat later with rfl | ⟨later', x, rfl⟩
      · obtain ⟨rfl, hlast⟩ := List.append_inj' heq rfl
        cases hlast
        rw [← ((counts before).counter cursor (congrArg Phase.cursor? phase)).1] at final
        generalize r'.phase = phase' at reacts
        cases reacts with
        | tolerated tolerable => exact absurd final tolerable
        | fatal => exact ⟨rfl, id, rfl⟩
      · rw [List.concat_eq_append, ← List.cons_append, ← List.append_assoc] at heq
        obtain ⟨hreads, -⟩ := List.append_inj' heq rfl
        have still := (ih hreads).2.still
        rw [phase] at still
        cases still

/-- Nothing but reading itself interferes with polling: nobody asks the run to stop, the checkpoint
can be loaded, all that is read can be decoded, neither handling nor the loss of a worker drops the
subscription, and the poller does not break down. -/
structure Calm (s : Subscription F) (e : Entry F) : Prop where
  uncancelled : e.action ≠ .cancel
  loaded : ∀ error, e.action ≠ .checkpointLoaded (.failed error)
  decodable : ∀ page, e.action = .pageRead (.ok page) → ∀ x ∈ page, ∀ n, ∃ m, s.decode x n = .ok m
  undropped : ∀ error, Effect.dropped error ∈ e.effects →
    e.action.sequence? = none ∧ ∀ lane, error ≠ .workerStopped lane
  unbroken : Effect.aborted ∉ e.effects

/-- Polling is to begin or going on. -/
structure Polling (s : Subscription F) (r : Run F) : Prop where
  going : r.isInterrupted = false
  phase : r.phase.IsEarly ∨ ∃ cursor, r.phase.cursor? = some cursor
  page : ∀ cursor page, r.phase = .delivering cursor page →
    ∀ x ∈ page, ∀ n, ∃ m, s.decode x n = .ok m

theorem Polling.not_done (polling : Polling s r) : ¬ r.phase.IsDone := by
  intro done
  rcases polling.phase with early | ⟨cursor, here⟩
  · exact done.late early
  · rw [done.still] at here
    cases here

/-- A step that leaves the poller alone, and neither drops nor stops the run. -/
theorem Polling.rests (polling : Polling s r) (phase : r'.phase = r.phase)
    (failure : r'.failure = r.failure) (cancelled : r'.cancelled = r.cancelled) : Polling s r' where
  going := by
    rw [isInterrupted, isDropped, failure, cancelled]
    exact polling.going
  phase := by
    rw [phase]
    exact polling.phase
  page := by
    rw [phase]
    exact polling.page

/-- A read failed for good, and the run was dropped with its error. -/
def FailsToRead (s : Subscription F) (r : Run F) (a : Action) (r' : Run F) : Prop :=
  ∃ cursor error, r.phase = .reading cursor ∧ a = .pageRead (.failed error) ∧
    IsFatal s.options cursor.failures error ∧ r'.phase = .draining ∧
    r'.failure = some (.store error)

theorem Polling.poll (polling : Polling s r) (polls : Polls s r a r' effects)
    (calm : Calm s ⟨r, a, r', effects⟩) : Polling s r' ∨ FailsToRead s r a r' := by
  have unfailed : r.failure = none := by
    have going := polling.going
    rw [isInterrupted, isDropped, Bool.or_eq_false_iff] at going
    exact Option.not_isSome_iff_eq_none.1 (by simp [going.2])
  -- A phase in which polling is over.
  have absurdly {phase : Phase} (here : r.phase = phase) (late : ¬ phase.IsEarly)
      (still : phase.cursor? = none) : False :=
    polling.not_done ⟨here ▸ late, here ▸ still⟩
  cases polls with
  | subscribed => exact .inl ⟨polling.going, .inl trivial, by simp⟩
  | loaded => exact .inl ⟨polling.going, .inr ⟨_, rfl⟩, by simp⟩
  | unloaded => exact absurd rfl (calm.loaded _)
  | aborted => exact absurd (List.mem_singleton_self _) calm.unbroken
  | stopped reason =>
    cases reason with
    | unreadable phase final =>
      refine .inr ⟨_, _, phase, rfl, isFatal_iff.2 final, rfl, ?_⟩
      simp [drop, unfailed]
    | @undecodable cursor e rest error phase refused =>
      obtain ⟨m, decoded⟩ := polling.page cursor _ phase e List.mem_cons_self cursor.sequence
      rw [refused] at decoded
      cases decoded
  | nothingNew | readAgain | woken => exact .inl ⟨polling.going, .inr ⟨_, rfl⟩, by simp⟩
  | pageArrived =>
    refine .inl ⟨polling.going, .inr ⟨_, rfl⟩, fun cursor' page' here => ?_⟩
    cases here
    exact calm.decodable _ rfl
  | interrupted _ stop =>
    rw [polling.going] at stop
    cases stop
  | @delivered cursor _ rest _ _ _ _ phase decoded place continues =>
    have left : ∀ x ∈ rest, ∀ n, ∃ m, s.decode x n = .ok m := fun x hx =>
      polling.page cursor _ phase x (List.mem_cons_of_mem _ hx)
    cases continues with
    | interrupted stop => exact absurd stop (by simpa using polling.going)
    | nextPage => exact .inl ⟨polling.going, .inr ⟨_, rfl⟩, by simp⟩
    | nextEvent =>
      refine .inl ⟨polling.going, .inr ⟨_, rfl⟩, fun cursor' page' here => ?_⟩
      cases here
      exact left
  | @undelivered _ _ _ _ lane =>
    exact absurd rfl ((calm.undropped (.workerStopped lane) (by simp)).2 lane)
  | halted phase | flushing phase | unflushed phase | flushed phase | flushFailed phase =>
    exact (absurdly phase id rfl).elim

/-- Without a disturbance polling goes on, unless a read fails for good. -/
theorem Polling.step (polling : Polling s r) (made : Transition s r a r' effects)
    (calm : Calm s ⟨r, a, r', effects⟩) : Polling s r' ∨ FailsToRead s r a r' := by
  cases made with
  | advanced | letGo | confirmed | asked | stored => exact .inl (polling.rests rfl rfl rfl)
  | @ended t _ error task reason =>
    have about := (calm.undropped error (List.mem_singleton_self _)).1
    rw [reason.about] at about
    cases about
  | @broken t _ task reason =>
    obtain ⟨gone, lanes, hrun, -⟩ := loseWorker_spec r t
    rw [hrun]
    exact .inl (polling.rests rfl rfl rfl)
  | cancelled => exact absurd rfl calm.uncancelled
  | polled polls => exact polling.poll polls calm

/-- Polling is over, as the last answer was fatal, and the run was dropped with its error. -/
def GivenUp (s : Subscription F) (h : List (Entry F)) (r : Run F) : Prop :=
  ∃ past error, reads h = past ++ [.failed error] ∧ IsFatal s.options (streak past) error ∧
    r.phase.IsDone ∧
    r.failure = some (.store error)

theorem standing (hist : History s h r) (calm : ∀ e ∈ h, Calm s e) :
    Polling s r ∨ GivenUp s h r := by
  induction hist with
  | begin => exact .inl ⟨rfl, .inl trivial, nofun⟩
  | @step h r r' a effects past made ih =>
    have made := transition_of_step made
    have before : ∀ e ∈ h, Calm s e := fun e he => calm e (List.mem_append_left _ he)
    have now := calm _ (List.mem_append_right h (List.mem_singleton_self _))
    rcases ih before with polling | ⟨answers, error, hreads, final, done, failure⟩
    · refine (polling.step made now).imp id ?_
      rintro ⟨cursor, error, phase, rfl, final, phase', failure⟩
      rw [((counts past).counter cursor (congrArg Phase.cursor? phase)).1] at final
      exact ⟨reads h, error, reads_snoc h _, final,
        ⟨by rw [phase']; exact id, by rw [phase']; rfl⟩, failure⟩
    · have unread : a.read? = none := by
        cases read : a.read? with
        | none => rfl
        | some answer =>
          obtain ⟨cursor, phase, -⟩ := made.reacts read
          have still := done.still
          rw [phase] at still
          cases still
      refine .inr ⟨answers, error, ?_, final, (made.stays_done done).1, made.failure_kept failure⟩
      rw [reads_snoc, unread, hreads]
      exact List.append_nil _

/-! ## 5. Reading in any history -/

/-- How reading goes in a history that leads to the run `r`. -/
structure ReadsPatiently (s : Subscription F) (h : List (Entry F)) (r : Run F) : Prop where
  /-- What a read leads to depends on the answer, and on the failures in a row before it. -/
  reacts : ∀ past e later answer, h = past ++ e :: later → e.action = .pageRead answer →
    ∃ cursor, e.before.phase = .reading cursor ∧
      Reacts s (streak (reads past)) cursor answer e.after.phase e.effects
  /-- Nothing else puts the poller to sleep or brings up an error of the source. -/
  only : ∀ e ∈ h, ∀ x ∈ e.effects, x.IsOfReading → ∃ answer, e.action = .pageRead answer
  /-- The poller stands where the last message left it, whatever was read since. -/
  stands : ∀ cursor, r.phase.cursor? = some cursor →
    cursor.after = lastOf (origin h) (positions h) ∧ cursor.sequence = (dispatched h).length
  counts : ∀ cursor, r.phase.cursor? = some cursor →
    cursor.failures = streak (reads h) ∧ cursor.failures ≤ s.options.maxPollFailures
  /-- Any answer may come, and after a delay the same page is asked for again. -/
  goesOn : (∀ cursor answer, r.phase = .reading cursor → (step s r (.pageRead answer)).isSome) ∧
    ∀ cursor, r.phase = .sleeping cursor →
      step s r .wake =
        some ({ r with phase := .reading cursor }, [.reading cursor.after s.options.pageSize])
  /-- A fatal answer is the last one. -/
  ends : ∀ past error later, reads h = past ++ .failed error :: later →
    IsFatal s.options (streak past) error →
    later = [] ∧ r.phase.IsDone
  /-- Without a disturbance, polling is over exactly after a fatal answer. -/
  fails : (∀ e ∈ h, Calm s e) →
    (r.phase.IsDone ↔
      ∃ past error, reads h = past ++ [.failed error] ∧ IsFatal s.options (streak past) error)
  /-- What the run ends with is then the error of that answer. -/
  returns : (∀ e ∈ h, Calm s e) → ∀ past error, reads h = past ++ [.failed error] →
    IsFatal s.options (streak past) error →
    r.failure = some (.store error) ∧
      ∀ result, r.phase = .finished result → result = .error (.store error)

theorem chained_true (start : Option Nat) (l : List Nat) : Chained (fun _ _ => True) start l := by
  induction l generalizing start with
  | nil => trivial
  | cons p l ih => exact ⟨trivial, ih (some p)⟩

theorem failed_of_fatal (hist : History s h r) (calm : ∀ e ∈ h, Calm s e)
    {past : List PageAnswer} {error : StoreError} (hreads : reads h = past ++ [.failed error])
    (final : IsFatal s.options (streak past) error) : r.failure = some (.store error) := by
  rcases standing hist calm with polling | ⟨past', error', hreads', -, -, failure⟩
  · exact (polling.not_done (reads_of_fatal hist hreads final).2).elim
  · rw [hreads] at hreads'
    cases (List.append_inj' hreads' rfl).2
    exact failure

/-- **Reading is patient.**  A failure for the moment is tolerated as long as fewer than the limit
came in a row before it, and answered with a doubled delay; what the answers were decides when
polling ends, and with which error; and no failure moves the poller. -/
theorem reading_is_patient (hist : History s h r) : ReadsPatiently s h r := by
  constructor
  case reacts =>
    intro past e later answer heq action
    obtain ⟨before, made⟩ := history_at hist heq
    have read : e.action.read? = some answer := by
      rw [action]
      rfl
    obtain ⟨cursor, phase, reacts⟩ := (transition_of_step made).reacts read
    rw [((counts before).counter cursor (congrArg Phase.cursor? phase)).1] at reacts
    exact ⟨cursor, phase, reacts⟩
  case only =>
    intro e he x seen reading
    obtain ⟨past, later, heq⟩ := List.append_of_mem he
    obtain ⟨answer, read⟩ := (transition_of_step (history_at hist heq).2).of_reading seen reading
    exact ⟨answer, Action.read?_eq_some read⟩
  case stands =>
    intro cursor here
    have followed :=
      followed (R := fun _ _ => True) hist fun _ _ cursor page _ _ => chained_true cursor.after _
    exact ⟨followed.cursor cursor here, (numbered hist).cursor cursor here⟩
  case counts => exact (Run.counts hist).counter
  case goesOn =>
    constructor
    · intro cursor answer phase
      show (pollerStep s r (.pageRead answer)).isSome
      rw [pollerStep, phase]
      rfl
    · intro cursor phase
      show pollerStep s r .wake = _
      rw [pollerStep, phase]
      rfl
  case ends => exact fun _ _ _ heq final => reads_of_fatal hist heq final
  case fails =>
    intro calm
    constructor
    · intro done
      obtain ⟨past, error, hreads, final, -⟩ :=
        (standing hist calm).resolve_left fun polling => polling.not_done done
      exact ⟨past, error, hreads, final⟩
    · rintro ⟨past, error, hreads, final⟩
      exact (reads_of_fatal hist hreads final).2
  case returns =>
    intro calm past error hreads final
    have failure := failed_of_fatal hist calm hreads final
    refine ⟨failure, fun result finished => ?_⟩
    rcases result_of_finished hist finished with rfl | ⟨unfailed, -⟩
    · rw [verdict, failure]
    · rw [failure] at unfailed
      cases unfailed

section Runs

open Sample

/-- Ticks of which one read in a row may fail. -/
def hastyTicks : Subscription ticks :=
  { tickFeed none with options := { (tickFeed none).options with maxPollFailures := 1 } }

/-- A read fails, and so does the second one after the next. -/
def readUntilGone : List Action :=
  [.subscribe, .checkpointLoaded (.ok ⟨"feed", none⟩), .pageRead (.failed (.backend "busy")), .wake,
    .pageRead (.ok [tick 0]), .deliver, .pageRead (.failed (.backend "busy")), .wake,
    .pageRead (.failed (.backend "gone"))]

/-- A tick arrives after the first failure, so the second one is tolerated as well; the third one
follows on it. -/
theorem second_failure_in_a_row_ends_reading :
    ∃ (h : List (Entry ticks)) (r : Run ticks), History hastyTicks h r ∧
      (∀ e ∈ h, Calm hastyTicks e) ∧
      reads h = [.failed (.backend "busy"), .ok [tick 0],
        .failed (.backend "busy"), .failed (.backend "gone")] ∧ r.phase.IsDone ∧
      r.failure = some (.store (.backend "gone")) := by
  obtain ⟨h, hist, hactions, htrace⟩ :=
    history_of_replay? (show replay? hastyTicks {} readUntilGone = some (_, _) from rfl)
  have patient := reading_is_patient hist
  have hreads : reads h = readUntilGone.filterMap Action.read? := by
    rw [← hactions, List.filterMap_map]
    rfl
  have calm : ∀ e ∈ h, Calm hastyTicks e := by
    intro e he
    have haction : e.action ∈ readUntilGone := hactions ▸ List.mem_map_of_mem he
    have heffects : ∀ x ∈ e.effects, x ∈ trace h := fun x hx => List.mem_flatMap_of_mem he hx
    rw [htrace] at heffects
    constructor
    case uncancelled =>
      intro heq
      simp [readUntilGone, heq] at haction
    case loaded =>
      intro error heq
      simp [readUntilGone, heq] at haction
    case decodable =>
      intro page heq x hx n
      simp only [readUntilGone, heq, List.mem_cons] at haction
      simp at haction
      subst haction
      cases List.mem_singleton.1 hx
      exact ⟨_, rfl⟩
    case undropped =>
      intro error seen
      have hstore : error = .store (.backend "gone") := by simpa using heffects _ seen
      obtain ⟨answer, haction⟩ := patient.only e he _ seen (by rw [hstore]; trivial)
      rw [haction, hstore]
      exact ⟨rfl, nofun⟩
    case unbroken => exact fun seen => by simpa using heffects _ seen
  have final : IsFatal hastyTicks.options
      (streak [.failed (.backend "busy"), .ok [tick 0], .failed (.backend "busy")])
        (.backend "gone") :=
    .inr (Nat.le_refl 1)
  exact ⟨h, _, hist, calm, hreads, (patient.fails calm).2 ⟨_, _, hreads, final⟩,
    (patient.returns calm _ _ hreads final).1⟩

end Runs

end Run
end EventSourcing

/-
# How attempts are repeated

The handlers of a message have their turns one after the other.  In its turn a handler is called
until it returns or breaks down, or until it has failed once more than there are retries; before
every retry there is the delay the policy gives for it.  What a turn looks like is said here without
any run: by the attempts that failed and the one that ended it.  What is seen of a message in a run
is then held against the turns of its handlers: as long as the message is with its handlers it is
the beginning of such a course, and when it leaves them it is a whole one, and the run goes on with
what the course came to.

What the file settles:

* `Moment`, `chronicle`: what is seen of a message while it is with its handlers;
* `Turn`, `course`, `Comes`: the turns of the handlers, and what they come to;
* `AtAttempt`, `StageKeeps`: how far the course of a message has come, by its stage;
* `Advance.keeps`, `Advance.finishes`: what a step of the message adds to its course, and how the
  course ends;
* `Entry.Leaves`, `retries_are_disciplined`: all this for every history.
-/
import EventSourcing.Proofs.Run.Occupancy
import Mathlib.Data.List.Induction

namespace EventSourcing
namespace Run

variable {F : PayloadFamily} {s : Subscription F} {r r' : Run F} {a : Action}
  {effects : List (Effect F)} {h : List (Entry F)} {n : Nat}

/-! ## 1. What is seen of a message -/

/-- A handler is called, a call ends, or a delay is asked for. -/
inductive Moment where
  | called (attempt : Attempt)
  | ended (outcome : AttemptEnd)
  | waits (delay : Duration)
  deriving DecidableEq

/-- The moment of the message that the action is. -/
def Action.moment? (n : Nat) : Action → Option Moment
  | .attemptEnded k outcome => if k = n then some (.ended outcome) else none
  | _ => none

/-- The moment of the message that the effect is. -/
def Effect.moment? (n : Nat) : Effect F → Option Moment
  | .called handler m => if m.sequence = n then some (.called ⟨handler, m.retryCount⟩) else none
  | .backedOff k delay => if k = n then some (.waits delay) else none
  | _ => none

/-- The moments of the message in a step: the end of a call comes before what follows from it. -/
def Entry.moments (e : Entry F) (n : Nat) : List Moment :=
  (e.action.moment? n).toList ++ e.effects.filterMap (Effect.moment? n)

/-- The moments of the message in order. -/
def chronicle (h : List (Entry F)) (n : Nat) : List Moment := h.flatMap (·.moments n)

theorem chronicle_append (h h' : List (Entry F)) (n : Nat) :
    chronicle (h ++ h') n = chronicle h n ++ chronicle h' n :=
  List.flatMap_append

theorem chronicle_snoc (h : List (Entry F)) (e : Entry F) (n : Nat) :
    chronicle (h ++ [e]) n = chronicle h n ++ e.moments n := by
  simp [chronicle]

theorem chronicle_quiet {e : Entry F} (quiet : e.moments n = []) :
    chronicle (h ++ [e]) n = chronicle h n := by
  rw [chronicle_snoc, quiet, List.append_nil]

/-- Where the only effect is none of its moments, the action is all that is seen of the message. -/
theorem Entry.moments_unseen {x : Effect F} (unseen : x.moment? n = none) :
    (⟨r, a, r', [x]⟩ : Entry F).moments n = (a.moment? n).toList := by
  simp [Entry.moments, unseen]

theorem Action.moment?_eq_none {k : Nat} (about : a.sequence? = some k) (hne : k ≠ n) :
    a.moment? n = none := by
  cases a with
  | attemptEnded m outcome =>
    cases about
    exact if_neg hne
  | _ => rfl

/-! ## 2. Turns of handlers -/

/-- The turn of a handler: how the attempts ended after which another one came, and how the last one
did. -/
structure Turn where
  failures : List AttemptEnd
  last : AttemptEnd

/-- Attempts that failed, each with the delay before the next. -/
def retries (s : Subscription F) (handler : Nat) (failures : List AttemptEnd) : List Moment :=
  failures.zipIdx.flatMap fun p =>
    [.called ⟨handler, p.2⟩, .ended p.1, .waits (s.options.retry.delayFor (p.2 + 1))]

/-- What is seen of a turn. -/
def Turn.moments (s : Subscription F) (handler : Nat) (turn : Turn) : List Moment :=
  retries s handler turn.failures ++ [.called ⟨handler, turn.failures.length⟩, .ended turn.last]

/-- What is seen of turns, the first of which is that of the first handler. -/
def course (s : Subscription F) (turns : List Turn) : List Moment :=
  turns.zipIdx.flatMap fun p => p.1.moments s p.2

/-- Another attempt comes only after one that failed, and there are no more of these than
retries. -/
structure Turn.Lawful (s : Subscription F) (turn : Turn) : Prop where
  failed : ∀ outcome ∈ turn.failures, ∃ error, AttemptFails s outcome error
  within : turn.failures.length ≤ s.options.retry.maxRetries

/-- Turns of handlers that returned in the end, with these answers. -/
structure Returning (s : Subscription F) (turns : List Turn)
    (answers : List HandlingStatus) : Prop where
  returned : turns.map (·.last) = answers.map .returned
  lawful : ∀ turn ∈ turns, turn.Lawful s

/-- The greatest of the answers, or that of nobody. -/
structure Greatest (answers : List HandlingStatus) (status : HandlingStatus) : Prop where
  reached : status ∈ .ignored :: answers
  bound : ∀ answer ∈ answers, answer.rank ≤ status.rank

/-- What the handlers of a message come to. -/
inductive Upshot where
  | handled (status : HandlingStatus)
  /-- The handler with this name failed, last with this error. -/
  | failed (name : String) (error : HandlerError)
  /-- The handler with this name broke down, and left a text or none. -/
  | panicked (name : String) (text : Option String)

/-- What turns come to: all handlers returned, or all before the last one, and it failed for good or
broke down. -/
inductive Comes (s : Subscription F) : List Turn → Upshot → Prop where
  | handled {turns : List Turn} {answers : List HandlingStatus} {status : HandlingStatus}
    (returning : Returning s turns answers) (all : turns.length = s.handlers.length)
    (greatest : Greatest answers status) : Comes s turns (.handled status)
  | failed {done : List Turn} {answers : List HandlingStatus} {turn : Turn} {error : HandlerError}
    (returning : Returning s done answers) (more : done.length < s.handlers.length)
    (lawful : turn.Lawful s) (fails : AttemptFails s turn.last error)
    (exhausted : turn.failures.length = s.options.retry.maxRetries) :
    Comes s (done ++ [turn]) (.failed (s.handlerName done.length) error)
  | panicked {done : List Turn} {answers : List HandlingStatus} {turn : Turn} {text : Option String}
    (returning : Returning s done answers) (more : done.length < s.handlers.length)
    (lawful : turn.Lawful s) (breaks : turn.last = .panicked text) :
    Comes s (done ++ [turn]) (.panicked (s.handlerName done.length) text)

/-- What is seen of a run that goes on with the outcome for the message. -/
def Upshot.shown (s : Subscription F) (m : Message F) : Upshot → List (Effect F)
  | .handled .pending => []
  | .handled _ => [.confirmed m.sequence .handled]
  | .failed name error =>
    match s.failureHandler with
    | some _ => [.recovering m error]
    | none => [.dropped (handlerError m name error)]
  | .panicked name text => [.dropped (.handlerPanicked name m.id (text.getD "unknown panic"))]

/-- The stage of the message then, if the run still has it. -/
def Upshot.stage? (s : Subscription F) : Upshot → Option Stage
  | .handled .pending => some .awaitingAck
  | .handled _ => some .confirming
  | .failed _ error => s.failureHandler.map fun _ => .recovering error
  | .panicked _ _ => none

theorem retries_snoc (handler : Nat) (failures : List AttemptEnd) (outcome : AttemptEnd) :
    retries s handler (failures ++ [outcome]) = retries s handler failures ++
      [.called ⟨handler, failures.length⟩, .ended outcome,
        .waits (s.options.retry.delayFor (failures.length + 1))] := by
  simp [retries, List.zipIdx_append]

theorem course_snoc (turns : List Turn) (turn : Turn) :
    course s (turns ++ [turn]) = course s turns ++ turn.moments s turns.length := by
  simp [course, List.zipIdx_append]

theorem returning_nil : Returning s [] [] := ⟨rfl, List.forall_mem_nil _⟩

theorem Returning.snoc {turns : List Turn} {answers : List HandlingStatus}
    {turn : Turn} {answer : HandlingStatus} (returning : Returning s turns answers)
    (lawful : turn.Lawful s) (last : turn.last = .returned answer) :
    Returning s (turns ++ [turn]) (answers ++ [answer]) := by
  refine ⟨by simp [returning.returned, last], fun other mem => ?_⟩
  rcases List.mem_append.1 mem with mem | mem
  · exact returning.lawful other mem
  · cases List.mem_singleton.1 mem
    exact lawful

/-- Statuses put together are the greatest of them. -/
theorem greatest_foldl (answers : List HandlingStatus) :
    Greatest answers (answers.foldl HandlingStatus.combine .ignored) := by
  -- The fold takes the last answer in last, so the induction adds at the end.
  induction answers using List.reverseRecOn with
  | nil => exact ⟨List.mem_singleton_self _, List.forall_mem_nil _⟩
  | append_singleton answers answer ih =>
    rw [List.foldl_append, List.foldl_cons, List.foldl_nil]
    generalize answers.foldl HandlingStatus.combine .ignored = status at ih
    obtain ⟨reached, bound⟩ := ih
    constructor
    · unfold HandlingStatus.combine
      split
      · simp
      · rcases List.mem_cons.1 reached with rfl | mem
        · exact List.mem_cons_self
        · exact List.mem_cons_of_mem _ (List.mem_append_left _ mem)
    · intro other mem
      rw [HandlingStatus.rank_combine]
      rcases List.mem_append.1 mem with mem | mem
      · exact Nat.le_trans (bound other mem) (Nat.le_max_left _ _)
      · cases List.mem_singleton.1 mem
        exact Nat.le_max_right _ _

/-! ## 3. How far a course has come -/

/-- The handlers before that of the attempt have had their turns, and so have the attempts before
this one; after them, `now` is all that is seen. -/
inductive AtAttempt (s : Subscription F) (attempt : Attempt) (status : HandlingStatus)
    (now : List Moment) : List Moment → Prop where
  | mk {done : List Turn} {answers : List HandlingStatus} {failures : List AttemptEnd}
    (returning : Returning s done answers) (turn : done.length = attempt.handler)
    (more : attempt.handler < s.handlers.length)
    (status_eq : answers.foldl HandlingStatus.combine .ignored = status)
    (tried : failures.length = attempt.retry) (lawful : ∀ last, Turn.Lawful s ⟨failures, last⟩) :
    AtAttempt s attempt status now (course s done ++ retries s attempt.handler failures ++ now)

/-- What is seen of a message at this stage, while it is with its handlers. -/
def StageKeeps (s : Subscription F) (past : List Moment) : Stage → Prop
  | .queued => past = []
  | .calling attempt status => AtAttempt s attempt status [.called attempt] past
  | .backingOff next status _ => AtAttempt s next status [] past
  | _ => True

section AtAttempt

variable {past : List Moment} {attempt : Attempt} {status : HandlingStatus}

/-- The turn of the handler ends with the attempt that is being made. -/
theorem AtAttempt.ends (here : AtAttempt s attempt status [.called attempt] past)
    (last : AttemptEnd) :
    ∃ done answers turn, Returning s done answers ∧ done.length = attempt.handler ∧
      answers.foldl HandlingStatus.combine .ignored = status ∧ turn.Lawful s ∧ turn.last = last ∧
      turn.failures.length = attempt.retry ∧ course s (done ++ [turn]) = past ++ [.ended last] := by
  cases here with
  | @mk done answers failures returning turn more status_eq tried lawful =>
    refine ⟨done, answers, ⟨failures, last⟩, returning, turn, status_eq, lawful last,
      rfl, tried, ?_⟩
    rw [course_snoc, Turn.moments, turn, tried]
    simp

/-- The handlers before have had their turns, and the next one is called. -/
theorem AtAttempt.fresh {done : List Turn} {answers : List HandlingStatus}
    (returning : Returning s done answers) (more : done.length < s.handlers.length) :
    AtAttempt s ⟨done.length, 0⟩ (answers.foldl HandlingStatus.combine .ignored)
        [.called ⟨done.length, 0⟩] (course s done ++ [.called ⟨done.length, 0⟩]) := by
  have untried (last : AttemptEnd) : Turn.Lawful s ⟨[], last⟩ :=
    ⟨List.forall_mem_nil _, Nat.zero_le _⟩
  rw [← List.append_nil (course s done), show [] = retries s done.length [] from rfl]
  exact .mk returning rfl more rfl rfl untried

/-- The first handler is called. -/
theorem AtAttempt.first (more : 0 < s.handlers.length) :
    AtAttempt s ⟨0, 0⟩ .ignored [.called ⟨0, 0⟩] [.called ⟨0, 0⟩] :=
  .fresh returning_nil more

/-- A handler returned, and the next one is called. -/
theorem AtAttempt.next (here : AtAttempt s attempt status [.called attempt] past)
    (answer : HandlingStatus) (more : attempt.handler + 1 < s.handlers.length) :
    AtAttempt s ⟨attempt.handler + 1, 0⟩ (status.combine answer) [.called ⟨attempt.handler + 1, 0⟩]
      (past ++ [.ended (.returned answer), .called ⟨attempt.handler + 1, 0⟩]) := by
  obtain ⟨done, answers, turn, returning, hdone, rfl, lawful, last, -, hcourse⟩ :=
    here.ends (.returned answer)
  have hlength : (done ++ [turn]).length = attempt.handler + 1 := by simp [hdone]
  have called := AtAttempt.fresh (returning.snoc lawful last) (hlength ▸ more)
  rw [hlength, hcourse, List.foldl_append, List.append_assoc] at called
  exact called

/-- An attempt failed, and the delay before the next one is asked for. -/
theorem AtAttempt.backsOff (here : AtAttempt s attempt status [.called attempt] past)
    {outcome : AttemptEnd} {error : HandlerError} (fails : AttemptFails s outcome error)
    (more : attempt.retry < s.options.retry.maxRetries) :
    AtAttempt s ⟨attempt.handler, attempt.retry + 1⟩ status []
      (past ++ [.ended outcome, .waits (s.options.retry.delayFor (attempt.retry + 1))]) := by
  cases here with
  | @mk done answers failures returning turn known status_eq tried lawful =>
    have tried' : (failures ++ [outcome]).length = attempt.retry + 1 := by simp [tried]
    have lawful' (last : AttemptEnd) : Turn.Lawful s ⟨failures ++ [outcome], last⟩ := by
      refine ⟨fun other mem => ?_, Nat.le_trans (Nat.le_of_eq tried') more⟩
      rcases List.mem_append.1 mem with mem | mem
      · exact (lawful last).failed other mem
      · cases List.mem_singleton.1 mem
        exact ⟨error, fails⟩
    have backed : AtAttempt s ⟨attempt.handler, attempt.retry + 1⟩ status [] _ :=
      .mk returning turn known status_eq tried' lawful'
    rw [retries_snoc, tried] at backed
    simpa using backed

/-- The delay has passed, and the handler is called again. -/
theorem AtAttempt.again (here : AtAttempt s attempt status [] past) :
    AtAttempt s attempt status [.called attempt] (past ++ [.called attempt]) := by
  cases here with
  | mk returning turn known status_eq tried lawful =>
    rw [List.append_nil]
    exact .mk returning turn known status_eq tried lawful

/-- All handlers have returned. -/
theorem AtAttempt.handled (here : AtAttempt s attempt status [.called attempt] past)
    (answer : HandlingStatus) (all : s.handlers.length = attempt.handler + 1) :
    ∃ turns, Comes s turns (.handled (status.combine answer)) ∧
      past ++ [.ended (.returned answer)] = course s turns := by
  obtain ⟨done, answers, turn, returning, hdone, rfl, lawful, last, -, hcourse⟩ :=
    here.ends (.returned answer)
  have greatest := greatest_foldl (answers ++ [answer])
  rw [List.foldl_append] at greatest
  exact ⟨_, .handled (returning.snoc lawful last) (by simp [hdone, all]) greatest, hcourse.symm⟩

theorem AtAttempt.known (here : AtAttempt s attempt status [.called attempt] past) :
    attempt.handler < s.handlers.length := by
  cases here
  assumption

/-- The handler has used up its attempts. -/
theorem AtAttempt.exhausted (here : AtAttempt s attempt status [.called attempt] past)
    {outcome : AttemptEnd} {error : HandlerError} (fails : AttemptFails s outcome error)
    (last : s.options.retry.maxRetries ≤ attempt.retry) :
    ∃ turns, Comes s turns (.failed (s.handlerName attempt.handler) error) ∧
      past ++ [.ended outcome] = course s turns := by
  obtain ⟨done, answers, turn, returning, hdone, -, lawful, rfl, tried, hcourse⟩ :=
    here.ends outcome
  have exhausted := Nat.le_antisymm lawful.within (Nat.le_trans last (Nat.le_of_eq tried.symm))
  exact ⟨_, hdone ▸ .failed returning (hdone ▸ here.known) lawful fails exhausted, hcourse.symm⟩

/-- The handler has broken down. -/
theorem AtAttempt.panicked (here : AtAttempt s attempt status [.called attempt] past)
    (text : Option String) :
    ∃ turns, Comes s turns (.panicked (s.handlerName attempt.handler) text) ∧
      past ++ [.ended (.panicked text)] = course s turns := by
  obtain ⟨done, answers, turn, returning, hdone, -, lawful, last, -, hcourse⟩ :=
    here.ends (.panicked text)
  exact ⟨_, hdone ▸ .panicked returning (hdone ▸ here.known) lawful last, hcourse.symm⟩

end AtAttempt

/-- What is seen is the beginning of a course that comes to something. -/
def Begins (s : Subscription F) (past : List Moment) : Prop :=
  ∃ turns outcome, Comes s turns outcome ∧ past <+: course s turns

theorem begins_nil : Begins s [] := by
  rcases Nat.eq_zero_or_pos s.handlers.length with none | more
  · exact ⟨[], _, .handled returning_nil none.symm (greatest_foldl []), List.nil_prefix⟩
  · obtain ⟨turns, comes, -⟩ := (AtAttempt.first more).panicked none
    exact ⟨turns, _, comes, List.nil_prefix⟩

/-- A call that is made may break down, so what has been seen can always become a course. -/
theorem StageKeeps.begins {past : List Moment} {stage : Stage} (keeps : StageKeeps s past stage)
    (early : ¬ Late stage) : Begins s past := by
  cases stage with
  | queued =>
    cases (keeps : past = [])
    exact begins_nil
  | calling =>
    obtain ⟨turns, comes, hcourse⟩ := AtAttempt.panicked keeps none
    exact ⟨turns, _, comes, hcourse ▸ List.prefix_append _ _⟩
  | backingOff =>
    obtain ⟨turns, comes, hcourse⟩ := (AtAttempt.again keeps).panicked none
    refine ⟨turns, _, comes, ?_⟩
    rw [← hcourse, List.append_assoc]
    exact List.prefix_append _ _
  | awaitingAck | recovering | confirming | storing => exact absurd trivial early

/-! ## 4. Steps -/

section Steps

variable {past : List Moment} {t u : Task F}

/-- What a handler's answer adds. -/
theorem Onward.keeps {e : Entry F} {count : Nat} {status : HandlingStatus}
    (onward : Onward s t count status u e.effects)
    (called : count < s.handlers.length → AtAttempt s ⟨count, 0⟩ status [.called ⟨count, 0⟩]
      (past ++ (e.action.moment? t.sequence).toList ++ [.called ⟨count, 0⟩])) :
    StageKeeps s (past ++ e.moments t.sequence) u.stage := by
  generalize heffects : e.effects = effects at onward
  cases onward with
  | called more => simpa [StageKeeps, Entry.moments, heffects, Effect.moment?] using called more
  | pending | handled => trivial

/-- A task that goes on adds to the course of its message. -/
theorem Advance.keeps (advance : Advance s r t a u effects) (keeps : StageKeeps s past t.stage) :
    StageKeeps s (past ++ (⟨r, a, r', effects⟩ : Entry F).moments t.sequence) u.stage := by
  cases advance with
  | started stage _ _ onward =>
    rw [stage] at keeps
    cases (keeps : past = [])
    exact onward.keeps (t := { t with ack := .armed }) (e := ⟨r, _, r', effects⟩) AtAttempt.first
  | @returned attempt status answer _ _ stage onward =>
    rw [stage] at keeps
    refine onward.keeps (e := ⟨r, _, r', effects⟩) fun more => ?_
    simpa [Action.moment?] using AtAttempt.next keeps answer more
  | backedOff stage fails more =>
    rw [stage] at keeps
    simpa [StageKeeps, Entry.moments, Action.moment?, Effect.moment?]
      using AtAttempt.backsOff keeps fails more
  | retried stage =>
    rw [stage] at keeps
    simpa [StageKeeps, Entry.moments, Action.moment?, Effect.moment?] using AtAttempt.again keeps
  | ackTaken | ackSettled => simpa [Entry.moments, Action.moment?] using keeps
  | recovering | acknowledged | recovered => trivial

/-- The course of a message whose handler has used up its attempts. -/
theorem Fails.finishes {name : String} {error : HandlerError} (fails : Fails s t a name error u)
    (keeps : StageKeeps s past t.stage) (early : ¬ Late t.stage) :
    ∃ turns, Comes s turns (.failed name error) ∧
      past ++ (a.moment? t.sequence).toList = course s turns := by
  cases fails with
  | exhausted stage ends last =>
    rw [stage] at keeps
    simpa [Action.moment?] using AtAttempt.exhausted keeps ends last
  | refused stage =>
    rw [stage] at early
    exact absurd trivial early

/-- In this step the course of the message, of which `past` was seen, ends, and the run goes on with
what it came to; the message is at this stage then, if the run still has it. -/
def Concludes (s : Subscription F) (past : List Moment) (e : Entry F) (m : Message F)
    (stage? : Option Stage) : Prop :=
  ∃ turns upshot, Comes s turns upshot ∧ past ++ e.moments m.sequence = course s turns ∧
    e.effects = upshot.shown s m ∧ stage? = upshot.stage? s

/-- When no handler is left to be called, what the answers come to is said or kept back. -/
theorem Onward.finishes {count : Nat} {status : HandlingStatus} {m : Message F}
    (onward : Onward s t count status u effects) (message : t.message = m) (late : Late u.stage)
    (comes : s.handlers.length ≤ count → ∃ turns, Comes s turns (.handled status) ∧
      past ++ (a.moment? m.sequence).toList = course s turns) :
    Concludes s past ⟨r, a, r', effects⟩ m (some u.stage) := by
  subst message
  cases onward with
  | called => exact late.elim
  | pending all status_eq =>
    obtain ⟨turns, comes, hcourse⟩ := comes all
    subst status_eq
    exact ⟨turns, _, comes, by simpa [Entry.moments] using hcourse, rfl, rfl⟩
  | handled all status_ne =>
    obtain ⟨turns, comes, hcourse⟩ := comes all
    refine ⟨turns, _, comes, by rwa [Entry.moments_unseen rfl], ?_⟩
    cases status with
    | pending => exact absurd rfl status_ne
    | ignored | success => exact ⟨rfl, rfl⟩

/-- A message that leaves its handlers has come to the end of its course. -/
theorem Advance.finishes (advance : Advance s r t a u effects) (keeps : StageKeeps s past t.stage)
    (early : ¬ Late t.stage) (late : Late u.stage) :
    Concludes s past ⟨r, a, r', effects⟩ t.message (some u.stage) := by
  cases advance with
  | started stage _ _ onward =>
    rw [stage] at keeps
    cases (keeps : past = [])
    refine onward.finishes rfl late fun all => ⟨[], ?_, rfl⟩
    exact .handled returning_nil (Nat.le_zero.1 all).symm (greatest_foldl [])
  | @returned attempt _ answer _ _ stage onward =>
    rw [stage] at keeps
    refine onward.finishes rfl late fun all => ?_
    have known := AtAttempt.known keeps
    simpa [Action.moment?] using AtAttempt.handled keeps answer (by omega)
  | recovering fails going rescue =>
    obtain ⟨turns, comes, hcourse⟩ := fails.finishes keeps early
    refine ⟨turns, _, comes, by rwa [Entry.moments_unseen rfl], ?_, ?_⟩
    · simp only [Upshot.shown, rescue, fails.message_eq]
    · simp only [Upshot.stage?, rescue, Option.map_some]
  | backedOff | retried => exact late.elim
  | ackTaken | ackSettled => exact absurd late early
  | acknowledged stage | recovered stage =>
    rw [stage] at early
    exact absurd trivial early

/-- So has a message that ends the run, unless it was with the handler of failed messages. -/
theorem Ends.finishes {e : SubscriptionError} (reason : Ends s r t a e)
    (keeps : StageKeeps s past t.stage) (early : ¬ Late t.stage) :
    Concludes s past ⟨r, a, r', [.dropped e]⟩ t.message none := by
  cases reason with
  | failed fails going alone =>
    obtain ⟨turns, comes, hcourse⟩ := fails.finishes keeps early
    refine ⟨turns, _, comes, by rwa [Entry.moments_unseen rfl], ?_, ?_⟩
    · simp only [Upshot.shown, alone]
    · simp only [Upshot.stage?, alone, Option.map_none]
  | @panicked attempt status text stage =>
    rw [stage] at keeps
    obtain ⟨turns, comes, hcourse⟩ := AtAttempt.panicked keeps text
    refine ⟨turns, _, comes, ?_, rfl, rfl⟩
    rw [Entry.moments_unseen rfl, ← hcourse]
    simp [Action.moment?]
  | unrecovered stage | unstored stage =>
    rw [stage] at early
    exact absurd trivial early

theorem Concludes.begins {e : Entry F} {m : Message F} {stage? : Option Stage}
    (ends : Concludes s past e m stage?) : Begins s (past ++ e.moments m.sequence) := by
  obtain ⟨turns, upshot, comes, hcourse, -⟩ := ends
  exact ⟨turns, upshot, comes, hcourse ▸ List.prefix_refl _⟩

theorem LetsGo.begins (reason : LetsGo s t a) (keeps : StageKeeps s past t.stage)
    (early : ¬ Late t.stage) : Begins s (past ++ (a.moment? t.sequence).toList) := by
  cases reason with
  | failed fails =>
    obtain ⟨turns, comes, hcourse⟩ := fails.finishes keeps early
    exact ⟨turns, _, comes, hcourse ▸ List.prefix_refl _⟩
  | untouched | cutShort | unanswered => simpa [Action.moment?] using keeps.begins early

/-- A failure of a message that is no longer with its handlers is no end of a call. -/
theorem Fails.quiet_for {name : String} {error : HandlerError} (fails : Fails s t a name error u)
    (late : Late t.stage) : a.moment? n = none := by
  cases fails with
  | exhausted stage =>
    rw [stage] at late
    exact late.elim
  | refused => rfl

/-- Nothing is seen of a message that is no longer with its handlers, or that the step is not
about. -/
theorem Advance.quiet_for (advance : Advance s r t a u effects)
    (other : Late t.stage ∨ t.sequence ≠ n) : (⟨r, a, r', effects⟩ : Entry F).moments n = [] := by
  have silent {stage : Stage} (here : t.stage = stage) (early : ¬ Late stage) : t.sequence ≠ n :=
    other.resolve_left (here ▸ early)
  cases advance with
  | started stage _ _ onward | returned stage onward =>
    have hne := silent stage (by simp [Late])
    cases onward <;> simp [Entry.moments, Action.moment?, Effect.moment?, hne]
  | backedOff stage | retried stage =>
    have hne := silent stage (by simp [Late])
    simp [Entry.moments, Action.moment?, Effect.moment?, hne]
  | recovering fails =>
    rw [Entry.moments_unseen rfl, other.elim fails.quiet_for (Action.moment?_eq_none fails.about),
      Option.toList_none]
  | ackTaken | ackSettled | acknowledged | recovered => rfl

end Steps

/-- The step is about a task that is with its handlers, and what follows of it. -/
inductive Speaks (s : Subscription F) (r : Run F) (t : Task F) :
    Action → Run F → List (Effect F) → Prop where
  | advanced {u : Task F} {a : Action} {effects : List (Effect F)}
    (advance : Advance s r t a u effects) :
    Speaks s r t a (r.put u) effects
  | letGo {a : Action} (reason : LetsGo s t a) :
    Speaks s r t a (r.remove t.sequence) [.abandoned t.sequence]
  | ended {a : Action} {e : SubscriptionError} (reason : Ends s r t a e) :
    Speaks s r t a ((r.remove t.sequence).drop e) [.dropped e]

theorem Polls.quiet_for (polls : Polls s r a r' effects) (n : Nat) :
    (⟨r, a, r', effects⟩ : Entry F).moments n = [] := by
  cases polls with
  | delivered phase decoded place continues => cases continues <;> rfl
  | aborted reason | stopped reason => cases reason <;> rfl
  | _ => rfl

theorem LetsGo.quiet_for {t : Task F} (reason : LetsGo s t a) (late : Late t.stage) :
    a.moment? n = none := by
  cases reason with
  | failed fails => exact fails.quiet_for late
  | untouched | cutShort | unanswered => rfl

theorem Ends.quiet_for {t : Task F} {e : SubscriptionError} (reason : Ends s r t a e)
    (late : Late t.stage) : a.moment? n = none := by
  cases reason with
  | failed fails => exact fails.quiet_for late
  | panicked stage =>
    rw [stage] at late
    exact late.elim
  | unrecovered | unstored => rfl

/-- A step in which something is seen of a message is about its task, which is with its handlers. -/
theorem Transition.quiet_or_speaks (made : Transition s r a r' effects) (n : Nat) :
    (⟨r, a, r', effects⟩ : Entry F).moments n = [] ∨
      ∃ t, t.sequence = n ∧ r.task? n = some t ∧ ¬ Late t.stage ∧ Speaks s r t a r' effects := by
  have quiet {x : Effect F} (action : a.moment? n = none) (unseen : x.moment? n = none) :
      (⟨r, a, r', [x]⟩ : Entry F).moments n = [] := by
    rw [Entry.moments_unseen unseen, action, Option.toList_none]
  have ours {t : Task F} (task : r.task? t.sequence = some t) (speaks : Speaks s r t a r' effects)
      (about : (Late t.stage ∨ t.sequence ≠ n) → (⟨r, a, r', effects⟩ : Entry F).moments n = []) :
      (⟨r, a, r', effects⟩ : Entry F).moments n = [] ∨
        ∃ t, t.sequence = n ∧ r.task? n = some t ∧ ¬ Late t.stage ∧ Speaks s r t a r' effects := by
    by_cases other : Late t.stage ∨ t.sequence ≠ n
    · exact .inl (about other)
    · simp only [not_or, ne_eq, Classical.not_not] at other
      obtain ⟨early, rfl⟩ := other
      exact .inr ⟨t, rfl, task, early, speaks⟩
  cases made with
  | advanced task advance => exact ours task (.advanced advance) advance.quiet_for
  | letGo task halted reason =>
    refine ours task (.letGo reason) fun other => quiet ?_ rfl
    exact other.elim reason.quiet_for (Action.moment?_eq_none reason.about)
  | ended task reason =>
    refine ours task (.ended reason) fun other => quiet ?_ rfl
    exact other.elim reason.quiet_for (Action.moment?_eq_none reason.about)
  | @broken t _ task reason =>
    obtain ⟨gone, lanes, -, -, -, hlost⟩ := loseWorker_spec r t
    have action : a.moment? n = none := by cases reason <;> rfl
    have unseen : (loseWorker r t).2.filterMap (Effect.moment? n) = [] := by
      refine List.filterMap_eq_nil_iff.2 fun x hx => ?_
      obtain ⟨k, rfl⟩ := hlost x hx
      rfl
    exact .inl (by simp [Entry.moments, action, unseen])
  | confirmed | asked | stored | cancelled => exact .inl rfl
  | polled polls => exact .inl (polls.quiet_for n)

/-! ## 5. Courses of a history -/

/-- What is seen of every message is the beginning of a course, and where it stands in it is said by
its stage. -/
structure Chronicled (s : Subscription F) (h : List (Entry F)) (r : Run F) : Prop where
  fresh : ∀ n, (dispatched h).length ≤ n → chronicle h n = []
  stage : ∀ t ∈ r.tasks, StageKeeps s (chronicle h t.sequence) t.stage
  begins : ∀ n, Begins s (chronicle h n)

namespace Chronicled

theorem step_stage (hc : Chronicled s h r) (hn : Numbered h r)
    (made : Transition s r a r' effects) {u : Task F} (hu : u ∈ r'.tasks) :
    StageKeeps s (chronicle (h ++ [⟨r, a, r', effects⟩]) u.sequence) u.stage := by
  have advanced {t : Task F} (task : r.task? t.sequence = some t)
      (advance : Advance s r t a u effects) :
      StageKeeps s (chronicle (h ++ [⟨r, a, r', effects⟩]) u.sequence) u.stage := by
    rw [show u.sequence = t.sequence from congrArg (·.sequence) advance.position_eq, chronicle_snoc]
    exact advance.keeps (hc.stage t (mem_of_task? task).1)
  rcases made.quiet_or_speaks u.sequence with quiet | ⟨t, number, task, early, speaks⟩
  · rcases made.arises hu with hold | arises
    · rw [chronicle_quiet quiet]
      exact hc.stage u hold
    · cases arises with
      | advanced task advance => exact advanced task advance
      | asked => trivial
      | delivered here number =>
        rw [chronicle_quiet quiet]
        exact hc.fresh _ (Nat.le_of_eq ((hn.cursor _ here).symm.trans number.symm))
  · rw [← number] at task
    cases speaks with
    | advanced advance =>
      cases eq_of_mem_put task advance.position_eq hu number.symm
      exact advanced task advance
    | letGo | ended =>
      have gone := List.of_mem_filter hu
      simp [number] at gone

theorem step_begins (hc : Chronicled s h r) (made : Transition s r a r' effects) (n : Nat) :
    Begins s (chronicle (h ++ [⟨r, a, r', effects⟩]) n) := by
  rcases made.quiet_or_speaks n with quiet | ⟨t, rfl, task, early, speaks⟩
  · rw [chronicle_quiet quiet]
    exact hc.begins n
  · have keeps := hc.stage t (mem_of_task? task).1
    rw [chronicle_snoc]
    cases speaks with
    | @advanced u _ _ advance =>
      by_cases late : Late u.stage
      · exact (advance.finishes keeps early late).begins
      · exact (advance.keeps keeps).begins late
    | letGo reason =>
      rw [Entry.moments_unseen rfl]
      exact reason.begins keeps early
    | ended reason =>
      exact (reason.finishes keeps early).begins

theorem step (hc : Chronicled s h r) (hn : Numbered h r) (made : Transition s r a r' effects) :
    Chronicled s (h ++ [⟨r, a, r', effects⟩]) r' := by
  refine ⟨fun n unknown => ?_, fun u hu => hc.step_stage hn made hu, hc.step_begins made⟩
  have hgrows : (dispatched h).length ≤ (dispatched (h ++ [⟨r, a, r', effects⟩])).length := by simp
  rcases made.quiet_or_speaks n with quiet | ⟨t, rfl, task, -⟩
  · rw [chronicle_quiet quiet]
    exact hc.fresh n (Nat.le_trans hgrows unknown)
  · have := hn.task_sequence_lt (mem_of_task? task).1
    omega

end Chronicled

theorem chronicled (hist : History s h r) : Chronicled s h r := by
  induction hist with
  | begin => exact ⟨fun _ _ => rfl, List.forall_mem_nil _, fun _ => begins_nil⟩
  | step past made ih => exact ih.step (numbered past) (transition_of_step made)

/-! ## 6. Messages that leave their handlers -/

/-- In this step the message leaves its handlers, by an action of its own. -/
structure Entry.Leaves (e : Entry F) (n : Nat) : Prop where
  about : e.action.sequence? = some n
  early : ∃ t, e.before.task? n = some t ∧ ¬ Late t.stage
  late : ∀ u ∈ e.after.tasks, u.sequence = n → Late u.stage

/-- The message is with its handlers. -/
def WithHandlers (n : Nat) (r : Run F) : Prop :=
  ∃ t ∈ r.tasks, t.sequence = n ∧ ¬ Late t.stage ∧ t.stage ≠ .queued

theorem Action.Ends.about {stage : Stage} (ends : a.Ends n stage) : a.sequence? = some n := by
  cases stage with
  | queued | confirming => rw [show a = _ from ends]; rfl
  | calling | recovering | storing => obtain ⟨_, rfl⟩ := ends; rfl
  | backingOff | awaitingAck => rcases ends with rfl | rfl <;> rfl

/-- A message that was taken up is with its handlers until it leaves them. -/
theorem leaves_or_stays (hist : History s h r) (begun : Begun h n) :
    (∃ e ∈ h, e.Leaves n) ∨ WithHandlers n r := by
  induction hist with
  | begin =>
    obtain ⟨e, he, -⟩ := begun
    cases he
  | @step h r r' a effects past made ih =>
    have hn := numbered past
    -- Either the message is still with its handlers after the step, or this is the step in which it
    -- leaves them.
    have leaves {t : Task F} (ht : t ∈ r.tasks) (number : t.sequence = n) (early : ¬ Late t.stage)
        (about : a.sequence? = some n) : (∃ e ∈ h ++ [⟨r, a, r', effects⟩], e.Leaves n) ∨
          WithHandlers n r' := by
      by_cases stays : ∃ u ∈ r'.tasks, u.sequence = n ∧ ¬ Late u.stage
      · obtain ⟨u, hu, rfl, hearly⟩ := stays
        exact .inr ⟨u, hu, rfl, hearly, not_queued_of_begun (past.step made) hu begun⟩
      · refine .inl ⟨_, List.mem_append_right h (List.mem_singleton_self _), about,
          ⟨t, number ▸ hn.task?_eq ht, early⟩, fun u hu hun => ?_⟩
        exact Classical.byContradiction fun hearly => stays ⟨u, hu, hun, hearly⟩
    rcases begun_snoc.1 begun with old | now
    · rcases ih old with ⟨e, he, left⟩ | ⟨t, ht, rfl, early, taken⟩
      · exact .inl ⟨e, List.mem_append_left _ he, left⟩
      · rcases (transition_of_step made).stays_or_ends hn ht taken
          with ⟨u, hu, number, same, -⟩ | ends
        · exact .inr ⟨u, hu, number, same ▸ early, same ▸ taken⟩
        · exact leaves ht rfl early ends.about
    · dsimp only at now
      subst now
      obtain ⟨t, task, stage, -⟩ := step_start made
      obtain ⟨ht, number⟩ := mem_of_task? task
      exact leaves ht number (by simp [stage, Late]) rfl

/-- Nothing more is seen of a message that has left its handlers. -/
theorem chronicle_later {before later : List (Entry F)} {r₀ : Run F} (past : History s before r₀)
    (hist : History s (before ++ later) r) (known : n < (dispatched before).length)
    (left : ∀ u ∈ r₀.tasks, u.sequence = n → Late u.stage) : chronicle later n = [] := by
  -- No message comes back to its handlers, and it takes one that is with them for anything to be
  -- seen.
  refine (later_induction (motive := fun later r => (∀ u ∈ r.tasks, u.sequence = n → Late u.stage) ∧
    chronicle later n = []) past hist ⟨left, rfl⟩ fun hist made ih => ?_).2
  obtain ⟨late, quiet⟩ := ih
  have made' := transition_of_step made
  refine ⟨fun u hu number => Classical.byContradiction fun early => ?_, ?_⟩
  · rcases made'.early_before (numbered hist) hu early with ⟨t, ht, heq, hearly, -⟩ | new
    · exact hearly (late t ht (heq.trans number))
    · rw [dispatched_append, List.length_append] at new
      omega
  · rw [chronicle_snoc, quiet, List.nil_append]
    refine (made'.quiet_or_speaks n).resolve_right ?_
    rintro ⟨t, number, task, early, -⟩
    exact early (late t (mem_of_task? task).1 number)

/-- The step in which a message leaves its handlers ends its course, unless the run is halted. -/
theorem Entry.Leaves.finishes {e : Entry F} (left : e.Leaves n) (past : History s h e.before)
    (made : step s e.before e.action = some (e.after, e.effects))
    (going : e.before.isHalted = false) :
    ∃ t, e.before.task? n = some t ∧
      Concludes s (chronicle h n) e t.message ((e.after.task? n).map (·.stage)) := by
  obtain ⟨r, a, r', effects⟩ := e
  obtain ⟨about, ⟨t, task, early⟩, late⟩ := left
  dsimp only at past made going about task late ⊢
  refine ⟨t, task, ?_⟩
  obtain ⟨ht, rfl⟩ := mem_of_task? task
  have hn := numbered past
  have keeps := (chronicled past).stage t ht
  cases (transition_of_step made).becomes hn ht with
  | stays mem => exact absurd (late t mem rfl) early
  | @advanced u _ _ _ advance mem =>
    have number : u.sequence = t.sequence := congrArg (·.sequence) advance.position_eq
    have found := (numbered (past.step made)).task?_eq mem
    rw [number] at found
    rw [found]
    exact advance.finishes keeps early (late u mem number)
  | letGo halted =>
    rw [going] at halted
    cases halted
  | @ended _ e reason =>
    have gone : ((r.remove t.sequence).drop e).task? t.sequence = none := by
      refine List.find?_eq_none.2 fun u hu => ?_
      have other := List.of_mem_filter (show u ∈ r.tasks.filter (·.sequence ≠ t.sequence) from hu)
      simpa using other
    rw [gone]
    exact reason.finishes keeps early
  | broken other reason =>
    have number := Option.some.inj (reason.about.symm.trans about)
    cases hn.task_eq_of_sequence (mem_of_task? other).1 ht number
    cases reason with
    | recovering stage | storing stage =>
      rw [stage] at early
      exact absurd trivial early
  | confirmed stage | asked stage | stored stage =>
    rw [stage] at early
    exact absurd trivial early

/-! ## 7. The number of retries -/

section Counts

variable {t u : Task F} {attempt : Attempt}

theorem AtAttempt.within {past now : List Moment} {status : HandlingStatus}
    (here : AtAttempt s attempt status now past) : attempt.retry ≤ s.options.retry.maxRetries := by
  cases here with
  | mk _ _ _ _ tried lawful => exact tried ▸ (lawful (.panicked none)).within

theorem retryCount_of_decode {e : StoredEvent} {m : Message F} (decoded : s.decode e n = .ok m) :
    m.retryCount = 0 := by
  obtain ⟨payload, -, rfl⟩ := Subscription.message_of_decode decoded
  rfl

/-- A message is handed out untried. -/
theorem Transition.hands_untried (made : Transition s r a r' effects) {m : Message F}
    (handed : m ∈ effects.filterMap Effect.dispatched?) : m.retryCount = 0 := by
  rcases made.polls_or_aside with polls | aside
  · cases polls with
    | delivered phase decoded place continues =>
      rw [filterMap_dispatched, continues.quiet, List.mem_singleton] at handed
      exact handed ▸ retryCount_of_decode decoded
    | undelivered phase decoded place =>
      cases List.mem_singleton.1 handed
      exact retryCount_of_decode decoded
    | _ => cases handed
  · rw [aside.quiet] at handed
    cases handed

theorem Onward.retryCount_le {count : Nat} {status : HandlingStatus}
    (onward : Onward s t count status u effects)
    (within : t.message.retryCount ≤ s.options.retry.maxRetries) :
    u.message.retryCount ≤ s.options.retry.maxRetries := by
  cases onward with
  | called => exact Nat.zero_le _
  | pending | handled => exact within

theorem Advance.retryCount_le {past : List Moment} (advance : Advance s r t a u effects)
    (keeps : StageKeeps s past t.stage)
    (within : t.message.retryCount ≤ s.options.retry.maxRetries) :
    u.message.retryCount ≤ s.options.retry.maxRetries := by
  cases advance with
  | started _ _ _ onward | returned _ onward => exact onward.retryCount_le within
  | backedOff _ _ more => exact more
  | retried stage =>
    rw [stage] at keeps
    exact AtAttempt.within keeps
  | recovering fails => exact fails.message_eq ▸ within
  | ackTaken | ackSettled | acknowledged | recovered => exact within

end Counts

/-- The number of retries of a message stays within the policy, and so within what it is kept in. -/
theorem retryCount_le (hist : History s h r) :
    ∀ t ∈ r.tasks, t.message.retryCount ≤ s.options.retry.maxRetries := by
  induction hist with
  | begin => exact List.forall_mem_nil _
  | @step h r r' a effects past made ih =>
    intro u hu
    have made' := transition_of_step made
    rcases made'.arises hu with hold | arises
    · exact ih u hold
    · cases arises with
      | @advanced t _ _ _ task advance =>
        have ht := (mem_of_task? task).1
        exact advance.retryCount_le ((chronicled past).stage t ht) (ih t ht)
      | @asked t _ _ task => exact ih t (mem_of_task? task).1
      | @delivered cursor m lane fx =>
        have untried :=
          made'.hands_untried (m := m) (by rw [filterMap_dispatched]; exact List.mem_cons_self)
        exact untried ▸ Nat.zero_le _

/-- Every call is one of a handler there is, and within the policy. -/
theorem called_within (hist : History s h r) {handler : Nat} {m : Message F}
    (seen : Effect.called handler m ∈ trace h) :
    handler < s.handlers.length ∧ m.retryCount ≤ s.options.retry.maxRetries := by
  obtain ⟨e, he, here⟩ := List.mem_flatMap.1 seen
  obtain ⟨before, later, rfl⟩ := List.append_of_mem he
  obtain ⟨past, made⟩ := history_at hist rfl
  obtain ⟨t, u, task, advance, hrun⟩ := (transition_of_step made).goes_on here trivial
  obtain ⟨-, status, stage⟩ := advance.calls here
  have hu : u ∈ e.after.tasks := by
    rw [hrun]
    exact (mem_put_iff task (congrArg (·.sequence) advance.position_eq) u).2 (.inl rfl)
  have keeps := (chronicled (past.step made)).stage u hu
  rw [stage] at keeps
  exact ⟨AtAttempt.known keeps, AtAttempt.within keeps⟩

/-! ## 8. Discipline -/

/-- A call may end in any way; only a limited one runs out of time. -/
theorem ends_anyhow {t : Task F} (task : r.task? n = some t) {attempt : Attempt}
    {status : HandlingStatus} (stage : t.stage = .calling attempt status)
    {outcome : AttemptEnd} (limited : outcome = .timedOut → s.options.handlerTimeout.isSome) :
    (step s r (.attemptEnded n outcome)).isSome := by
  have moved : step s r (.attemptEnded n outcome) = attemptEnded s r t attempt status outcome := by
    simp [step, Action.sequence?, task, taskStep, stage]
  rw [moved]
  cases outcome with
  | timedOut => simpa [attemptEnded] using limited rfl
  | returned | failed | panicked => rfl

theorem goes_on_anyhow {t : Task F} (task : r.task? n = some t)
    {next : Attempt} {status : HandlingStatus} {error : HandlerError}
    (stage : t.stage = .backingOff next status error) : (step s r (.retry n)).isSome := by
  simp [step, Action.sequence?, task, taskStep, stage]

/-- How the handlers of a message have their turns. -/
structure Disciplined (s : Subscription F) (h : List (Entry F)) (r : Run F) (n : Nat) : Prop where
  /-- What is seen of the message is the beginning of a course. -/
  begins : Begins s (chronicle h n)
  /-- A message that was taken up is with its handlers until it leaves them. -/
  stays : Begun h n → (∃ e ∈ h, e.Leaves n) ∨ WithHandlers n r
  /-- A call of a handler may end in any way. -/
  ends : ∀ t attempt status outcome, r.task? n = some t → t.stage = .calling attempt status →
    (outcome = .timedOut → s.options.handlerTimeout.isSome) →
    (step s r (.attemptEnded n outcome)).isSome
  /-- A delay before the next attempt may pass. -/
  goesOn : ∀ t next status error, r.task? n = some t → t.stage = .backingOff next status error →
    (step s r (.retry n)).isSome
  /-- When a message leaves its handlers, in a run that is not halted, what is seen of it is a whole
  course, nothing more of this kind is ever seen of it, and the run goes on with what the course
  came to. -/
  finishes : ∀ before e later, h = before ++ e :: later → e.before.isHalted = false → e.Leaves n →
    ∃ t turns upshot, e.before.task? n = some t ∧ Comes s turns upshot ∧
      chronicle h n = course s turns ∧
      e.effects = upshot.shown s t.message ∧ (e.after.task? n).map (·.stage) = upshot.stage? s

/-- **Retries are disciplined.**  In every run, what is seen of a message while it is with its
handlers follows their turns, and what becomes of it follows what the turns come to; and no number
of retries ever exceeds that of the policy, so it fits wherever that one does. -/
theorem retries_are_disciplined (hist : History s h r) : (∀ n, Disciplined s h r n) ∧
    (∀ handler m, Effect.called handler m ∈ trace h →
      handler < s.handlers.length ∧ m.retryCount ≤ s.options.retry.maxRetries) ∧
    ∀ t ∈ r.tasks, t.message.retryCount ≤ s.options.retry.maxRetries := by
  refine ⟨fun n => ?_, fun _ _ => called_within hist, retryCount_le hist⟩
  constructor
  case begins => exact (chronicled hist).begins n
  case stays => exact leaves_or_stays hist
  case ends => exact fun t attempt status outcome task stage => ends_anyhow task stage
  case goesOn => exact fun t next status error task stage => goes_on_anyhow task stage
  case finishes =>
    intro before e later heq going left
    obtain ⟨past, made⟩ := history_at hist heq
    obtain ⟨t, task, turns, upshot, comes, hcourse, hseen⟩ := left.finishes past made going
    obtain ⟨ht, rfl⟩ := mem_of_task? task
    have hall : h = (before ++ [e]) ++ later := by
      rw [heq, List.append_assoc, List.singleton_append]
    have known : t.sequence < (dispatched (before ++ [e])).length := by
      have hlt := (numbered past).task_sequence_lt ht
      rw [dispatched_append, List.length_append]
      omega
    have silent := chronicle_later (past.step made) (hall ▸ hist) known left.late
    refine ⟨t, turns, upshot, task, comes, ?_, hseen⟩
    rw [hall, chronicle_append, silent, List.append_nil, chronicle_snoc]
    exact hcourse

section Runs

open Sample

/-- Ticks for two handlers, each of which may try twice. -/
def retriedTicks : Subscription ticks :=
  { tickFeed none with
    options := { (tickFeed none).options with retry := { maxRetries := 1 } }
    handlers := ["counter", "display"] }

/-- The first handler fails once and is called again after a tenth of a second, and then the second
one is called. -/
theorem tick_is_handled_at_the_second_attempt :
    ∃ (h : List (Entry ticks)) (r : Run ticks), History retriedTicks h r ∧
    chronicle h 0 = [.called ⟨0, 0⟩, .ended (.failed (.failed "no")), .waits (.ofMillis 100),
      .called ⟨0, 1⟩, .ended (.returned .success), .called ⟨1, 0⟩, .ended (.returned .ignored)] ∧
    ∃ turns upshot m, Comes retriedTicks turns upshot ∧ chronicle h 0 = course retriedTicks turns ∧
      [.confirmed 0 .handled] = upshot.shown retriedTicks m := by
  have read := ((History.begin (s := retriedTicks)).step (a := .subscribe) rfl).step
    (a := .checkpointLoaded (.ok ⟨"feed", none⟩)) rfl |>.step (a := .pageRead (.ok [tick 0])) rfl
  have retried := (((read.step (a := .deliver) rfl).step (a := .start 0) rfl).step
    (a := .attemptEnded 0 (.failed (.failed "no"))) rfl).step (a := .retry 0) rfl
  have called := retried.step (a := .attemptEnded 0 (.returned .success)) rfl
  have handled := called.step (a := .attemptEnded 0 (.returned .ignored)) rfl
  have disciplined := (retries_are_disciplined handled).1 0
  obtain ⟨t, turns, upshot, -, comes, hcourse, hseen, -⟩ := disciplined.finishes _ _ [] rfl rfl
    ⟨rfl, ⟨_, rfl, id⟩, fun u hu _ => List.mem_singleton.1 hu ▸ trivial⟩
  exact ⟨_, _, handled, rfl, turns, upshot, t.message, comes, hcourse, hseen⟩

end Runs

end Run
end EventSourcing

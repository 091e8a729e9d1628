/-
# The life of a subscription

Who starts a subscription holds the task of its run, and may wait for its end once, having asked for
it or not.  What can be seen meanwhile is the status, which the run sets on its own way: as it
begins, once its checkpoint is loaded, and at the end, by what it ends with.  A run whose poller
breaks down does not come to that end: its task is over, whoever waits for it is given an error, and
the status stays what it was.

What the file settles:

* `statuses`, `Path`: the statuses a run goes through, by where its poller is;
* `BrokeDown`, `aborted_iff`: the runs whose poller breaks down are those that are aborted;
* `Watch`: a run and what its handle was told;
* `lifecycle`: the status when the end of a run was waited for, and exactly when it is the right
  one.
-/
import EventSourcing.Proofs.Run.Verdict
import EventSourcing.Sample.Ticks

namespace EventSourcing

/-- The status that says how a subscription ended. -/
def SubscriptionStatus.ofResult : Except SubscriptionError Unit → SubscriptionStatus
  | .ok _ => .stopped
  | .error _ => .dropped

namespace Run

variable {F : PayloadFamily} {s : Subscription F} {r r' : Run F} {a : Action}
  {effects : List (Effect F)} {h : List (Entry F)}

/-! ## 1. Statuses -/

/-- The status an effect sets. -/
def Effect.status? : Effect F → Option SubscriptionStatus
  | .status now => some now
  | _ => none

/-- The statuses a run has set, in order. -/
def statuses (h : List (Entry F)) : List SubscriptionStatus := (trace h).filterMap Effect.status?

/-- The way to the end: the status is subscribing, and then running unless the run ends before. -/
def OnTheWay (l : List SubscriptionStatus) : Prop :=
  l = [.subscribing] ∨ l = [.subscribing, .running]

/-- The run ended in the status that says how, and came to it on the way. -/
def EndsRight (h : List (Entry F)) (result : Except SubscriptionError Unit) : Prop :=
  ∃ way, OnTheWay way ∧ statuses h = way ++ [.ofResult result]

/-- The statuses a run has set when its poller is here. -/
def Path (h : List (Entry F)) : Phase → Prop
  | .created => statuses h = []
  | .loading => statuses h = [.subscribing]
  | .finished result => EndsRight h result
  | .aborted => OnTheWay (statuses h)
  | _ => statuses h = [.subscribing, .running]

theorem statuses_snoc (h : List (Entry F)) (e : Entry F) :
    statuses (h ++ [e]) = statuses h ++ e.effects.filterMap Effect.status? := by
  simp [statuses, trace]

theorem Onward.no_status {t u : Task F} {handler : Nat} {status : HandlingStatus}
    (onward : Onward s t handler status u effects) : effects.filterMap Effect.status? = [] := by
  cases onward <;> rfl

/-- Only the poller sets the status. -/
theorem Transition.polls_or_silent (made : Transition s r a r' effects) :
    Polls s r a r' effects ∨ r'.phase = r.phase ∧ effects.filterMap Effect.status? = [] := by
  cases made with
  | advanced task advance =>
    refine .inr ⟨rfl, ?_⟩
    cases advance with
    | started _ _ _ onward | returned _ onward => exact onward.no_status
    | _ => rfl
  | @broken t _ task reason =>
    obtain ⟨gone, lanes, hrun, -, -, hlost⟩ := loseWorker_spec r t
    refine .inr ⟨by rw [hrun], List.filterMap_eq_nil_iff.2 fun x hx => ?_⟩
    obtain ⟨k, rfl⟩ := hlost x hx
    rfl
  | letGo | ended | confirmed | asked | stored | cancelled => exact .inr ⟨rfl, rfl⟩
  | polled polls => exact .inl polls

theorem lastStatus_eq (r : Run F) : r.lastStatus = .ofResult r.verdict := by
  unfold lastStatus verdict isDropped
  cases r.failure <;> rfl

/-- A phase in which the run is under way. -/
def Phase.IsOn : Phase → Prop
  | .created | .loading | .finished _ | .aborted => False
  | _ => True

theorem path_of_isOn {phase : Phase} (on : phase.IsOn) :
    Path h phase ↔ statuses h = [.subscribing, .running] := by
  cases phase <;> first | exact Iff.rfl | exact on.elim

theorem Continues.isOn {cursor : Cursor} {rest : List StoredEvent} {phase' : Phase}
    (continues : Continues s r cursor rest phase' effects) :
    phase'.IsOn ∧ effects.filterMap Effect.status? = [] := by
  cases continues <;> exact ⟨trivial, rfl⟩

/-- The poller breaks down while its run is on the way. -/
theorem Aborts.onTheWay (reason : Aborts s r a) (path : Path h r.phase) :
    OnTheWay (statuses h) := by
  cases reason with
  | infeasible phase | loading phase =>
    rw [phase] at path
    exact .inl path
  | reading phase | delivering phase | flushing phase =>
    rw [phase] at path
    exact .inr path

theorem Polls.path (polls : Polls s r a r' effects) (path : Path h r.phase) :
    Path (h ++ [⟨r, a, r', effects⟩]) r'.phase := by
  -- A step between two phases of a run that is under way sets no status.
  have goes : r.phase.IsOn → r'.phase.IsOn → effects.filterMap Effect.status? = [] →
      Path (h ++ [⟨r, a, r', effects⟩]) r'.phase := by
    intro on on' silent
    rw [path_of_isOn on', statuses_snoc, silent, List.append_nil]
    exact (path_of_isOn on).1 path
  have ends : r.phase.IsOn → ∀ result, r'.phase = .finished result →
      effects.filterMap Effect.status? = [.ofResult result] →
      Path (h ++ [⟨r, a, r', effects⟩]) r'.phase := by
    intro on result finished last
    rw [finished]
    refine ⟨_, .inr rfl, ?_⟩
    rw [statuses_snoc, last, (path_of_isOn on).1 path]
  cases polls with
  | subscribed phase | loaded phase =>
    rw [phase] at path
    simp only [Path] at path ⊢
    rw [statuses_snoc, path]
    rfl
  | unloaded phase =>
    rw [phase] at path
    refine ⟨_, .inl rfl, ?_⟩
    rw [statuses_snoc, show statuses h = _ from path]
    rfl
  | aborted reason =>
    show OnTheWay (statuses _)
    rw [statuses_snoc]
    exact (List.append_nil (statuses h)).symm ▸ reason.onTheWay path
  | stopped reason =>
    cases reason <;> rename_i phase _ <;> exact goes (by rw [phase]; trivial) trivial rfl
  | nothingNew phase | pageArrived phase | readAgain phase | woken phase | undelivered phase
  | halted phase
  | flushing phase => exact goes (by rw [phase]; trivial) trivial rfl
  | interrupted phase =>
    exact goes (by rcases phase with phase | phase <;> (rw [phase]; trivial)) trivial rfl
  | delivered phase decoded place continues =>
    exact goes (by rw [phase]; trivial) continues.isOn.1 continues.isOn.2
  | unflushed phase | flushed phase =>
    refine ends (by rw [phase]; trivial) _ rfl ?_
    rw [lastStatus_eq]
    rfl
  | @flushFailed p error phase =>
    refine ends (by rw [phase]; trivial) _ rfl ?_
    rw [← lastStatus_eq, lastStatus, isDropped_drop]
    rfl

/-- **The statuses of a run are where its poller is.** -/
theorem path (hist : History s h r) : Path h r.phase := by
  induction hist with
  | begin => rfl
  | @step h r r' a effects past made ih =>
    rcases (transition_of_step made).polls_or_silent with polls | ⟨phase, silent⟩
    · exact polls.path ih
    · rw [phase]
      have same : statuses (h ++ [⟨r, a, r', effects⟩]) = statuses h := by
        rw [statuses_snoc, silent, List.append_nil]
      cases hphase : r.phase <;> rw [hphase] at ih <;> simp only [Path, EndsRight, same] <;>
        exact ih

/-! ## 2. Breakdowns -/

/-- The poller broke down: the source, the key of a message, or the store of the checkpoint did as
it was asked, or the mode could not be set up. -/
def BrokeDown (s : Subscription F) (h : List (Entry F)) : Prop :=
  ∃ e ∈ h, Aborts s e.before e.action

theorem Aborts.step_eq (reason : Aborts s r a) : step s r a = some (abort r) := by
  cases reason with
  | infeasible phase mode =>
    simp [step, Action.sequence?, pollerStep, checkpointLoaded, phase, mode]
  | loading phase => simp [step, Action.sequence?, pollerStep, checkpointLoaded, phase]
  | reading phase => simp [step, Action.sequence?, pollerStep, pageRead, phase]
  | delivering phase decoded place =>
    simp [step, Action.sequence?, pollerStep, deliver, phase, decoded, place]
  | flushing phase => simp [step, Action.sequence?, pollerStep, flushed, phase]

/-- A poller that broke down does nothing more. -/
theorem Polls.not_aborted (polls : Polls s r a r' effects) : r.phase ≠ .aborted := by
  intro phase
  cases polls with
  | aborted reason | stopped reason => cases reason <;> simp_all
  | interrupted other => simp_all
  | _ => simp_all

theorem aborted_iff (hist : History s h r) : r.phase = .aborted ↔ BrokeDown s h := by
  induction hist with
  | begin => simp [BrokeDown]
  | @step h r r' a effects past made ih =>
    have last : (⟨r, a, r', effects⟩ : Entry F) ∈ h ++ [⟨r, a, r', effects⟩] :=
      List.mem_append_right h (List.mem_singleton_self _)
    constructor
    · intro phase
      rcases (transition_of_step made).polls_or_aside with polls | aside
      · cases polls with
        | aborted reason => exact ⟨_, last, reason⟩
        | delivered _ _ _ continues => cases continues <;> cases phase
        | _ => cases phase
      · obtain ⟨e, he, reason⟩ := ih.1 (aside.phase.symm.trans phase)
        exact ⟨e, List.mem_append_left _ he, reason⟩
    · rintro ⟨e, he, reason⟩
      rcases List.mem_append.1 he with he | he
      · have phase := ih.2 ⟨e, he, reason⟩
        rcases (transition_of_step made).polls_or_aside with polls | aside
        · exact (polls.not_aborted phase).elim
        · exact aside.phase.trans phase
      · cases List.mem_singleton.1 he
        have moved := Option.some.inj (made.symm.trans reason.step_eq)
        rw [(Prod.mk.inj moved).1]

/-! ## 3. Waiting for the end -/

/-- What has become of the task of a run in the hands of who started it. -/
inductive Hold where
  /-- Nobody has waited for it. -/
  | held
  /-- Somebody waits for it, and nobody else can. -/
  | awaited
  /-- The end has come, and this is what was waited for. -/
  | told (result : Except SubscriptionError Unit)
  /-- Waiting was given up. -/
  | letGo

/-- A run from its start, and what has become of its task.  The run may be asked to stop at any
time; it is as well when the wait begins, if whoever waits wants it to. -/
inductive Watch (s : Subscription F) : List (Entry F) → Run F → Hold → Prop where
  | started : Watch s [] {} .held
  | acted {h : List (Entry F)} {r r' : Run F} {a : Action} {effects : List (Effect F)} {hold : Hold}
    (past : Watch s h r hold) (made : step s r a = some (r', effects)) :
    Watch s (h ++ [⟨r, a, r', effects⟩]) r' hold
  | joined {h : List (Entry F)} {r : Run F} (past : Watch s h r .held) : Watch s h r .awaited
  | stopped {h : List (Entry F)} {r r' : Run F} {effects : List (Effect F)}
    (past : Watch s h r .held) (made : step s r .cancel = some (r', effects)) :
    Watch s (h ++ [⟨r, .cancel, r', effects⟩]) r' .awaited
  | told {h : List (Entry F)} {r : Run F} {result : Except SubscriptionError Unit}
    (past : Watch s h r .awaited) (ended : r.ended? = some result) : Watch s h r (.told result)
  | letGo {h : List (Entry F)} {r : Run F} (past : Watch s h r .awaited) : Watch s h r .letGo

theorem Watch.history {hold : Hold} (watch : Watch s h r hold) : History s h r := by
  induction watch with
  | started => exact .begin
  | acted _ made ih | stopped _ made ih => exact ih.step made
  | joined _ ih | told _ _ ih | letGo _ ih => exact ih

theorem watch_of_history (hist : History s h r) : Watch s h r .held := by
  induction hist with
  | begin => exact .started
  | step _ made ih => exact ih.acted made

/-- How a run ended does not change any more. -/
theorem Transition.ended_kept (made : Transition s r a r' effects)
    {result : Except SubscriptionError Unit} (ended : r.ended? = some result) :
    r'.ended? = some result := by
  have phase : r'.phase = r.phase := by
    rcases made.polls_or_aside with polls | aside
    · exfalso
      cases hphase : r.phase <;> simp only [Run.ended?, hphase, reduceCtorEq] at ended
      · exact polls.not_finished _ hphase
      · exact polls.not_aborted hphase
    · exact aside.phase
  rw [Run.ended?, phase]
  exact ended

theorem Watch.ended {result : Except SubscriptionError Unit} (watch : Watch s h r (.told result)) :
    r.ended? = some result := by
  generalize hhold : Hold.told result = hold at watch
  induction watch with
  | started | joined | stopped | letGo => cases hhold
  | acted past made ih => exact (transition_of_step made).ended_kept (ih hhold)
  | told past ended =>
    cases hhold
    exact ended

/-! ## 4. The life of a subscription -/

/-- What the status of a run has to do with its end. -/
structure Lifecycle (s : Subscription F) (h : List (Entry F)) (r : Run F) (hold : Hold) : Prop where
  /-- Before the end the status is on the way. -/
  way : r.ended? = none → statuses h = [] ∨ OnTheWay (statuses h)
  /-- When the end was waited for the status is the one that says how, unless the poller broke
  down. -/
  right : ∀ result, hold = .told result → (EndsRight h result ↔ ¬ BrokeDown s h)
  /-- If it did the result is an error, and the status has stayed on the way. -/
  broken : ∀ result, hold = .told result → BrokeDown s h →
    result = .error (.taskPanicked "panicked") ∧ OnTheWay (statuses h)

theorem not_endsRight_of_onTheWay {way : List SubscriptionStatus} (on : OnTheWay way)
    (result : Except SubscriptionError Unit) (heq : statuses h = way) : ¬ EndsRight h result := by
  rintro ⟨way', on', heq'⟩
  rw [heq] at heq'
  rcases on with rfl | rfl <;> rcases on' with rfl | rfl <;> cases result <;> cases heq'

/-- **A subscription ends in the right status unless its poller broke down.**  For every run,
whatever its source, its store, its handlers and its keys do and whenever it is asked to stop: when
the end of the run was waited for, the status went through subscribing and running to dropped or
stopped, as the result says, if and only if the poller did not break down; otherwise the result is
an error and the status still says subscribing or running. -/
theorem lifecycle {hold : Hold} (watch : Watch s h r hold) : Lifecycle s h r hold := by
  have hist := watch.history
  have hpath := path hist
  have hbroken := aborted_iff hist
  constructor
  case way =>
    intro going
    cases hphase : r.phase <;> rw [hphase] at hpath
      <;> simp only [Run.ended?, hphase, reduceCtorEq] at going
    case created => exact .inl hpath
    case loading => exact .inr (.inl hpath)
    all_goals exact .inr (.inr hpath)
  case right =>
    rintro result rfl
    have ended := watch.ended
    cases hphase : r.phase <;> rw [hphase] at hpath hbroken
      <;> simp only [Run.ended?, hphase, reduceCtorEq] at ended
    case finished =>
      cases ended
      exact iff_of_true hpath fun broken => by cases hbroken.2 broken
    case aborted =>
      exact iff_of_false (not_endsRight_of_onTheWay hpath _ rfl) fun whole => whole (hbroken.1 rfl)
  case broken =>
    rintro result rfl broken
    have ended := watch.ended
    have phase := hbroken.2 broken
    rw [phase] at hpath
    rw [Run.ended?, phase] at ended
    exact ⟨(Option.some.inj ended).symm, hpath⟩

section Runs

open Sample

/-- A run that is stopped before it has read anything: the status was subscribing, running and
stopped in the end. -/
theorem stopped_run_ends_right :
    ∃ (h : List (Entry ticks)) (r : Run ticks), Watch (tickFeed none) h r (.told (.ok ())) ∧
      statuses h = [.subscribing, .running, .stopped] ∧ ¬ BrokeDown (tickFeed none) h := by
  obtain ⟨h, hist, -, htrace⟩ := history_of_replay? (s := tickFeed none)
    (show replay? _ {}
      [.subscribe, .checkpointLoaded (.ok ⟨"feed", none⟩), .cancel, .interrupt, .halt, .flush] =
      some (_, _) from rfl)
  have told := (watch_of_history hist).joined.told rfl
  have seen : statuses h = [.subscribing, .running, .stopped] := by
    rw [statuses, htrace]
    rfl
  exact ⟨h, _, told, seen, ((lifecycle told).right _ rfl).1 ⟨_, .inr rfl, seen⟩⟩

/-- Ticks that are spread over lanes by a key whose computation breaks down. -/
def keyless : Subscription ticks :=
  { tickFeed none with options := { id := "feed", mode := .partitioned 2 fun _ => none } }

/-- A run that ended on an error and still says that it is running. -/
theorem breakdown_leaves_running :
    ∃ (h : List (Entry ticks)) (r : Run ticks) (e : SubscriptionError),
      Watch keyless h r (.told (.error e)) ∧ ¬ EndsRight h (.error e) ∧
      (statuses h).getLast? = some .running := by
  obtain ⟨h, hist, -, htrace⟩ := history_of_replay? (s := keyless)
    (show replay? _ {}
      [.subscribe, .checkpointLoaded (.ok ⟨"feed", none⟩), .pageRead (.ok [tick 0]), .deliver] =
      some (_, _) from rfl)
  have told := (watch_of_history hist).joined.told rfl
  have seen : statuses h = [.subscribing, .running] := by
    rw [statuses, htrace]
    rfl
  exact ⟨h, _, _, told, not_endsRight_of_onTheWay (.inr rfl) _ seen, by rw [seen]; rfl⟩

end Runs

end Run
end EventSourcing

/-
# What becomes of a pending message

A message that its handlers made pending waits for its live acknowledgement, and for nothing else.
Once that one was used the message is confirmed, or it goes where failed messages go; only a halted
run lets it go without asking.  What all other acknowledgements say is heard by nobody.

What the file settles:

* `Outcome`: what becomes of a message that is pending;
* `Decided`: what the acknowledgements given in a history have to do with it;
* `first_acknowledgement_decides`: the acknowledgement that was given first decides, in every
  history.
-/
import EventSourcing.Proofs.Run.Accounting
import EventSourcing.Proofs.Run.Deferral

namespace EventSourcing
namespace Run

variable {F : PayloadFamily} {s : Subscription F} {r r' : Run F} {a : Action}
  {effects : List (Effect F)} {h : List (Entry F)} {n : Nat} {acks acks' : List DeferredAck}

/-! ## 1. Rulings stay -/

/-- A message all handlers returned for is not given a live acknowledgement any more. -/
theorem Books.ruling_kept (books : Books h a acks acks') (slotted : Slotted h r acks)
    (hist : History s h r) (made : step s r a = some (r', effects))
    (handled : Handled s h n .pending) {ruled : Acknowledgement}
    (hruled : ruling acks n = some ruled) : ruling acks' n = some ruled := by
  cases books with
  | aside => exact hruled
  | @given _ m taker called =>
    rw [step_takeAck] at made
    obtain ⟨t, task, taken⟩ := Option.bind_eq_some_iff.1 made
    obtain ⟨ht, rfl⟩ := mem_of_task? task
    have other : t.sequence ≠ n := by
      intro number
      have late := late_of_handled hist handled ht number
      have harmed : t.ack ≠ .armed := fun harmed => ((fitting hist t ht).armed harmed).2 late
      simp [harmed] at taken
    rwa [ruling, live?_append_of_ne (k := ⟨t.sequence, taker, true, none⟩) other]
  | used live unused => exact ruling_answered slotted.first unused hruled

theorem Unheard.ruling_kept (unheard : Unheard s h r acks acks') (slotted : Slotted h r acks)
    {ruled : Acknowledgement} (hruled : ruling acks n = some ruled) :
    ruling acks' n = some ruled := by
  cases unheard with
  | given => rwa [ruling, live?_append_inert rfl]
  | used unused => exact ruling_answered slotted.first unused hruled

/-- The slot of a message that waits says what has been ruled. -/
theorem Slotted.answer?_eq (slotted : Slotted h r acks) (hist : History s h r) {t : Task F}
    (ht : t ∈ r.tasks) (stage : t.stage = .awaitingAck) : t.ack.answer? = ruling acks t.sequence :=
  (slotted.slots t ht).answer?_eq fun harmed =>
    ((fitting hist t ht).armed harmed).2 (by simp [stage, Late])

/-! ## 2. Steps of a message that waits -/

theorem step_resume : step s r (.resume n) = (r.task? n).bind fun t =>
    if t.stage = .awaitingAck then t.ack.answer?.map (acknowledged s r t) else none := rfl

theorem Transition.isHalted (made : Transition s r a r' effects) (halted : r.isHalted = true) :
    r'.isHalted = true := by
  rw [Run.isHalted, Bool.or_eq_true] at halted ⊢
  rcases halted with dropped | drained
  · exact .inl (made.isDropped dropped)
  · rcases made.drained with ⟨-, heq⟩ | ⟨-, -, hdrained, -⟩
    · exact .inr (heq.trans drained)
    · exact .inr hdrained

/-- Until its acknowledgement is noticed a message goes on waiting, unless a halted run lets it
go. -/
theorem Transition.awaiting (made : Transition s r a r' effects) (hn : Numbered h r) {t : Task F}
    (ht : t ∈ r.tasks) (stage : t.stage = .awaitingAck) (unnoticed : a ≠ .resume t.sequence) :
    (∃ u ∈ r'.tasks, u.sequence = t.sequence ∧ u.stage = .awaitingAck) ∨
      (r'.isHalted = true ∧ Effect.abandoned t.sequence ∈ effects) := by
  have not_fails : ∀ {name : String} {error : HandlerError} {u : Task F},
      ¬ Fails s t a name error u := by
    intro name error u fails
    cases fails with
    | exhausted calling => cases stage.symm.trans calling
    | refused => exact unnoticed rfl
  cases made.becomes hn ht with
  | stays mem => exact .inl ⟨t, mem, rfl, stage⟩
  | advanced advance mem =>
    cases advance with
    | recovering fails => exact (not_fails fails).elim
    | ackTaken | ackSettled => exact .inl ⟨_, mem, rfl, stage⟩
    | acknowledged => exact absurd rfl unnoticed
    | started other | returned other | backedOff other | retried other | recovered other =>
      cases stage.symm.trans other
  | letGo halted => exact .inr ⟨made.isHalted halted, List.mem_singleton_self _⟩
  | ended reason =>
    cases reason with
    | failed fails => exact (not_fails fails).elim
    | panicked other | unrecovered other | unstored other => cases stage.symm.trans other
  | @broken u _ task reason =>
    -- What breaks down holds another message, and only takes queued ones with it.
    obtain ⟨gone, lanes, hrun, hgone, -⟩ := loseWorker_spec r u
    refine .inl ⟨t, ?_, rfl, stage⟩
    rw [hrun]
    refine List.mem_filter.2 ⟨ht, ?_⟩
    cases hg : gone t with
    | false => rfl
    | true =>
      rcases (hgone t).1 hg with heq | ⟨lane, -, -, queued⟩
      · cases hn.task_eq_of_sequence ht (mem_of_task? task).1 heq
        cases reason with
        | recovering other | storing other => cases stage.symm.trans other
      · simp [Task.isQueuedIn, Task.isQueued, stage] at queued
  | confirmed other | asked other | stored other => cases stage.symm.trans other

/-- A message is confirmed through its acknowledgement when it waits and was acknowledged. -/
theorem Transition.acknowledges (made : Transition s r a r' effects)
    (seen : Effect.confirmed n .acknowledged ∈ effects) :
    ∃ t, r.task? n = some t ∧ t.stage = .awaitingAck ∧ t.ack.answer? = some .acked := by
  obtain ⟨t, u, task, advance, -⟩ := made.goes_on seen trivial
  cases advance with
  | started _ _ _ onward | returned _ onward => cases onward <;> simp at seen
  | acknowledged stage known =>
    cases List.mem_singleton.1 seen
    exact ⟨_, task, stage, known⟩
  | _ => simp at seen

/-! ## 3. Outcomes -/

/-- The refusal of its acknowledgement was noticed before the halt, and the message went where
failed messages go. -/
def FailedOver (s : Subscription F) (h : List (Entry F)) (n : Nat) (error : HandlerError) : Prop :=
  ∃ e ∈ h, e.action = .resume n ∧ e.before.isHalted = false ∧
    ∃ t, e.before.task? n = some t ∧
      (e.after, e.effects) = fail s e.before t acknowledgementName error

/-- What has become of a message that its handlers made pending. -/
inductive Outcome (s : Subscription F) (h : List (Entry F)) (r : Run F)
    (acks : List DeferredAck) (n : Nat) :
    Prop where
  | waiting {t : Task F} (mem : t ∈ r.tasks) (number : t.sequence = n)
    (stage : t.stage = .awaitingAck)
  | accepted (ruled : ruling acks n = some .acked)
    (seen : Effect.confirmed n .acknowledged ∈ trace h)
  | refused {answer : Acknowledgement} {error : HandlerError} (ruled : ruling acks n = some answer)
    (refuses : Refuses answer error) (failed : FailedOver s h n error)
  | letGo (halted : r.isHalted = true) (seen : Effect.abandoned n ∈ trace h)

theorem FailedOver.mono {error : HandlerError} (failed : FailedOver s h n error)
    (h' : List (Entry F)) : FailedOver s (h ++ h') n error := by
  obtain ⟨e, he, noticed⟩ := failed
  exact ⟨e, List.mem_append_left h' he, noticed⟩

/-- An outcome stays one when the rulings stay. -/
theorem Outcome.of_kept (outcome : Outcome s h r acks n)
    (kept : ∀ ruled, ruling acks n = some ruled → ruling acks' n = some ruled) :
    Outcome s h r acks' n := by
  cases outcome with
  | waiting mem number stage => exact .waiting mem number stage
  | accepted ruled seen => exact .accepted (kept _ ruled) seen
  | refused ruled refuses failed => exact .refused (kept _ ruled) refuses failed
  | letGo halted seen => exact .letGo halted seen

/-- A message whose acknowledgement is noticed has the outcome that was ruled. -/
theorem Outcome.of_resume (slotted : Slotted h r acks) (hist : History s h r)
    {t : Task F} (ht : t ∈ r.tasks) (stage : t.stage = .awaitingAck)
    (made : step s r (.resume t.sequence) = some (r', effects)) :
    Outcome s (h ++ [⟨r, .resume t.sequence, r', effects⟩]) r' acks t.sequence := by
  have task := (numbered hist).task?_eq ht
  have moved := made
  rw [step_resume, task, Option.bind_some, if_pos stage] at moved
  obtain ⟨answer, known, moved⟩ := Option.map_eq_some_iff.1 moved
  have ruled := (slotted.answer?_eq hist ht stage).symm.trans known
  have failing : ∀ {error : HandlerError}, Refuses answer error →
      fail s r t acknowledgementName error = (r', effects) →
      Outcome s (h ++ [⟨r, .resume t.sequence, r', effects⟩]) r' acks t.sequence := by
    intro error refuses moved
    cases halted : r.isHalted with
    | true =>
      refine .letGo ((transition_of_step made).isHalted halted) (mem_trace_snoc.2 (.inr ?_))
      simp only [fail, halted, if_true, abandonTask, Prod.mk.injEq] at moved
      rw [← moved.2]
      exact List.mem_singleton_self _
    | false =>
      have last := List.mem_append_right h
        (List.mem_singleton_self (⟨r, .resume t.sequence, r', effects⟩ : Entry F))
      exact .refused ruled refuses ⟨_, last, rfl, halted, t, task, moved.symm⟩
  cases answer with
  | acked =>
    refine .accepted ruled (mem_trace_snoc.2 (.inr ?_))
    rw [← (Prod.mk.inj moved).2]
    exact List.mem_singleton_self _
  | nacked reason => exact failing (.nacked reason) moved
  | dropped => exact failing .dropped moved

theorem Outcome.step (outcome : Outcome s h r acks n) (slotted : Slotted h r acks)
    (hist : History s h r) (made : step s r a = some (r', effects)) :
    Outcome s (h ++ [⟨r, a, r', effects⟩]) r' acks n := by
  cases outcome with
  | @waiting t mem number stage =>
    subst number
    by_cases noticed : a = .resume t.sequence
    · subst noticed
      exact .of_resume slotted hist mem stage made
    · have waits := (transition_of_step made).awaiting (numbered hist) mem stage noticed
      rcases waits with ⟨u, hu, number, stage⟩ | ⟨halted, seen⟩
      · exact .waiting hu number stage
      · exact .letGo halted (mem_trace_snoc.2 (.inr seen))
  | accepted ruled seen => exact .accepted ruled (mem_trace_snoc.2 (.inl seen))
  | refused ruled refuses failed => exact .refused ruled refuses (failed.mono _)
  | letGo halted seen =>
    exact .letGo ((transition_of_step made).isHalted halted) (mem_trace_snoc.2 (.inl seen))

theorem Deferral.outcome (deferral : Deferral s h r acks) (handled : Handled s h n .pending) :
    Outcome s h r acks n := by
  induction deferral with
  | begin =>
    obtain ⟨e, he, -⟩ := HandledUpTo.returned handled handled.exists_handler
    cases he
  | @step h r r' a effects acks acks' past made books ih =>
    rcases handled_snoc past.history made handled with old | ⟨u, hu, number, stage⟩
    · exact ((ih old).step past.slotted past.history made).of_kept fun ruled =>
        books.ruling_kept past.slotted past.history made old
    · exact .waiting hu number stage
  | idle past unheard ih => exact (ih handled).of_kept fun ruled => unheard.ruling_kept past.slotted

/-! ## 4. The first acknowledgement -/

/-- What the acknowledgements given in a history have to do with its messages. -/
structure Decided (s : Subscription F) (h : List (Entry F)) (r : Run F)
    (acks : List DeferredAck) : Prop where
  /-- At most one of a message is live, and it is the first that was given. -/
  first : FirstIsLive acks
  /-- The first is live if it was given while the message was with its handlers. -/
  live : ∀ t ∈ r.tasks, ¬ Late t.stage → ∀ k ∈ acks, k.sequence = t.sequence →
    (live? acks t.sequence).isSome = true
  /-- Nothing is confirmed through acknowledgement before the live one of a pending message was
  acked. -/
  confirmed : ∀ n, Effect.confirmed n .acknowledged ∈ trace h →
    Handled s h n .pending ∧ ruling acks n = some .acked
  /-- What the live one says is all that a message which waits learns. -/
  resumes : ∀ t ∈ r.tasks, t.stage = .awaitingAck →
    step s r (.resume t.sequence) = (ruling acks t.sequence).map (acknowledged s r t)
  /-- A pending message waits until it is confirmed or fails as ruled, or the run is halted. -/
  outcome : ∀ n, Handled s h n .pending → Outcome s h r acks n

theorem Deferral.live (deferral : Deferral s h r acks) {t : Task F} (ht : t ∈ r.tasks)
    (early : ¬ Late t.stage) {k : DeferredAck} (hk : k ∈ acks) (number : k.sequence = t.sequence) :
    (live? acks t.sequence).isSome = true := by
  have slotted := deferral.slotted
  have slot := slotted.slots t ht
  cases hack : t.ack with
  | armed =>
    rw [hack] at slot
    exact absurd number (slot k hk)
  | taken | settled =>
    rw [hack] at slot
    rw [show live? acks t.sequence = some _ from slot]
    rfl
  | closed =>
    rcases (fitting deferral.history t ht).closed hack with queued | late
    · exact absurd number (slotted.untouched (tried deferral.history) ht queued k hk)
    · exact absurd late early

theorem Deferral.confirmed (deferral : Deferral s h r acks)
    (seen : Effect.confirmed n .acknowledged ∈ trace h) :
    Handled s h n .pending ∧ ruling acks n = some .acked := by
  induction deferral with
  | begin => cases seen
  | @step h r r' a effects acks acks' past made books ih =>
    have kept : Handled s h n .pending → ruling acks n = some .acked →
        ruling acks' n = some .acked :=
      fun handled => books.ruling_kept past.slotted past.history made handled
    rcases mem_trace_snoc.1 seen with old | new
    · obtain ⟨handled, ruled⟩ := ih old
      exact ⟨handled.mono _, kept handled ruled⟩
    · obtain ⟨t, task, stage, known⟩ := (transition_of_step made).acknowledges new
      obtain ⟨ht, rfl⟩ := mem_of_task? task
      have handled : StageHolds s h t.sequence .awaitingAck :=
        stage ▸ (grounded past.history t ht).stage
      have ruled := (past.slotted.answer?_eq past.history ht stage).symm.trans known
      exact ⟨HandledUpTo.mono handled _, kept handled ruled⟩
  | idle past unheard ih =>
    obtain ⟨handled, ruled⟩ := ih seen
    exact ⟨handled, unheard.ruling_kept past.slotted ruled⟩

/-- **The acknowledgement that was given first decides.**  In every history, whoever else was given
one and whatever became of it, a pending message is confirmed through acknowledgement only once its
live one was acked, is confirmed then, and fails when that one is refused, is let go, or was asked
for by nobody. -/
theorem first_acknowledgement_decides (deferral : Deferral s h r acks) : Decided s h r acks where
  first := deferral.slotted.first
  live := fun _ ht early _ => deferral.live ht early
  confirmed := fun _ => deferral.confirmed
  resumes := by
    intro t ht stage
    rw [step_resume, (numbered deferral.history).task?_eq ht, Option.bind_some, if_pos stage,
      deferral.slotted.answer?_eq deferral.history ht stage]
  outcome := fun _ => deferral.outcome

section Runs

open Sample

/-- The attempt returned, and left the message pending. -/
def LeftPending (h : List (Entry F)) (n : Nat) (attempt : Attempt) : Prop :=
  ∃ e ∈ h, e.action = .attemptEnded n (.returned .pending) ∧
    ∃ t status, e.before.task? n = some t ∧ t.stage = .calling attempt status

/-- Every attempt that left the message pending has acked what it was given itself. -/
def AllAcked (h : List (Entry F)) (acks : List DeferredAck) (n : Nat) : Prop :=
  ∀ attempt, LeftPending h n attempt →
    ∃ k ∈ acks, k.sequence = n ∧ k.taker = attempt ∧ k.answer = some .acked

theorem leftPending_snoc {attempt : Attempt} {e : Entry F} : LeftPending (h ++ [e]) n attempt ↔
    LeftPending h n attempt ∨ e.action = .attemptEnded n (.returned .pending) ∧
      ∃ t status, e.before.task? n = some t ∧ t.stage = .calling attempt status := by
  simp [LeftPending, or_and_right, exists_or]

/-- Ticks for two handlers. -/
def twoHandlers : Subscription ticks := { tickFeed none with handlers := ["counter", "printer"] }

/-- Ticks for one handler that may try twice. -/
def twoAttempts : Subscription ticks :=
  { tickFeed none with options := { (tickFeed none).options with retry := { maxRetries := 1 } } }

/-- The steps by which the first tick comes to its first handler. -/
def untilCalled : List Action :=
  [.subscribe, .checkpointLoaded (.ok ⟨"feed", none⟩), .pageRead (.ok [tick 0]), .deliver, .start 0]

theorem isDeferral_untilCalled : ∀ a ∈ untilCalled, a.isDeferral = false := by decide

/-- What two handlers were given who both asked for it; the first one has acked. -/
def givenToTwo : List DeferredAck := [⟨0, ⟨0, 0⟩, true, some .acked⟩, ⟨0, ⟨1, 0⟩, false, none⟩]

/-- Both handlers ask for the acknowledgement and leave the tick pending, and the first one acks. -/
theorem deferral_of_two_handlers : ∃ (h : List (Entry ticks)) (r : Run ticks),
    Deferral twoHandlers h r givenToTwo ∧ Effect.confirmed 0 .acknowledged ∈ trace h ∧
    LeftPending h 0 ⟨1, 0⟩ := by
  obtain ⟨h₁, d₁, -, trace₁⟩ := Deferral.begin.append_replay? isDeferral_untilCalled
    (show replay? twoHandlers {} untilCalled = some (_, _) from rfl)
  have first : Called h₁ 0 ⟨0, 0⟩ := by
    rw [Called, trace₁]
    exact ⟨_, List.mem_of_getElem? (i := 6) rfl, rfl, rfl⟩
  have d₂ := d₁.step (a := .takeAck 0 ⟨0, 0⟩) rfl (.given first)
  have d₃ := d₂.step (a := .attemptEnded 0 (.returned .pending)) rfl (.aside rfl)
  have d₄ := d₃.idle (show Unheard _ _ _ _ [_, ⟨0, ⟨1, 0⟩, false, none⟩] from
    .given (called_snoc.2 (.inr ⟨_, List.mem_of_getElem? (i := 0) rfl, rfl, rfl⟩)) rfl)
  have d₅ := d₄.step (a := .attemptEnded 0 (.returned .pending)) rfl (.aside rfl)
  have d₆ := d₅.step (a := .settleAck 0 .acked) rfl
    (show Books _ _ ([] ++ ⟨0, ⟨0, 0⟩, true, none⟩ :: [_]) ([] ++ _ :: _) from .used rfl rfl)
  have d₇ := d₆.step (a := .resume 0) rfl (.aside rfl)
  refine ⟨_, _, d₇, mem_trace_snoc.2 (.inr (List.mem_singleton_self _)), ?_⟩
  exact leftPending_snoc.2
    (.inl (leftPending_snoc.2 (.inl (leftPending_snoc.2 (.inr ⟨rfl, _, _, rfl, rfl⟩)))))

theorem first_of_two_handlers_decides : ∃ (h : List (Entry ticks)) (r : Run ticks),
    Deferral twoHandlers h r givenToTwo ∧ Decided twoHandlers h r givenToTwo ∧
      Effect.confirmed 0 .acknowledged ∈ trace h := by
  obtain ⟨h, r, deferral, seen, -⟩ := deferral_of_two_handlers
  exact ⟨h, r, deferral, first_acknowledgement_decides deferral, seen⟩

/-- The first attempt asks for the acknowledgement, lets go of it and fails; the second one leaves
the tick pending and acks what it was given. -/
theorem deferral_of_two_attempts :
    ∃ (h : List (Entry ticks)) (r : Run ticks) (acks : List DeferredAck),
      Deferral twoAttempts h r acks ∧ Handled twoAttempts h 0 .pending ∧ AllAcked h acks 0 ∧
        FailedOver twoAttempts h 0 (.nacked "acknowledgement dropped") := by
  obtain ⟨h₁, d₁, actions₁, trace₁⟩ := Deferral.begin.append_replay? isDeferral_untilCalled
    (show replay? twoAttempts {} untilCalled = some (_, _) from rfl)
  have first : Called h₁ 0 ⟨0, 0⟩ := by
    rw [Called, trace₁]
    exact ⟨_, List.mem_of_getElem? (i := 6) rfl, rfl, rfl⟩
  have d₂ := d₁.step (a := .takeAck 0 ⟨0, 0⟩) rfl (.given first)
  have d₃ := d₂.step (a := .settleAck 0 .dropped) rfl
    (show Books _ _ ([] ++ ⟨0, ⟨0, 0⟩, true, none⟩ :: []) ([] ++ _ :: _) from .used rfl rfl)
  have d₄ := d₃.step (a := .attemptEnded 0 (.failed (.failed "no"))) rfl (.aside rfl)
  have d₅ := d₄.step (a := .retry 0) rfl (.aside rfl)
  have d₆ := d₅.idle (show Unheard _ _ _ _ [_, ⟨0, ⟨0, 1⟩, false, none⟩] from
    .given (called_snoc.2 (.inr ⟨_, List.mem_of_getElem? (i := 0) rfl, rfl, rfl⟩)) rfl)
  have d₇ := d₆.step (a := .attemptEnded 0 (.returned .pending)) rfl (.aside rfl)
  have d₈ := d₇.idle (show Unheard _ _ _ ([_] ++ ⟨0, ⟨0, 1⟩, false, none⟩ :: [])
    ([_] ++ ⟨0, ⟨0, 1⟩, _, some .acked⟩ :: []) from .used rfl (.inl rfl))
  have pending : Handled twoAttempts _ 0 .pending :=
    (grounded d₈.history _ List.mem_cons_self).stage
  have d₉ := d₈.step (a := .resume 0) rfl (.aside rfl)
  refine ⟨_, _, _, d₉, HandledUpTo.mono pending _, fun attempt left => ?_, ?_⟩
  · -- The second attempt is the only one that left it pending.
    simp only [leftPending_snoc, reduceCtorEq, false_and, or_false] at left
    rcases left with (⟨e, he, action, -⟩ | ⟨action, -⟩) | ⟨-, t, status, task, stage⟩
    · have mem : Action.attemptEnded 0 (.returned .pending) ∈ untilCalled :=
        actions₁ ▸ action ▸ List.mem_map_of_mem he
      simp [untilCalled] at mem
    · cases action
    · cases task
      cases stage
      exact ⟨_, List.mem_cons_of_mem _ List.mem_cons_self, rfl, rfl, rfl⟩
  · exact ⟨_, List.mem_append_right _ (List.mem_singleton_self _), rfl, rfl, _, rfl, rfl⟩

/-- **Others are not waited for, and an attempt that failed decides.**  A tick is confirmed although
its second handler left it pending and never acked, and a tick fails although the one attempt that
left it pending acked. -/
theorem later_acknowledgements_are_not_heard :
    (∃ (h : List (Entry ticks)) (r : Run ticks) (acks : List DeferredAck),
        Deferral twoHandlers h r acks ∧ Effect.confirmed 0 .acknowledged ∈ trace h ∧
        ¬ AllAcked h acks 0) ∧
    ∃ (h : List (Entry ticks)) (r : Run ticks) (acks : List DeferredAck),
      Deferral twoAttempts h r acks ∧
      Handled twoAttempts h 0 .pending ∧ AllAcked h acks 0 ∧
      FailedOver twoAttempts h 0 (.nacked "acknowledgement dropped") := by
  refine ⟨?_, deferral_of_two_attempts⟩
  obtain ⟨h, r, deferral, seen, left⟩ := deferral_of_two_handlers
  refine ⟨h, r, _, deferral, seen, fun all => ?_⟩
  obtain ⟨k, hk, -, taker, acked⟩ := all _ left
  simp only [givenToTwo, List.mem_cons, List.not_mem_nil, or_false] at hk
  rcases hk with rfl | rfl
  · cases taker
  · cases acked

end Runs

end Run
end EventSourcing

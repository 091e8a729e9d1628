/-
# What a run commits when its store keeps its word

If every checkpoint that is asked for is stored, the committer never falls behind itself: the last
position it has seen stored, or is having stored, is the end of the gapless part of what was
confirmed.  So a run that ends well with nothing left unconfirmed has asked for the position of its
last message.

What the file settles:

* `Transition.settled_stays`: a settled task stays until its own confirmation or its own answer;
* `Committing`, `committing`: what the committer knows in every history whose checkpoints are all
  stored;
* `Asks.last`: what a run asks for is the end of the gapless part;
* `next_eq_length`: once all is confirmed, everything is gapless.
-/
import EventSourcing.Proofs.Run.Checkpointing
import EventSourcing.Proofs.Run.Ending

namespace EventSourcing
namespace Run

variable {F : PayloadFamily} {s : Subscription F} {r r' : Run F} {a : Action}
  {effects : List (Effect F)} {h : List (Entry F)}

/-! ## 1. Settled tasks -/

theorem Advance.stage_of_settled {t u : Task F} (advance : Advance s r t a u effects)
    (ht : Settled t.stage) : u.stage = t.stage := by
  cases advance with
  | started stage | returned stage | backedOff stage | retried stage => simp [stage, Settled] at ht
  | recovering fails => cases fails <;> simp_all [Settled]
  | ackTaken | ackSettled => rfl
  | acknowledged stage | recovered stage => simp [stage, Settled] at ht

/-- A settled task stays as it is until its position is confirmed or the store answers. -/
theorem Transition.settled_stays (made : Transition s r a r' effects) (hn : Numbered h r)
    {t : Task F} (ht : t ∈ r.tasks) (settled : Settled t.stage) :
    (∃ u ∈ r'.tasks, u.sequence = t.sequence ∧ u.stage = t.stage) ∨
      (t.stage = .confirming ∧ a = .confirm t.sequence) ∨
      ∃ p, t.stage = .storing p ∧ ∃ reply, a = .stored t.sequence reply := by
  cases made.becomes hn ht with
  | stays mem => exact .inl ⟨t, mem, rfl, rfl⟩
  | advanced advance mem =>
    exact .inl ⟨_, mem, congrArg (·.sequence) advance.position_eq, advance.stage_of_settled settled⟩
  | letGo halted reason => exact (reason.not_settled settled).elim
  | ended reason =>
    cases reason with
    | failed fails => cases fails <;> simp_all [Settled]
    | panicked stage | unrecovered stage => simp [stage, Settled] at settled
    | unstored stage => exact .inr (.inr ⟨_, stage, _, rfl⟩)
  | @broken v a task reason =>
    obtain ⟨gone, lanes, hrun, hgone, -⟩ := loseWorker_spec r v
    cases hgt : gone t with
    | false =>
      rw [hrun]
      exact .inl ⟨t, List.mem_filter.2 ⟨ht, by rw [hgt]; rfl⟩, rfl, rfl⟩
    | true =>
      rcases (hgone t).1 hgt with heq | ⟨lane, -, -, queued⟩
      · cases hn.task_eq_of_sequence ht (mem_of_task? task).1 heq
        cases reason with
        | recovering stage => simp [stage, Settled] at settled
        | storing stage => exact .inr (.inr ⟨_, stage, _, rfl⟩)
      · simp only [Task.isQueuedIn, Task.isQueued, Bool.and_eq_true, decide_eq_true_eq] at queued
        simp [queued.1, Settled] at settled
  | confirmed stage | asked stage => exact .inr (.inl ⟨stage, rfl⟩)
  | stored stage => exact .inr (.inr ⟨_, stage, _, rfl⟩)

/-- A message that is confirmed is about to have its position confirmed. -/
theorem Transition.confirming_of_effect (made : Transition s r a r' effects)
    {n : Nat} {cause : Cause} (seen : Effect.confirmed n cause ∈ effects) :
    ∃ u ∈ r'.tasks, u.sequence = n ∧ u.stage = .confirming := by
  cases made with
  | @advanced t u _ _ task advance =>
    have hsequence : u.sequence = t.sequence := congrArg (·.sequence) advance.position_eq
    refine ⟨u, (mem_put_iff task hsequence u).2 (.inl rfl), ?_⟩
    rw [(advance.confirmed seen).1]
    refine ⟨hsequence, ?_⟩
    cases advance with
    | started _ _ _ onward | returned _ onward => exact (onward.confirmed seen).2
    | acknowledged | recovered => rfl
    | _ => simp at seen
  | @broken t _ task reason =>
    obtain ⟨gone, lanes, -, -, -, hlost⟩ := loseWorker_spec r t
    obtain ⟨k, heq⟩ := hlost _ seen
    cases heq
  | letGo | ended | confirmed | asked | stored | cancelled => simp at seen
  | polled polls =>
    cases polls with
    | delivered phase decoded place continues => cases continues <;> simp at seen
    | _ => simp at seen

/-! ## 2. What is committed -/

/-- Every checkpoint that was asked for was stored, as far as the store has answered. -/
def Served (h : List (Entry F)) : Prop :=
  ∀ e ∈ h, (∀ n reply, e.action = .stored n reply → reply = .ok ()) ∧
    ∀ reply, e.action = .flushed reply → reply = .ok ()

/-- The committer keeps up with what is confirmed. -/
structure Committing (h : List (Entry F)) (r : Run F) : Prop where
  storing : ∀ t ∈ r.tasks, ∀ p, t.stage = .storing p → p.sequence + 1 = r.committer.sequence.next
  alone : ∀ t ∈ r.tasks, ∀ u ∈ r.tasks, ∀ p q, t.stage = .storing p → u.stage = .storing q →
    t.sequence = u.sequence
  last : (r.committer.sequence.next = 0 ∧ r.committer.last = none) ∨
    (∃ p, r.committer.last = some p ∧ p.sequence + 1 = r.committer.sequence.next) ∨
    ∃ t ∈ r.tasks, ∃ p, t.stage = .storing p
  dirty : ∀ p, r.committer.last = some p →
    r.committer.dirty = true ∨ ∃ result, r.phase = .finished result
  flushing : ∀ p, r.phase = .flushing p → r.committer.last = some p
  confirmed : ∀ n cause, Effect.confirmed n cause ∈ trace h →
    r.committer.sequence.Covers n ∨ ∃ t ∈ r.tasks, t.sequence = n ∧ t.stage = .confirming

theorem Served.of_append {h h' : List (Entry F)} (served : Served (h ++ h')) : Served h :=
  fun e he => served e (List.mem_append_left h' he)

/-- The last checkpoint is asked for once it is due and all tasks are gone. -/
theorem Polls.due_of_flushing (polls : Polls s r a r' effects)
    {p : CommitPosition} (phase : r'.phase = .flushing p) :
    r.phase = .settling ∧ r.tasks = [] ∧ r.committer.due = some p := by
  cases polls with
  | flushing here empty due =>
    cases phase
    exact ⟨here, empty, due⟩
  | delivered here decoded place continues =>
    dsimp only at phase
    subst phase
    cases continues
  | _ => cases phase

theorem isStoring_of_mem {t : Task F} (ht : t ∈ r.tasks) {p : CommitPosition}
    (stage : t.stage = .storing p) : r.isStoring = true :=
  List.any_eq_true.2 ⟨t, ht, by simp [Task.isStoring, stage]⟩

namespace Committing

/-- A step that leaves the committer alone keeps it up to date. -/
theorem step_same (hc : Committing h r) (hn : Numbered h r) (made : Transition s r a r' effects)
    (hcommitter : r'.committer = r.committer) (rests : ¬a.Commits)
    (served : ∀ n reply, a = .stored n reply → reply = .ok ()) :
    Committing (h ++ [⟨r, a, r', effects⟩]) r' := by
  have hstays : ∀ t ∈ r.tasks, Settled t.stage →
      ∃ u ∈ r'.tasks, u.sequence = t.sequence ∧ u.stage = t.stage := by
    intro t ht settled
    rcases made.settled_stays hn ht settled with stays | ⟨-, rfl⟩ | ⟨p, -, reply, rfl⟩
    · exact stays
    · exact (rests trivial).elim
    · cases served _ _ rfl
      exact (rests trivial).elim
  have hold : ∀ u ∈ r'.tasks, ∀ p, u.stage = .storing p →
      ∃ t ∈ r.tasks, t.sequence = u.sequence ∧ t.stage = .storing p := by
    intro u hu p stage
    rcases made.storing_task hu stage with old | ⟨t, c, -, -, -, rfl, -⟩
    · exact old
    · exact (rests trivial).elim
  constructor
  case alone =>
    intro u hu v hv p q hp hq
    obtain ⟨t, ht, htu, hstage⟩ := hold u hu p hp
    obtain ⟨t', ht', htv, hstage'⟩ := hold v hv q hq
    rw [← htu, ← htv]
    exact hc.alone t ht t' ht' p q hstage hstage'
  all_goals rw [hcommitter]
  case storing =>
    intro u hu p stage
    obtain ⟨t, ht, -, hstage⟩ := hold u hu p stage
    exact hc.storing t ht p hstage
  case last =>
    refine hc.last.imp_right fun h => h.imp_right ?_
    rintro ⟨t, ht, p, stage⟩
    obtain ⟨u, hu, -, hstage⟩ := hstays t ht (by rw [stage]; trivial)
    exact ⟨u, hu, p, hstage.trans stage⟩
  case dirty =>
    intro p hp
    refine (hc.dirty p hp).imp_right ?_
    rintro ⟨result, finished⟩
    exact ⟨result, made.stays_finished finished⟩
  case flushing =>
    intro p hp
    rcases made.polls_or_aside with polls | aside
    · exact Committer.last_of_due (polls.due_of_flushing hp).2.2
    · exact hc.flushing p (aside.phase.symm.trans hp)
  case confirmed =>
    intro n cause seen
    rcases mem_trace_snoc.1 seen with seen | seen
    · rcases hc.confirmed n cause seen with covers | ⟨t, ht, rfl, stage⟩
      · exact .inl covers
      · obtain ⟨u, hu, hsequence, hstage⟩ := hstays t ht (by rw [stage]; trivial)
        exact .inr ⟨u, hu, hsequence, hstage.trans stage⟩
    · exact .inr (made.confirming_of_effect seen)

/-- What a confirmation makes of the messages that are confirmed. -/
theorem confirmed_of_confirm (hc : Committing h r) (hn : Numbered h r)
    (made : Transition s r a r' effects) {t : Task F} {c : Committer}
    {asked : Option CommitPosition} (ht : t ∈ r.tasks) (action : a = .confirm t.sequence)
    (confirms : r.committer.Confirms t.message.position asked c)
    (quiet : ∀ n cause, Effect.confirmed n cause ∉ effects) {n : Nat} {cause : Cause}
    (seen : Effect.confirmed n cause ∈ trace (h ++ [⟨r, a, r', effects⟩])) :
    c.sequence.Covers n ∨ ∃ u ∈ r'.tasks, u.sequence = n ∧ u.stage = .confirming := by
  rcases mem_trace_snoc.1 seen with seen | seen
  · rcases hc.confirmed n cause seen with covers | ⟨u, hu, rfl, stage⟩
    · exact .inl ((confirms.covers n).2 (.inl covers))
    · rcases made.settled_stays hn hu (by rw [stage]; trivial) with ⟨v, hv, hsequence, hstage⟩
        | ⟨-, heq⟩ | ⟨p, hp, -⟩
      · exact .inr ⟨v, hv, hsequence, hstage.trans stage⟩
      · rw [action] at heq
        cases hn.task_eq_of_sequence ht hu (Action.confirm.inj heq)
        exact .inl ((confirms.covers _).2 (.inr rfl))
      · cases stage.symm.trans hp
  · exact (quiet n cause seen).elim

/-- While no checkpoint is being stored, none of the tasks is at it. -/
theorem not_storing {t : Task F} (free : r.isStoring = false) (ht : t ∈ r.tasks)
    {p : CommitPosition} : t.stage ≠ .storing p := by
  intro stage
  rw [isStoring_of_mem ht stage] at free
  cases free

/-- The committer is up to date while no checkpoint is being stored. -/
theorem last_of_free (hc : Committing h r) (free : ∀ t ∈ r.tasks, ∀ p, t.stage ≠ .storing p) :
    (r.committer.sequence.next = 0 ∧ r.committer.last = none) ∨
      ∃ p, r.committer.last = some p ∧ p.sequence + 1 = r.committer.sequence.next := by
  rcases hc.last with h | h | ⟨t, ht, p, stage⟩
  · exact .inl h
  · exact .inr h
  · exact (free t ht p stage).elim

/-- A confirmation that asks for nothing. -/
theorem step_confirmed (hc : Committing h r) (hn : Numbered h r) (hg : Gapless s h r) {t : Task F}
    {c : Committer} (task : r.task? t.sequence = some t) (stage : t.stage = .confirming)
    (free : r.isStoring = false) (answer : r.committer.confirm t.message.position = (none, c)) :
    Committing (h ++ [⟨r, .confirm t.sequence, { r.remove t.sequence with committer := c }, []⟩])
      { r.remove t.sequence with committer := c } := by
  have made : Transition s r _ _ _ := .confirmed task stage free answer
  have confirms := Committer.confirms hg.kept answer
  have hfree : ∀ u ∈ (r.remove t.sequence).tasks, ∀ p, u.stage ≠ .storing p := fun u hu p =>
    not_storing free (List.mem_of_mem_filter hu)
  have hlast := hc.last_of_free fun u hu p => not_storing free hu
  rw [← confirms.last, ← confirms.answer] at hlast
  constructor
  case storing => exact fun u hu p hstage => (hfree u hu p hstage).elim
  case alone => exact fun u hu v hv p q hp => (hfree u hu p hp).elim
  case last => exact hlast.imp_right .inl
  case dirty =>
    intro p hp
    rw [confirms.last] at hp
    rw [confirms.dirty]
    exact hc.dirty p hp
  case flushing =>
    intro p hp
    rw [confirms.last]
    exact hc.flushing p hp
  case confirmed =>
    intro n cause
    exact hc.confirmed_of_confirm hn made (mem_of_task? task).1 rfl confirms (by simp)

/-- A confirmation that asks for the end of the gapless part. -/
theorem step_asked (hc : Committing h r) (hn : Numbered h r) (hg : Gapless s h r)
    {t : Task F} {p : CommitPosition} {c : Committer} (task : r.task? t.sequence = some t)
    (stage : t.stage = .confirming) (free : r.isStoring = false)
    (answer : r.committer.confirm t.message.position = (some p, c)) :
    Committing
      (h ++ [⟨r, .confirm t.sequence, { r.put { t with stage := .storing p } with committer := c },
        [.storing (s.checkpoint p.position) false]⟩])
      { r.put { t with stage := .storing p } with committer := c } := by
  have made : Transition s r _ _ _ := .asked task stage free answer
  have confirms := Committer.confirms hg.kept answer
  obtain ⟨-, -, hnext⟩ := confirms.answer
  -- The one task that is at it now is the one that has asked.
  have honly : ∀ u ∈ (r.put { t with stage := .storing p }).tasks, ∀ q, u.stage = .storing q →
      u = { t with stage := .storing p } := by
    intro u hu q hstage
    rcases mem_put (t := { t with stage := .storing p }) hu with rfl | ⟨hu, -⟩
    · rfl
    · exact (not_storing free hu hstage).elim
  constructor
  case storing =>
    intro u hu q hstage
    cases honly u hu q hstage
    cases hstage
    exact hnext.symm
  case alone =>
    intro u hu v hv q q' hq hq'
    rw [honly u hu q hq, honly v hv q' hq']
  case last =>
    have hmem := (mem_put_iff (u := { t with stage := .storing p }) task rfl _).2 (.inl rfl)
    exact .inr (.inr ⟨_, hmem, p, rfl⟩)
  case dirty =>
    intro q hq
    rw [confirms.last] at hq
    rw [confirms.dirty]
    exact hc.dirty q hq
  case flushing =>
    intro q hq
    rw [confirms.last]
    exact hc.flushing q hq
  case confirmed =>
    intro n cause
    exact hc.confirmed_of_confirm hn made (mem_of_task? task).1 rfl confirms (by simp)

/-- The store has answered a confirmation. -/
theorem step_stored (s : Subscription F) (hc : Committing h r) (hn : Numbered h r)
    (hover : r.phase.IsOver → r.tasks = []) {t : Task F} {p : CommitPosition}
    (task : r.task? t.sequence = some t) (stage : t.stage = .storing p) :
    Committing (h ++ [⟨r, .stored t.sequence (.ok ()),
      { r.remove t.sequence with committer := r.committer.recorded p }, [.committed p]⟩])
      { r.remove t.sequence with committer := r.committer.recorded p } := by
  have made : Transition s r _ _ _ := .stored task stage
  have ht := (mem_of_task? task).1
  have hfree : ∀ u ∈ (r.remove t.sequence).tasks, ∀ q, u.stage ≠ .storing q := by
    intro u hu q hstage
    have hne := List.of_mem_filter hu
    have heq := hc.alone u (List.mem_of_mem_filter hu) t ht q p hstage stage
    simp [heq] at hne
  constructor
  case storing => exact fun u hu q hstage => (hfree u hu q hstage).elim
  case alone => exact fun u hu v hv q q' hq => (hfree u hu q hq).elim
  case last => exact .inr (.inl ⟨p, rfl, hc.storing t ht p stage⟩)
  case dirty => exact fun q hq => .inl rfl
  case flushing =>
    intro q hq
    replace hq : r.phase = .flushing q := hq
    rw [hover (by rw [hq]; trivial)] at ht
    cases ht
  case confirmed =>
    intro n cause seen
    rcases mem_trace_snoc.1 seen with seen | seen
    · rcases hc.confirmed n cause seen with covers | ⟨u, hu, rfl, hstage⟩
      · exact .inl covers
      · rcases made.settled_stays hn hu (by rw [hstage]; trivial) with ⟨v, hv, hsequence, heq⟩
          | ⟨-, heq⟩ | ⟨q, hq, -⟩
        · exact .inr ⟨v, hv, hsequence, heq.trans hstage⟩
        · cases heq
        · cases hstage.symm.trans hq
    · simp at seen

/-- The store has answered the flush. -/
theorem step_flushed (hc : Committing h r) (hover : r.phase.IsOver → r.tasks = [])
    {p : CommitPosition} (phase : r.phase = .flushing p) : Committing (h ++ [⟨r, .flushed (.ok ()),
      { r with committer := r.committer.flushed, phase := .finished r.verdict },
      [.status r.lastStatus, .finished r.verdict]⟩])
      { r with committer := r.committer.flushed, phase := .finished r.verdict } := by
  have hempty := hover (by rw [phase]; trivial)
  constructor
  case storing =>
    intro u hu
    rw [show r.tasks = [] from hempty] at hu
    cases hu
  case alone =>
    intro u hu
    rw [show r.tasks = [] from hempty] at hu
    cases hu
  case last => exact hc.last
  case dirty => exact fun q hq => .inr ⟨_, rfl⟩
  case flushing =>
    intro q hq
    cases hq
  case confirmed =>
    intro n cause seen
    rcases mem_trace_snoc.1 seen with seen | seen
    · exact hc.confirmed n cause seen
    · simp at seen

theorem step (hc : Committing h r) (hn : Numbered h r) (hg : Gapless s h r)
    (hover : r.phase.IsOver → r.tasks = []) (made : Transition s r a r' effects)
    (served : Served (h ++ [⟨r, a, r', effects⟩])) :
    Committing (h ++ [⟨r, a, r', effects⟩]) r' := by
  have hserved := (served _ (List.mem_append_right h (List.mem_singleton_self _))).1
  rcases made.commits_or_rests with commits | ⟨hcommitter, rests⟩
  · cases commits with
    | confirmed task stage free answer => exact hc.step_confirmed hn hg task stage free answer
    | asked task stage free answer => exact hc.step_asked hn hg task stage free answer
    | stored task stage => exact hc.step_stored s hn hover task stage
    | flushed phase => exact hc.step_flushed hover phase
  · exact hc.step_same hn made hcommitter rests hserved

end Committing

theorem committing (hist : History s h r) (served : Served h) : Committing h r := by
  induction hist with
  | begin => exact ⟨by simp, by simp, .inl ⟨rfl, rfl⟩, nofun, nofun, by simp [trace]⟩
  | step past made ih =>
    have hc := ih served.of_append
    exact hc.step (numbered past) (gapless past) (winding past).empty
      (transition_of_step made) served

/-! ## 3. What is asked for -/

/-- The run waits for the store to take this checkpoint. -/
inductive Asks (s : Subscription F) (r : Run F) : Checkpoint → (force : Bool) → Prop where
  | storing {t : Task F} {p : CommitPosition} (ht : t ∈ r.tasks) (stage : t.stage = .storing p) :
    Asks s r (s.checkpoint p.position) false
  | flushing {p : CommitPosition} (phase : r.phase = .flushing p) :
    Asks s r (s.checkpoint p.position) true

/-- It goes on waiting until the store has answered. -/
theorem Asks.stays {c : Checkpoint} {force : Bool} (asks : Asks s r c force) (hn : Numbered h r)
    (made : Transition s r a r' effects) (stored : ∀ n reply, a ≠ .stored n reply)
    (flushed : ∀ reply, a ≠ .flushed reply) : Asks s r' c force := by
  cases asks with
  | @storing t p ht stage =>
    have settled : Settled t.stage := by rw [stage]; trivial
    rcases made.settled_stays hn ht settled with ⟨u, hu, -, hstage⟩ | ⟨hconfirming, -⟩
      | ⟨-, -, reply, heq⟩
    · exact .storing hu (hstage.trans stage)
    · cases stage.symm.trans hconfirming
    · exact (stored _ _ heq).elim
  | @flushing p phase =>
    rcases made.polls_or_aside with polls | aside
    · cases polls with
      | aborted reason =>
        cases reason with
        | flushing => exact (flushed _ rfl).elim
        | _ => simp_all
      | stopped reason => cases reason <;> simp_all
      | flushed | flushFailed => exact (flushed _ rfl).elim
      | interrupted here => simp_all
      | _ => simp_all
    · exact .flushing (aside.phase.trans phase)

/-- What a run asks for is the end of the gapless part. -/
theorem Asks.last (hist : History s h r) (served : Served h) {c : Checkpoint} {force : Bool}
    (asks : Asks s r c force) :
    ∃ p, c = s.checkpoint p.position ∧ p ∈ (dispatched h).map (·.position) ∧
      p.sequence + 1 = r.committer.sequence.next ∧ ∀ q, r.phase = .flushing q → q = p := by
  have hc := committing hist served
  have hg := gapless hist
  cases asks with
  | @storing t p ht stage =>
    refine ⟨p, rfl, (hg.storing t ht p stage).1, hc.storing t ht p stage, fun q phase => ?_⟩
    have hnone := (winding hist).empty (by rw [phase]; trivial)
    rw [hnone] at ht
    cases ht
  | @flushing p phase =>
    have hnone := (winding hist).empty (by rw [phase]; trivial)
    have hlast := hc.flushing p phase
    refine ⟨p, rfl, (hg.last p hlast).1, ?_, fun q hq => ?_⟩
    · rcases hc.last_of_free (by simp [hnone]) with ⟨-, hnothing⟩ | ⟨q, hq, hnext⟩
      · rw [hlast] at hnothing
        cases hnothing
      · cases hlast.symm.trans hq
        exact hnext
    · rw [phase] at hq
      cases hq
      rfl

/-- What was taken out stays taken out. -/
theorem Transition.next_le (made : Transition s r a r' effects) (hg : Gapless s h r) :
    r.committer.sequence.next ≤ r'.committer.sequence.next := by
  rcases made.commits_or_rests with commits | ⟨hcommitter, -⟩
  · cases commits with
    | confirmed task stage free answer | asked task stage free answer =>
      exact (Committer.confirms hg.kept answer).next_le
    | stored | flushed => exact Nat.le_refl _
  · exact Nat.le_of_eq (by rw [hcommitter])

/-- Once everything handed out is confirmed and no task is left, everything is gapless. -/
theorem next_eq_length (hist : History s h r) (served : Served h) (empty : r.tasks = [])
    (all : ∀ m ∈ dispatched h, IsConfirmed s h m.sequence) :
    r.committer.sequence.next = (dispatched h).length := by
  have hg := gapless hist
  have hcovers : ∀ n < (dispatched h).length, r.committer.sequence.Covers n := by
    intro n hlt
    obtain ⟨m, hm, rfl⟩ := (numbered hist).exists_of_lt hlt
    have hseen : ∃ cause, Effect.confirmed m.sequence cause ∈ trace h := by
      cases all m hm with
      | handled seen | acknowledged seen | recovered seen => exact ⟨_, seen⟩
    obtain ⟨cause, seen⟩ := hseen
    rcases (committing hist served).confirmed _ cause seen with covers | ⟨t, ht, -⟩
    · exact covers
    · rw [empty] at ht
      cases ht
  have hle : r.committer.sequence.next ≤ (dispatched h).length := by
    by_contra hgt
    have := (hg.covered (dispatched h).length (.inl (by omega))).1
    omega
  refine Nat.le_antisymm hle (Nat.le_of_not_lt fun hlt => ?_)
  rcases hcovers _ hlt with hself | ⟨p, hp, heq⟩
  · exact Nat.lt_irrefl _ hself
  · exact hg.kept.gap p hp heq

end Run
end EventSourcing

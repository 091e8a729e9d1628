/-
# How many messages are handled at once

A worker that takes a message up has it until the last of it: through its calls, through the delays
between them, through the handler of failed messages and until the position is confirmed.  In
concurrent mode a message is handed out only while there is a worker to spare; in partitioned mode
every lane has one worker, however many messages queue for it.  These are two mechanisms with one
bound.

Where there is but one worker to spare, messages are taken up in the order they arrive, and the
worker is done with each before the next.  A message that waits for its acknowledgement has left the
worker too, so when the acknowledgement is refused, the failure is handled beside whatever the
worker has in hand by then.

What the file settles:

* `underWay`: the messages workers have in hand, and what is done with them there;
* `Admits`, `Transition.admits`: what a step does to the tasks there are;
* `heldCount_le`, `underWay_le_lanes`: the bound of each mode;
* `before_held`: with one worker, everything before a message in hand has been taken up and has left
  it;
* `handling_is_bounded`: all this together, for every history.
-/
import EventSourcing.Proofs.Run.Fence
import Mathlib.Data.List.Perm.Subperm

namespace EventSourcing

/-- Whether a worker has taken the task up and has it still. -/
def Task.isUnderWay {F : PayloadFamily} (t : Task F) : Bool := t.isHeld && !t.isQueued

namespace Run

variable {F : PayloadFamily} {s : Subscription F} {r r' : Run F} {a : Action}
  {effects : List (Effect F)} {h : List (Entry F)} {n : Nat}

/-! ## 1. Messages in hand -/

/-- The messages that workers have in hand, by their numbers. -/
def underWay (r : Run F) : List Nat := (r.tasks.filter (·.isUnderWay)).map (·.sequence)

/-- The delay before another attempt at the message runs. -/
def InDelay (n : Nat) (r : Run F) : Prop :=
  ∃ t ∈ r.tasks, t.sequence = n ∧ ∃ next status error, t.stage = .backingOff next status error

theorem mem_underWay :
    n ∈ underWay r ↔ ∃ t ∈ r.tasks, t.sequence = n ∧ t.holder = .worker ∧ t.stage ≠ .queued := by
  simp only [underWay, List.mem_map, List.mem_filter, Task.isUnderWay, Task.isHeld, Task.isQueued,
    Bool.and_eq_true, decide_eq_true_eq, Bool.not_eq_true', decide_eq_false_iff_not]
  constructor
  · rintro ⟨t, ⟨ht, holder, taken⟩, number⟩
    exact ⟨t, ht, number, holder, taken⟩
  · rintro ⟨t, ht, number, holder, taken⟩
    exact ⟨t, ⟨ht, holder, taken⟩, number⟩

theorem nodup_underWay (hn : Numbered h r) : (underWay r).Nodup :=
  hn.nodup.sublist (List.filter_sublist.map _)

/-- Only a message that is no longer with its handlers may have left its worker. -/
theorem Winding.held (hw : Winding h r) {t : Task F} (ht : t ∈ r.tasks) (early : ¬ Late t.stage) :
    t.holder = .worker := by
  cases holder : t.holder with
  | worker => rfl
  | acknowledgement => exact absurd (hw.late t ht holder) early

theorem underWay_of_call (hist : History s h r) {attempt : Attempt} (call : InCall n attempt r) :
    n ∈ underWay r := by
  obtain ⟨t, ht, number, status, stage⟩ := call
  have early : ¬ Late t.stage := by simp [stage, Late]
  exact mem_underWay.2 ⟨t, ht, number, (winding hist).held ht early, by simp [stage]⟩

theorem underWay_of_delay (hist : History s h r) (delay : InDelay n r) : n ∈ underWay r := by
  obtain ⟨t, ht, number, next, status, error, stage⟩ := delay
  have early : ¬ Late t.stage := by simp [stage, Late]
  exact mem_underWay.2 ⟨t, ht, number, (winding hist).held ht early, by simp [stage]⟩

theorem underWay_of_recovery (recovery : InRecovery n r) : n ∈ underWay r := by
  obtain ⟨t, ht, number, holder, error, stage⟩ := recovery
  exact mem_underWay.2 ⟨t, ht, number, holder, by simp [stage]⟩

/-! ## 2. Messages that are taken up -/

/-- A worker takes up a task that is in the queue, and then it is there no more. -/
theorem step_start (made : step s r (.start n) = some (r', effects)) :
    ∃ t, r.task? n = some t ∧ t.stage = .queued ∧
      ∀ u ∈ r'.tasks, u.sequence = n → u.stage ≠ .queued := by
  obtain ⟨t, task, moved⟩ := Option.bind_eq_some_iff.1 made
  obtain ⟨ht, rfl⟩ := mem_of_task? task
  simp only [taskStep] at moved
  split at moved
  case isFalse => cases moved
  case isTrue ready =>
    have queued : t.stage = .queued := of_decide_eq_true (Bool.and_eq_true_iff.1 ready).1
    refine ⟨t, task, queued, fun u hu number => ?_⟩
    unfold start at moved
    split at moved
    · cases moved
      simpa [number] using List.of_mem_filter hu
    · obtain ⟨v, fx, onward, heq⟩ := callNext_spec s r { t with ack := .armed } 0 .ignored
      rw [heq] at moved
      cases moved
      cases eq_of_mem_put task onward.position_eq hu number
      rcases onward.stage_cases with stage | late
      · simp [stage]
      · intro queued
        rw [queued] at late
        exact late

theorem Begun.mono (begun : Begun h n) (h' : List (Entry F)) : Begun (h ++ h') n := by
  obtain ⟨e, he, action⟩ := begun
  exact ⟨e, List.mem_append_left h' he, action⟩

theorem Begun.known (hist : History s h r) (begun : Begun h n) : n < (dispatched h).length := by
  obtain ⟨e, he, action⟩ := begun
  obtain ⟨before, later, rfl⟩ := List.append_of_mem he
  obtain ⟨past, made⟩ := history_at hist rfl
  rw [action] at made
  obtain ⟨t, task, -⟩ := step_start made
  obtain ⟨ht, rfl⟩ := mem_of_task? task
  have hlt := (numbered past).task_sequence_lt ht
  rw [dispatched_append, List.length_append]
  omega

/-- A task does not go back into the queue. -/
theorem Advance.queued_before {t u : Task F} (advance : Advance s r t a u effects)
    (queued : u.stage = .queued) : t.stage = .queued := by
  cases advance with
  | started _ _ _ onward | returned _ onward => cases onward <;> cases queued
  | ackTaken | ackSettled => exact queued
  | backedOff | retried | recovering | acknowledged | recovered => cases queued

/-- What was taken up is not in the queue. -/
theorem not_queued_of_begun (hist : History s h r) {t : Task F} (ht : t ∈ r.tasks)
    (begun : Begun h t.sequence) : t.stage ≠ .queued := by
  induction hist generalizing t with
  | begin => cases ht
  | @step h r r' a effects past made ih =>
    rcases begun_snoc.1 begun with old | now
    · have hknown := old.known past
      rcases (transition_of_step made).arises ht with hold | arises
      · exact ih hold old
      · cases arises with
        | @advanced v _ _ _ task advance =>
          have number : t.sequence = v.sequence := congrArg (·.sequence) advance.position_eq
          exact fun queued => ih (mem_of_task? task).1 (number ▸ old) (advance.queued_before queued)
        | asked => simp
        | delivered here number =>
          have hlength := (numbered past).cursor _ here
          exact absurd (number.trans hlength) (Nat.ne_of_lt hknown)
    · dsimp only at now
      subst now
      obtain ⟨v, -, -, gone⟩ := step_start made
      exact gone t ht rfl

/-- A message is in hand when it was taken up and has not left its worker. -/
theorem underWay_iff (hist : History s h r) : n ∈ underWay r ↔ Begun h n ∧ ¬ LeftWorker n r := by
  rw [mem_underWay]
  constructor
  · rintro ⟨t, ht, rfl, holder, taken⟩
    refine ⟨(takenUp hist).tasks t ht taken, fun left => ?_⟩
    cases holder.symm.trans (left t ht rfl)
  · rintro ⟨begun, stays⟩
    obtain ⟨t, stays⟩ := Classical.not_forall.1 stays
    obtain ⟨ht, stays⟩ := Classical.not_imp.1 stays
    obtain ⟨rfl, holder⟩ := Classical.not_imp.1 stays
    refine ⟨t, ht, rfl, ?_, not_queued_of_begun hist ht begun⟩
    cases worker : t.holder with
    | worker => rfl
    | acknowledgement => exact absurd worker holder

/-! ## 3. What a step does to the tasks -/

/-- A step leaves the tasks there are, puts the one of a message that is handed out behind them, or
loses this message with a lane whose worker is gone. -/
inductive Admits (s : Subscription F) (h : List (Entry F)) (r r' : Run F)
    (effects : List (Effect F)) : Prop where
  | keeps (quiet : effects.filterMap Effect.dispatched? = [])
    (tasks : ∀ u ∈ r'.tasks, ∃ t ∈ r.tasks, Follows r t u)
  | admits {m : Message F} {lane : Option Nat} (place : destination s r m = .open lane)
    (number : m.sequence = (dispatched h).length)
    (hands : effects.filterMap Effect.dispatched? = [m])
    (tasks : r'.tasks = r.tasks ++ [{ message := m, lane }])
  | loses {m : Message F} {lane : Nat} (place : destination s r m = .stopped lane)

theorem Transition.admits (made : Transition s r a r' effects) (hn : Numbered h r) :
    Admits s h r r' effects := by
  have same (tasks : r'.tasks = r.tasks) : ∀ u ∈ r'.tasks, ∃ t ∈ r.tasks, Follows r t u := by
    intro u hu
    rw [tasks] at hu
    exact ⟨u, hu, rfl, rfl, id, .inl⟩
  rcases made.polls_or_aside with polls | aside
  · cases polls with
    | @delivered cursor e rest m lane phase' fx phase decoded place continues =>
      have number := (sequence_of_decode decoded).trans (hn.cursor cursor (by rw [phase]; rfl))
      exact .admits place number (by rw [filterMap_dispatched, continues.quiet]) rfl
    | undelivered phase decoded place => exact .loses place
    | _ => exact .keeps rfl (same rfl)
  · refine .keeps aside.quiet fun u hu => (made.follows hn hu).resolve_right ?_
    rintro ⟨new, -⟩
    have hlt := (hn.step made).task_sequence_lt hu
    rw [dispatched_snoc, aside.quiet, List.append_nil] at hlt
    omega

theorem Follows.held {t u : Task F} (follows : Follows r t u) (holder : u.holder = .worker) :
    t.holder = .worker := by
  cases before : t.holder with
  | worker => rfl
  | acknowledgement => exact (follows.holder before).symm.trans holder

/-! ## 4. Workers to spare -/

section Concurrent

variable {limit : Nat} (mode : s.options.mode = .concurrent limit)

include mode

/-- A message is handed out to a worker to spare, and to no lane. -/
theorem lane_of_open {m : Message F} {lane : Option Nat} (place : destination s r m = .open lane) :
    lane = none ∧ r.heldCount < max limit 1 := by
  unfold destination at place
  rw [mode] at place
  dsimp only at place
  split at place
  · rename_i room
    cases place
    exact ⟨rfl, room⟩
  · cases place

theorem not_stopped {m : Message F} {lane : Nat} : destination s r m ≠ .stopped lane := by
  unfold destination
  rw [mode]
  dsimp only
  split <;> simp

/-- No more tasks are held than there may be. -/
theorem heldCount_le (hist : History s h r) : r.heldCount ≤ max limit 1 := by
  induction hist with
  | begin => exact Nat.zero_le _
  | @step h r r' a effects past made ih =>
    have hn := numbered past
    have made' := transition_of_step made
    cases made'.admits hn with
    | keeps quiet tasks =>
      -- The numbers of the held tasks are among those that were held before.
      have hsubset : (r'.tasks.filter (·.isHeld)).map (·.sequence) ⊆
          (r.tasks.filter (·.isHeld)).map (·.sequence) := by
        intro n hmem
        obtain ⟨u, hu, rfl⟩ := List.mem_map.1 hmem
        obtain ⟨hu, held⟩ := List.mem_filter.1 hu
        obtain ⟨t, ht, follows⟩ := tasks u hu
        have holder := follows.held (of_decide_eq_true held)
        exact List.mem_map.2
          ⟨t, List.mem_filter.2 ⟨ht, decide_eq_true holder⟩, follows.sequence.symm⟩
      have hnodup : ((r'.tasks.filter (·.isHeld)).map (·.sequence)).Nodup :=
        (hn.step made').nodup.sublist (List.filter_sublist.map _)
      have hle := (hnodup.subperm hsubset).length_le
      rw [List.length_map, List.length_map, ← List.countP_eq_length_filter,
        ← List.countP_eq_length_filter] at hle
      exact Nat.le_trans hle ih
    | admits place number hands tasks =>
      have room := (lane_of_open mode place).2
      simp only [heldCount, tasks, List.countP_append, List.countP_singleton] at room ⊢
      split <;> omega
    | loses place => exact absurd place (not_stopped mode)

theorem underWay_le_limit (hist : History s h r) : (underWay r).length ≤ max limit 1 := by
  refine Nat.le_trans ?_ (heldCount_le mode hist)
  rw [underWay, List.length_map, ← List.countP_eq_length_filter]
  exact List.countP_mono_left fun t _ busy => (Bool.and_eq_true_iff.1 busy).1

/-- There are no lanes. -/
theorem lane_eq_none (hist : History s h r) : ∀ t ∈ r.tasks, t.lane = none := by
  induction hist with
  | begin => exact List.forall_mem_nil _
  | @step h r r' a effects past made ih =>
    intro u hu
    cases (transition_of_step made).admits (numbered past) with
    | keeps quiet tasks =>
      obtain ⟨t, ht, follows⟩ := tasks u hu
      exact follows.lane.trans (ih t ht)
    | admits place number hands tasks =>
      rw [tasks] at hu
      rcases List.mem_append.1 hu with hu | hu
      · exact ih u hu
      · cases List.mem_singleton.1 hu
        exact (lane_of_open mode place).1
    | loses place => exact absurd place (not_stopped mode)

/-- A message stays in the queue, or it is taken up in this step: nothing else ends its wait. -/
theorem starts_or_queued (past : History s h r) (made : Transition s r a r' effects) {t : Task F}
    (ht : t ∈ r.tasks) (stage : t.stage = .queued) : a.Ends t.sequence .queued ∨
      ∃ u ∈ r'.tasks, u.sequence = t.sequence ∧ u.stage = .queued := by
  have hn := numbered past
  cases made.becomes hn ht with
  | stays mem => exact .inr ⟨t, mem, rfl, stage⟩
  | advanced advance mem =>
    rcases advance.of_queued stage with ⟨action, -⟩ | ⟨stays, -⟩
    · exact .inl action
    · exact .inr ⟨_, mem, congrArg (·.sequence) advance.position_eq, stays⟩
  | letGo halted reason => exact .inl (stage ▸ reason.ends)
  | ended reason => exact .inl (stage ▸ reason.ends)
  | @broken u _ task reason =>
    have hu := (mem_of_task? task).1
    by_cases number : t.sequence = u.sequence
    · cases hn.task_eq_of_sequence ht hu number
      exact .inl (stage ▸ reason.ends)
    · obtain ⟨gone, lanes, hrun, hgone, -⟩ := loseWorker_spec r u
      have stays : gone t = false := by
        rw [Bool.eq_false_iff, ne_eq, hgone]
        simp [number, lane_eq_none mode past u hu]
      exact .inr ⟨t, hrun ▸ List.mem_filter.2 ⟨ht, by simp [stays]⟩, rfl, stage⟩
  | confirmed other | asked other | stored other => cases stage.symm.trans other

/-- A message that was handed out is in the queue until it is taken up. -/
theorem begun_or_queued (hist : History s h r) (hknown : n < (dispatched h).length) :
    Begun h n ∨ ∃ t ∈ r.tasks, t.sequence = n ∧ t.stage = .queued := by
  induction hist with
  | begin => cases hknown
  | @step h r r' a effects past made ih =>
    have made' := transition_of_step made
    by_cases hold : n < (dispatched h).length
    · rcases ih hold with begun | ⟨t, ht, rfl, stage⟩
      · exact .inl (begun.mono _)
      · rcases starts_or_queued mode past made' ht stage with starts | stays
        · exact .inl (begun_snoc.2 (.inr starts))
        · exact .inr stays
    · cases made'.admits (numbered past) with
      | keeps quiet =>
        rw [dispatched_snoc, quiet, List.append_nil] at hknown
        exact absurd hknown hold
      | @admits m lane place number hands tasks =>
        rw [dispatched_snoc, hands, List.length_append, List.length_singleton] at hknown
        have hm : m.sequence = n := by omega
        exact .inr ⟨_, tasks ▸ List.mem_append_right _ (List.mem_singleton_self _), hm, rfl⟩
      | loses place => exact absurd place (not_stopped mode)

end Concurrent

/-! ## 5. Lanes -/

section Partitioned

variable {partitions : Nat} {key : Message F → Option String}
  (mode : s.options.mode = .partitioned partitions key)

include mode

theorem lane_of_task (hist : History s h r) {t : Task F} (ht : t ∈ r.tasks) :
    ∃ lane < max partitions 1, t.lane = some lane := by
  have hr := Routed.of_history mode hist
  obtain ⟨m, hm, heq⟩ := List.mem_map.1 ((numbered hist).position_mem ht)
  obtain ⟨k, hkey⟩ := hr.keys m hm
  have hlane := hr.lanes m hm t ht (congrArg (·.sequence) heq).symm
  rw [hkey] at hlane
  exact ⟨laneOf partitions k, laneOf_lt partitions k, hlane⟩

/-- Tasks in hand are in lanes of their own, as those of a lane take turns. -/
theorem nodup_lanes (hist : History s h r) :
    ((r.tasks.filter (·.isUnderWay)).map (·.lane)).Nodup := by
  refine List.pairwise_map.2 (((numbered hist).sorted.filter _).imp_of_mem ?_)
  intro t u ht hu before same
  obtain ⟨ht, busy⟩ := List.mem_filter.1 ht
  obtain ⟨hu, taken⟩ := List.mem_filter.1 hu
  obtain ⟨lane, -, hlane⟩ := lane_of_task mode hist ht
  simp only [Task.isUnderWay, Task.isHeld, Task.isQueued, Bool.and_eq_true, Bool.not_eq_true',
    decide_eq_true_eq, decide_eq_false_iff_not] at busy taken
  have left := takesTurns hist t ht u hu before lane hlane (same.symm.trans hlane) taken.2
  cases left.symm.trans busy.1

theorem underWay_le_lanes (hist : History s h r) : (underWay r).length ≤ max partitions 1 := by
  have hsubset : (r.tasks.filter (·.isUnderWay)).map (·.lane) ⊆
      (List.range (max partitions 1)).map some := by
    intro lane hmem
    obtain ⟨t, ht, rfl⟩ := List.mem_map.1 hmem
    obtain ⟨lane, hlt, hlane⟩ := lane_of_task mode hist (List.mem_of_mem_filter ht)
    exact List.mem_map.2 ⟨lane, List.mem_range.2 hlt, hlane.symm⟩
  have hle := ((nodup_lanes mode hist).subperm hsubset).length_le
  rw [List.length_map, List.length_map, List.length_range] at hle
  rwa [underWay, List.length_map]

end Partitioned

theorem underWay_le (hist : History s h r) : (underWay r).length ≤ s.options.mode.concurrency := by
  cases mode : s.options.mode with
  | concurrent limit => exact underWay_le_limit mode hist
  | partitioned partitions key => exact underWay_le_lanes mode hist

/-! ## 6. One worker -/

/-- The message the action has a worker take up. -/
def Action.start? : Action → Option Nat
  | .start n => some n
  | _ => none

/-- The messages in the order they were taken up, by their numbers. -/
def startOrder (h : List (Entry F)) : List Nat := h.filterMap (·.action.start?)

theorem start?_eq_some {a : Action} : a.start? = some n ↔ a = .start n := by
  cases a <;> simp [Action.start?]

theorem mem_startOrder : n ∈ startOrder h ↔ Begun h n := by
  simp only [startOrder, List.mem_filterMap, start?_eq_some]
  rfl

/-- A task that leaves its worker before it is settled waits for its acknowledgement. -/
theorem Advance.leaves {t u : Task F} (advance : Advance s r t a u effects)
    (left : u.holder = .acknowledgement) :
    t.holder = .acknowledgement ∨ u.stage = .awaitingAck := by
  cases advance with
  | started _ _ _ onward | returned _ onward =>
    cases onward with
    | called | handled => exact .inl left
    | pending => exact .inr rfl
  | recovering fails => cases fails <;> exact .inl left
  | backedOff | retried | ackTaken | ackSettled | acknowledged | recovered => exact .inl left

/-- All handlers returned for a message that has left its worker and is not settled, and it is
pending. -/
theorem pending_of_left (hist : History s h r) {t : Task F} (ht : t ∈ r.tasks)
    (left : t.holder = .acknowledgement) : Handled s h t.sequence .pending := by
  induction hist generalizing t with
  | begin => cases ht
  | @step h r r' a effects past made ih =>
    rcases (transition_of_step made).arises ht with hold | arises
    · exact HandledUpTo.mono (ih hold left) _
    · cases arises with
      | @advanced v _ _ _ task advance =>
        have number : t.sequence = v.sequence := congrArg (·.sequence) advance.position_eq
        rcases advance.leaves left with before | waits
        · exact HandledUpTo.mono (number ▸ ih (mem_of_task? task).1 before) _
        · have holds := (grounded (past.step made) t ht).stage
          rwa [waits] at holds
      | @asked v _ _ task => exact HandledUpTo.mono (ih (t := v) (mem_of_task? task).1 left) _
      | delivered => cases left

section Single

variable {limit : Nat} (mode : s.options.mode = .concurrent limit) (single : limit ≤ 1)

include mode single

/-- Everything before a message that a worker holds has been taken up and has left the worker. -/
theorem before_held (hist : History s h r) {t : Task F} (ht : t ∈ r.tasks)
    (holder : t.holder = .worker) : ∀ n < t.sequence, Begun h n ∧ LeftWorker n r := by
  induction hist generalizing t with
  | begin => cases ht
  | @step h r r' a effects past made ih =>
    have hn := numbered past
    have made' := transition_of_step made
    -- What holds of the messages before one that was held before the step is kept.
    have kept {u : Task F} (hu : u ∈ r.tasks) (held : u.holder = .worker) (n : Nat)
        (hlt : n < u.sequence) :
        Begun (h ++ [⟨r, a, r', effects⟩]) n ∧ LeftWorker n r' := by
      obtain ⟨begun, left⟩ := ih hu held n hlt
      exact ⟨begun.mono _, left.kept hn (Nat.lt_trans hlt (hn.task_sequence_lt hu)) made'⟩
    intro n hlt
    cases made'.admits hn with
    | keeps quiet tasks =>
      obtain ⟨u, hu, follows⟩ := tasks t ht
      exact kept hu (follows.held holder) n (follows.sequence ▸ hlt)
    | @admits m lane place number hands tasks =>
      rw [tasks] at ht
      rcases List.mem_append.1 ht with ht | ht
      · exact kept ht holder n hlt
      · -- The message is handed out, so no other one is held.
        cases List.mem_singleton.1 ht
        have hknown : n < (dispatched h).length := number ▸ hlt
        have room := (lane_of_open mode place).2
        have idle := holder_of_heldCount (r := r) (by omega)
        refine ⟨Begun.mono ((begun_or_queued mode past hknown).resolve_right ?_) _,
          LeftWorker.kept (fun u hu _ => idle u hu) hn hknown made'⟩
        rintro ⟨u, hu, -, stage⟩
        have late := (winding past).late u hu (idle u hu)
        rw [stage] at late
        exact late
    | loses place => exact absurd place (not_stopped mode)

/-- The task that a worker takes up is held. -/
theorem before_start (hist : History s h r) (made : step s r (.start n) = some (r', effects)) :
    ∀ m < n, Begun h m ∧ LeftWorker m r := by
  obtain ⟨t, task, stage, -⟩ := step_start made
  obtain ⟨ht, rfl⟩ := mem_of_task? task
  have early : ¬ Late t.stage := by simp [stage, Late]
  exact before_held mode single hist ht ((winding hist).held ht early)

/-- Messages are taken up in the order they arrive, none is left out, and none is taken up twice. -/
theorem startOrder_eq_range (hist : History s h r) :
    ∃ count ≤ (dispatched h).length, startOrder h = List.range count := by
  induction hist with
  | begin => exact ⟨0, Nat.le_refl _, rfl⟩
  | @step h r r' a effects past made ih =>
    obtain ⟨count, hle, hcount⟩ := ih
    have hgrows : (dispatched h).length ≤ (dispatched (h ++ [⟨r, a, r', effects⟩])).length := by
      simp
    have mem (m : Nat) : Begun h m ↔ m < count := by rw [← mem_startOrder, hcount, List.mem_range]
    cases start : a.start? with
    | none => exact ⟨count, Nat.le_trans hle hgrows, by simp [startOrder, start, ← hcount]⟩
    | some n =>
      cases start?_eq_some.1 start
      obtain ⟨t, task, stage, -⟩ := step_start made
      obtain ⟨ht, rfl⟩ := mem_of_task? task
      have fresh : ¬ Begun h t.sequence := fun begun => not_queued_of_begun past ht begun stage
      have hall : ∀ m < t.sequence, m < count :=
        fun m hlt => (mem m).1 (before_start mode single past made m hlt).1
      -- All before the message were taken up, and the message itself was not, so it is the next
      -- one.
      have hnext : t.sequence = count := by
        rcases Nat.lt_trichotomy t.sequence count with hlt | heq | hgt
        · exact absurd ((mem _).2 hlt) fresh
        · exact heq
        · exact absurd (hall count hgt) (Nat.lt_irrefl count)
      have hknown := (numbered past).task_sequence_lt ht
      refine ⟨count + 1, by omega, ?_⟩
      rw [List.range_succ, ← hcount, ← hnext]
      simp [startOrder, Action.start?]

end Single

/-! ## 7. Bounds -/

/-- What is in hand at a point of a run: what was taken up and has not left its worker, and
everything handlers are busy with; and it is no more than the mode allows. -/
structure InHand (s : Subscription F) (h : List (Entry F)) (r : Run F) : Prop where
  begun : ∀ n, n ∈ underWay r ↔ Begun h n ∧ ¬ LeftWorker n r
  calls : ∀ n attempt, InCall n attempt r → n ∈ underWay r
  delays : ∀ n, InDelay n r → n ∈ underWay r
  recoveries : ∀ n, InRecovery n r → n ∈ underWay r
  once : (underWay r).Nodup
  bound : (underWay r).length ≤ s.options.mode.concurrency

/-- Messages are taken up in the order they arrive.  Before one is taken up, the worker is done with
each one before, and those of them that are not settled are pending: they wait for their
acknowledgement, or for what follows from it. -/
structure OneByOne (s : Subscription F) (h : List (Entry F)) : Prop where
  order : ∃ count ≤ (dispatched h).length, startOrder h = List.range count
  done : ∀ before e later first second, h = before ++ e :: later → e.action = .start second →
    first < second → WorkerDone before (e :: later) first ∧
      ∀ t ∈ e.before.tasks, t.sequence = first →
        t.holder = .acknowledgement ∧ Handled s before first .pending

theorem inHand (hist : History s h r) : InHand s h r where
  begun _ := underWay_iff hist
  calls _ _ := underWay_of_call hist
  delays _ := underWay_of_delay hist
  recoveries _ := underWay_of_recovery
  once := nodup_underWay (numbered hist)
  bound := underWay_le hist

theorem oneByOne {limit : Nat} (mode : s.options.mode = .concurrent limit) (single : limit ≤ 1)
    (hist : History s h r) : OneByOne s h := by
  refine ⟨startOrder_eq_range mode single hist,
    fun before e later first second heq action hlt => ?_⟩
  obtain ⟨past, made⟩ := history_at hist heq
  rw [action] at made
  obtain ⟨begun, left⟩ := before_start mode single past made first hlt
  refine ⟨left.done hist heq (begun.known past), ?_⟩
  rintro t ht rfl
  exact ⟨left t ht rfl, pending_of_left past ht (left t ht rfl)⟩

/-- **Handling is bounded.**  At every point of every run, no more messages are in hand than the
mode allows, and in concurrent mode with one worker they are handled one by one, in the order they
arrive. -/
theorem handling_is_bounded (hist : History s h r) :
    InHand s h r ∧ ∀ limit ≤ 1, s.options.mode = .concurrent limit →
      (underWay r).length ≤ 1 ∧ OneByOne s h := by
  refine ⟨inHand hist, fun limit single mode => ⟨?_, oneByOne mode single hist⟩⟩
  have hle := underWay_le_limit mode hist
  omega

section Samples

open Sample

/-- Ticks handled one by one. -/
def soloFeed : Subscription ticks :=
  { tickFeed (some "parking") with options := { id := "feed", mode := .concurrent 1 } }

/-- The handler defers the acknowledgement of the first tick, and the second one is handed out. -/
def untilDeferred : List Action :=
  [.subscribe, .checkpointLoaded (.ok ⟨"feed", none⟩), .pageRead (.ok [tick 0, tick 1]), .deliver,
    .start 0, .takeAck 0 ⟨0, 0⟩, .attemptEnded 0 (.returned .pending), .deliver]

/-- The second tick is taken up when the worker is done with the first one, which waits. -/
theorem second_tick_is_alone_in_hand :
    ∃ (before : List (Entry ticks)) (e : Entry ticks) (r : Run ticks),
      History soloFeed (before ++ [e]) r ∧ before.map (·.action) = untilDeferred ∧
        e.action = .start 1 ∧
        underWay r = [1] ∧ (underWay r).length ≤ 1 ∧ WorkerDone before [e] 0 := by
  obtain ⟨r, r', effects, fx, replayed, made, hand⟩ : ∃ r r' effects fx,
      replay? soloFeed {} untilDeferred = some (r, effects) ∧
        step soloFeed r (.start 1) = some (r', fx) ∧
        underWay r' = [1] := ⟨_, _, _, _, rfl, rfl, rfl⟩
  obtain ⟨before, past, hactions, -⟩ := history_of_replay? replayed
  obtain ⟨bound, solo⟩ := (handling_is_bounded (past.step made)).2 1 (Nat.le_refl 1) rfl
  exact ⟨before, _, r', past.step made, hactions, rfl, hand, bound,
    (solo.done before _ [] 0 1 rfl rfl Nat.one_pos).1⟩

/-- The acknowledgement of the first tick is refused while the second one is with its handler, and
the handler of failed messages is called for the first one then: its failure is not handled before
the second one starts. -/
theorem failure_is_handled_beside_the_next :
    ¬ ∀ (h : List (Entry ticks)) (r : Run ticks), History soloFeed h r →
      ∀ before e later first second, h = before ++ e :: later → e.action = .start second →
        first < second →
        ∀ x ∈ e :: later, ∀ m error, Effect.recovering m error ∈ x.effects →
          m.sequence ≠ first := by
  intro claim
  obtain ⟨r, r₁, r₂, r₃, m, error, effects, fx, replayed, made₁, made₂, made₃, number⟩ :
      ∃ r r₁ r₂ r₃ m error effects fx, replay? soloFeed {} untilDeferred = some (r, effects) ∧
        step soloFeed r (.start 1) = some (r₁, fx) ∧
        step soloFeed r₁ (.settleAck 0 (.nacked "no")) = some (r₂, []) ∧
        step soloFeed r₂ (.resume 0) = some (r₃, [.recovering m error]) ∧ m.sequence = 0 :=
    ⟨_, _, _, _, _, _, _, _, rfl, rfl, rfl, rfl, rfl⟩
  obtain ⟨before, past, -⟩ := history_of_replay? replayed
  have hist := ((past.step made₁).step made₂).step made₃
  rw [List.append_assoc, List.append_assoc] at hist
  have last : (⟨r₂, .resume 0, r₃, [.recovering m error]⟩ : Entry ticks) ∈
      [⟨r, .start 1, r₁, fx⟩, ⟨r₁, .settleAck 0 (.nacked "no"), r₂, []⟩,
        ⟨r₂, .resume 0, r₃, [.recovering m error]⟩] := by
    simp
  exact claim _ _ hist before _ _ 0 1 rfl rfl Nat.one_pos _ last m error
    (List.mem_singleton_self _) number

end Samples

end Run
end EventSourcing

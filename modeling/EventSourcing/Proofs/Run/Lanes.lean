/-
# Messages of a lane take turns

A message goes to the lane of its key, and a lane has one worker, which takes its messages up in the
order they were handed out.  It keeps a message through all attempts and the delays between them,
and through the handler of failed messages when handling itself failed; only one that waits for an
acknowledgement is let go before it is settled.

What the file settles:

* `laneOf`, `Routed`: the lane of a message is that of its key, for the whole run;
* `TakesTurns`: when a message of a lane has been taken up, all before it have left the worker;
* `Transition.stays_or_ends`: a task stays at its stage until the action that ends the stage;
* `ended_or_pending`: what was begun has been ended, or is still under way;
* `LeftWorker`: a message that has left its worker never goes back;
* `WorkerDone`, `lanes_keep_order`: all this together.
-/
import EventSourcing.Proofs.Run.Attempts
import EventSourcing.Sample.Ticks

namespace EventSourcing
namespace Run

variable {F : PayloadFamily} {s : Subscription F} {r r' : Run F} {a : Action}
  {effects : List (Effect F)} {h : List (Entry F)} {n : Nat}

/-! ## 1. Lanes -/

/-- The lane of a key; no partitions count as one. -/
def laneOf (partitions : Nat) (key : String) : Nat := Murmur3.assign key (max partitions 1)

theorem laneOf_lt (partitions : Nat) (key : String) : laneOf partitions key < max partitions 1 := by
  have hlt := Murmur3.assign_lt key (max partitions 1)
  rwa [Nat.max_eq_left (Nat.le_max_right _ _)] at hlt

theorem laneOf_single {partitions : Nat} (single : max partitions 1 = 1) (key : String) :
    laneOf partitions key = 0 := by
  have hlt := laneOf_lt partitions key
  omega

section Routing

variable {partitions : Nat} {key : Message F → Option String}

/-- A message that goes anywhere goes to the lane of its key. -/
theorem destination_lane (mode : s.options.mode = .partitioned partitions key) (m : Message F) :
    destination s r m = .unknown ∨ destination s r m = .full ∨ ∃ k, key m = some k ∧
      (destination s r m = .open (some (laneOf partitions k)) ∨
        destination s r m = .stopped (laneOf partitions k)) := by
  unfold destination
  rw [mode]
  dsimp only
  cases key m with
  | none => exact .inl rfl
  | some k =>
    show _ ∨ _ ∨ ∃ k', some k = some k' ∧ _
    dsimp only [laneOf]
    split
    · exact .inr (.inr ⟨k, rfl, .inr rfl⟩)
    · split
      · exact .inr (.inr ⟨k, rfl, .inl rfl⟩)
      · exact .inr (.inl rfl)

/-- Every message handed out has a key, and its task is in the lane of the key. -/
structure Routed (partitions : Nat) (key : Message F → Option String) (h : List (Entry F))
    (r : Run F) : Prop where
  keys : ∀ m ∈ dispatched h, ∃ k, key m = some k
  lanes : ∀ m ∈ dispatched h, ∀ t ∈ r.tasks, t.sequence = m.sequence →
    t.lane = (key m).map (laneOf partitions)

theorem Onward.lane_eq {t u : Task F} {count : Nat} {status : HandlingStatus}
    (onward : Onward s t count status u effects) : u.lane = t.lane := by
  cases onward <;> rfl

theorem Advance.lane_eq {t u : Task F} (advance : Advance s r t a u effects) : u.lane = t.lane := by
  cases advance with
  | started _ _ _ onward => exact onward.lane_eq
  | returned _ onward => exact onward.lane_eq
  | recovering fails => cases fails <;> rfl
  | _ => rfl

/-- A step that hands a message out hands out this one, to the lane of its key. -/
theorem Transition.routes (made : Transition s r a r' effects)
    (mode : s.options.mode = .partitioned partitions key) {m : Message F}
    (handed : m ∈ effects.filterMap Effect.dispatched?) :
    (∃ cursor, r.phase.cursor? = some cursor ∧ m.sequence = cursor.sequence) ∧ ∃ k, key m = some k ∧
      ∀ u ∈ r'.tasks, u ∈ r.tasks ∨ u.lane = some (laneOf partitions k) := by
  rcases made.polls_or_aside with polls | aside
  · cases polls with
    | @delivered cursor e rest m' lane phase' fx phase decoded place continues =>
      rw [filterMap_dispatched, continues.quiet, List.mem_singleton] at handed
      subst handed
      refine ⟨⟨cursor, by rw [phase]; rfl, sequence_of_decode decoded⟩, ?_⟩
      rcases destination_lane (r := r) mode m with lost | full | ⟨k, hkey, there | gone⟩
      · cases place.symm.trans lost
      · cases place.symm.trans full
      · cases place.symm.trans there
        refine ⟨k, hkey, fun u hu => (List.mem_append.1 hu).imp_right fun hu => ?_⟩
        cases List.mem_singleton.1 hu
        rfl
      · cases place.symm.trans gone
    | @undelivered cursor e rest m' lane phase decoded place =>
      cases List.mem_singleton.1 handed
      refine ⟨⟨cursor, by rw [phase]; rfl, sequence_of_decode decoded⟩, ?_⟩
      rcases destination_lane (r := r) mode m with lost | full | ⟨k, hkey, -⟩
      · cases place.symm.trans lost
      · cases place.symm.trans full
      · exact ⟨k, hkey, fun u hu => .inl hu⟩
    | _ => cases handed
  · rw [aside.quiet] at handed
    cases handed

namespace Routed

theorem step (hr : Routed partitions key h r) (hn : Numbered h r)
    (mode : s.options.mode = .partitioned partitions key) (made : Transition s r a r' effects) :
    Routed partitions key (h ++ [⟨r, a, r', effects⟩]) r' := by
  have handed : ∀ m ∈ dispatched (h ++ [⟨r, a, r', effects⟩]), m ∈ dispatched h ∨
      m.sequence = (dispatched h).length ∧
      ∃ k, key m = some k ∧ ∀ u ∈ r'.tasks, u ∈ r.tasks ∨ u.lane = some (laneOf partitions k) := by
    intro m hm
    rw [dispatched_snoc] at hm
    refine (List.mem_append.1 hm).imp_right fun hm => ?_
    obtain ⟨⟨cursor, here, number⟩, hkey⟩ := made.routes mode hm
    exact ⟨number.trans (hn.cursor cursor here), hkey⟩
  constructor
  case keys =>
    intro m hm
    rcases handed m hm with old | ⟨-, k, hkey, -⟩
    · exact hr.keys m old
    · exact ⟨k, hkey⟩
  case lanes =>
    intro m hm u hu number
    rcases handed m hm with old | ⟨new, k, hkey, hlanes⟩
    · -- the task of an old message has been there before, in the same lane
      have hlt := hn.sequence_lt old
      rcases made.arises hu with hold | arises
      · exact hr.lanes m old u hold number
      · cases arises with
        | @advanced t _ _ _ task advance =>
          rw [advance.lane_eq]
          exact hr.lanes m old t (mem_of_task? task).1
            ((congrArg (·.sequence) advance.position_eq).symm.trans number)
        | @asked t _ _ task => exact hr.lanes m old t (mem_of_task? task).1 number
        | @delivered cursor m' lane _ here number' =>
          have heq : m'.sequence = m.sequence := number
          have := hn.cursor _ here
          omega
    · rcases hlanes u hu with hold | hlane
      · have := hn.task_sequence_lt hold
        omega
      · rw [hlane, hkey]
        rfl

theorem of_history (mode : s.options.mode = .partitioned partitions key) (hist : History s h r) :
    Routed partitions key h r := by
  induction hist with
  | begin => exact ⟨List.forall_mem_nil _, List.forall_mem_nil _⟩
  | step past made ih => exact ih.step (numbered past) mode (transition_of_step made)

end Routed

end Routing

/-! ## 2. Turns -/

theorem Numbered.sorted (hn : Numbered h r) : r.tasks.Pairwise (·.sequence < ·.sequence) := by
  have hsub := hn.tasks.map (·.sequence)
  rw [List.map_map, List.map_map] at hsub
  have hrange : (dispatched h).map ((·.sequence) ∘ (·.position)) =
    List.range (dispatched h).length := hn.numbers
  rw [hrange] at hsub
  exact List.pairwise_map.1 (List.pairwise_lt_range.sublist hsub)

/-- The first of the elements for which `p` holds is before every other one. -/
theorem find?_le {α : Type} {p : α → Bool} {f : α → Nat} {l : List α}
    (sorted : l.Pairwise (f · < f ·)) {x y : α} (found : l.find? p = some x) (hy : y ∈ l)
    (holds : p y = true) : f x ≤ f y := by
  obtain ⟨-, before, after, rfl, none⟩ := List.find?_eq_some_iff_append.1 found
  rcases List.mem_append.1 hy with hy | hy
  · have := none y hy
    simp [holds] at this
  · rcases List.mem_cons.1 hy with rfl | hy
    · exact Nat.le_refl _
    · have hpair := (List.pairwise_cons.1 (List.pairwise_append.1 sorted).2.1).1 y hy
      exact Nat.le_of_lt hpair

/-- A task is taken up when those before it in its lane have left the worker. -/
theorem left_of_mayStart (hn : Numbered h r) {t u : Task F} (ht : t ∈ r.tasks)
    (free : r.mayStart u = true)
    {lane : Nat} (htl : t.lane = some lane) (hul : u.lane = some lane)
    (before : t.sequence < u.sequence) : t.holder = .acknowledgement := by
  simp only [mayStart, hul, Bool.and_eq_true, Bool.not_eq_true', List.any_eq_false] at free
  obtain ⟨idle, next⟩ := free
  obtain ⟨v, found, hv⟩ := (Option.any_eq_true _ _).1 next
  have queued : t.isQueued = false := by
    cases hqueued : t.isQueued with
    | false => rfl
    | true =>
      have hle := find?_le hn.sorted found ht (by simp [Task.isQueuedIn, hqueued, htl])
      rw [beq_iff_eq.1 hv] at hle
      omega
  have hidle := idle t ht
  cases holder : t.holder with
  | acknowledgement => rfl
  | worker => simp [Task.occupies, Task.isHeld, holder, queued, htl] at hidle

/-- What a step makes of a task: it stays in its lane, keeps waiting for its acknowledgement, and is
taken up only when a worker is free. -/
structure Follows (r : Run F) (t u : Task F) : Prop where
  sequence : u.sequence = t.sequence
  lane : u.lane = t.lane
  holder : t.holder = .acknowledgement → u.holder = .acknowledgement
  queued : u.stage ≠ .queued → t.stage ≠ .queued ∨ r.mayStart t = true

theorem Onward.holder_keeps {t u : Task F} {count : Nat} {status : HandlingStatus}
    (onward : Onward s t count status u effects) (holder : t.holder = .acknowledgement) :
    u.holder = .acknowledgement := by
  cases onward with
  | called | handled => exact holder
  | pending => rfl

theorem Advance.follows {t u : Task F} (advance : Advance s r t a u effects) : Follows r t u := by
  refine ⟨congrArg (·.sequence) advance.position_eq, advance.lane_eq, fun holder => ?_,
    fun hu => ?_⟩
  · cases advance with
    | started _ _ _ onward => exact onward.holder_keeps holder
    | returned _ onward => exact onward.holder_keeps holder
    | recovering fails => cases fails <;> exact holder
    | _ => exact holder
  · cases advance with
    | started _ free => exact .inr free
    | ackTaken | ackSettled => exact .inl hu
    | recovering fails => cases fails <;> rename_i stage _ _ <;> exact .inl (by simp [stage])
    | returned stage | backedOff stage | retried stage | acknowledged stage | recovered stage =>
      exact .inl (by simp [stage])

/-- A task after a step follows one before it, or was just handed out. -/
theorem Transition.follows (made : Transition s r a r' effects)
    (hn : Numbered h r) {u : Task F} (hu : u ∈ r'.tasks) :
    (∃ t ∈ r.tasks, Follows r t u) ∨ u.sequence = (dispatched h).length ∧ u.stage = .queued := by
  rcases made.arises hu with hold | arises
  · exact .inl ⟨u, hold, rfl, rfl, id, .inl⟩
  · cases arises with
    | advanced task advance => exact .inl ⟨_, (mem_of_task? task).1, advance.follows⟩
    | @asked t _ _ task stage =>
      exact .inl ⟨t, (mem_of_task? task).1, rfl, rfl, id, fun _ => .inl (by simp [stage])⟩
    | delivered here number => exact .inr ⟨number.trans (hn.cursor _ here), rfl⟩

/-- When a message of a lane has been taken up, those before it in the lane have left the worker. -/
def TakesTurns (r : Run F) : Prop :=
  ∀ t ∈ r.tasks, ∀ u ∈ r.tasks, t.sequence < u.sequence → ∀ lane, t.lane = some lane →
    u.lane = some lane →
    u.stage ≠ .queued → t.holder = .acknowledgement

theorem TakesTurns.step (turns : TakesTurns r) (hn : Numbered h r)
    (made : Transition s r a r' effects) : TakesTurns r' := by
  intro t' ht' u' hu' before lane htl hul taken
  rcases made.follows hn hu' with ⟨u, hu, hfollows⟩ | ⟨-, queued⟩
  · rcases made.follows hn ht' with ⟨t, ht, hfollows'⟩ | ⟨new, -⟩
    · rw [hfollows'.sequence, hfollows.sequence] at before
      rw [hfollows'.lane] at htl
      rw [hfollows.lane] at hul
      refine hfollows'.holder ?_
      rcases hfollows.queued taken with taken | free
      · exact turns t ht u hu before lane htl hul taken
      · exact left_of_mayStart hn ht free htl hul before
    · have hlt := hn.task_sequence_lt hu
      rw [hfollows.sequence] at before
      omega
  · exact absurd queued taken

theorem takesTurns (hist : History s h r) : TakesTurns r := by
  induction hist with
  | begin => exact fun t ht => absurd ht List.not_mem_nil
  | step past made ih => exact ih.step (numbered past) (transition_of_step made)

/-! ## 3. What was begun and what has ended -/

/-- The action ends this stage of the message with number `n`. -/
def Action.Ends (a : Action) (n : Nat) : Stage → Prop
  | .queued => a = .start n
  | .calling _ _ => ∃ outcome, a = .attemptEnded n outcome
  | .backingOff _ _ _ => a = .retry n ∨ a = .giveUp n
  | .awaitingAck => a = .resume n ∨ a = .abandon n
  | .recovering _ => ∃ reply, a = .recovered n reply
  | .confirming => a = .confirm n
  | .storing _ => ∃ reply, a = .stored n reply

theorem Fails.ends {t u : Task F} {name : String} {error : HandlerError}
    (fails : Fails s t a name error u) : a.Ends t.sequence t.stage := by
  cases fails with
  | exhausted stage => rw [stage]; exact ⟨_, rfl⟩
  | refused stage => rw [stage]; exact .inl rfl

/-- A task that goes on stays at its stage until the action that ends it. -/
theorem Advance.stays_or_ends {t u : Task F} (advance : Advance s r t a u effects) :
    u.stage = t.stage ∧ u.holder = t.holder ∨ a.Ends t.sequence t.stage := by
  cases advance with
  | ackTaken | ackSettled => exact .inl ⟨rfl, rfl⟩
  | recovering fails => exact .inr fails.ends
  | started stage => rw [stage]; exact .inr rfl
  | returned stage | backedOff stage | recovered stage => rw [stage]; exact .inr ⟨_, rfl⟩
  | retried stage | acknowledged stage => rw [stage]; exact .inr (.inl rfl)

theorem LetsGo.ends {t : Task F} (reason : LetsGo s t a) : a.Ends t.sequence t.stage := by
  cases reason with
  | untouched stage => rw [stage]; exact rfl
  | failed fails => exact fails.ends
  | cutShort stage | unanswered stage => rw [stage]; exact .inr rfl

theorem Ends.ends {t : Task F} {e : SubscriptionError} (reason : Ends s r t a e) :
    a.Ends t.sequence t.stage := by
  cases reason with
  | failed fails => exact fails.ends
  | panicked stage | unrecovered stage | unstored stage => rw [stage]; exact ⟨_, rfl⟩

theorem Breaks.ends {t : Task F} (reason : Breaks s t a) : a.Ends t.sequence t.stage := by
  cases reason with
  | recovering stage | storing stage => rw [stage]; exact ⟨_, rfl⟩

/-- A task that was taken up stays at its stage until the action that ends it: only tasks in the
queue are lost with the worker of another one. -/
theorem Transition.stays_or_ends (made : Transition s r a r' effects) (hn : Numbered h r)
    {t : Task F} (ht : t ∈ r.tasks) (taken : t.stage ≠ .queued) :
    (∃ u ∈ r'.tasks, u.sequence = t.sequence ∧ u.stage = t.stage ∧ u.holder = t.holder) ∨
      a.Ends t.sequence t.stage := by
  cases made.becomes hn ht with
  | stays mem => exact .inl ⟨t, mem, rfl, rfl, rfl⟩
  | advanced advance mem =>
    exact advance.stays_or_ends.imp_left fun same =>
      ⟨_, mem, congrArg (·.sequence) advance.position_eq, same⟩
  | letGo halted reason => exact .inr reason.ends
  | ended reason => exact .inr reason.ends
  | @broken u _ task reason =>
    by_cases heq : t.sequence = u.sequence
    · cases hn.task_eq_of_sequence ht (mem_of_task? task).1 heq
      exact .inr reason.ends
    · obtain ⟨gone, lanes, hrun, hgone, -⟩ := loseWorker_spec r u
      refine .inl ⟨t, ?_, rfl, rfl, rfl⟩
      rw [hrun]
      refine List.mem_filter.2 ⟨ht, ?_⟩
      simp only [Bool.not_eq_true', Bool.eq_false_iff, ne_eq, hgone, not_or]
      refine ⟨heq, ?_⟩
      rintro ⟨lane, -, -, queued⟩
      simp [Task.isQueuedIn, Task.isQueued, taken] at queued
  | confirmed stage | asked stage => rw [stage]; exact .inr rfl
  | stored stage => rw [stage]; exact .inr ⟨_, rfl⟩

/-- An entry of a history that has grown by one is the new one, or was there before. -/
theorem split_snoc {before later : List (Entry F)} {e last : Entry F}
    (heq : h ++ [last] = before ++ e :: later) :
    later = [] ∧ h = before ∧ last = e ∨
      ∃ later', later = later' ++ [last] ∧ h = before ++ e :: later' := by
  rcases List.eq_nil_or_concat later with rfl | ⟨later', x, rfl⟩
  · obtain ⟨rfl, hlast⟩ := List.append_inj' heq rfl
    exact .inl ⟨rfl, rfl, List.singleton_inj.1 hlast⟩
  · rw [List.concat_eq_append, ← List.cons_append, ← List.append_assoc] at heq
    obtain ⟨rfl, hlast⟩ := List.append_inj' heq rfl
    cases hlast
    exact .inr ⟨later', by simp, rfl⟩

/-- What was begun has been ended later on, or is under way. -/
theorem ended_or_pending (begins ends : Entry F → Prop) (pending : Run F → Prop)
    (starts : ∀ {h r a r' effects}, History s h r → Transition s r a r' effects →
      begins ⟨r, a, r', effects⟩ → pending r')
    (goes : ∀ {h r a r' effects}, History s h r → Transition s r a r' effects →
      pending r → ends ⟨r, a, r', effects⟩ ∨ pending r')
    (hist : History s h r) {before later : List (Entry F)} {e : Entry F}
    (heq : h = before ++ e :: later) (begun : begins e) : (∃ x ∈ later, ends x) ∨ pending r := by
  induction hist generalizing later with
  | begin => simp at heq
  | step past made ih =>
    rcases split_snoc heq with ⟨rfl, rfl, rfl⟩ | ⟨later', rfl, heq'⟩
    · exact .inr (starts past (transition_of_step made) begun)
    · rcases ih heq' with ⟨x, hx, hends⟩ | open'
      · exact .inl ⟨x, List.mem_append_left _ hx, hends⟩
      · exact (goes past (transition_of_step made) open').imp_left fun hends => ⟨_, by simp, hends⟩

/-- The entry calls a handler for the message: this attempt is made. -/
def Entry.Calls (e : Entry F) (n : Nat) (attempt : Attempt) : Prop :=
  ∃ m, Effect.called attempt.handler m ∈ e.effects ∧ m.sequence = n ∧ m.retryCount = attempt.retry

/-- The entry ends this attempt of the message. -/
def Entry.EndsCall (e : Entry F) (n : Nat) (attempt : Attempt) : Prop :=
  (∃ outcome, e.action = .attemptEnded n outcome) ∧
    ∃ t status, e.before.task? n = some t ∧ t.stage = .calling attempt status

/-- Handling of the message fails, and the handler of failed messages is called. -/
def Entry.HandsOver (e : Entry F) (n : Nat) : Prop :=
  (∃ outcome, e.action = .attemptEnded n outcome) ∧ ∃ m error, Effect.recovering m error ∈ e.effects

/-- The entry ends the call of the handler of failed messages. -/
def Entry.EndsRecovery (e : Entry F) (n : Nat) : Prop :=
  (∃ reply, e.action = .recovered n reply) ∧
    ∃ t error, e.before.task? n = some t ∧ t.stage = .recovering error

/-- This attempt of the message is being made. -/
def InCall (n : Nat) (attempt : Attempt) (r : Run F) : Prop :=
  ∃ t ∈ r.tasks, t.sequence = n ∧ ∃ status, t.stage = .calling attempt status

/-- The message failed under its worker, and the handler of failed messages has it. -/
def InRecovery (n : Nat) (r : Run F) : Prop :=
  ∃ t ∈ r.tasks, t.sequence = n ∧ t.holder = .worker ∧ ∃ error, t.stage = .recovering error

/-- A call goes on until it ends. -/
theorem InCall.step (hist : History s h r) (made : Transition s r a r' effects) {attempt : Attempt}
    (call : InCall n attempt r) :
    (⟨r, a, r', effects⟩ : Entry F).EndsCall n attempt ∨ InCall n attempt r' := by
  obtain ⟨t, ht, rfl, status, stage⟩ := call
  have hn := numbered hist
  rcases made.stays_or_ends hn ht (by simp [stage]) with ⟨u, hu, number, same, -⟩ | hends
  · exact .inr ⟨u, hu, number, status, same.trans stage⟩
  · rw [stage] at hends
    exact .inl ⟨hends, t, status, hn.task?_eq ht, stage⟩

theorem call_ended (hist : History s h r) {before later : List (Entry F)} {e : Entry F}
    {attempt : Attempt} (heq : h = before ++ e :: later) (calls : e.Calls n attempt) :
    (∃ x ∈ later, x.EndsCall n attempt) ∨ InCall n attempt r := by
  refine ended_or_pending (·.Calls n attempt) (·.EndsCall n attempt) (InCall n attempt)
    (fun past made calls => ?_) (fun past made call => call.step past made) hist heq calls
  obtain ⟨m, seen, rfl, hretry⟩ := calls
  obtain ⟨t, u, task, advance, rfl⟩ := made.goes_on seen trivial
  obtain ⟨number, status, stage⟩ := advance.calls seen
  have same : u.sequence = t.sequence := congrArg (·.sequence) advance.position_eq
  rw [hretry] at stage
  exact ⟨u, (mem_put_iff task same u).2 (.inl rfl), same.trans number.symm, status, stage⟩

theorem Fails.message_eq {t u : Task F} {name : String} {error : HandlerError}
    (fails : Fails s t a name error u) : u.message = t.message := by
  cases fails <;> rfl

/-- Whoever calls the handler of failed messages has put the task into its hands. -/
theorem Transition.hands_over (made : Transition s r a r' effects) {m : Message F}
    {error : HandlerError} (seen : Effect.recovering m error ∈ effects) :
    ∃ t u name, r.task? t.sequence = some t ∧ Fails s t a name error u ∧
      r' = r.put { u with stage := .recovering error } ∧ t.message = m ∧
      effects = [.recovering m error] ∧ r.isHalted = false := by
  cases made with
  | advanced task advance =>
    cases advance with
    | recovering fails going =>
      cases List.mem_singleton.1 seen
      exact ⟨_, _, _, task, fails, rfl, fails.message_eq.symm, rfl, going⟩
    | started _ _ _ onward | returned _ onward => cases onward <;> simp at seen
    | _ => simp at seen
  | @broken t _ task reason =>
    obtain ⟨gone, lanes, -, -, -, hlost⟩ := loseWorker_spec r t
    obtain ⟨k, heq⟩ := hlost _ seen
    cases heq
  | letGo | ended | confirmed | asked | stored | cancelled => simp at seen
  | polled polls =>
    cases polls with
    | delivered phase decoded place continues => cases continues <;> simp at seen
    | _ => simp at seen

/-- A message that failed under its worker stays with it until the handler of failed messages has
answered. -/
theorem recovery_ended (hist : History s h r) {before later : List (Entry F)} {e : Entry F}
    (heq : h = before ++ e :: later) (fails : e.HandsOver n) :
    (∃ x ∈ later, x.EndsRecovery n) ∨ InRecovery n r := by
  refine ended_or_pending (·.HandsOver n) (·.EndsRecovery n) (InRecovery n)
    (fun past made hands => ?_) (fun past made open' => ?_) hist heq fails
  · obtain ⟨⟨outcome, action⟩, m, error, seen⟩ := hands
    dsimp only at action seen
    subst action
    obtain ⟨t, u, name, task, fails, rfl, -⟩ := made.hands_over seen
    cases fails with
    | exhausted stage =>
      refine ⟨_, (mem_put_iff (u := { t with ack := t.ack.close, stage := .recovering error }) task
        rfl _).2 (.inl rfl), rfl, ?_, error, rfl⟩
      cases holder : t.holder with
      | worker => rfl
      | acknowledgement =>
        have late := (winding past).late t (mem_of_task? task).1 holder
        simp [stage, Late] at late
  · obtain ⟨t, ht, rfl, holder, error, stage⟩ := open'
    have hn := numbered past
    rcases made.stays_or_ends hn ht (by simp [stage]) with ⟨u, hu, number, same, hsame⟩ | hends
    · exact .inr ⟨u, hu, number, hsame.trans holder, error, same.trans stage⟩
    · rw [stage] at hends
      exact .inl ⟨hends, t, error, hn.task?_eq ht, stage⟩

/-! ## 4. Messages that have left their worker -/

/-- The message is not with a worker: it waits for its acknowledgement, or the run no longer has
it. -/
def LeftWorker (n : Nat) (r : Run F) : Prop :=
  ∀ t ∈ r.tasks, t.sequence = n → t.holder = .acknowledgement

theorem LeftWorker.kept (left : LeftWorker n r) (hn : Numbered h r)
    (known : n < (dispatched h).length) (made : Transition s r a r' effects) : LeftWorker n r' := by
  rintro u hu rfl
  rcases made.follows hn hu with ⟨t, ht, hfollows⟩ | ⟨new, -⟩
  · exact hfollows.holder (left t ht hfollows.sequence.symm)
  · omega

/-- No handler is called for such a message, -/
theorem LeftWorker.not_calls (left : LeftWorker n r) (hist : History s h r)
    (made : Transition s r a r' effects) (attempt : Attempt) :
    ¬ (⟨r, a, r', effects⟩ : Entry F).Calls n attempt := by
  rintro ⟨m, seen, rfl, -⟩
  obtain ⟨t, u, task, advance, -⟩ := made.goes_on seen trivial
  obtain ⟨ht, -⟩ := mem_of_task? task
  have late := (winding hist).late t ht (left t ht (advance.calls seen).1.symm)
  cases advance with
  | started stage | returned stage | retried stage => simp [stage, Late] at late
  | _ => simp at seen

/-- and none of its calls is going on. -/
theorem LeftWorker.not_ends (left : LeftWorker n r) (hist : History s h r) {outcome : AttemptEnd}
    (made : step s r (.attemptEnded n outcome) = some (r', effects)) : False := by
  obtain ⟨t, task, moved⟩ := Option.bind_eq_some_iff.1 made
  obtain ⟨ht, number⟩ := mem_of_task? task
  have late := (winding hist).late t ht (left t ht number)
  cases stage : t.stage <;> simp [taskStep, stage] at moved
  simp [stage, Late] at late

/-- The steps of a history are those of the run as it was before each. -/
theorem history_at (hist : History s h r) {before later : List (Entry F)} {e : Entry F}
    (heq : h = before ++ e :: later) :
    History s before e.before ∧ step s e.before e.action = some (e.after, e.effects) := by
  induction hist generalizing later with
  | begin => simp at heq
  | step past made ih =>
    rcases split_snoc heq with ⟨-, rfl, rfl⟩ | ⟨later', -, heq'⟩
    · exact ⟨past, made⟩
    · exact ih heq'

theorem LeftWorker.later (hist : History s h r) {before later : List (Entry F)} {e : Entry F}
    (heq : h = before ++ e :: later) (left : LeftWorker n e.before)
    (known : n < (dispatched before).length) :
    (∀ x ∈ e :: later, LeftWorker n x.before) ∧ LeftWorker n r := by
  induction hist generalizing later with
  | begin => simp at heq
  | step past made ih =>
    have made' := transition_of_step made
    rcases split_snoc heq with ⟨rfl, rfl, rfl⟩ | ⟨later', rfl, rfl⟩
    · exact ⟨by simpa using left, left.kept (numbered past) known made'⟩
    · obtain ⟨hall, hlast⟩ := ih rfl
      refine ⟨fun x hx => ?_, hlast.kept (numbered past) ?_ made'⟩
      · rw [← List.cons_append] at hx
        rcases List.mem_append.1 hx with hx | hx
        · exact hall x hx
        · cases List.mem_singleton.1 hx
          exact hlast
      · rw [dispatched_append, List.length_append]
        omega

/-! ## 5. The order of a lane -/

/-- The worker is done with the message: every call of a handler for it has ended, and so has that
of the handler of failed messages when handling itself failed; and no such call comes later. -/
structure WorkerDone (before later : List (Entry F)) (n : Nat) : Prop where
  calls : ∀ earlier e between, before = earlier ++ e :: between → ∀ attempt, e.Calls n attempt →
    ∃ x ∈ between, x.EndsCall n attempt
  recovery : ∀ earlier e between, before = earlier ++ e :: between → e.HandsOver n →
    ∃ x ∈ between, x.EndsRecovery n
  silent : ∀ x ∈ later, (∀ attempt, ¬ x.Calls n attempt) ∧
    ∀ outcome, x.action ≠ .attemptEnded n outcome

theorem LeftWorker.done (hist : History s h r) {before later : List (Entry F)} {e : Entry F}
    (heq : h = before ++ e :: later) (left : LeftWorker n e.before)
    (known : n < (dispatched before).length) : WorkerDone before (e :: later) n := by
  obtain ⟨past, -⟩ := history_at hist heq
  constructor
  case calls =>
    intro earlier c between heq' attempt calls
    refine (call_ended past heq' calls).resolve_right ?_
    rintro ⟨t, ht, number, status, stage⟩
    have late := (winding past).late t ht (left t ht number)
    simp [stage, Late] at late
  case recovery =>
    intro earlier c between heq' fails
    refine (recovery_ended past heq' fails).resolve_right ?_
    rintro ⟨t, ht, number, holder, -⟩
    rw [left t ht number] at holder
    cases holder
  case silent =>
    intro x hx
    have hleft := (LeftWorker.later hist heq left known).1 x hx
    obtain ⟨before', later', hsplit⟩ := List.append_of_mem hx
    have hat : h = before ++ before' ++ x :: later' := by
      rw [List.append_assoc, ← hsplit]
      exact heq
    obtain ⟨past', made⟩ := history_at hist hat
    refine ⟨hleft.not_calls past' (transition_of_step made), fun outcome action => ?_⟩
    rw [action] at made
    exact hleft.not_ends past' made

/-- Of a history that goes on, messages with lower numbers than those handed out so far are among
them. -/
theorem Numbered.mem_of_lt (hn : Numbered h r) {l l' : List (Message F)}
    (hsplit : dispatched h = l ++ l') {m : Message F} (hm : m ∈ dispatched h)
    (hlt : m.sequence < l.length) : m ∈ l := by
  have hat := hn.getElem?_sequence hm
  rw [hsplit, List.getElem?_append_left hlt] at hat
  exact List.mem_of_getElem? hat

theorem Numbered.sequence_lt_of_sublist (hn : Numbered h r) {first second : Message F}
    (order : [first, second].Sublist (dispatched h)) : first.sequence < second.sequence := by
  have hsub := order.map (·.sequence)
  rw [hn.numbers] at hsub
  exact List.pairwise_pair.1 (List.pairwise_lt_range.sublist hsub)

section Order

variable {partitions : Nat} {key : Message F → Option String}

/-- The lane of a message handed out, after any step of the history. -/
theorem lane_at (mode : s.options.mode = .partitioned partitions key)
    (hist : History s h r) {e : Entry F} (he : e ∈ h) {t : Task F} (ht : t ∈ e.after.tasks)
    {m : Message F} (hm : m ∈ dispatched h) (number : t.sequence = m.sequence) :
    t.lane = (key m).map (laneOf partitions) := by
  obtain ⟨before, later, rfl⟩ := List.append_of_mem he
  obtain ⟨past, made⟩ := history_at hist rfl
  have now := past.step made
  have hsplit : dispatched (before ++ e :: later) =
      dispatched (before ++ [e]) ++ dispatched later := by
    rw [← dispatched_append, List.append_assoc, List.singleton_append]
  have hlt : m.sequence < (dispatched (before ++ [e])).length :=
    number ▸ (numbered now).task_sequence_lt ht
  exact (Routed.of_history mode now).lanes m ((numbered hist).mem_of_lt hsplit hm hlt) t ht number

/-- When a handler is called for a message, those before it in its lane have left the worker. -/
theorem left_of_calls (hist : History s h r) {before later : List (Entry F)} {e : Entry F}
    (heq : h = before ++ e :: later) {first second : Nat} {attempt : Attempt}
    (calls : e.Calls second attempt) (hlt : first < second)
    (same : ∀ t ∈ e.after.tasks, ∀ u ∈ e.after.tasks, t.sequence = first → u.sequence = second →
      ∃ lane, t.lane = some lane ∧ u.lane = some lane) :
    LeftWorker first e.before ∧ first < (dispatched before).length := by
  obtain ⟨past, made⟩ := history_at hist heq
  obtain ⟨m, seen, rfl, -⟩ := calls
  obtain ⟨v, u, task, advance, hrun⟩ := (transition_of_step made).goes_on seen trivial
  obtain ⟨number, status, stage⟩ := advance.calls seen
  have hsame : u.sequence = v.sequence := congrArg (·.sequence) advance.position_eq
  have mem := mem_put_iff task hsame
  rw [← hrun] at mem
  have hu : u ∈ e.after.tasks := (mem u).2 (.inl rfl)
  refine ⟨fun t ht ht₁ => ?_, Nat.lt_trans hlt ?_⟩
  · -- the step is about the later message, so the task of the earlier one is still there
    have ht' : t ∈ e.after.tasks := (mem t).2 (.inr ⟨ht, by omega⟩)
    obtain ⟨lane, htl, hul⟩ := same t ht' u hu ht₁ (hsame.trans number.symm)
    exact takesTurns (past.step made) t ht' u hu (by omega) lane htl hul (by simp [stage])
  · rw [number]
    exact (numbered past).task_sequence_lt (mem_of_task? task).1

/-- **Messages of a lane take turns.**  In partitioned mode every message handed out has a key, and
goes to the lane of the key, which is one of the lanes there are and stays the same for the whole
run.  Of two messages with equal keys, or of any two if there is but one lane, the one that was
handed out later is not shown to any handler before the worker is done with the other one. -/
theorem lanes_keep_order (mode : s.options.mode = .partitioned partitions key)
    (hist : History s h r) :
    (∀ m ∈ dispatched h, ∃ k, key m = some k ∧ laneOf partitions k < max partitions 1 ∧
      ∀ e ∈ h, ∀ t ∈ e.after.tasks, t.sequence = m.sequence → t.lane = some (laneOf partitions k)) ∧
    ∀ first second, [first, second].Sublist (dispatched h) →
      (key first = key second ∨ max partitions 1 = 1) →
      ∀ before e later attempt, h = before ++ e :: later → e.Calls second.sequence attempt →
        WorkerDone before (e :: later) first.sequence := by
  constructor
  · intro m hm
    obtain ⟨k, hkey⟩ := (Routed.of_history mode hist).keys m hm
    refine ⟨k, hkey, laneOf_lt partitions k, fun e he t ht number => ?_⟩
    rw [lane_at mode hist he ht hm number, hkey]
    rfl
  · intro first second order hkeys before e later attempt heq calls
    have hfirst : first ∈ dispatched h := order.subset List.mem_cons_self
    have hsecond : second ∈ dispatched h := order.subset (List.mem_cons_of_mem _ List.mem_cons_self)
    have he : e ∈ h := heq ▸ List.mem_append_right before List.mem_cons_self
    obtain ⟨k, hk⟩ := (Routed.of_history mode hist).keys first hfirst
    obtain ⟨k', hk'⟩ := (Routed.of_history mode hist).keys second hsecond
    have hlane : laneOf partitions k' = laneOf partitions k := by
      rcases hkeys with hkeys | single
      · rw [hk, hk'] at hkeys
        rw [Option.some.inj hkeys]
      · rw [laneOf_single single, laneOf_single single]
    obtain ⟨left, known⟩ :=
      left_of_calls hist heq calls ((numbered hist).sequence_lt_of_sublist order) (by
        intro t ht u hu ht₁ hu₂
        refine ⟨laneOf partitions k, ?_, ?_⟩
        · rw [lane_at mode hist he ht hfirst ht₁, hk]
          rfl
        · rw [lane_at mode hist he hu hsecond hu₂, hk', Option.map_some, hlane])
    exact left.done hist heq known

end Order

section Witness

open Sample

/-- Ticks handled in one lane, each tried twice. -/
def laneFeed : Subscription ticks :=
  { tickFeed (some "parking") with
    options := {
      id := "feed"
      mode := .partitioned 0 fun m => some m.stream.text
      retry := { maxRetries := 1 } } }

/-- Two ticks are handed out; both attempts at the first one fail, and the handler of failed
messages takes it. -/
def untilSecond : List Action :=
  [.subscribe, .checkpointLoaded (.ok ⟨"feed", none⟩), .pageRead (.ok [tick 0, tick 1]),
    .deliver, .deliver, .start 0, .attemptEnded 0 (.failed (.failed "no")), .retry 0,
    .attemptEnded 0 (.failed (.failed "no")), .recovered 0 (.ok ()),
    .confirm 0, .stored 0 (.ok ())]

/-- The second tick is shown to the handler when all is over with the first one. -/
theorem second_tick_waits_its_turn :
    ∃ (before : List (Entry ticks)) (e : Entry ticks) (r : Run ticks),
      History laneFeed (before ++ [e]) r ∧ before.map (·.action) = untilSecond ∧ e.Calls 1 ⟨0, 0⟩ ∧
        WorkerDone before [e] 0 := by
  obtain ⟨r, r', effects, first, second, m, replayed, handed, made, number, fresh,
    hfirst, hsecond⟩ :
      ∃ r r' effects first second m, replay? laneFeed {} untilSecond = some (r, effects) ∧
        effects.filterMap Effect.dispatched? = [first, second] ∧
        step laneFeed r (.start 1) = some (r', [.called 0 m]) ∧ m.sequence = 1 ∧ m.retryCount = 0 ∧
        first.sequence = 0 ∧ second.sequence = 1 :=
    ⟨_, _, _, _, _, _, rfl, rfl, rfl, rfl, rfl, rfl, rfl⟩
  obtain ⟨before, past, hactions, htrace⟩ := history_of_replay? replayed
  have hdispatched : dispatched (before ++ [⟨r, .start 1, r', [.called 0 m]⟩]) =
      [first, second] := by
    rw [dispatched_snoc, dispatched, htrace, handed]
    rfl
  have calls : Entry.Calls ⟨r, .start 1, r', [.called 0 m]⟩ 1 ⟨0, 0⟩ :=
    ⟨m, List.mem_singleton_self _, number, fresh⟩
  have order := (lanes_keep_order rfl (past.step made)).2 first second
    (hdispatched ▸ List.Sublist.refl _) (.inr rfl)
  have done := order before _ [] ⟨0, 0⟩ rfl (by rw [hsecond]; exact calls)
  rw [hfirst] at done
  exact ⟨before, _, r', past.step made, hactions, calls, done⟩

end Witness

end Run
end EventSourcing

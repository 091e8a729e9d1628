/-
# Which acknowledgement decides

Any attempt may ask for an acknowledgement, as often as it likes and long after it has ended, and is
always given one.  A message has a single slot for all its handlers and all their attempts: the
first acknowledgement taken out of it is live, and every other one does nothing.  So a message that
its handlers made pending hears of nobody but the attempt that asked first, whether or not that
attempt failed, and whatever else the handlers do with what they were given.

What the file settles:

* `DeferredAck`, `Deferral`: histories with the acknowledgements given in them;
* `ruling`: what the live acknowledgement of a message says;
* `Slotted`, `Deferral.slotted`: the slot of a message says what the acknowledgements given for it
  say.
-/
import EventSourcing.Proofs.Run.Attempts

namespace EventSourcing
namespace Run

variable {F : PayloadFamily} {s : Subscription F} {r r' : Run F} {a : Action}
  {effects : List (Effect F)} {h : List (Entry F)} {n : Nat}

/-! ## 1. Acknowledgements that were given -/

/-- What an attempt was given when it asked for the acknowledgement of its message. -/
structure DeferredAck where
  /-- The number of the message. -/
  sequence : Nat
  taker : Attempt
  /-- Whether it came out of the slot of the message; otherwise it does nothing. -/
  isLive : Bool
  /-- How it was used, once it was. -/
  answer : Option Acknowledgement
  deriving DecidableEq

/-- The live acknowledgement of a message, if one was given. -/
def live? (acks : List DeferredAck) (n : Nat) : Option DeferredAck :=
  acks.find? fun k => k.isLive && k.sequence == n

/-- What the acknowledgement of a message says once its handlers are done with it.  One that nobody
asked for counts as let go. -/
def ruling (acks : List DeferredAck) (n : Nat) : Option Acknowledgement :=
  match live? acks n with
  | some k => k.answer
  | none => some .dropped

/-- At most one acknowledgement of each message is live, the one that was given first. -/
def FirstIsLive (acks : List DeferredAck) : Prop :=
  acks.Pairwise fun earlier later => later.isLive = true → earlier.sequence ≠ later.sequence

variable {acks acks' before after : List DeferredAck} {k : DeferredAck}

theorem live?_append_inert (inert : k.isLive = false) (n : Nat) :
    live? (acks ++ [k]) n = live? acks n := by
  simp [live?, List.find?_append, inert]

theorem live?_append_of_ne (other : k.sequence ≠ n) : live? (acks ++ [k]) n = live? acks n := by
  simp [live?, List.find?_append, other]

theorem live?_append_live (live : k.isLive = true) (fresh : ∀ j ∈ acks, j.sequence ≠ k.sequence)
    (n : Nat) : live? (acks ++ [k]) n = if k.sequence = n then some k else live? acks n := by
  unfold live?
  split
  · rename_i number
    subst number
    have hnone : acks.find? (fun j => j.isLive && j.sequence == k.sequence) = none := by
      rw [List.find?_eq_none]
      intro j hj
      simp [fresh j hj]
    simp [List.find?_append, hnone, live]
  · rename_i number
    exact live?_append_of_ne number

/-- Nothing before a live acknowledgement was given for its message. -/
theorem FirstIsLive.fresh (first : FirstIsLive (before ++ k :: after)) (live : k.isLive = true) :
    ∀ j ∈ before, j.sequence ≠ k.sequence := by
  intro j hj
  exact (List.pairwise_append.1 first).2.2 j hj k List.mem_cons_self live

theorem live?_split (first : FirstIsLive (before ++ k :: after))
    (live : k.isLive = true) (n : Nat) :
    live? (before ++ k :: after) n =
      if k.sequence = n then some k else live? (before ++ after) n := by
  unfold live?
  split
  · rename_i number
    subst number
    have hnone : before.find? (fun j => j.isLive && j.sequence == k.sequence) = none := by
      rw [List.find?_eq_none]
      intro j hj
      simp [first.fresh live j hj]
    simp [List.find?_append, hnone, live]
  · rename_i number
    simp [List.find?_append, number]

theorem live?_split_inert (inert : k.isLive = false) (n : Nat) :
    live? (before ++ k :: after) n = live? (before ++ after) n := by
  simp [live?, List.find?_append, inert]

/-- Using an acknowledgement changes neither which message it is for nor who was first. -/
theorem FirstIsLive.answered (first : FirstIsLive (before ++ k :: after))
    (answer : Acknowledgement) :
    FirstIsLive (before ++ { k with answer := some answer } :: after) := by
  simpa [FirstIsLive, List.pairwise_append] using first

/-- One more may be given, a live one if none was given for its message. -/
theorem FirstIsLive.given (first : FirstIsLive acks)
    (fresh : k.isLive = true → ∀ j ∈ acks, j.sequence ≠ k.sequence) :
    FirstIsLive (acks ++ [k]) := by
  refine List.pairwise_append.2 ⟨first, List.pairwise_singleton _ _, fun j hj k' hk' live => ?_⟩
  cases List.mem_singleton.1 hk'
  exact fresh live j hj

/-- What has been ruled stays so when an acknowledgement is used that was not used yet. -/
theorem ruling_answered (first : FirstIsLive (before ++ k :: after)) (unused : k.answer = none)
    {answer ruled : Acknowledgement} (hruled : ruling (before ++ k :: after) n = some ruled) :
    ruling (before ++ { k with answer := some answer } :: after) n = some ruled := by
  unfold ruling at hruled ⊢
  by_cases live : k.isLive = true
  · rw [live?_split first live] at hruled
    rw [live?_split (first.answered answer) live]
    by_cases number : k.sequence = n
    · rw [if_pos number] at hruled
      exact absurd (unused.symm.trans hruled) (by simp)
    · rwa [if_neg number] at hruled ⊢
  · have inert := Bool.eq_false_iff.2 live
    rw [live?_split_inert inert] at hruled
    rwa [live?_split_inert (k := { k with answer := some answer }) inert]

/-! ## 2. Histories with the acknowledgements given in them -/

/-- Whether the action takes an acknowledgement over or uses it. -/
def Action.isDeferral : Action → Bool
  | .takeAck _ _ | .settleAck _ _ => true
  | _ => false

/-- What a step does about the acknowledgements: an attempt that was made takes the live one over, a
live one that was not used is used, or the step is about something else. -/
inductive Books (h : List (Entry F)) : Action → List DeferredAck → List DeferredAck → Prop where
  | aside {a : Action} {acks : List DeferredAck} (other : a.isDeferral = false) :
    Books h a acks acks
  | given {acks : List DeferredAck} {n : Nat} {taker : Attempt} (called : Called h n taker) :
    Books h (.takeAck n taker) acks (acks ++ [⟨n, taker, true, none⟩])
  | used {before after : List DeferredAck} {k : DeferredAck} {answer : Acknowledgement}
    (live : k.isLive = true) (unused : k.answer = none) :
    Books h (.settleAck k.sequence answer) (before ++ k :: after)
      (before ++ { k with answer := some answer } :: after)

/-- What happens to acknowledgements without the run taking notice: one is given that does nothing,
or one is used that does nothing or whose message is gone. -/
inductive Unheard (s : Subscription F) (h : List (Entry F)) (r : Run F) :
    List DeferredAck → List DeferredAck → Prop where
  | given {acks : List DeferredAck} {n : Nat} {taker : Attempt} (called : Called h n taker)
    (refused : step s r (.takeAck n taker) = none) :
    Unheard s h r acks (acks ++ [⟨n, taker, false, none⟩])
  | used {before after : List DeferredAck} {k : DeferredAck}
    {answer : Acknowledgement} (unused : k.answer = none)
    (vain : k.isLive = false ∨ step s r (.settleAck k.sequence answer) = none) :
    Unheard s h r (before ++ k :: after) (before ++ { k with answer := some answer } :: after)

/-- A history, and the acknowledgements its attempts were given, in the order they were given.  Each
is used once at most, by whom and whenever it pleases. -/
inductive Deferral (s : Subscription F) : List (Entry F) → Run F → List DeferredAck → Prop where
  | begin : Deferral s [] {} []
  | step {h : List (Entry F)} {r r' : Run F} {a : Action} {effects : List (Effect F)}
    {acks acks' : List DeferredAck} (past : Deferral s h r acks)
    (made : step s r a = some (r', effects)) (books : Books h a acks acks') :
    Deferral s (h ++ [⟨r, a, r', effects⟩]) r' acks'
  | idle {h : List (Entry F)} {r : Run F} {acks acks' : List DeferredAck}
    (past : Deferral s h r acks) (unheard : Unheard s h r acks acks') : Deferral s h r acks'

theorem Deferral.history (deferral : Deferral s h r acks) : History s h r := by
  induction deferral with
  | begin => exact .begin
  | step _ made _ ih => exact ih.step made
  | idle _ _ ih => exact ih

/-- Whatever can be replayed goes on with the same acknowledgements, if no action is about them. -/
theorem Deferral.append_replay? {actions : List Action} (past : Deferral s h r acks)
    (other : ∀ a ∈ actions, a.isDeferral = false)
    (replayed : replay? s r actions = some (r', effects)) :
    ∃ h', Deferral s (h ++ h') r' acks ∧ h'.map (·.action) = actions ∧ trace h' = effects := by
  induction actions generalizing h r effects with
  | nil =>
    cases replayed
    exact ⟨[], by simpa using past, rfl, rfl⟩
  | cons a rest ih =>
    simp only [replay?] at replayed
    split at replayed
    · cases replayed
    · rename_i r₁ effects₁ made
      obtain ⟨⟨r₂, effects₂⟩, rest_replayed, heq⟩ := Option.map_eq_some_iff.1 replayed
      cases heq
      obtain ⟨h', deferral, hactions, htrace⟩ :=
        ih (past.step made (.aside (other a List.mem_cons_self)))
          (fun b hb => other b (List.mem_cons_of_mem a hb)) rest_replayed
      refine ⟨⟨r, a, r₁, effects₁⟩ :: h', by simpa using deferral, by simp [hactions], ?_⟩
      simpa [trace] using htrace

/-! ## 3. The slot of a message -/

/-- The slot is open as long as the message is with its handlers, and not before or after. -/
structure Fitting (t : Task F) : Prop where
  armed : t.ack = .armed → t.stage ≠ .queued ∧ ¬ Late t.stage
  closed : t.ack = .closed → t.stage = .queued ∨ Late t.stage

theorem close_ne_armed (slot : AckSlot) : slot.close ≠ .armed := by
  cases slot <;> simp [AckSlot.close]

theorem ne_armed_of_answer? {slot : AckSlot} {answer : Acknowledgement}
    (known : slot.answer? = some answer) : slot ≠ .armed := by
  rintro rfl
  cases known

theorem Onward.fitting {t u : Task F} {count : Nat} {status : HandlingStatus}
    (onward : Onward s t count status u effects) (opened : t.ack ≠ .closed) : Fitting u := by
  cases onward with
  | called => exact ⟨fun _ => ⟨by simp, id⟩, fun hclosed => absurd hclosed opened⟩
  | pending | handled =>
    exact ⟨fun harmed => absurd harmed (close_ne_armed _), fun _ => .inr trivial⟩

theorem Advance.fitting {t u : Task F} (advance : Advance s r t a u effects) (ht : Fitting t) :
    Fitting u := by
  have opened : t.stage ≠ .queued → ¬ Late t.stage → t.ack ≠ .closed := by
    intro hqueued early hclosed
    rcases ht.closed hclosed with queued | late
    · exact hqueued queued
    · exact early late
  -- A late task goes on with the slot it has, which is not open any more.
  have lateFits : ∀ {v : Task F}, Late v.stage → v.ack ≠ .armed → Fitting v :=
    fun late harmed => ⟨fun h => absurd h harmed, fun _ => .inr late⟩
  cases advance with
  | started stage _ _ onward => exact onward.fitting (by simp)
  | returned stage onward => exact onward.fitting (opened (by simp [stage]) (by simp [stage, Late]))
  | backedOff stage | retried stage =>
    exact ⟨fun _ => ⟨by simp, id⟩,
      fun h => absurd h (opened (by simp [stage]) (by simp [stage, Late]))⟩
  | recovering fails =>
    cases fails with
    | exhausted => exact lateFits trivial (close_ne_armed _)
    | refused _ known => exact lateFits trivial (ne_armed_of_answer? known)
  | ackTaken | ackSettled => exact ⟨by simp, by simp⟩
  | acknowledged _ known => exact lateFits trivial (ne_armed_of_answer? known)
  | recovered stage => exact lateFits trivial fun h => (ht.armed h).2 (by simp [stage, Late])

theorem fitting (hist : History s h r) : ∀ t ∈ r.tasks, Fitting t := by
  induction hist with
  | begin => simp
  | step past made ih =>
    intro u hu
    rcases (transition_of_step made).arises hu with hold | arises
    · exact ih u hold
    · cases arises with
      | advanced task advance => exact advance.fitting (ih _ (mem_of_task? task).1)
      | @asked t _ _ task stage =>
        refine ⟨fun harmed => ?_, fun _ => .inr trivial⟩
        exact absurd (by simp [stage, Late]) ((ih t (mem_of_task? task).1).armed harmed).2
      | delivered => exact ⟨by simp, fun _ => .inl rfl⟩

/-- What the slot of the message with number `n` says about the acknowledgements that were given. -/
def SlotHolds (acks : List DeferredAck) (n : Nat) : AckSlot → Prop
  | .armed => ∀ k ∈ acks, k.sequence ≠ n
  | .taken taker => live? acks n = some ⟨n, taker, true, none⟩
  | .settled taker answer => live? acks n = some ⟨n, taker, true, some answer⟩
  | .closed => live? acks n = none

/-- The acknowledgements were given to attempts that were made, the first one of each message is
live, and it is what the slot of the message says. -/
structure Slotted (h : List (Entry F)) (r : Run F) (acks : List DeferredAck) : Prop where
  called : ∀ k ∈ acks, Called h k.sequence k.taker
  first : FirstIsLive acks
  slots : ∀ t ∈ r.tasks, SlotHolds acks t.sequence t.ack

theorem SlotHolds.congr {slot : AckSlot} (holds : SlotHolds acks n slot)
    (live : live? acks' n = live? acks n)
    (given : slot = .armed → ∀ k ∈ acks', k.sequence = n → ∃ j ∈ acks, j.sequence = n) :
    SlotHolds acks' n slot := by
  cases slot with
  | armed =>
    intro k hk number
    obtain ⟨j, hj, hjn⟩ := given rfl k hk number
    exact holds j hj hjn
  | taken | settled | closed => exact live.trans holds

theorem live?_eq_none (fresh : ∀ k ∈ acks, k.sequence ≠ n) : live? acks n = none := by
  rw [live?, List.find?_eq_none]
  intro k hk
  simp [fresh k hk]

theorem SlotHolds.close {slot : AckSlot} (holds : SlotHolds acks n slot) :
    SlotHolds acks n slot.close := by
  cases slot with
  | armed => exact live?_eq_none holds
  | taken | settled | closed => exact holds

/-- A slot that is not open tells what the live acknowledgement says. -/
theorem SlotHolds.answer?_eq {slot : AckSlot} (holds : SlotHolds acks n slot)
    (closed : slot ≠ .armed) : slot.answer? = ruling acks n := by
  cases slot with
  | armed => exact absurd rfl closed
  | taken | settled | closed =>
    rw [ruling, show live? acks n = _ from holds]
    rfl

theorem Onward.ack_eq {t u : Task F} {count : Nat} {status : HandlingStatus}
    (onward : Onward s t count status u effects) : u.ack = t.ack ∨ u.ack = t.ack.close := by
  cases onward with
  | called => exact .inl rfl
  | pending | handled => exact .inr rfl

/-- A step that is about no acknowledgement opens the slot, closes it, or leaves it alone. -/
theorem Advance.slotHolds {t u : Task F} (advance : Advance s r t a u effects)
    (other : a.isDeferral = false) (holds : SlotHolds acks t.sequence t.ack)
    (untouched : t.stage = .queued → ∀ k ∈ acks, k.sequence ≠ t.sequence) :
    SlotHolds acks t.sequence u.ack := by
  have of_ack : ∀ slot, SlotHolds acks t.sequence slot → u.ack = slot ∨ u.ack = slot.close →
      SlotHolds acks t.sequence u.ack := by
    rintro slot hslot (heq | heq) <;> rw [heq]
    · exact hslot
    · exact hslot.close
  cases advance with
  | started stage _ _ onward => exact of_ack .armed (untouched stage) onward.ack_eq
  | returned _ onward => exact of_ack _ holds onward.ack_eq
  | recovering fails =>
    cases fails with
    | exhausted => exact holds.close
    | refused => exact holds
  | ackTaken | ackSettled => cases other
  | backedOff | retried | acknowledged | recovered => exact holds

namespace Slotted

theorem known (hs : Slotted h r acks) (ht : Tried h r) (hk : k ∈ acks) :
    k.sequence < (dispatched h).length :=
  ht.calledKnown _ _ (hs.called k hk)

/-- Nothing was given for a message that nothing has looked at. -/
theorem untouched (hs : Slotted h r acks) (htried : Tried h r) {t : Task F} (ht : t ∈ r.tasks)
    (stage : t.stage = .queued) : ∀ k ∈ acks, k.sequence ≠ t.sequence := by
  intro k hk number
  have made := htried.called t ht (by simp [stage, Late]) k.taker (number ▸ hs.called k hk)
  simp [Task.hasMade, stage] at made

theorem step_aside (hs : Slotted h r acks) (hist : History s h r)
    (made : Transition s r a r' effects) (other : a.isDeferral = false) :
    Slotted (h ++ [⟨r, a, r', effects⟩]) r' acks := by
  refine ⟨fun k hk => (hs.called k hk).mono _, hs.first, fun u hu => ?_⟩
  rcases made.arises hu with hold | arises
  · exact hs.slots u hold
  · cases arises with
    | @advanced t _ _ _ task advance =>
      have ht := (mem_of_task? task).1
      rw [show u.sequence = t.sequence from congrArg (·.sequence) advance.position_eq]
      exact advance.slotHolds other (hs.slots t ht) (hs.untouched (tried hist) ht)
    | @asked t _ _ task => exact hs.slots t (mem_of_task? task).1
    | delivered here number =>
      refine live?_eq_none fun k hk heq => ?_
      exact (Nat.ne_of_lt (hs.known (tried hist) hk))
        (heq.trans (number.trans ((numbered hist).cursor _ here)))

end Slotted

theorem step_takeAck (taker : Attempt) : step s r (.takeAck n taker) = (r.task? n).bind fun t =>
    if t.ack = .armed && t.hasMade taker then some (r.put { t with ack := .taken taker }, [])
    else none := rfl

theorem step_settleAck (answer : Acknowledgement) :
    step s r (.settleAck n answer) = (r.task? n).bind fun t =>
    match t.ack with
    | .taken attempt => some (r.put { t with ack := .settled attempt answer }, [])
    | _ => none := rfl

namespace Slotted

theorem given (hs : Slotted h r acks) (called : Called h k.sequence k.taker) :
    ∀ j ∈ acks ++ [k], Called h j.sequence j.taker := by
  intro j hj
  rcases List.mem_append.1 hj with hj | hj
  · exact hs.called j hj
  · cases List.mem_singleton.1 hj
    exact called

theorem step_given (hs : Slotted h r acks) {taker : Attempt} (called : Called h n taker)
    (made : step s r (.takeAck n taker) = some (r', effects)) :
    Slotted (h ++ [⟨r, .takeAck n taker, r', effects⟩]) r' (acks ++ [⟨n, taker, true, none⟩]) := by
  rw [step_takeAck] at made
  obtain ⟨t, task, taken⟩ := Option.bind_eq_some_iff.1 made
  obtain ⟨ht, rfl⟩ := mem_of_task? task
  split at taken
  · rename_i ready
    simp only [Bool.and_eq_true, decide_eq_true_eq] at ready
    cases taken
    have fresh : ∀ k ∈ acks, k.sequence ≠ t.sequence := by
      have := hs.slots t ht
      rwa [ready.1] at this
    have live := live?_append_live (k := ⟨t.sequence, taker, true, none⟩) rfl fresh
    refine ⟨fun k hk => (hs.given called k hk).mono _, hs.first.given fun _ => fresh,
      fun v hv => ?_⟩
    rcases (mem_put_iff (u := { t with ack := .taken taker }) task rfl v).1 hv with rfl | ⟨hv, hne⟩
    · exact (live _).trans (if_pos rfl)
    · refine (hs.slots v hv).congr ((live _).trans (if_neg (Ne.symm hne))) fun _ k hk number => ?_
      rcases List.mem_append.1 hk with hk | hk
      · exact ⟨k, hk, number⟩
      · cases List.mem_singleton.1 hk
        exact absurd number.symm hne
  · cases taken

theorem idle_given (hs : Slotted h r acks) (hist : History s h r) {taker : Attempt}
    (called : Called h n taker) (refused : step s r (.takeAck n taker) = none) :
    Slotted h r (acks ++ [⟨n, taker, false, none⟩]) := by
  have live (m : Nat) : live? (acks ++ [⟨n, taker, false, none⟩]) m = live? acks m :=
    live?_append_inert rfl m
  refine ⟨hs.given called, hs.first.given (by simp), fun t ht => ?_⟩
  refine (hs.slots t ht).congr (live _) fun harmed k hk number => ?_
  rcases List.mem_append.1 hk with hk | hk
  · exact ⟨k, hk, number⟩
  · -- An open slot would have been given away.
    cases List.mem_singleton.1 hk
    dsimp only at number
    subst number
    have early := ((fitting hist t ht).armed harmed).2
    have hmade := (tried hist).called t ht early taker called
    simp [step_takeAck, (numbered hist).task?_eq ht, harmed, hmade] at refused

/-- The slot of a message whose live acknowledgement was not used yet. -/
theorem ack_of_unused (hs : Slotted h r (before ++ k :: after)) (live : k.isLive = true)
    (unused : k.answer = none) {t : Task F} (ht : t ∈ r.tasks) (number : t.sequence = k.sequence) :
    t.ack = .taken k.taker := by
  have hslot := hs.slots t ht
  have hlive := (live?_split hs.first live k.sequence).trans (if_pos rfl)
  rw [number] at hslot
  cases hack : t.ack <;> rw [hack] at hslot
  case armed => exact absurd rfl (hslot k (by simp))
  case closed => exact absurd (hlive.symm.trans hslot) (by simp)
  case taken taker => rw [Option.some.inj (hlive.symm.trans hslot)]
  case settled taker answer =>
    rw [Option.some.inj (hlive.symm.trans hslot)] at unused
    cases unused

theorem answered (hs : Slotted h r (before ++ k :: after)) (answer : Acknowledgement) :
    ∀ j ∈ before ++ { k with answer := some answer } :: after, Called h j.sequence j.taker := by
  intro j hj
  rcases List.mem_append.1 hj with hj | hj
  · exact hs.called j (List.mem_append_left _ hj)
  · rcases List.mem_cons.1 hj with rfl | hj
    · exact hs.called k (by simp)
    · exact hs.called j (by simp [hj])

/-- The slots of all other messages stay as they are when an acknowledgement is used. -/
theorem others (hs : Slotted h r (before ++ k :: after)) (answer : Acknowledgement)
    {t : Task F} (ht : t ∈ r.tasks) (other : k.isLive = true → k.sequence ≠ t.sequence) :
    SlotHolds (before ++ { k with answer := some answer } :: after) t.sequence t.ack := by
  refine (hs.slots t ht).congr ?_ fun _ j hj number => ?_
  · by_cases live : k.isLive = true
    · rw [live?_split hs.first live, live?_split (hs.first.answered answer) live,
        if_neg (other live), if_neg (other live)]
    · have inert := Bool.eq_false_iff.2 live
      rw [live?_split_inert inert, live?_split_inert (k := { k with answer := some answer }) inert]
  · rcases List.mem_append.1 hj with hj | hj
    · exact ⟨j, List.mem_append_left _ hj, number⟩
    · rcases List.mem_cons.1 hj with rfl | hj
      · exact ⟨k, by simp, number⟩
      · exact ⟨j, by simp [hj], number⟩

theorem step_used (hs : Slotted h r (before ++ k :: after)) (live : k.isLive = true)
    (unused : k.answer = none) {answer : Acknowledgement}
    (made : step s r (.settleAck k.sequence answer) = some (r', effects)) :
    Slotted (h ++ [⟨r, .settleAck k.sequence answer, r', effects⟩]) r'
      (before ++ { k with answer := some answer } :: after) := by
  rw [step_settleAck] at made
  obtain ⟨t, task, settled⟩ := Option.bind_eq_some_iff.1 made
  obtain ⟨ht, number⟩ := mem_of_task? task
  have hack := hs.ack_of_unused live unused ht number
  simp only [hack, Option.some.injEq, Prod.mk.injEq] at settled
  obtain ⟨rfl, rfl⟩ := settled
  refine ⟨fun j hj => (hs.answered answer j hj).mono _, hs.first.answered answer, fun v hv => ?_⟩
  rw [← number] at task
  rcases (mem_put_iff (u := { t with ack := .settled k.taker answer }) task rfl v).1 hv
    with rfl | ⟨hv, hne⟩
  · show live? _ t.sequence = some ⟨t.sequence, k.taker, true, some answer⟩
    rw [live?_split (hs.first.answered answer) live, number, if_pos rfl, live]
  · exact hs.others answer hv fun _ heq => hne (heq.symm.trans number.symm)

theorem idle_used (hs : Slotted h r (before ++ k :: after))
    (hist : History s h r) (unused : k.answer = none) {answer : Acknowledgement}
    (vain : k.isLive = false ∨ step s r (.settleAck k.sequence answer) = none) :
    Slotted h r (before ++ { k with answer := some answer } :: after) := by
  refine ⟨hs.answered answer, hs.first.answered answer,
    fun t ht => hs.others answer ht fun live number => ?_⟩
  rcases vain with inert | gone
  · simp [live] at inert
  · -- A live acknowledgement that was not used is heard as long as its message is there.
    have hack := hs.ack_of_unused live unused ht number.symm
    simp [step_settleAck, number, (numbered hist).task?_eq ht, hack] at gone

end Slotted

theorem Deferral.slotted (deferral : Deferral s h r acks) : Slotted h r acks := by
  induction deferral with
  | begin => exact ⟨by simp, List.Pairwise.nil, by simp⟩
  | step past made books ih =>
    cases books with
    | aside other => exact ih.step_aside past.history (transition_of_step made) other
    | given called => exact ih.step_given called made
    | used live unused => exact ih.step_used live unused made
  | idle past unheard ih =>
    cases unheard with
    | given called refused => exact ih.idle_given past.history called refused
    | used unused vain => exact ih.idle_used past.history unused vain

end Run
end EventSourcing

/-
# What a run draws from its source

The poller asks for the events behind the last one it handed out, and gets the first few of them.
So the messages are the events behind the checkpoint, one after the other from the first on, and the
page in hand is what comes next.  An event that cannot be decoded is where this ends.

What the file settles:

* `behind`: the events of a source after a position;
* `Drawn`, `drawn`: the messages are the first events behind the checkpoint, the poller stands at
  the next one;
* `step_of_refused`, `Transition.delivers`: all a poller can do that has an event before it which
  cannot be decoded;
* `Failed`, `failed`: a run that failed to decode an event hands out neither it nor any later one.
-/
import EventSourcing.Proofs.Run.Sourcing

namespace EventSourcing
namespace Run

variable {F : PayloadFamily} {s : Subscription F} {r r' : Run F} {a : Action}
  {effects : List (Effect F)} {h : List (Entry F)} {events : List StoredEvent}
  {position : StoredEvent → Nat}

/-! ## 1. Events behind a position -/

/-- The events strictly after a position, all of them if there is none. -/
def behind (position : StoredEvent → Nat) (after : Option Nat) (events : List StoredEvent) :
    List StoredEvent :=
  events.filter fun e => after.all (· < position e)

theorem behind_eq (after : Option Nat) :
    behind position after events = events.filter (nextOf after ≤ position ·) := by
  cases after <;> rfl

/-- What is behind a position stays there, in front of what comes. -/
theorem behind_mono {events' : List StoredEvent} (grown : events <+: events') (after : Option Nat) :
    behind position after events <+: behind position after events' :=
  grown.filter _

/-- Behind the first event that is behind a position come the others that are. -/
theorem behind_next (sorted : events.Pairwise (position · < position ·)) {after : Option Nat}
    {e : StoredEvent} {rest : List StoredEvent} (heq : behind position after events = e :: rest) :
    behind position (some (position e)) events = rest := by
  have hafter : after.all (· < position e) = true :=
    (List.mem_filter.1 (heq ▸ List.mem_cons_self : e ∈ behind position after events)).2
  have hsplit : behind position (some (position e)) events =
      behind position (some (position e)) (behind position after events) := by
    unfold behind
    rw [List.filter_filter]
    refine List.filter_congr fun x _ => ?_
    cases after with
    | none => simp
    | some q =>
      have hq : q < position e := by simpa using hafter
      simp only [Option.all_some, ← Bool.decide_and]
      exact decide_eq_decide.2 ⟨fun hlt => ⟨hlt, Nat.lt_trans hq hlt⟩, And.left⟩
  have hrest := sorted.sublist (List.filter_sublist (p := fun e => after.all (· < position e)))
  rw [show events.filter _ = e :: rest from heq, List.pairwise_cons] at hrest
  rw [hsplit, heq, behind, List.filter_cons_of_neg (by simp)]
  exact List.filter_eq_self.2 fun x hx => by simpa using hrest.1 x hx

/-! ## 2. Messages and pages -/

/-- Every page the run was given was the beginning of what there is behind the poller. -/
def ReadsOf (events : List StoredEvent) (s : Subscription F) (h : List (Entry F)) : Prop :=
  ∀ e ∈ h, ∀ cursor page, e.before.phase = .reading cursor → e.action = .pageRead (.ok page) →
    page <+: behind s.position cursor.after events

theorem ReadsOf.mono {events' : List StoredEvent} (reads : ReadsOf events s h)
    (grown : events <+: events') : ReadsOf events' s h :=
  fun e he cursor page phase action =>
    (reads e he cursor page phase action).trans (behind_mono grown cursor.after)

/-- The messages are the first events behind the checkpoint, the poller stands behind them, and its
page is what comes next. -/
structure Drawn (s : Subscription F) (events : List StoredEvent) (h : List (Entry F))
    (r : Run F) : Prop where
  early : r.phase.IsEarly → origin h = none
  messages : ∀ i m, (dispatched h)[i]? = some m →
    ∃ e, (behind s.position (origin h) events)[i]? = some e ∧ s.decode e i = .ok m
  cursor : ∀ cursor, r.phase.cursor? = some cursor → behind s.position cursor.after events =
    (behind s.position (origin h) events).drop (dispatched h).length
  page : ∀ cursor page, r.phase = .delivering cursor page →
    page <+: behind s.position cursor.after events

namespace Drawn

/-- What comes next is the first event of the page in hand. -/
theorem next (hd : Drawn s events h r) {cursor : Cursor} {e : StoredEvent} {rest : List StoredEvent}
    (phase : r.phase = .delivering cursor (e :: rest)) :
    (behind s.position (origin h) events)[(dispatched h).length]? = some e := by
  obtain ⟨more, hmore⟩ := hd.page cursor _ phase
  rw [hd.cursor cursor (congrArg Phase.cursor? phase)] at hmore
  rw [← List.head?_drop, ← hmore]
  rfl

/-- A step that hands nothing out, and gets no checkpoint. -/
theorem step_quiet (hd : Drawn s events h r) (quiet : effects.filterMap Effect.dispatched? = [])
    (unloaded : a.loaded? = none) (early : r'.phase.IsEarly → r.phase.IsEarly)
    (cursor : ∀ cursor', r'.phase.cursor? = some cursor' →
      ∃ cursor, r.phase.cursor? = some cursor ∧ cursor'.after = cursor.after)
    (page : ∀ cursor page, r'.phase = .delivering cursor page → page <+:
      behind s.position cursor.after events) : Drawn s events (h ++ [⟨r, a, r', effects⟩]) r' := by
  have hdispatched := dispatched_snoc h ⟨r, a, r', effects⟩
  have horigin := Followed.origin_snoc h ⟨r, a, r', effects⟩
  rw [quiet, List.append_nil] at hdispatched
  rw [unloaded, Option.or_none] at horigin
  constructor
  case early => exact fun early' => horigin.trans (hd.early (early early'))
  case messages =>
    rw [horigin, hdispatched]
    exact hd.messages
  case cursor =>
    intro cursor' here
    obtain ⟨cursor₀, here₀, hafter⟩ := cursor cursor' here
    rw [horigin, hdispatched, hafter]
    exact hd.cursor cursor₀ here₀
  case page => exact page

/-- The first event of the page becomes the next message. -/
theorem step_handed (hd : Drawn s events h r) (hn : Numbered h r)
    (sorted : events.Pairwise (s.position · < s.position ·)) {cursor : Cursor} {e : StoredEvent}
    {rest : List StoredEvent} {m : Message F} (phase : r.phase = .delivering cursor (e :: rest))
    (decoded : s.decode e cursor.sequence = .ok m)
    (hands : effects.filterMap Effect.dispatched? = [m])
    (next : ∀ cursor', r'.phase.cursor? = some cursor' → cursor' = cursorAfter s cursor e)
    (left : ∀ cursor' page, r'.phase = .delivering cursor' page → page = rest)
    (late : ¬r'.phase.IsEarly) : Drawn s events (h ++ [⟨r, .deliver, r', effects⟩]) r' := by
  have hdispatched := dispatched_snoc h ⟨r, .deliver, r', effects⟩
  rw [hands] at hdispatched
  have horigin : origin (h ++ [⟨r, .deliver, r', effects⟩]) = origin h :=
    (Followed.origin_snoc h ⟨r, .deliver, r', effects⟩).trans Option.or_none
  have here := congrArg Phase.cursor? phase
  have hlength := hn.cursor cursor here
  obtain ⟨more, hmore⟩ := hd.page cursor _ phase
  have hbehind := behind_next sorted (hmore.symm.trans (List.cons_append ..))
  constructor
  case early => exact fun early => absurd early late
  case messages =>
    intro i m' hm'
    rw [hdispatched] at hm'
    rw [horigin]
    rcases Nat.lt_or_ge i (dispatched h).length with hlt | hge
    · exact hd.messages i m' (List.getElem?_append_left hlt ▸ hm')
    · rw [List.getElem?_append_right hge, List.getElem?_singleton] at hm'
      split at hm'
      · cases hm'
        have hi : i = (dispatched h).length := by omega
        subst hi
        exact ⟨e, hd.next phase, hlength ▸ decoded⟩
      · cases hm'
  case cursor =>
    intro cursor' here'
    rw [next cursor' here', horigin, hdispatched, List.length_append, ← List.drop_drop,
      ← hd.cursor cursor here, ← hmore]
    exact hbehind
  case page =>
    intro cursor' page' here'
    rw [next cursor' (congrArg Phase.cursor? here'), left cursor' page' here']
    exact ⟨more, hbehind.symm⟩

theorem step (hd : Drawn s events h r) (hn : Numbered h r)
    (sorted : events.Pairwise (s.position · < s.position ·)) (made : Transition s r a r' effects)
    (reads : ReadsOf events s (h ++ [⟨r, a, r', effects⟩])) :
    Drawn s events (h ++ [⟨r, a, r', effects⟩]) r' := by
  cases made.draws with
  | @begun c early late quiet cursor page =>
    have hdispatched := dispatched_snoc h ⟨r, .checkpointLoaded (.ok c), r', effects⟩
    have horigin := Followed.origin_snoc h ⟨r, .checkpointLoaded (.ok c), r', effects⟩
    rw [quiet, hn.early early] at hdispatched
    rw [hd.early early, Option.none_or] at horigin
    constructor
    case early => exact fun early' => absurd early' late
    case messages =>
      rw [hdispatched]
      simp
    case cursor =>
      intro cursor' here
      rw [cursor cursor' here, horigin, hdispatched]
      rfl
    case page => exact fun cursor' page' here => (page cursor' page' here).elim
  | @arrived cursor page phase quiet phase' =>
    refine hd.step_quiet quiet rfl (fun early => ?_) (fun cursor' here => ?_)
      (fun cursor' page' here => ?_)
    · rw [phase'] at early
      exact early.elim
    · rw [phase'] at here
      cases here
      exact ⟨cursor, congrArg Phase.cursor? phase, rfl⟩
    · cases phase'.symm.trans here
      exact reads _ (List.mem_append_right h (List.mem_singleton_self _)) cursor page phase rfl
  | handed phase decoded hands next left late =>
    exact hd.step_handed hn sorted phase decoded hands next left late
  | nothing quiet unloaded cursor page early =>
    refine hd.step_quiet quiet unloaded early (fun cursor' here => ?_) fun cursor' page' here =>
      hd.page cursor' page' (page cursor' page' here)
    obtain ⟨cursor₀, here₀, hafter, -⟩ := cursor cursor' here
    exact ⟨cursor₀, here₀, hafter⟩

end Drawn

theorem drawn (sorted : events.Pairwise (s.position · < s.position ·)) (hist : History s h r)
    (reads : ReadsOf events s h) : Drawn s events h r := by
  induction hist with
  | begin => exact ⟨fun _ => rfl, by simp [dispatched, trace], by simp [Phase.cursor?], by simp⟩
  | step past made ih =>
    have before : ReadsOf events s _ := fun e he => reads e (List.mem_append_left _ he)
    exact (ih before).step (numbered past) sorted (transition_of_step made) reads

/-! ## 3. Events that cannot be decoded -/

theorem decode_of_refused {e : StoredEvent} {error : SerializationError}
    (refused : s.registry.deserialize e.serialized = .error error) (n : Nat) :
    s.decode e n = .error (.undecodable e.id (s.position e) error) := by
  unfold Subscription.decode
  rw [refused]

/-- A poller with such an event before it fails on it. -/
theorem step_of_refused {cursor : Cursor} {e : StoredEvent} {rest : List StoredEvent}
    {reason : SerializationError} (phase : r.phase = .delivering cursor (e :: rest))
    (refused : s.registry.deserialize e.serialized = .error reason) :
    Run.step s r .deliver =
      some ({ r.drop (.undecodable e.id (s.position e) reason) with phase := .draining },
        [.dropped (.undecodable e.id (s.position e) reason)]) := by
  show pollerStep s r .deliver = _
  rw [pollerStep, phase]
  show deliver s r cursor e rest = _
  rw [deliver, decode_of_refused refused]
  rfl

/-- As long as there is something to be handed out, the poller does nothing else. -/
theorem Transition.delivers (made : Transition s r a r' effects) {cursor : Cursor}
    {page : List StoredEvent} (phase : r.phase = .delivering cursor page) :
    a = .deliver ∨ r'.phase = r.phase := by
  rcases made.polls_or_aside with polls | aside
  · cases polls with
    | delivered | undelivered => exact .inl rfl
    | stopped reason =>
      cases reason with
      | undecodable => exact .inl rfl
      | unreadable phase' => cases phase.symm.trans phase'
    | aborted reason =>
      cases reason with
      | delivering => exact .inl rfl
      | infeasible phase' | loading phase' | reading phase' | flushing phase' =>
        cases phase.symm.trans phase'
    | interrupted phase' => rcases phase' with phase' | phase' <;> cases phase.symm.trans phase'
    | subscribed phase' | loaded phase' | unloaded phase' | nothingNew phase' | pageArrived phase'
    | readAgain phase'
    | woken phase' | halted phase' | flushing phase' | unflushed phase' | flushed phase'
    | flushFailed phase' =>
      cases phase.symm.trans phase'
  · exact .inr aside.phase

/-- The error is that an event could not be decoded. -/
def Blames (s : Subscription F) (e : StoredEvent) (error : SubscriptionError) : Prop :=
  ∃ reason, s.registry.deserialize e.serialized = .error reason ∧
    error = .undecodable e.id (s.position e) reason

theorem blames_of_decode {e : StoredEvent} {n : Nat} {error : SubscriptionError}
    (refused : s.decode e n = .error error) : Blames s e error := by
  unfold Subscription.decode at refused
  split at refused
  · rename_i reason unknown
    cases refused
    exact ⟨reason, unknown, rfl⟩
  · cases refused

/-- A step with such an error is one of the poller, in front of the event. -/
theorem Transition.undecodable (made : Transition s r a r' effects) {id : Uuid} {p : Nat}
    {reason : SerializationError} (seen : Effect.dropped (.undecodable id p reason) ∈ effects) :
    ∃ cursor e rest,
      r.phase = .delivering cursor (e :: rest) ∧ Blames s e (.undecodable id p reason) ∧
        r'.phase = .draining ∧ a.loaded? = none ∧ effects.filterMap Effect.dispatched? = [] := by
  cases made with
  | advanced task advance =>
    cases advance with
    | started _ _ _ onward | returned _ onward => cases onward <;> simp at seen
    | _ => simp at seen
  | ended task reason => cases reason <;> simp [handlerError] at seen
  | @broken t _ task reason =>
    obtain ⟨gone, lanes, -, -, -, hlost⟩ := loseWorker_spec r t
    obtain ⟨k, heq⟩ := hlost _ seen
    cases heq
  | letGo | confirmed | asked | stored | cancelled => simp at seen
  | polled polls =>
    cases polls with
    | delivered phase decoded place continues => cases continues <;> simp at seen
    | stopped reason =>
      cases reason with
      | unreadable => simp at seen
      | undecodable phase refused =>
        cases List.mem_singleton.1 seen
        exact ⟨_, _, _, phase, blames_of_decode refused, rfl, rfl, rfl⟩
    | _ => simp at seen

/-- Polling has begun and is over. -/
structure Phase.IsDone (phase : Phase) : Prop where
  late : ¬ phase.IsEarly
  still : phase.cursor? = none

/-- Nothing is handed out any more once polling is over. -/
theorem Transition.stays_done (made : Transition s r a r' effects) (done : r.phase.IsDone) :
    r'.phase.IsDone ∧ a.loaded? = none ∧ effects.filterMap Effect.dispatched? = [] := by
  cases made.draws with
  | begun early => exact absurd early done.late
  | arrived phase | handed phase =>
    have still := done.still
    rw [phase] at still
    cases still
  | nothing quiet unloaded cursor page early =>
    refine ⟨⟨fun early' => done.late (early early'), ?_⟩, unloaded, quiet⟩
    cases here : r'.phase.cursor? with
    | none => rfl
    | some cursor' =>
      obtain ⟨cursor₀, here₀, -⟩ := cursor cursor' here
      rw [done.still] at here₀
      cases here₀

/-- Where polling failed on an event, this is the next one behind the messages, and it stays so. -/
def Failed (s : Subscription F) (events : List StoredEvent) (h : List (Entry F))
    (r : Run F) : Prop :=
  ∀ id p reason, Effect.dropped (.undecodable id p reason) ∈ trace h → r.phase.IsDone ∧
    ∃ e, (behind s.position (origin h) events)[(dispatched h).length]? = some e ∧
      Blames s e (.undecodable id p reason)

theorem Failed.step (failed : Failed s events h r) (hd : Drawn s events h r)
    (made : Transition s r a r' effects) : Failed s events (h ++ [⟨r, a, r', effects⟩]) r' := by
  intro id p reason seen
  have hdispatched := dispatched_snoc h ⟨r, a, r', effects⟩
  have horigin := Followed.origin_snoc h ⟨r, a, r', effects⟩
  rw [trace_append, List.mem_append] at seen
  rcases seen with old | new
  · obtain ⟨done, e, hnext, blames⟩ := failed id p reason old
    obtain ⟨done', unloaded, quiet⟩ := made.stays_done done
    rw [quiet, List.append_nil] at hdispatched
    rw [unloaded, Option.or_none] at horigin
    rw [horigin, hdispatched]
    exact ⟨done', e, hnext, blames⟩
  · obtain ⟨cursor, e, rest, phase, blames, phase', unloaded, quiet⟩ :=
      made.undecodable (by simpa [trace] using new)
    rw [quiet, List.append_nil] at hdispatched
    rw [unloaded, Option.or_none] at horigin
    rw [horigin, hdispatched]
    exact ⟨⟨by simp [phase', Phase.IsEarly], by rw [phase']; rfl⟩, e, hd.next phase, blames⟩

theorem failed (sorted : events.Pairwise (s.position · < s.position ·)) (hist : History s h r)
    (reads : ReadsOf events s h) : Failed s events h r := by
  induction hist with
  | begin => exact fun id p reason seen => absurd seen List.not_mem_nil
  | step past made ih =>
    have before : ReadsOf events s _ := fun e he => reads e (List.mem_append_left _ he)
    exact (ih before).step (drawn sorted past before) (transition_of_step made)

end Run
end EventSourcing

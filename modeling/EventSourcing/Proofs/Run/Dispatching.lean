/-
# Handing messages out

Messages are numbered from zero in the order they are handed out, and the poller hands them out in
the order the pages of the source have them.  Both are invariants of the poller: a step of a task
leaves the poller alone (`Transition.polls_or_aside`), so they are carried over the steps of the
poller only.

What the file settles:

* `Draws`, `Transition.draws`: what a step does about the source;
* `Numbered`: the number of a message is the number of messages handed out before it, and the tasks
  are messages handed out, in the same order;
* `Chained`, `Reads`, `Followed`: a relation that holds along every page holds along everything
  handed out.
-/
import EventSourcing.Proofs.Run.History
import Mathlib.Data.List.Nodup

namespace EventSourcing
namespace Run

variable {F : PayloadFamily} {s : Subscription F} {r r' : Run F} {a : Action}
  {effects : List (Effect F)}

/-! ## 1. Steps that leave the poller alone -/

/-- The step is about a message, or the run is asked to stop; the poller stays where it is. -/
structure Aside (r : Run F) (a : Action) (r' : Run F) (effects : List (Effect F)) : Prop where
  about : a = .cancel ∨ ∃ n, a.sequence? = some n
  phase : r'.phase = r.phase
  drained : r'.drained = r.drained
  quiet : effects.filterMap Effect.dispatched? = []

theorem Fails.about {t u : Task F} {name : String} {error : HandlerError}
    (h : Fails s t a name error u) : a.sequence? = some t.sequence := by
  cases h <;> rfl

theorem Fails.position_eq {t u : Task F} {name : String} {error : HandlerError}
    (h : Fails s t a name error u) : u.message.position = t.message.position := by
  cases h <;> rfl

theorem Onward.position_eq {t u : Task F} {handler : Nat} {status : HandlingStatus}
    (h : Onward s t handler status u effects) : u.message.position = t.message.position := by
  cases h <;> rfl

theorem Onward.quiet {t u : Task F} {handler : Nat} {status : HandlingStatus}
    (h : Onward s t handler status u effects) : effects.filterMap Effect.dispatched? = [] := by
  cases h <;> rfl

theorem Advance.about {t u : Task F} (h : Advance s r t a u effects) :
    a.sequence? = some t.sequence := by
  cases h with
  | recovering fails _ _ => exact fails.about
  | _ => rfl

theorem Advance.position_eq {t u : Task F} (h : Advance s r t a u effects) :
    u.message.position = t.message.position := by
  cases h with
  | started _ _ _ onward => exact onward.position_eq
  | returned _ onward => exact onward.position_eq
  | recovering fails _ _ => exact fails.position_eq
  | _ => rfl

theorem Advance.quiet {t u : Task F} (h : Advance s r t a u effects) :
    effects.filterMap Effect.dispatched? = [] := by
  cases h with
  | started _ _ _ onward => exact onward.quiet
  | returned _ onward => exact onward.quiet
  | _ => rfl

theorem LetsGo.about {t : Task F} (h : LetsGo s t a) : a.sequence? = some t.sequence := by
  cases h with
  | failed fails => exact fails.about
  | _ => rfl

theorem Ends.about {t : Task F} {e : SubscriptionError} (h : Ends s r t a e) :
    a.sequence? = some t.sequence := by
  cases h with
  | failed fails _ _ => exact fails.about
  | _ => rfl

theorem Breaks.about {t : Task F} (h : Breaks s t a) : a.sequence? = some t.sequence := by
  cases h <;> rfl

/-- What is left when a worker is lost: its task is gone, and so is the queue of its lane. -/
theorem loseWorker_spec (r : Run F) (t : Task F) :
    ∃ gone : Task F → Bool, ∃ lanes, (loseWorker r t).1 =
        { r with tasks := r.tasks.filter fun u => !gone u, stoppedLanes := lanes } ∧
      (∀ u, gone u = true ↔ u.sequence = t.sequence ∨
        ∃ lane, t.holder = .worker ∧ t.lane = some lane ∧ u.isQueuedIn lane = true) ∧
      (loseWorker r t).2.filterMap Effect.dispatched? = [] ∧
      ∀ e ∈ (loseWorker r t).2, ∃ n, e = .lost n := by
  unfold loseWorker
  split
  · rename_i lane holder hlane
    refine ⟨fun u => u.sequence = t.sequence || u.isQueuedIn lane, lane :: r.stoppedLanes,
      rfl, ?_, ?_, ?_⟩
    · intro u
      simp [holder, hlane]
    · rw [List.filterMap_eq_nil_iff]
      intro e he
      obtain ⟨u, -, rfl⟩ := List.mem_map.1 he
      rfl
    · intro e he
      obtain ⟨u, -, rfl⟩ := List.mem_map.1 he
      exact ⟨_, rfl⟩
  · rename_i hnone
    refine ⟨fun u => u.sequence = t.sequence, r.stoppedLanes, ?_, ?_, rfl, ?_⟩
    · simp [remove]
    · intro u
      constructor
      · exact fun hu => .inl (by simpa using hu)
      · rintro (hu | ⟨lane, holder, hlane, -⟩)
        · simpa using hu
        · exact absurd hlane (hnone lane holder)
    · intro e he
      exact ⟨_, List.mem_singleton.1 he⟩

/-- A step is one of the poller, or leaves the poller alone. -/
theorem Transition.polls_or_aside (h : Transition s r a r' effects) :
    Polls s r a r' effects ∨ Aside r a r' effects := by
  cases h with
  | advanced task advance => exact .inr ⟨.inr ⟨_, advance.about⟩, rfl, rfl, advance.quiet⟩
  | letGo task halted reason => exact .inr ⟨.inr ⟨_, reason.about⟩, rfl, rfl, rfl⟩
  | ended task reason => exact .inr ⟨.inr ⟨_, reason.about⟩, rfl, rfl, rfl⟩
  | @broken t _ task reason =>
    obtain ⟨gone, lanes, hrun, -, hquiet, -⟩ := loseWorker_spec r t
    exact .inr ⟨.inr ⟨_, reason.about⟩, by rw [hrun], by rw [hrun], hquiet⟩
  | confirmed => exact .inr ⟨.inr ⟨_, rfl⟩, rfl, rfl, rfl⟩
  | asked => exact .inr ⟨.inr ⟨_, rfl⟩, rfl, rfl, rfl⟩
  | stored => exact .inr ⟨.inr ⟨_, rfl⟩, rfl, rfl, rfl⟩
  | cancelled => exact .inr ⟨.inl rfl, rfl, rfl, rfl⟩
  | polled polls => exact .inl polls

theorem Continues.quiet {cursor : Cursor} {rest : List StoredEvent} {phase' : Phase}
    (h : Continues s r cursor rest phase' effects) : effects.filterMap Effect.dispatched? = [] := by
  cases h <;> rfl

theorem sequence_of_decode {e : StoredEvent} {n : Nat} {m : Message F}
    (decoded : s.decode e n = .ok m) : m.sequence = n := by
  obtain ⟨payload, -, rfl⟩ := Subscription.message_of_decode decoded
  rfl

theorem position_of_decode {e : StoredEvent} {n : Nat} {m : Message F}
    (decoded : s.decode e n = .ok m) : m.position.position = s.position e := by
  obtain ⟨payload, -, rfl⟩ := Subscription.message_of_decode decoded
  rfl

/-! ## 2. Steps and the source -/

namespace Phase

/-- Where the poller stands, while it is polling. -/
def cursor? : Phase → Option Cursor
  | .reading cursor | .sleeping cursor => some cursor
  | .delivering cursor _ => some cursor
  | _ => none

/-- Polling has not begun. -/
def IsEarly : Phase → Prop
  | .created | .loading => True
  | _ => False

end Phase

theorem Continues.cursor_eq {cursor cursor' : Cursor} {rest : List StoredEvent} {phase' : Phase}
    (h : Continues s r cursor rest phase' effects) (here : phase'.cursor? = some cursor') :
    cursor' = cursor := by
  cases h with
  | interrupted => cases here
  | nextPage => cases here; rfl
  | nextEvent => cases here; rfl

theorem Continues.not_isEarly {cursor : Cursor} {rest : List StoredEvent} {phase' : Phase}
    (h : Continues s r cursor rest phase' effects) : ¬ phase'.IsEarly := by
  cases h <;> exact id

/-- The position in the checkpoint of an answer. -/
def Action.loaded? : Action → Option Nat
  | .checkpointLoaded (.ok c) => c.position
  | _ => none

theorem Aside.loaded?_eq (aside : Aside r a r' effects) : a.loaded? = none := by
  rcases aside.about with rfl | ⟨n, about⟩
  · rfl
  · cases a <;> first | rfl | cases about

/-- What a step does about the source: polling begins at a checkpoint, a page arrives, the first
event of the page is handed out, or nothing of this happens. -/
inductive Draws (s : Subscription F) (r r' : Run F) (effects : List (Effect F)) :
    Action → Prop where
  | begun {c : Checkpoint} (early : r.phase.IsEarly) (late : ¬r'.phase.IsEarly)
    (quiet : effects.filterMap Effect.dispatched? = [])
    (cursor : ∀ cursor, r'.phase.cursor? = some cursor → cursor = { after := c.position })
    (page : ∀ cursor page, r'.phase ≠ .delivering cursor page) :
    Draws s r r' effects (.checkpointLoaded (.ok c))
  | arrived {cursor : Cursor} {page : List StoredEvent} (phase : r.phase = .reading cursor)
    (quiet : effects.filterMap Effect.dispatched? = [])
    (phase' : r'.phase = .delivering { cursor with failures := 0 } page) :
    Draws s r r' effects (.pageRead (.ok page))
  | handed {cursor : Cursor} {e : StoredEvent} {rest : List StoredEvent} {m : Message F}
    (phase : r.phase = .delivering cursor (e :: rest))
    (decoded : s.decode e cursor.sequence = .ok m)
    (hands : effects.filterMap Effect.dispatched? = [m])
    (next : ∀ cursor', r'.phase.cursor? = some cursor' → cursor' = cursorAfter s cursor e)
    (left : ∀ cursor' page, r'.phase = .delivering cursor' page → page = rest)
    (late : ¬r'.phase.IsEarly) (tasks : (r'.tasks.map (·.message.position)).Sublist
      (r.tasks.map (·.message.position) ++ [m.position])) :
    Draws s r r' effects .deliver
  | nothing {a : Action} (quiet : effects.filterMap Effect.dispatched? = [])
    (unloaded : a.loaded? = none) (cursor : ∀ cursor', r'.phase.cursor? = some cursor' →
      ∃ cursor, r.phase.cursor? = some cursor ∧ cursor'.after = cursor.after ∧
        cursor'.sequence = cursor.sequence)
    (page : ∀ cursor page, r'.phase = .delivering cursor page → r.phase = .delivering cursor page)
    (early : r'.phase.IsEarly → r.phase.IsEarly) : Draws s r r' effects a

theorem Polls.draws (polls : Polls s r a r' effects) : Draws s r r' effects a := by
  cases polls with
  | subscribed phase =>
    exact .nothing rfl rfl (by simp [Phase.cursor?]) (by simp) (by simp [phase, Phase.IsEarly])
  | loaded phase mode =>
    refine .begun (by simp [phase, Phase.IsEarly]) (by simp [Phase.IsEarly]) rfl
      (fun cursor here => ?_) (by simp)
    cases here
    rfl
  | aborted reason =>
    cases reason with
    | infeasible phase mode =>
      exact .begun (by simp [phase, Phase.IsEarly]) (by simp [Phase.IsEarly]) rfl
        (by simp [Phase.cursor?]) (by simp)
    | _ => exact .nothing rfl rfl (by simp [Phase.cursor?]) (by simp) (by simp [Phase.IsEarly])
  | stopped reason =>
    have unloaded : a.loaded? = none := by cases reason <;> rfl
    exact .nothing rfl unloaded (by simp [Phase.cursor?]) (by simp) (by simp [Phase.IsEarly])
  | nothingNew phase | readAgain phase | woken phase =>
    refine .nothing rfl rfl (fun cursor' here => ?_) (by simp) (by simp [Phase.IsEarly])
    cases here
    exact ⟨_, congrArg Phase.cursor? phase, rfl, rfl⟩
  | pageArrived phase => exact .arrived phase rfl rfl
  | delivered phase decoded place continues =>
    refine .handed phase decoded ?_ (fun cursor' here => continues.cursor_eq here) ?_
      continues.not_isEarly (by simp)
    · rw [filterMap_dispatched, continues.quiet]
    · intro cursor' page here
      dsimp only at here
      subst here
      cases continues
      rfl
  | undelivered phase decoded place =>
    exact .handed phase decoded rfl (by simp [Phase.cursor?]) (by simp)
      (by simp [Phase.IsEarly]) (by simp)
  | unloaded | interrupted | halted | flushing | unflushed | flushed | flushFailed =>
    exact .nothing rfl rfl (by simp [Phase.cursor?]) (by simp) (by simp [Phase.IsEarly])

theorem Transition.draws (made : Transition s r a r' effects) : Draws s r r' effects a := by
  rcases made.polls_or_aside with polls | aside
  · exact polls.draws
  · refine .nothing aside.quiet aside.loaded?_eq ?_ ?_ ?_
    · rw [aside.phase]
      exact fun cursor here => ⟨cursor, here, rfl, rfl⟩
    · rw [aside.phase]
      exact fun _ _ here => here
    · rw [aside.phase]
      exact id

/-! ## 3. Numbers -/

/-- Messages are numbered in the order they were handed out, and the tasks are some of them in that
order. -/
structure Numbered (h : List (Entry F)) (r : Run F) : Prop where
  numbers : (dispatched h).map (·.sequence) = List.range (dispatched h).length
  cursor : ∀ cursor, r.phase.cursor? = some cursor → cursor.sequence = (dispatched h).length
  early : r.phase.IsEarly → dispatched h = []
  tasks : (r.tasks.map (·.message.position)).Sublist ((dispatched h).map (·.position))

namespace Numbered

variable {h : List (Entry F)}

theorem nodup (hn : Numbered h r) : (r.tasks.map (·.sequence)).Nodup := by
  have hsub := hn.tasks.map (·.sequence)
  rw [List.map_map, List.map_map] at hsub
  have hrange : (dispatched h).map ((·.sequence) ∘ (·.position)) =
    List.range (dispatched h).length := hn.numbers
  rw [hrange] at hsub
  exact hsub.nodup List.nodup_range

/-- The message of a task is one of those handed out. -/
theorem position_mem (hn : Numbered h r) {t : Task F} (ht : t ∈ r.tasks) :
    t.message.position ∈ (dispatched h).map (·.position) :=
  hn.tasks.subset (List.mem_map_of_mem ht)

theorem sequence_lt (hn : Numbered h r) {m : Message F} (hm : m ∈ dispatched h) :
    m.sequence < (dispatched h).length := by
  have : m.sequence ∈ (dispatched h).map (·.sequence) := List.mem_map_of_mem hm
  rw [hn.numbers] at this
  exact List.mem_range.1 this

theorem task_sequence_lt (hn : Numbered h r) {t : Task F} (ht : t ∈ r.tasks) :
    t.sequence < (dispatched h).length := by
  obtain ⟨m, hm, heq⟩ := List.mem_map.1 (hn.position_mem ht)
  have hlt := hn.sequence_lt hm
  rwa [show t.sequence = m.sequence from congrArg (·.sequence) heq.symm]

/-- A message stands where its number says. -/
theorem getElem?_sequence (hn : Numbered h r) {m : Message F} (hm : m ∈ dispatched h) :
    (dispatched h)[m.sequence]? = some m := by
  obtain ⟨i, hi, rfl⟩ := List.getElem_of_mem hm
  have : ((dispatched h).map (·.sequence))[i]? = some i := by
    rw [hn.numbers, List.getElem?_range hi]
  rw [List.getElem?_map, List.getElem?_eq_getElem hi] at this
  rw [show (dispatched h)[i].sequence = i by simpa using this, List.getElem?_eq_getElem hi]

/-- Every number below that of the next message is one of those handed out. -/
theorem exists_of_lt (hn : Numbered h r) {n : Nat} (hlt : n < (dispatched h).length) :
    ∃ m ∈ dispatched h, m.sequence = n := by
  have : n ∈ (dispatched h).map (·.sequence) := by
    rw [hn.numbers]
    exact List.mem_range.2 hlt
  simpa using this

theorem task_eq_of_sequence (hn : Numbered h r) {t u : Task F} (ht : t ∈ r.tasks) (hu : u ∈ r.tasks)
    (heq : t.sequence = u.sequence) : t = u :=
  List.inj_on_of_nodup_map hn.nodup ht hu heq

end Numbered

/-- A replacement at the same place leaves the places of all tasks as they were. -/
theorem positions_put {r : Run F} {t u : Task F} (unique : (r.tasks.map (·.sequence)).Nodup)
    (task : r.task? t.sequence = some t) (heq : u.message.position = t.message.position) :
    (r.put u).tasks.map (·.message.position) = r.tasks.map (·.message.position) := by
  simp only [put, List.map_map]
  refine List.map_congr_left fun v hv => ?_
  show (if v.sequence = u.sequence then u else v).message.position = v.message.position
  split
  · rename_i hvu
    have hvt : v.sequence = t.sequence := hvu.trans (congrArg (·.sequence) heq)
    rw [heq, List.inj_on_of_nodup_map unique hv (mem_of_task? task).1 hvt]
  · rfl

/-- No step but a delivery adds to the tasks. -/
theorem Transition.tasks_sublist (h : Transition s r a r' effects)
    (unique : (r.tasks.map (·.sequence)).Nodup)
    (quiet : effects.filterMap Effect.dispatched? = []) :
    (r'.tasks.map (·.message.position)).Sublist (r.tasks.map (·.message.position)) := by
  have hfilter : ∀ p : Task F → Bool,
      ((r.tasks.filter p).map (·.message.position)).Sublist (r.tasks.map (·.message.position)) :=
    fun p => List.filter_sublist.map _
  cases h with
  | advanced task advance => rw [positions_put unique task advance.position_eq]
  | letGo | ended | confirmed | stored => exact hfilter _
  | @broken t _ task reason =>
    obtain ⟨gone, lanes, hrun, -⟩ := loseWorker_spec r t
    rw [hrun]
    exact hfilter _
  | @asked t p c task stage free answer =>
    exact (positions_put (u := { t with stage := .storing p }) unique task rfl).symm ▸
      List.Sublist.refl _
  | cancelled => exact List.Sublist.refl _
  | polled polls =>
    cases polls with
    | delivered => simp [Effect.dispatched?] at quiet
    | _ => exact List.Sublist.refl _

/-- A step that hands nothing out is right if it keeps the poller's number. -/
theorem Numbered.step_quiet {h : List (Entry F)} (hn : Numbered h r)
    (made : Transition s r a r' effects) (quiet : effects.filterMap Effect.dispatched? = [])
    (cursor : ∀ cursor, r'.phase.cursor? = some cursor → cursor.sequence = (dispatched h).length)
    (early : r'.phase.IsEarly → r.phase.IsEarly) : Numbered (h ++ [⟨r, a, r', effects⟩]) r' := by
  have hdispatched := dispatched_snoc h ⟨r, a, r', effects⟩
  rw [quiet, List.append_nil] at hdispatched
  constructor <;> rw [hdispatched]
  case numbers => exact hn.numbers
  case cursor => exact cursor
  case early =>
    intro early'
    exact hn.early (early early')
  case tasks => exact (made.tasks_sublist hn.nodup quiet).trans hn.tasks

theorem Numbered.step {h : List (Entry F)} (hn : Numbered h r)
    (made : Transition s r a r' effects) : Numbered (h ++ [⟨r, a, r', effects⟩]) r' := by
  cases made.draws with
  | @begun c early late quiet cursor page =>
    refine hn.step_quiet made quiet (fun cursor' here => ?_) fun early' => (late early').elim
    rw [cursor cursor' here, hn.early early]
    rfl
  | @arrived cursor page phase quiet phase' =>
    refine hn.step_quiet made quiet (fun cursor' here => ?_) fun early' => ?_
    · rw [phase'] at here
      cases here
      exact hn.cursor cursor (congrArg Phase.cursor? phase)
    · rw [phase'] at early'
      exact early'.elim
  | @handed cursor e rest m phase decoded hands next left late tasks =>
    -- The message takes the number of the cursor.
    have hdispatched := dispatched_snoc h ⟨r, .deliver, r', effects⟩
    rw [hands] at hdispatched
    have hlength := hn.cursor cursor (congrArg Phase.cursor? phase)
    constructor
    case numbers =>
      rw [hdispatched, List.map_append, hn.numbers, List.length_append, List.length_singleton,
        List.range_succ, List.map_singleton, sequence_of_decode decoded, hlength]
    case cursor =>
      intro cursor' here
      rw [hdispatched, next cursor' here, List.length_append, List.length_singleton, ← hlength]
      rfl
    case early => exact fun early => absurd early late
    case tasks =>
      rw [hdispatched, List.map_append, List.map_singleton]
      exact tasks.trans (hn.tasks.append (List.Sublist.refl _))
  | nothing quiet unloaded cursor page early =>
    refine hn.step_quiet made quiet (fun cursor' here => ?_) early
    obtain ⟨cursor₀, here₀, -, hsequence⟩ := cursor cursor' here
    rw [hsequence]
    exact hn.cursor cursor₀ here₀

theorem numbered {h : List (Entry F)} (hist : History s h r) : Numbered h r := by
  induction hist with
  | begin => exact ⟨rfl, by simp [Phase.cursor?], fun _ => rfl, by simp⟩
  | step past made ih => exact ih.step (transition_of_step made)

/-! ## 4. The order of the source -/

/-- The relation holds from `start` to the first of the positions, and from each to the next. -/
def Chained (R : Option Nat → Nat → Prop) : (start : Option Nat) → List Nat → Prop
  | _, [] => True
  | start, p :: rest => R start p ∧ Chained R (some p) rest

/-- The last of the positions, or `start`. -/
def lastOf : (start : Option Nat) → List Nat → Option Nat
  | start, [] => start
  | _, p :: rest => lastOf (some p) rest

theorem lastOf_append_singleton (start : Option Nat) (l : List Nat) (p : Nat) :
    lastOf start (l ++ [p]) = some p := by
  induction l generalizing start with
  | nil => rfl
  | cons q rest ih => exact ih (some q)

theorem chained_append_singleton {R : Option Nat → Nat → Prop} {start : Option Nat} {l : List Nat}
    {p : Nat} : Chained R start (l ++ [p]) ↔ Chained R start l ∧ R (lastOf start l) p := by
  induction l generalizing start with
  | nil => simp [Chained, lastOf]
  | cons q rest ih => simp [Chained, lastOf, ih, and_assoc]

/-- Every page the run was given was a chain from where the poller stood. -/
def Reads (R : Option Nat → Nat → Prop) (s : Subscription F) (h : List (Entry F)) : Prop :=
  ∀ e ∈ h, ∀ cursor page, e.before.phase = .reading cursor → e.action = .pageRead (.ok page) →
    Chained R cursor.after (page.map s.position)

/-- The checkpoint the run was given; `none` is the beginning of the source. -/
def origin (h : List (Entry F)) : Option Nat := h.findSome? fun e => e.action.loaded?

/-- The positions handed out, in order. -/
def positions (h : List (Entry F)) : List Nat := (dispatched h).map (·.position.position)

/-- What was handed out is a chain from the checkpoint, the poller stands at its end, and what is
left of the page goes on with it. -/
structure Followed (R : Option Nat → Nat → Prop) (s : Subscription F) (h : List (Entry F))
    (r : Run F) : Prop where
  early : r.phase.IsEarly → origin h = none ∧ dispatched h = []
  chained : Chained R (origin h) (positions h)
  cursor : ∀ cursor, r.phase.cursor? = some cursor → cursor.after = lastOf (origin h) (positions h)
  page : ∀ cursor page, r.phase = .delivering cursor page →
    Chained R cursor.after (page.map s.position)

namespace Followed

variable {R : Option Nat → Nat → Prop} {h : List (Entry F)}

theorem origin_snoc (h : List (Entry F)) (e : Entry F) :
    origin (h ++ [e]) = (origin h).or e.action.loaded? := by
  simp [origin, List.findSome?_append]

/-- A step that hands nothing out and gets no checkpoint leaves both ends of the chain. -/
theorem step_quiet (hf : Followed R s h r) (quiet : effects.filterMap Effect.dispatched? = [])
    (unloaded : a.loaded? = none)
    (cursor : ∀ cursor', r'.phase.cursor? = some cursor' →
      ∃ cursor, r.phase.cursor? = some cursor ∧ cursor'.after = cursor.after)
    (page : ∀ cursor page, r'.phase = .delivering cursor page →
      Chained R cursor.after (page.map s.position)) (early : r'.phase.IsEarly → r.phase.IsEarly) :
    Followed R s (h ++ [⟨r, a, r', effects⟩]) r' := by
  have hdispatched := dispatched_snoc h ⟨r, a, r', effects⟩
  have horigin := origin_snoc h ⟨r, a, r', effects⟩
  rw [quiet, List.append_nil] at hdispatched
  rw [unloaded, Option.or_none] at horigin
  have hpositions : positions (h ++ [⟨r, a, r', effects⟩]) = positions h := by
    rw [positions, hdispatched, positions]
  constructor
  case early =>
    intro early'
    rw [horigin, hdispatched]
    exact hf.early (early early')
  case chained =>
    rw [horigin, hpositions]
    exact hf.chained
  case cursor =>
    intro cursor' here
    obtain ⟨cursor₀, here₀, hafter⟩ := cursor cursor' here
    rw [horigin, hpositions, hafter]
    exact hf.cursor cursor₀ here₀
  case page => exact page

theorem step (hf : Followed R s h r) (made : Transition s r a r' effects)
    (reads : Reads R s (h ++ [⟨r, a, r', effects⟩])) :
    Followed R s (h ++ [⟨r, a, r', effects⟩]) r' := by
  cases made.draws with
  | @begun c early late quiet cursor page =>
    have hdispatched := dispatched_snoc h ⟨r, .checkpointLoaded (.ok c), r', effects⟩
    have horigin := origin_snoc h ⟨r, .checkpointLoaded (.ok c), r', effects⟩
    obtain ⟨hnone, hempty⟩ := hf.early early
    have hpositions : positions (h ++ [⟨r, .checkpointLoaded (.ok c), r', effects⟩]) = [] := by
      rw [positions, hdispatched, quiet, hempty]
      rfl
    rw [hnone, Option.none_or] at horigin
    constructor
    case early => exact fun early' => (late early').elim
    case chained =>
      rw [hpositions]
      trivial
    case cursor =>
      intro cursor' here
      rw [cursor cursor' here, horigin, hpositions]
      rfl
    case page => exact fun cursor' page' here => (page cursor' page' here).elim
  | @arrived cursor page phase quiet phase' =>
    have chain :=
      reads _ (List.mem_append_right h (List.mem_singleton_self _)) cursor page phase rfl
    refine hf.step_quiet quiet rfl (fun cursor' here => ?_) (fun cursor' page' here => ?_)
      fun early => ?_
    · rw [phase'] at here
      cases here
      exact ⟨cursor, congrArg Phase.cursor? phase, rfl⟩
    · cases phase'.symm.trans here
      exact chain
    · rw [phase'] at early
      exact early.elim
  | @handed cursor e rest m phase decoded hands next left late tasks =>
    -- The message is the next of the chain.
    have hdispatched := dispatched_snoc h ⟨r, .deliver, r', effects⟩
    have horigin : origin (h ++ [⟨r, .deliver, r', effects⟩]) = origin h :=
      (origin_snoc h ⟨r, .deliver, r', effects⟩).trans (Option.or_none)
    have hpositions : positions (h ++ [⟨r, .deliver, r', effects⟩]) =
        positions h ++ [s.position e] := by
      rw [positions, hdispatched, hands, List.map_append, List.map_singleton,
        position_of_decode decoded, positions]
    have hcursor := hf.cursor cursor (congrArg Phase.cursor? phase)
    obtain ⟨hnext, hrest⟩ := hf.page cursor _ phase
    constructor
    case early => exact fun early => absurd early late
    case chained =>
      rw [horigin, hpositions, chained_append_singleton, ← hcursor]
      exact ⟨hf.chained, hnext⟩
    case cursor =>
      intro cursor' here
      rw [horigin, hpositions, lastOf_append_singleton, next cursor' here]
      rfl
    case page =>
      intro cursor' page' here
      rw [next cursor' (congrArg Phase.cursor? here), left cursor' page' here]
      exact hrest
  | nothing quiet unloaded cursor page early =>
    refine hf.step_quiet quiet unloaded (fun cursor' here => ?_)
      (fun cursor' page' here => ?_) early
    · obtain ⟨cursor₀, here₀, hafter, -⟩ := cursor cursor' here
      exact ⟨cursor₀, here₀, hafter⟩
    · exact hf.page cursor' page' (page cursor' page' here)

end Followed

theorem Reads.of_append {R : Option Nat → Nat → Prop} {h h' : List (Entry F)}
    (reads : Reads R s (h ++ h')) : Reads R s h :=
  fun e he => reads e (List.mem_append_left h' he)

theorem followed {R : Option Nat → Nat → Prop} {h : List (Entry F)} (hist : History s h r)
    (reads : Reads R s h) : Followed R s h r := by
  induction hist with
  | begin => exact ⟨fun _ => ⟨rfl, rfl⟩, trivial, by simp [Phase.cursor?], by simp⟩
  | step past made ih => exact (ih reads.of_append).step (transition_of_step made) reads

end Run
end EventSourcing

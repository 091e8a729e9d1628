/-
# What the gap of a subscription measures

A gap is measured in two ways: a run remembers when the event it committed last was written, and
anybody else reads that event back, as the first one after the position before it.  Both count the
same positions.  But the first event after a position is the next one only as long as that is there:
once it was hidden from its stream, the time is that of a later event, and the subscription seems to
be less far behind than it is.

What the file settles:

* `Shows`: a source that answers from a list of events; `shows_all`, `shows_stream`: both sources of
  a store do;
* `writtenAt_eq`: what is read back is the time of the first event from the position on;
* `checkpointed_of_last`: what a run committed last is the position and the time of an event of its
  source;
* `gaps_agree_iff`: when the two measurements of a gap are the same.
-/
import EventSourcing.Proofs.CaughtUp
import EventSourcing.Proofs.Run.Checkpointing
import EventSourcing.Subscription.Gap

namespace EventSourcing

open MemoryStore Run

variable {F : PayloadFamily} {s : Subscription F} {source : Source} {store : MemoryStore}

/-! ## 1. Sources that answer from a list -/

/-- The answers of the source are those of a list of events, and asking does not change it. -/
structure Shows {σ : Type} [EventSource σ] (x : σ) (position : StoredEvent → Nat)
    (events : List StoredEvent) : Prop where
  read : ∀ after count,
    EventSource.readAfter after count x = (.ok ((behind position after events).take count), x)
  head : EventSource.head x = (.ok (events.getLast?.map position), x)

theorem shows_all (hn : store.Numbered) :
    Shows (AllEvents.mk store) Source.all.position (Source.all.events store) where
  read after count := Prod.ext (Source.readAfter_eq hn.global .all after count) rfl
  head := Prod.ext (congrArg Except.ok (head?_eq store)) rfl

/-- The last event of a stream is the first one backwards. -/
theorem head_stream (store : MemoryStore) (name : StreamName) :
    OneStream.orEmpty none
        ((store.readBackwards name 1).map fun events => events.head?.map (·.streamPosition)) =
      .ok (((Source.stream name).events store).getLast?.map (·.streamPosition)) := by
  rw [MemoryStore.readBackwards,
    show (Source.stream name).events store = if _ then _ else _ from rfl]
  split
  · show Except.ok (((store.visible name).reverse.take 1).head?.map _) = _
    rw [List.head?_take, if_neg Nat.one_ne_zero, List.head?_reverse]
  · rfl

theorem shows_stream (hn : store.Numbered) (name : StreamName) :
    Shows (OneStream.mk store name) (Source.stream name).position
      ((Source.stream name).events store) where
  read after count := Prod.ext (Source.readAfter_eq hn.global (.stream name) after count) rfl
  head := Prod.ext (head_stream store name) rfl

/-! ## 2. The time that is read back -/

section Measuring

variable {σ κ : Type} [EventSource σ] [CheckpointStore κ] {x : σ} {position : StoredEvent → Nat}
  {events : List StoredEvent}

/-- The first event from a position on. -/
def firstFrom (position : StoredEvent → Nat) (n : Nat) (events : List StoredEvent) :
    Option StoredEvent :=
  events.find? (n ≤ position ·)

/-- An event is the first one from its own position on. -/
theorem firstFrom_self (sorted : events.Pairwise (position · < position ·)) {e : StoredEvent}
    (he : e ∈ events) : firstFrom position (position e) events = some e := by
  induction events with
  | nil => cases he
  | cons x rest ih =>
    obtain ⟨hx, hrest⟩ := List.pairwise_cons.1 sorted
    rcases List.mem_cons.1 he with rfl | he
    · exact List.find?_cons_of_pos (by simp)
    · rw [firstFrom, List.find?_cons_of_neg (by simpa using hx e he)]
      exact ih hrest he

theorem writtenAt_eq (shows : Shows x position events) (n : Nat) :
    writtenAt n x = (.ok ((firstFrom position n events).map (·.occurredOn)), x) := by
  have hnext : nextOf (if n = 0 then none else some (n - 1)) = n := by
    split
    · exact Eq.symm ‹n = 0›
    · exact Nat.succ_pred ‹¬n = 0›
  simp only [writtenAt, shows.read, behind_eq, hnext, Except.map, List.head?_take,
    if_neg Nat.one_ne_zero, List.head?_filter, firstFrom]

theorem storedGap_eq (shows : Shows x position events) {checkpoints : κ} {id : String}
    {c : Checkpoint} {n : Nat} (loads : (CheckpointStore.load id checkpoints).1 = .ok c)
    (here : c.position = some n) (now : Instant) :
    (storedGap id now (x, checkpoints)).1 = .ok (.compute id (events.getLast?.map position) (some n)
      ((firstFrom position n events).map (·.occurredOn)) now) := by
  cases hload : CheckpointStore.load id checkpoints with
  | mk answer checkpoints' =>
    rw [hload] at loads
    cases loads
    simp only [storedGap, hload, shows.head, here, writtenAt_eq shows]

theorem currentGap_eq (shows : Shows x position events) (checkpoints : κ) (id : String)
    (p : CommitPosition) (now : Instant) : (currentGap id (some p) now (x, checkpoints)).1 =
      .ok
        (.compute id (events.getLast?.map position) (some p.position) (some p.timestamp) now) := by
  simp only [currentGap, shows.head]

end Measuring

/-! ## 3. What was committed -/

/-- The event is what a run committed: handed out to it, and with the position and the time the run
remembers. -/
structure IsCheckpointed (s : Subscription F) (source : Source) (w : Pursuit F) (p : CommitPosition)
    (e : StoredEvent) : Prop where
  written : e ∈ source.written w.store
  position : source.position e = p.position
  time : e.occurredOn = p.timestamp
  handedOut : HandedOut s source w.history e

theorem timestamp_of_decode {e : StoredEvent} {n : Nat} {m : Message F}
    (decoded : s.decode e n = .ok m) : m.position.timestamp = e.occurredOn := by
  obtain ⟨payload, -, rfl⟩ := Subscription.message_of_decode decoded
  rfl

theorem checkpointed_of_last (position : s.position = source.position) {w : Pursuit F}
    (reachable : Pursuit.Reachable s source w) {p : CommitPosition}
    (last : w.run.committer.last = some p) : ∃ e, IsCheckpointed s source w p e := by
  have sound := reachable.sound
  obtain ⟨m, hm, rfl⟩ := List.mem_map.1 ((gapless sound.hist).last p last).1
  obtain ⟨e, given, decoded⟩ := (sourced sound.hist).messages m hm
  have carries := carries_of_decode position decoded
  exact ⟨e, (source.written_mono sound.later.grown).subset (sound.given e given),
    carries.position.symm, (timestamp_of_decode decoded).symm, m, hm, carries⟩

/-! ## 4. Both measurements -/

namespace Source

variable {κ : Type} [CheckpointStore κ]

/-- The gap of a run that reads the source, by what it committed last. -/
def currentGap (source : Source) (store : MemoryStore) (checkpoints : κ) (id : String)
    (committed : Option CommitPosition) (now : Instant) :
    Except SubscriptionError SubscriptionGap :=
  match source with
  | .all => (EventSourcing.currentGap id committed now (AllEvents.mk store, checkpoints)).1
  | .stream name =>
    (EventSourcing.currentGap id committed now (OneStream.mk store name, checkpoints)).1

/-- The gap of a subscription to the source, by its stored checkpoint. -/
def storedGap (source : Source) (store : MemoryStore) (checkpoints : κ) (id : String)
    (now : Instant) : Except SubscriptionError SubscriptionGap :=
  match source with
  | .all => (EventSourcing.storedGap id now (AllEvents.mk store, checkpoints)).1
  | .stream name => (EventSourcing.storedGap id now (OneStream.mk store name, checkpoints)).1

/-- The position of the last event of the source. -/
def head (source : Source) (store : MemoryStore) : Option Nat :=
  (source.events store).getLast?.map source.position

theorem currentGap_some (hn : store.Numbered) (source : Source) (checkpoints : κ) (id : String)
    (p : CommitPosition) (now : Instant) : source.currentGap store checkpoints id (some p) now =
      .ok (.compute id (source.head store) (some p.position) (some p.timestamp) now) := by
  cases source with
  | all => exact currentGap_eq (shows_all hn) checkpoints id p now
  | stream name => exact currentGap_eq (shows_stream hn name) checkpoints id p now

theorem storedGap_of_load (hn : store.Numbered) (source : Source) {checkpoints : κ} {id : String}
    {c : Checkpoint} {n : Nat} (loads : (CheckpointStore.load id checkpoints).1 = .ok c)
    (here : c.position = some n) (now : Instant) :
    source.storedGap store checkpoints id now = .ok (.compute id (source.head store) (some n)
      ((firstFrom source.position n (source.events store)).map (·.occurredOn)) now) := by
  cases source with
  | all => exact storedGap_eq (shows_all hn) loads here now
  | stream name => exact storedGap_eq (shows_stream hn name) loads here now

/-- Behind a position that the source has gone past comes an event. -/
theorem firstFrom_of_gap {n : Nat} (gap : 0 < (source.head store).elim 0 (· - n)) :
    ∃ e, firstFrom source.position n (source.events store) = some e := by
  refine Option.isSome_iff_exists.1 (List.find?_isSome.2 ?_)
  unfold head at gap
  cases hlast : (source.events store).getLast? with
  | none => simp [hlast] at gap
  | some e =>
    rw [hlast] at gap
    have gap : 0 < source.position e - n := gap
    exact ⟨e, List.mem_of_getLast? hlast, decide_eq_true (by omega)⟩

end Source

/-- What the two measurements say of a subscription that committed the event, `current` that of the
run, and `stored` that of the stored checkpoint. -/
structure Gaps (source : Source) (store : MemoryStore) (now : Instant) (e : StoredEvent)
    (current stored : SubscriptionGap) : Prop where
  /-- Both count the positions up to the last event the source still has. -/
  positions : current.positions = (source.head store).elim 0 (· - source.position e) ∧
    stored.positions = current.positions
  /-- Both give no time if there are no positions in between. -/
  level : current.positions = 0 → current.time = .zero ∧ stored.time = .zero
  /-- The run measures from the event at the checkpoint itself, whatever became of it. -/
  remembered : 0 < current.positions → current.time = now.elapsedSince e.occurredOn
  /-- What is read back is the first event the source still has from there on. -/
  readBack : 0 < current.positions → ∃ f,
    firstFrom source.position (source.position e) (source.events store) = some f ∧
      stored.time = now.elapsedSince f.occurredOn
  /-- They are the same as long as the source still has the event. -/
  kept : e ∈ source.events store → stored = current
  /-- They are always the same in the whole store, which never lets go of an event. -/
  whole : source = .all → stored = current
  /-- They are the same only if there is no gap, or if the event that is read back happens to be as
  old. -/
  agree : stored = current ↔ current.positions = 0 ∨
    ∃ f, firstFrom source.position (source.position e) (source.events store) = some f ∧
      now.elapsedSince f.occurredOn = now.elapsedSince e.occurredOn

theorem compute_some (id : String) (head : Option Nat) (n : Nat) (written : Option Instant)
    (now : Instant) :
    SubscriptionGap.compute id head (some n) written now = ⟨id, head.elim 0 (· - n),
      written.elim .zero fun written =>
        if 0 < head.elim 0 (· - n) then now.elapsedSince written else .zero⟩ := by
  cases head <;> cases written <;> rfl

/-- Without a gap, both measurements say so. -/
theorem compute_level (id : String) {head : Option Nat} {n : Nat} (level : head.elim 0 (· - n) = 0)
    (written : Option Instant) (now : Instant) :
    SubscriptionGap.compute id head (some n) written now = ⟨id, 0, .zero⟩ := by
  rw [compute_some, level]
  cases written <;> rfl

/-- With a gap, a measurement says when the event was written that it takes for that at the
checkpoint. -/
theorem compute_behind (id : String) {head : Option Nat} {n : Nat} (gap : 0 < head.elim 0 (· - n))
    (written now : Instant) : SubscriptionGap.compute id head (some n) (some written) now =
      ⟨id, head.elim 0 (· - n), now.elapsedSince written⟩ := by
  rw [compute_some, Option.elim_some, if_pos gap]

theorem gaps_of_written (hn : store.Numbered) {e : StoredEvent} (written : e ∈ source.written store)
    (id : String) (now : Instant) : Gaps source store now e
      (.compute id (source.head store) (some (source.position e)) (some e.occurredOn) now)
      (.compute id (source.head store) (some (source.position e))
        ((firstFrom source.position (source.position e)
          (source.events store)).map (·.occurredOn)) now) := by
  have hkept : e ∈ source.events store →
      firstFrom source.position (source.position e) (source.events store) = some e :=
    firstFrom_self (source.sorted_events hn)
  have hwhole : source = .all → e ∈ source.events store := by
    rintro rfl
    exact written
  rcases Nat.eq_zero_or_pos ((source.head store).elim 0 (· - source.position e)) with level | gap
  · rw [compute_level id level, compute_level id level]
    exact ⟨⟨level.symm, rfl⟩, fun _ => ⟨rfl, rfl⟩, fun gap => absurd gap (Nat.lt_irrefl 0),
      fun gap => absurd gap (Nat.lt_irrefl 0), fun _ => rfl, fun _ =>
        rfl, iff_of_true rfl (.inl rfl)⟩
  · obtain ⟨f, hf⟩ := Source.firstFrom_of_gap gap
    rw [hf, Option.map_some, compute_behind id gap, compute_behind id gap]
    have hsame : e ∈ source.events store →
        now.elapsedSince f.occurredOn = now.elapsedSince e.occurredOn := by
      intro here
      cases hf.symm.trans (hkept here)
      rfl
    constructor
    case positions => exact ⟨rfl, rfl⟩
    case level => exact fun level => absurd level (Nat.ne_of_gt gap)
    case remembered => exact fun _ => rfl
    case readBack => exact fun _ => ⟨f, hf, rfl⟩
    case kept => exact fun here => by rw [hsame here]
    case whole => exact fun all => by rw [hsame (hwhole all)]
    case agree =>
      constructor
      · exact fun same => .inr ⟨f, hf, congrArg SubscriptionGap.time same⟩
      · rintro (level | ⟨f', hf', same⟩)
        · exact absurd level (Nat.ne_of_gt gap)
        · cases hf.symm.trans hf'
          rw [same]

/-- **The two measurements of a gap.** For a run that committed a position, which is also the stored
checkpoint, and whatever others did to the store before and since: both measurements answer, with
the same number of positions; the run measures time from the event at the checkpoint itself, and
reading it back gives the same time as long as the source still has that event. -/
theorem gaps_agree_iff {κ : Type} [CheckpointStore κ] (position : s.position = source.position)
    {w : Pursuit F} (reachable : Pursuit.Reachable s source w) {p : CommitPosition}
    (last : w.run.committer.last = some p) {checkpoints : κ} {c : Checkpoint}
    (loads : (CheckpointStore.load s.options.id checkpoints).1 = .ok c)
    (stored : c.position = some p.position) (now : Instant) :
    ∃ e current back, IsCheckpointed s source w p e ∧
      source.currentGap w.store checkpoints s.options.id w.run.committer.last now = .ok current ∧
      source.storedGap w.store checkpoints s.options.id now = .ok back ∧
      Gaps source w.store now e current back := by
  have sound := reachable.sound
  have hn : w.store.Numbered := (sound.past.trans sound.later).numbered numbered_empty
  obtain ⟨e, he⟩ := checkpointed_of_last position reachable last
  refine ⟨e, _, _, he, ?_, ?_, gaps_of_written hn he.written s.options.id now⟩
  · rw [last, Source.currentGap_some hn, he.position, he.time]
  · rw [he.position]
    exact Source.storedGap_of_load hn source loads stored now

section Sample

open Sample

/-- Ticks of their own stream. -/
def streamedTicks : Subscription ticks :=
  { tickFeed none with position := (Source.stream tallyStream).position }

/-- The checkpoints after the first tick. -/
def firstCheckpoint : MemoryCheckpoints := MemoryCheckpoints.write {} ⟨"feed", some 0⟩

/-- A store that takes in a tick at each of the given times. -/
def ticking (store : MemoryStore) : List (Nat × Instant) → MemoryStore
  | [] => store
  | (n, now) :: rest =>
    ticking (MemoryStore.append tallyStream .any [newTick n] { store with clock := now }).2 rest

theorem calls_ticking (store : MemoryStore) (times : List (Nat × Instant)) :
    Calls store (ticking store times) := by
  induction times generalizing store with
  | nil => exact .none store
  | cons time rest ih =>
    obtain ⟨n, now⟩ := time
    exact (((Calls.none store).more (.tick store now)).more
      (.append _ tallyStream .any [newTick n])).trans (ih _)

/-- The store with three ticks, ten seconds apart. -/
def threeTicks : MemoryStore :=
  ticking {} [(0, .ofSeconds 0), (1, .ofSeconds 10), (2, .ofSeconds 20)]

/-- The same with the first two hidden. -/
def lastTick : MemoryStore :=
  { threeTicks with marks := threeTicks.marks.insert tallyStream.text ⟨2, false⟩ }

theorem truncate_threeTicks :
    (MemoryStore.truncate tallyStream 2 .any threeTicks).2 = lastTick := by
  have hknown : threeTicks.isKnown tallyStream = true := by
    rw [isKnown, Array.any_eq_true']
    exact ⟨_, List.mem_toArray.2 List.mem_cons_self, rfl⟩
  unfold MemoryStore.truncate checkChange
  rw [hknown]
  rfl

/-- A run that has read the three ticks and committed the first of them. -/
theorem first_tick_committed :
    ∃ w : Pursuit ticks, Pursuit.Reachable streamedTicks (.stream tallyStream) w ∧
      w.store = threeTicks ∧ w.run.committer.last = some ⟨0, 0, .ofSeconds 0⟩ := by
  have start : Pursuit.Reachable streamedTicks (.stream tallyStream)
      { store := threeTicks, seen := threeTicks } :=
    .start (calls_ticking {} _)
  have subscribed := start.step (.acted (a := .subscribe) (by simp) rfl)
  have loaded :=
    subscribed.step (.acted (a := .checkpointLoaded (.ok ⟨"feed", none⟩)) (by simp) rfl)
  have page : Source.readAfter (.stream tallyStream) none 100 threeTicks =
    .ok threeTicks.log.toList := rfl
  have read := loaded.step (.read rfl (.none _) (.none _) page rfl)
  have delivered := read.step (.acted (a := .deliver) (by simp) rfl)
  have started := delivered.step (.acted (a := .start 0) (by simp) rfl)
  have handled := started.step (.acted (a := .attemptEnded 0 (.returned .success)) (by simp) rfl)
  have confirmed := handled.step (.acted (a := .confirm 0) (by simp) rfl)
  have committed := confirmed.step (.acted (a := .stored 0 (.ok ())) (by simp) rfl)
  exact ⟨_, committed, rfl, rfl⟩

/-- At thirty seconds, both measurements say that the run is two ticks and thirty seconds behind. -/
theorem first_tick_is_two_behind :
    ∃ (w : Pursuit ticks) (e : StoredEvent) (current back : SubscriptionGap),
      Pursuit.Reachable streamedTicks (.stream tallyStream) w ∧
      w.run.committer.last = some ⟨0, 0, .ofSeconds 0⟩ ∧
      Gaps (.stream tallyStream) w.store (.ofSeconds 30) e current back ∧
      current = ⟨"feed", 2, .ofSeconds 30⟩ ∧ back = current := by
  obtain ⟨w, reachable, hstore, last⟩ := first_tick_committed
  obtain ⟨e, current, back, -, hcurrent, hback, gaps⟩ :=
    gaps_agree_iff (show streamedTicks.position = (Source.stream tallyStream).position from rfl)
      reachable last
      (show (CheckpointStore.load "feed" firstCheckpoint).1 = .ok ⟨"feed", some 0⟩ from rfl)
      rfl (.ofSeconds 30)
  rw [hstore, last] at hcurrent
  rw [hstore] at hback
  have heq : current = ⟨"feed", 2, .ofSeconds 30⟩ := (Except.ok.inj hcurrent).symm
  have heq' : back = ⟨"feed", 2, .ofSeconds 30⟩ := (Except.ok.inj hback).symm
  exact ⟨w, e, current, back, reachable, last, gaps, heq, heq'.trans heq.symm⟩

/-- Once the first two ticks are hidden, reading back gives the age of the third one. -/
theorem hidden_tick_seems_younger :
    ∃ w : Pursuit ticks, Pursuit.Reachable streamedTicks (.stream tallyStream) w ∧
      w.run.committer.last = some ⟨0, 0, .ofSeconds 0⟩ ∧
      (CheckpointStore.load "feed" firstCheckpoint).1 = .ok ⟨"feed", some 0⟩ ∧
      (Source.stream tallyStream).currentGap w.store firstCheckpoint "feed" w.run.committer.last
        (.ofSeconds 30) =
        .ok ⟨"feed", 2, .ofSeconds 30⟩ ∧
      (Source.stream tallyStream).storedGap w.store firstCheckpoint "feed" (.ofSeconds 30) =
        .ok ⟨"feed", 2, .ofSeconds 10⟩ := by
  obtain ⟨w, reachable, hstore, last⟩ := first_tick_committed
  have hidden := reachable.step (.stored (.truncate w.store tallyStream 2 .any))
  rw [hstore, truncate_threeTicks] at hidden
  refine ⟨_, hidden, last, rfl, ?_, rfl⟩
  show (Source.stream tallyStream).currentGap lastTick _ _ w.run.committer.last _ = _
  rw [last]
  rfl

end Sample

end EventSourcing

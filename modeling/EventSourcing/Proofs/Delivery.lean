/-
# What a subscription delivers

A run reads its source page by page while others go on using the store: between a request and its
answer, and between any two steps of the run.  A page is what the source has behind the cursor at
some time, cut off at the page size; so it is always the beginning of what the source has there now,
as long as nothing of the source is taken away.

What the file settles:

* `Source`: all events of the store, or those of one stream; `Source.readAfter_eq`: a page is a
  piece of them;
* `Delivery.Reachable`: a run together with the store it reads, amid calls of others;
* `delivery_is_exact`: the messages are the first events behind the checkpoint, up to the first
  event that cannot be decoded, on which polling fails.
-/
import EventSourcing.Proofs.Run.Drawing
import EventSourcing.Proofs.Snapshot
import EventSourcing.Proofs.Store.Ledger
import EventSourcing.Subscription.Source

namespace EventSourcing

open MemoryStore Run

variable {F : PayloadFamily} {s : Subscription F}

/-! ## 1. Sources -/

/-- Where a subscription reads: in the whole store, or in one stream of it. -/
inductive Source where
  | all
  | stream (name : StreamName)

namespace Source

/-- A page of the source. -/
def readAfter (source : Source) (after : Option Nat) (count : Nat) (store : MemoryStore) :
    Except StoreError (List StoredEvent) :=
  match source with
  | .all => (EventSource.readAfter after count (AllEvents.mk store)).1
  | .stream name => (EventSource.readAfter after count (OneStream.mk store name)).1

/-- The position of an event in the source. -/
def position : Source → StoredEvent → Nat
  | .all => EventSource.position (AllEvents.mk ({} : MemoryStore))
  | .stream name => EventSource.position (OneStream.mk ({} : MemoryStore) name)

/-- The events of the source. -/
def events : Source → MemoryStore → List StoredEvent
  | .all, store => store.log.toList
  | .stream name, store => if store.hasStream name then store.visible name else []

/-- Between the two stores the stream was neither truncated nor deleted; the whole store has no such
marks. -/
def Untouched : Source → MemoryStore → MemoryStore → Prop
  | .all, _, _ => True
  | .stream name, store, store' => store'.mark name = store.mark name

variable {source : Source} {store store' : MemoryStore}

/-- The events of a source have their positions in it in a row. -/
theorem positions_events (hn : store.Numbered) (source : Source) : ∃ first,
    (source.events store).map source.position = List.range' first (source.events store).length := by
  cases source with
  | all => exact ⟨0, by rw [events, Array.length_toList, ← List.range_eq_range']; exact hn.global⟩
  | stream name =>
    simp only [events]
    split
    · exact ⟨_, places_visible hn name⟩
    · exact ⟨0, rfl⟩

theorem sorted_events (hn : store.Numbered) (source : Source) :
    (source.events store).Pairwise (source.position · < source.position ·) := by
  obtain ⟨first, hrow⟩ := source.positions_events hn
  exact List.pairwise_map.1 (hrow ▸ List.pairwise_lt_range')

/-- A page is the beginning of what is behind the position. -/
theorem readAfter_eq (hglobal : store.log.toList.map (·.globalPosition) = List.range store.log.size)
    (source : Source) (after : Option Nat) (count : Nat) : source.readAfter after count store =
      .ok ((behind source.position after (source.events store)).take count) := by
  rw [behind_eq]
  cases source with
  | all =>
    rw [← Array.length_toList, List.range_eq_range'] at hglobal
    show Except.ok (store.readAll after count) = _
    rw [readAll_eq, events]
    exact congrArg (fun l => Except.ok (List.take count l)) (filter_from_eq_drop _ hglobal _).symm
  | stream name =>
    show OneStream.orEmpty [] (store.read name (nextOf after) count) = _
    rw [MemoryStore.read, events]
    split
    · rfl
    · rw [List.filter_nil, List.take_nil]
      rfl

/-- What a source has stays in front of what comes. -/
theorem events_mono (grown : Grown store store') (untouched : source.Untouched store store') :
    source.events store <+: source.events store' := by
  cases source with
  | all =>
    obtain ⟨more, hmore⟩ := grown.log
    exact ⟨more, hmore.symm⟩
  | stream name =>
    simp only [events]
    split
    · rename_i stands
      obtain ⟨alive, written⟩ := hasStream_iff.1 stands
      have same : store'.mark name = store.mark name := untouched
      have stands' : store'.hasStream name = true := by
        refine hasStream_iff.2 ⟨same ▸ alive, fun hnil => written ?_⟩
        exact List.prefix_nil.1 (hnil ▸ grown.entries name)
      rw [if_pos stands']
      exact grown.visible_prefix (by rw [same])
    · exact List.nil_prefix

end Source

/-! ## 2. A run amid others -/

/-- A run, what it went through, and the store its source reads. -/
structure Delivery (F : PayloadFamily) where
  store : MemoryStore
  history : List (Entry F) := []
  run : Run F := {}

namespace Delivery

variable {source : Source} {d d' : Delivery F}

/-- What the run may be answered: a page is what the source had at some time, and anything else is
free. -/
def Answers (s : Subscription F) (source : Source) (d : Delivery F) : Run.Action → Prop
  | .pageRead (.ok page) => ∃ cursor past, d.run.phase = .reading cursor ∧ Grown past d.store ∧
    source.Untouched past d.store ∧ source.readAfter cursor.after s.options.pageSize past = .ok page
  | _ => True

/-- What can happen while the run is on. -/
inductive Step (s : Subscription F) (source : Source) : Delivery F → Delivery F → Prop where
  /-- Others use the store, and take nothing of the source away. -/
  | stored {d : Delivery F} {store : MemoryStore} (does : Does d.store store)
    (untouched : source.Untouched d.store store) : Step s source d { d with store }
  | acted {d : Delivery F} {a : Run.Action} {r : Run F} {effects : List (Effect F)}
    (made : Run.step s d.run a = some (r, effects)) (answers : d.Answers s source a) :
    Step s source d { d with history := d.history ++ [⟨d.run, a, r, effects⟩], run := r }

/-- What can be come to from a store that was used in any way. -/
inductive Reachable (s : Subscription F) (source : Source) : Delivery F → Prop where
  | start {store : MemoryStore} (calls : Calls {} store) : Reachable s source { store }
  | step {d d' : Delivery F} (before : Reachable s source d) (step : Step s source d d') :
    Reachable s source d'

/-- The run read pages of its source only. -/
structure Sound (s : Subscription F) (source : Source) (d : Delivery F) : Prop where
  numbered : d.store.Numbered
  hist : History s d.history d.run
  reads : ReadsOf (source.events d.store) s d.history

theorem Sound.step (position : s.position = source.position) (sound : d.Sound s source)
    (step : Step s source d d') : d'.Sound s source := by
  cases step with
  | stored does untouched =>
    exact ⟨does.numbered sound.numbered, sound.hist,
      sound.reads.mono (Source.events_mono does.grown untouched)⟩
  | acted made answers =>
    refine ⟨sound.numbered, sound.hist.step made, fun e he cursor page phase action => ?_⟩
    rcases List.mem_append.1 he with old | new
    · exact sound.reads e old cursor page phase action
    · cases List.mem_singleton.1 new
      dsimp only at phase action
      subst action
      obtain ⟨cursor', past, phase', grown, untouched, hpage⟩ := answers
      cases phase.symm.trans phase'
      rw [Source.readAfter_eq (grown.global sound.numbered)] at hpage
      cases hpage
      rw [position]
      exact (List.take_prefix _ _).trans
        (behind_mono (Source.events_mono grown untouched) cursor.after)

theorem Reachable.sound (position : s.position = source.position)
    (reachable : Reachable s source d) : d.Sound s source := by
  induction reachable with
  | start calls =>
    exact ⟨calls.numbered numbered_empty, .begin, fun e he => absurd he List.not_mem_nil⟩
  | step before step ih => exact ih.step position step

/-- The events behind the checkpoint of the run, in the order of the source. -/
def due (source : Source) (d : Delivery F) : List StoredEvent :=
  behind source.position (origin d.history) (source.events d.store)

end Delivery

/-! ## 3. What is delivered -/

/-- The message is made of the event, as the `n`-th of its run. -/
structure Carries (s : Subscription F) (source : Source) (e : StoredEvent) (n : Nat)
    (m : Message F) : Prop where
  sequence : m.sequence = n
  position : m.position.position = source.position e
  id : m.id = e.id
  stream : m.stream = e.stream
  places : m.streamPosition = e.streamPosition ∧ m.globalPosition = e.globalPosition
  metadata : m.metadata = e.metadata
  payload : s.registry.deserialize e.serialized = .ok m.payload

theorem carries_of_decode {source : Source} (position : s.position = source.position)
    {e : StoredEvent} {n : Nat} {m : Message F} (decoded : s.decode e n = .ok m) :
    Carries s source e n m := by
  obtain ⟨payload, known, rfl⟩ := Subscription.message_of_decode decoded
  exact ⟨rfl, congrFun position e, rfl, rfl, ⟨rfl, rfl⟩, rfl, known⟩

/-- The poller fails with the error, and can do nothing else. -/
structure FailsWith (s : Subscription F) (r : Run F) (error : SubscriptionError) : Prop where
  fails : Run.step s r .deliver = some ({ r.drop error with phase := .draining }, [.dropped error])
  only : ∀ a r' effects, Run.step s r a = some (r', effects) → a = .deliver ∨ r'.phase = r.phase

/-- What was handed out, and where this ends. -/
structure ExactPrefix (s : Subscription F) (source : Source) (d : Delivery F) : Prop where
  /-- The messages are the first events that are due, in order. -/
  messages : ∀ n m, (dispatched d.history)[n]? = some m →
    ∃ e, (d.due source)[n]? = some e ∧ Carries s source e n m
  /-- The event that the poller has before it is the next one due. -/
  next : ∀ cursor e rest, d.run.phase = .delivering cursor (e :: rest) →
    (d.due source)[(dispatched d.history).length]? = some e
  /-- An event that cannot be decoded is not handed out, and no later one is. -/
  withheld : ∀ n e reason, (d.due source)[n]? = some e →
    s.registry.deserialize e.serialized = .error reason → (dispatched d.history).length ≤ n
  /-- Polling fails on an event that cannot be decoded. -/
  fails : ∀ cursor e rest reason, d.run.phase = .delivering cursor (e :: rest) →
    s.registry.deserialize e.serialized = .error reason →
    FailsWith s d.run (.undecodable e.id (source.position e) reason)
  /-- The error of a run that failed on an event names the one it did not go past. -/
  failed : ∀ id p reason, Effect.dropped (.undecodable id p reason) ∈ trace d.history →
    ∃ e, (d.due source)[(dispatched d.history).length]? = some e ∧ id = e.id ∧
      p = source.position e ∧ s.registry.deserialize e.serialized = .error reason

/-- **What is delivered.** However the reads of a run go and whatever others append between them,
the messages are at any time the first events behind the checkpoint, and end in front of the first
one that cannot be decoded. -/
theorem delivery_is_exact {source : Source} (position : s.position = source.position)
    {d : Delivery F} (reachable : Delivery.Reachable s source d) : ExactPrefix s source d := by
  obtain ⟨hn, hist, reads⟩ := reachable.sound position
  have hsorted := source.sorted_events hn
  rw [← position] at hsorted
  have hdrawn := drawn hsorted hist reads
  have hfailed := failed hsorted hist reads
  have hdue : d.due source = behind s.position (origin d.history) (source.events d.store) := by
    rw [position]
    rfl
  constructor
  case messages =>
    intro n m hm
    obtain ⟨e, he, decoded⟩ := hdrawn.messages n m hm
    exact ⟨e, hdue ▸ he, carries_of_decode position decoded⟩
  case next => exact fun cursor e rest phase => hdue ▸ hdrawn.next phase
  case withheld =>
    intro n e reason he refused
    by_contra hlt
    obtain ⟨m, hm⟩ : ∃ m, (dispatched d.history)[n]? = some m :=
      ⟨_, List.getElem?_eq_getElem (Nat.lt_of_not_le hlt)⟩
    obtain ⟨e', he', decoded⟩ := hdrawn.messages n m hm
    cases he.symm.trans (hdue ▸ he')
    rw [decode_of_refused refused] at decoded
    cases decoded
  case fails =>
    intro cursor e rest reason phase refused
    rw [← position]
    exact ⟨step_of_refused phase refused,
      fun a r' effects made => (transition_of_step made).delivers phase⟩
  case failed =>
    intro id p reason seen
    obtain ⟨-, e, he, reason', refused, heq⟩ := hfailed id p reason seen
    cases heq
    exact ⟨e, hdue ▸ he, rfl, congrFun position e, refused⟩

section Sample

open Sample

/-- A tick, and behind it an event of a type nobody has registered. -/
def tickAndStranger : List NewEvent := [newTick 0, { newTick 1 with type := "stranger" }]

/-- The store with the two events. -/
def strangerStore : MemoryStore := (MemoryStore.append tallyStream .any tickAndStranger {}).2

/-- The tick is handed out, and polling fails on the event behind it. -/
theorem stranger_ends_delivery : ∃ d : Delivery ticks, Delivery.Reachable (tickFeed none) .all d ∧
    ExactPrefix (tickFeed none) .all d ∧ (dispatched d.history).map (·.id) = [(newTick 0).id] ∧
    d.run.failure = some (.undecodable (newTick 1).id 1 (.registry (.unknownName "stranger"))) := by
  have start : Delivery.Reachable (tickFeed none) .all { store := strangerStore } :=
    .start (.more (.none _) (.append _ tallyStream .any tickAndStranger))
  have subscribed := start.step (.acted (a := .subscribe) rfl trivial)
  have loaded := subscribed.step (.acted (a := .checkpointLoaded (.ok ⟨"feed", none⟩)) rfl trivial)
  have read := loaded.step (.acted (a := .pageRead (.ok (strangerStore.readAll none 100))) rfl
    ⟨_, strangerStore, rfl, Grown.refl _, trivial, rfl⟩)
  have delivered := read.step (.acted (a := .deliver) rfl trivial)
  have failed := delivered.step (.acted (a := .deliver) rfl trivial)
  exact ⟨_, failed, delivery_is_exact rfl failed, rfl, rfl⟩

end Sample

end EventSourcing

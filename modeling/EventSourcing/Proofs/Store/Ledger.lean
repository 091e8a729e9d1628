/-
# A store is a faithful ledger

A store answers a list of changes; what it has accepted of them decides all that can be read from it
afterwards.  `Faithful` says so for any store of which the log can be seen, in terms of its answers
alone.

What the file settles:

* `Change`, `Ledger.after`, `Ledger.accepted`: changes made one after the other, and those that
  succeeded;
* `Observation`: what the calls that read answer, and the log; `Open` and `Closed` for one stream of
  it;
* `Faithful`: what holds after every list of changes;
* `MemoryStore.Keeps`: the marks and the log are those of the accepted changes, kept by every change
  (`Keeps.run`) and so by all of them (`keeps_after`);
* `MemoryStore.faithful`.
-/
import EventSourcing.Proofs.Store.Log

namespace EventSourcing

/-! ## 1. Changes -/

/-- A call that may change a store. -/
inductive Change where
  | append (stream : StreamName) (expected : ExpectedVersion) (events : List NewEvent)
  | truncate (stream : StreamName) (before : Nat) (expected : ExpectedVersion)
  | delete (stream : StreamName) (expected : ExpectedVersion)

namespace Change

/-- Whether the change, if it succeeds, deletes the stream. -/
def deletes (stream : StreamName) : Change → Bool
  | .delete target _ => decide (target = stream)
  | _ => false

/-- The position before which the change, if it succeeds, hides the events of the stream. -/
def hides (stream : StreamName) : Change → Nat
  | .truncate target before _ => if target = stream then before else 0
  | _ => 0

/-- The events the change, if it succeeds, writes, each with its stream. -/
def adds : Change → List (StreamName × NewEvent)
  | .append target _ events => events.map (target, ·)
  | _ => []

/-- Whether the change, if it succeeds, writes to the stream. -/
def writes (stream : StreamName) (change : Change) : Bool := change.adds.any (·.1 = stream)

end Change

/-- Whether one of the changes wrote to the stream. -/
def written (stream : StreamName) (changes : List Change) : Bool := changes.any (·.writes stream)

/-- Whether one of the changes deleted the stream. -/
def deleted (stream : StreamName) (changes : List Change) : Bool := changes.any (·.deletes stream)

/-- The position before which the changes have hidden the events of the stream: the furthest any of
them went. -/
def hidden (stream : StreamName) (changes : List Change) : Nat :=
  (changes.map (·.hides stream)).foldl max 0

section Changes

variable (stream : StreamName) (changes : List Change) (change : Change)

theorem written_eq : written stream changes = (changes.flatMap (·.adds)).any (·.1 = stream) := by
  rw [List.any_flatMap]
  rfl

theorem deleted_concat :
    deleted stream (changes ++ [change]) = (deleted stream changes || change.deletes stream) := by
  simp [deleted]

theorem hidden_concat :
    hidden stream (changes ++ [change]) = max (hidden stream changes) (change.hides stream) := by
  simp [hidden]

end Changes

/-! ## 2. Ledgers -/

/-- A store that begins empty, whose log can be seen and whose clock can be set. -/
class Ledger (σ : Type) extends EventStore σ where
  empty : σ
  log : σ → List StoredEvent
  atTime : Instant → σ → σ

instance : Ledger MemoryStore where
  empty := {}
  log s := s.log.toList
  atTime now s := { s with clock := now }

namespace Ledger

variable {σ : Type} [Ledger σ]

/-- Makes the change. -/
def run : Change → Call σ StoreError (Option Appended)
  | .append stream expected events =>
    fun s => (EventStore.append stream expected events s).map (·.map some) id
  | .truncate stream before expected => fun s =>
    (EventStore.truncate stream before expected s).map (·.map fun _ => none) id
  | .delete stream expected =>
    fun s => (EventStore.delete stream expected s).map (·.map fun _ => none) id

/-- The store after the changes, each made at its time. -/
def after (s : σ) : List (Instant × Change) → σ
  | [] => s
  | (now, change) :: rest => after (run change (atTime now s)).2 rest

/-- The changes that succeed, in order. -/
def accepted (s : σ) : List (Instant × Change) → List Change
  | [] => []
  | (now, change) :: rest =>
    match run change (atTime now s) with
    | (.ok _, s') => change :: accepted s' rest
    | (.error _, s') => accepted s' rest

/-- What the store answers to a change. -/
def answer (s : σ) (now : Instant) (change : Change) : Except StoreError (Option Appended) :=
  (run change (atTime now s)).1

theorem after_append (s : σ) (changes more : List (Instant × Change)) :
    after s (changes ++ more) = after (after s changes) more := by
  induction changes generalizing s with
  | nil => rfl
  | cons step rest ih => exact ih _

theorem after_concat (s : σ) (changes : List (Instant × Change)) (now : Instant) (change : Change) :
    after s (changes ++ [(now, change)]) = (run change (atTime now (after s changes))).2 := by
  rw [after_append]
  rfl

theorem accepted_append (s : σ) (changes more : List (Instant × Change)) :
    accepted s (changes ++ more) = accepted s changes ++ accepted (after s changes) more := by
  induction changes generalizing s with
  | nil => rfl
  | cons step rest ih =>
    obtain ⟨now, change⟩ := step
    rw [List.cons_append, accepted, accepted, after]
    match hrun : run change (atTime now s) with
    | (.ok answer, s') => simpa using ih s'
    | (.error error, s') => exact ih s'

end Ledger

/-! ## 3. What can be seen of a ledger -/

/-- The log of a store and what the calls that read it answer. -/
structure Observation where
  log : List StoredEvent
  readAll : (after : Option Nat) → (count : Nat) → Except StoreError (List StoredEvent)
  head : Except StoreError (Option Nat)
  streamExists : StreamName → Except StoreError Bool
  version : StreamName → Except StoreError (Option Nat)
  read : StreamName → (start count : Nat) → Except StoreError (List StoredEvent)
  readBackwards : StreamName → (count : Nat) → Except StoreError (List StoredEvent)

/-- What can be seen of the store. -/
def observe {σ : Type} [Ledger σ] (s : σ) : Observation where
  log := Ledger.log s
  readAll after count := (EventStore.readAll after count s).1
  head := (EventStore.head s).1
  streamExists stream := (EventStore.streamExists stream s).1
  version stream := (EventStore.version stream s).1
  read stream start count := (EventStore.read stream start count s).1
  readBackwards stream count := (EventStore.readBackwards stream count s).1

namespace Observation

variable (o : Observation) (stream : StreamName)

/-- The events of the stream in the order of the log. -/
def entries : List StoredEvent := o.log.filter (·.stream = stream)

/-- A stream with events that is not deleted: it is read off the log, from `hiddenBefore` on. -/
structure Open (hiddenBefore : Nat) : Prop where
  streamExists : o.streamExists stream = .ok true
  version : ∃ e, (o.entries stream).getLast? = some e ∧
    o.version stream = .ok (some e.streamPosition)
  read : ∀ start count, o.read stream start count =
    .ok (((o.entries stream).filter (max start hiddenBefore ≤ ·.streamPosition)).take count)
  readBackwards : ∀ count, o.readBackwards stream count =
    .ok (((o.entries stream).filter (hiddenBefore ≤ ·.streamPosition)).reverse.take count)

/-- A stream that is not there. -/
structure Closed : Prop where
  streamExists : o.streamExists stream = .ok false
  version : o.version stream = .ok none
  read : ∀ start count, o.read stream start count = .error (.streamNotFound stream)
  readBackwards : ∀ count, o.readBackwards stream count = .error (.streamNotFound stream)

/-- The calls agree on whether the stream is there. -/
structure Agrees : Prop where
  version : o.streamExists stream = .ok true ↔ ∃ position, o.version stream = .ok (some position)
  read : ∀ start count, o.streamExists stream = .ok true ↔
    ∃ events, o.read stream start count = .ok events

variable {o stream}

theorem Open.agrees {hiddenBefore : Nat} (h : o.Open stream hiddenBefore) : o.Agrees stream := by
  obtain ⟨e, -, hversion⟩ := h.version
  exact ⟨iff_of_true h.streamExists ⟨_, hversion⟩,
    fun start count => iff_of_true h.streamExists ⟨_, h.read start count⟩⟩

theorem Closed.agrees (h : o.Closed stream) : o.Agrees stream := by
  constructor
  · simp [h.streamExists, h.version]
  · simp [h.streamExists, h.read]

end Observation

/-- What an append of events adds at the end of the log, and that it adds nothing else. -/
structure Appends (before after : Observation) (stream : StreamName) (now : Instant)
    (events : List NewEvent) (answer : Appended) (added : List StoredEvent) : Prop where
  log : after.log = before.log ++ added
  content : added.map MemoryStore.content = events
  place : ∀ e ∈ added, e.stream = stream ∧ e.occurredOn = now
  streamPositions : added.map (·.streamPosition) =
    List.range' (before.entries stream).length events.length
  globalPositions : added.map (·.globalPosition) = List.range' before.log.length events.length
  nextExpected : answer.nextExpected = .exact ((before.entries stream).length + events.length - 1)
  globalPosition : answer.globalPosition = before.log.length + events.length - 1
  others : ∀ other, other ≠ stream → after.streamExists other = before.streamExists other ∧
    after.version other = before.version other ∧ after.read other = before.read other ∧
    after.readBackwards other = before.readBackwards other

/-- The store after the changes, from the beginning. -/
def Ledger.reached (σ : Type) [Ledger σ] (changes : List (Instant × Change)) : σ :=
  after empty changes

/-- Those of the changes that succeed, from the beginning. -/
def Ledger.taken (σ : Type) [Ledger σ] (changes : List (Instant × Change)) : List Change :=
  accepted (empty : σ) changes

/-- What can be seen after the changes. -/
def Ledger.seen (σ : Type) [Ledger σ] (changes : List (Instant × Change)) : Observation :=
  observe (reached σ changes)

namespace Ledger

variable {σ : Type} [Ledger σ] {changes : List (Instant × Change)} {now : Instant} {change : Change}

theorem reached_snoc :
    reached σ (changes ++ [(now, change)]) = (run change (atTime now (reached σ changes))).2 :=
  after_concat _ _ _ _

/-- A change that succeeds is one more of those that have. -/
theorem taken_snoc {reply : Option Appended}
    (hanswer : answer (reached σ changes) now change = .ok reply) :
    taken σ (changes ++ [(now, change)]) = taken σ changes ++ [change] := by
  rw [taken, accepted_append, ← reached, accepted]
  match hrun : run change (atTime now (reached σ changes)) with
  | (.ok _, s') => rfl
  | (.error error, s') =>
    have hrefused : answer (reached σ changes) now change = .error error := congrArg Prod.fst hrun
    rw [hrefused] at hanswer
    cases hanswer

end Ledger

open Ledger in
/-- What holds of a store after the changes. -/
structure Faithful (σ : Type) [Ledger σ] (changes : List (Instant × Change)) : Prop where
  /-- Events are numbered by their places in the log. -/
  numbered : (seen σ changes).log.map (·.globalPosition) = List.range (seen σ changes).log.length
  /-- Nothing is taken from the log, and nothing is changed in it. -/
  grows : ∀ more, (seen σ changes).log <+: (seen σ (changes ++ more)).log
  /-- Reading all streams gives what the log holds behind a position. -/
  readAll : ∀ after count, (seen σ changes).readAll after count =
    .ok (((seen σ changes).log.drop ((after.map (· + 1)).getD 0)).take count)
  /-- The head is the position of the last event of the log. -/
  head : (seen σ changes).head = .ok ((seen σ changes).log.getLast?.map (·.globalPosition))
  /-- Events are numbered by their places in their streams, too. -/
  placed : ∀ stream, ((seen σ changes).entries stream).map (·.streamPosition) =
    List.range ((seen σ changes).entries stream).length
  /-- The log holds what was written, in order, and nothing else. -/
  content : (seen σ changes).log.map (fun e => (e.stream, MemoryStore.content e)) =
    (taken σ changes).flatMap (·.adds)
  /-- A stream that was written and not deleted is read off the log. -/
  isOpen : ∀ stream, written stream (taken σ changes) = true →
    deleted stream (taken σ changes) = false →
    (seen σ changes).Open stream (hidden stream (taken σ changes))
  /-- A stream that was deleted, or never written, is not there. -/
  isClosed : ∀ stream, deleted stream (taken σ changes) = true ∨
      written stream (taken σ changes) = false → (seen σ changes).Closed stream
  /-- All calls agree on whether a stream is there. -/
  agrees : ∀ stream, (seen σ changes).Agrees stream
  /-- A stream that was deleted gets no event any more. -/
  stays : ∀ stream, deleted stream (taken σ changes) = true → ∀ more,
    (seen σ (changes ++ more)).entries stream = (seen σ changes).entries stream
  /-- A change that is refused changes nothing. -/
  refused : ∀ now change error, answer (reached σ changes) now change = .error error →
    (run change (atTime now (reached σ changes))).2 = atTime now (reached σ changes)
  /-- An append of no events changes nothing. -/
  idle : ∀ now stream expected,
    (run (.append stream expected []) (atTime now (reached σ changes))).2 =
      atTime now (reached σ changes)
  /-- An append that succeeds adds its events and nothing else. -/
  appends : ∀ now stream expected events reply, events ≠ [] →
    answer (reached σ changes) now (.append stream expected events) = .ok (some reply) →
    ∃ added, Appends (seen σ changes)
      (seen σ (changes ++ [(now, .append stream expected events)])) stream now events reply added

/-! ## 4. The store in memory -/

/-- What a call answers whose answer is mapped. -/
theorem map_ok {ε α β σ : Type} {r : Except ε α × σ} {f : α → β} {b : β} {s : σ}
    (h : r.map (·.map f) id = (.ok b, s)) : ∃ a, r = (.ok a, s) ∧ f a = b := by
  obtain ⟨error | a, s⟩ := r <;> cases h
  exact ⟨a, rfl, rfl⟩

theorem map_error {ε α β σ : Type} {r : Except ε α × σ} {f : α → β} {error : ε} {s : σ}
    (h : r.map (·.map f) id = (.error error, s)) : r = (.error error, s) := by
  obtain ⟨error | a, s⟩ := r <;> cases h
  rfl

namespace MemoryStore

open Ledger

variable {acc : List Change} {s s' : MemoryStore} {stream : StreamName} {expected : ExpectedVersion}

/-- What a truncation that succeeds leaves behind. -/
theorem truncate_ok {before : Nat} (h : truncate stream before expected s = (.ok (), s')) :
    s' = { s with
      marks := s.marks.insert stream.text
        ⟨max (s.mark stream).hiddenBefore before, (s.mark stream).deleted⟩ } := by
  unfold truncate at h
  split at h
  · cases h
  · cases h
    rfl

/-- What a deletion that succeeds leaves behind. -/
theorem delete_ok (h : delete stream expected s = (.ok (), s')) :
    s' = { s with marks := s.marks.insert stream.text ⟨(s.mark stream).hiddenBefore, true⟩ } := by
  unfold delete at h
  split at h
  · cases h
  · cases h
    rfl

/-- A change that is refused leaves the store as it is. -/
theorem run_error {change : Change} {error : StoreError} (h : run change s = (.error error, s')) :
    s' = s := by
  cases change with
  | append stream expected events => exact append_error (map_error h)
  | truncate stream before expected =>
    have hcall : truncate stream before expected s = (.error error, s') := map_error h
    unfold truncate at hcall
    split at hcall <;> cases hcall
    rfl
  | delete stream expected =>
    have hcall : delete stream expected s = (.error error, s') := map_error h
    unfold delete at hcall
    split at hcall <;> cases hcall
    rfl

/-- The changes that succeeded have made the store what it is. -/
structure Keeps (acc : List Change) (s : MemoryStore) : Prop where
  numbered : s.Numbered
  content : s.log.toList.map (fun e => (e.stream, content e)) = acc.flatMap (·.adds)
  deleted : ∀ stream, (s.mark stream).deleted = deleted stream acc
  hidden : ∀ stream, (s.mark stream).hiddenBefore = hidden stream acc

theorem keeps_empty : Keeps [] {} := ⟨numbered_empty, rfl, fun _ => rfl, fun _ => rfl⟩

theorem Keeps.atTime (h : Keeps acc s) (now : Instant) : Keeps acc (atTime now s) :=
  ⟨⟨h.numbered.global, h.numbered.places⟩, h.content, h.deleted, h.hidden⟩

theorem adds_block (stream : StreamName) (now : Instant) (position globalPosition : Nat)
    (events : List NewEvent) :
    (block stream now position globalPosition events).map (fun e => (e.stream, content e)) =
      events.map (stream, ·) := by
  induction events generalizing position globalPosition with
  | nil => rfl
  | cons e rest ih =>
    rw [block, List.map_cons, ih]
    rfl

/-- The events of any stream after some were appended to one. -/
theorem entries_of_block {now : Instant} {position globalPosition : Nat} {events : List NewEvent}
    (hlog : s'.log.toList = s.log.toList ++ block stream now position globalPosition events)
    (other : StreamName) :
    s'.entries other =
      s.entries other ++
        if stream = other then block stream now position globalPosition events else [] := by
  rw [entries_append other hlog]
  split
  · rename_i heq
    subst heq
    rw [List.filter_eq_self.2 fun e he => by simpa using stream_of_mem_block _ _ _ _ _ he]
  · rename_i hne
    rw [List.filter_eq_nil_iff.2 fun e he => by
      rw [stream_of_mem_block _ _ _ _ _ he]; simpa using hne]

theorem occurredOn_of_mem_block (stream : StreamName) (now : Instant)
    (position globalPosition : Nat) (events : List NewEvent) {e : StoredEvent}
    (he : e ∈ block stream now position globalPosition events) : e.occurredOn = now := by
  induction events generalizing position globalPosition with
  | nil => cases he
  | cons x rest ih =>
    rcases List.mem_cons.1 he with rfl | he
    · rfl
    · exact ih _ _ he

theorem mark_insert_eq {stream other : StreamName} {mark : StreamMark} :
    ({ s with marks := s.marks.insert stream.text mark } : MemoryStore).mark other =
      if stream = other then mark else s.mark other := by
  obtain ⟨_⟩ := stream
  obtain ⟨_⟩ := other
  rw [mark_insert]
  simp only [StreamName.mk.injEq, eq_comm]

/-- A change that succeeds keeps the store in step with what has succeeded. -/
theorem Keeps.run (h : Keeps acc s) {change : Change} {answer : Option Appended}
    (hrun : run change s = (.ok answer, s')) : Keeps (acc ++ [change]) s' := by
  cases change with
  | append stream expected events =>
    obtain ⟨appended, happend, -⟩ := map_ok hrun
    obtain ⟨halive, -, -, rfl⟩ := append_ok (show append stream expected events s = _ from happend)
    refine ⟨numbered_append h.numbered halive events, ?_, fun other => ?_, fun other => ?_⟩
    · simp only [toList_pushAll, List.map_append, h.content, adds_block, List.flatMap_append,
        List.flatMap_singleton, Change.adds]
    · simp only [deleted_concat, Change.deletes, Bool.or_false]
      exact h.deleted other
    · simp only [hidden_concat, Change.hides, Nat.max_zero]
      exact h.hidden other
  | truncate stream before expected =>
    obtain ⟨⟨⟩, htruncate, -⟩ := map_ok hrun
    rw [truncate_ok htruncate]
    refine ⟨⟨h.numbered.global, h.numbered.places⟩, by simpa [Change.adds] using h.content,
      fun other => ?_, fun other => ?_⟩
    · rw [mark_insert_eq, deleted_concat, ← h.deleted]
      by_cases heq : stream = other <;> simp [heq, Change.deletes]
    · rw [mark_insert_eq, hidden_concat, ← h.hidden]
      by_cases heq : stream = other <;> simp [heq, Change.hides]
  | delete stream expected =>
    obtain ⟨⟨⟩, hdelete, -⟩ := map_ok hrun
    rw [delete_ok hdelete]
    refine ⟨⟨h.numbered.global, h.numbered.places⟩, by simpa [Change.adds] using h.content,
      fun other => ?_, fun other => ?_⟩
    · rw [mark_insert_eq, deleted_concat, ← h.deleted]
      by_cases heq : stream = other <;> simp [heq, Change.deletes]
    · rw [mark_insert_eq, hidden_concat, ← h.hidden]
      by_cases heq : stream = other <;> simp [heq, Change.hides]

theorem keeps_after (h : Keeps acc s) (changes : List (Instant × Change)) :
    Keeps (acc ++ accepted s changes) (after s changes) := by
  induction changes generalizing acc s with
  | nil => simpa [accepted, after] using h
  | cons step rest ih =>
    obtain ⟨now, change⟩ := step
    rw [accepted, after]
    match hrun : Ledger.run change (Ledger.atTime now s) with
    | (.ok answer, s') => simpa using ih ((h.atTime now).run hrun)
    | (.error error, s') =>
      rw [run_error hrun]
      exact ih (h.atTime now)

/-- The stream has no events exactly if nothing was written to it. -/
theorem Keeps.entries_eq_nil (h : Keeps acc s) (stream : StreamName) :
    s.entries stream = [] ↔ written stream acc = false := by
  rw [written_eq, ← h.content, List.any_map, entries, List.filter_eq_nil_iff, List.any_eq_false]
  rfl

theorem Keeps.isOpen (h : Keeps acc s) {stream : StreamName} (hwritten : written stream acc = true)
    (halive : EventSourcing.deleted stream acc = false) :
    (observe s).Open stream (EventSourcing.hidden stream acc) := by
  have hne : s.entries stream ≠ [] := by simp [h.entries_eq_nil, hwritten]
  have hversion : s.version? stream = (s.entries stream).getLast?.map (·.streamPosition) := by
    rw [version?, h.deleted, halive, if_neg Bool.false_ne_true]
  have hlast : (s.entries stream).getLast? = some ((s.entries stream).getLast hne) :=
    List.getLast?_eq_some_getLast hne
  have hstands : s.hasStream stream = true := by simp [hasStream, hversion, hlast]
  constructor
  case streamExists => exact congrArg Except.ok hstands
  case version => exact ⟨_, hlast, congrArg Except.ok (by rw [hversion, hlast]; rfl)⟩
  case read =>
    intro start count
    show s.read stream start count = _
    rw [MemoryStore.read, if_pos hstands, visible, List.filter_filter, h.hidden]
    simp only [Nat.max_le, Bool.decide_and]
    rfl
  case readBackwards =>
    intro count
    show s.readBackwards stream count = _
    rw [MemoryStore.readBackwards, if_pos hstands, visible, h.hidden]
    rfl

theorem Keeps.isClosed (h : Keeps acc s) {stream : StreamName}
    (hgone : EventSourcing.deleted stream acc = true ∨ written stream acc = false) :
    (observe s).Closed stream := by
  have hversion : s.version? stream = none := by
    rcases hgone with hdeleted | hunwritten
    · rw [version?, h.deleted, hdeleted, if_pos rfl]
    · simp [version?, (h.entries_eq_nil stream).2 hunwritten]
  have hstands : s.hasStream stream = false := by simp [hasStream, hversion]
  constructor
  case streamExists => exact congrArg Except.ok hstands
  case version => exact congrArg Except.ok hversion
  case read => exact fun start count => if_neg (by simp [hstands])
  case readBackwards => exact fun count => if_neg (by simp [hstands])

/-- The calls of a store, seen as what they do to it. -/
theorem does_run (s : MemoryStore) (change : Change) : Does s (run change s).2 := by
  cases change with
  | append stream expected events => exact .append s stream expected events
  | truncate stream before expected => exact .truncate s stream before expected
  | delete stream expected => exact .delete s stream expected

theorem Calls.after {s₁ s₂ : MemoryStore} (h : Calls s₁ s₂) (changes : List (Instant × Change)) :
    Calls s₁ (Ledger.after s₂ changes) := by
  induction changes generalizing s₂ with
  | nil => exact h
  | cons step rest ih => exact ih ((h.more (.tick _ step.1)).more (does_run _ step.2))

/-- A change adds no event to a stream that is deleted. -/
theorem entries_run (s : MemoryStore) {stream : StreamName}
    (hdeleted : (s.mark stream).deleted = true) (change : Change) :
    (run change s).2.entries stream = s.entries stream := by
  match hrun : run change s with
  | (.error error, s') => rw [run_error hrun]
  | (.ok answer, s') =>
    cases change with
    | append target expected events =>
      obtain ⟨appended, happend, -⟩ := map_ok hrun
      obtain ⟨halive, -, -, rfl⟩ :=
        append_ok (show append target expected events s = _ from happend)
      have hother : target ≠ stream := by
        rintro rfl
        rw [hdeleted] at halive
        cases halive
      rw [entries_of_block (toList_pushAll _ _ _ _ _), if_neg hother, List.append_nil]
    | truncate target before expected =>
      obtain ⟨⟨⟩, htruncate, -⟩ := map_ok hrun
      rw [truncate_ok htruncate]
      rfl
    | delete target expected =>
      obtain ⟨⟨⟩, hdelete, -⟩ := map_ok hrun
      rw [delete_ok hdelete]
      rfl

theorem entries_after (s : MemoryStore) {stream : StreamName}
    (hdeleted : (s.mark stream).deleted = true) (changes : List (Instant × Change)) :
    (after s changes).entries stream = s.entries stream := by
  induction changes generalizing s with
  | nil => rfl
  | cons step rest ih =>
    obtain ⟨now, change⟩ := step
    have htimed : ((atTime now s).mark stream).deleted = true := hdeleted
    rw [after, ih _ ((does_run _ change).grown.deleted stream htimed), entries_run _ htimed]
    rfl

/-- Marks and events of a stream are all that can be seen of it. -/
theorem others_eq {other : StreamName} (hmark : s'.mark other = s.mark other)
    (hentries : s'.entries other = s.entries other) :
    (observe s').streamExists other = (observe s).streamExists other ∧
      (observe s').version other = (observe s).version other ∧
      (observe s').read other = (observe s).read other ∧
      (observe s').readBackwards other = (observe s).readBackwards other := by
  have hversion : s'.version? other = s.version? other := by
    rw [version?, version?, hmark, hentries]
  have hstands : s'.hasStream other = s.hasStream other := by rw [hasStream, hasStream, hversion]
  have hvisible : s'.visible other = s.visible other := by rw [visible, visible, hmark, hentries]
  refine ⟨congrArg Except.ok hstands, congrArg Except.ok hversion, ?_, ?_⟩
  · funext start count
    show s'.read other start count = s.read other start count
    rw [MemoryStore.read, MemoryStore.read, hstands, hvisible]
  · funext count
    show s'.readBackwards other count = s.readBackwards other count
    rw [MemoryStore.readBackwards, MemoryStore.readBackwards, hstands, hvisible]

/-- What an append that succeeds adds. -/
theorem Keeps.appends (h : Keeps acc s) (now : Instant) {events : List NewEvent} {reply : Appended}
    (hevents : events ≠ [])
    (happend : append stream expected events (Ledger.atTime now s) = (.ok reply, s')) :
    ∃ added, Appends (observe s) (observe s') stream now events reply added := by
  have hn := (h.atTime now).numbered
  obtain ⟨-, -, added, -, -, hnext⟩ := added_of_append hn happend
  obtain ⟨halive, -, hreply, hs'⟩ := append_ok happend
  rw [next_eq hn halive] at hs'
  have hlog : s'.log.toList =
      s.log.toList ++ block stream now (s.entries stream).length s.log.size events := by
    rw [hs', toList_pushAll]
    rfl
  refine ⟨block stream now (s.entries stream).length s.log.size events, ?_⟩
  constructor
  case log => exact hlog
  case content => exact content_block _ _ _ _ _
  case place =>
    exact fun e he => ⟨stream_of_mem_block _ _ _ _ _ he, occurredOn_of_mem_block _ _ _ _ _ he⟩
  case streamPositions => exact streamPosition_block _ _ _ _ _
  case globalPositions => exact globalPosition_block _ _ _ _ _
  case nextExpected => exact hnext hevents
  case globalPosition =>
    have hsize := congrArg List.length hlog
    rw [List.length_append, length_block, Array.length_toList] at hsize
    rw [hreply]
    exact congrArg (· - 1) hsize
  case others =>
    intro other hother
    exact others_eq (by rw [hs']; rfl)
      (by rw [entries_of_block hlog, if_neg (Ne.symm hother), List.append_nil])

theorem grown_after (s : MemoryStore) (changes : List (Instant × Change)) :
    Grown s (after s changes) :=
  ((Calls.none s).after changes).grown

theorem head?_eq (s : MemoryStore) : s.head? = s.log.toList.getLast?.map (·.globalPosition) := by
  rw [MemoryStore.head?, Array.getLast?_toList]

/-- The store in memory is a faithful ledger. -/
theorem faithful (changes : List (Instant × Change)) : Faithful MemoryStore changes := by
  have hkeeps : Keeps (taken MemoryStore changes) (reached MemoryStore changes) :=
    keeps_after keeps_empty changes
  have hmore : ∀ more,
      reached MemoryStore (changes ++ more) = after (reached MemoryStore changes) more :=
    fun more => after_append _ _ _
  constructor
  case numbered => exact hkeeps.numbered.global
  case grows =>
    intro more
    obtain ⟨added, hadded⟩ := (grown_after (reached MemoryStore changes) more).log
    exact ⟨added, by rw [seen, seen, hmore]; exact hadded.symm⟩
  case readAll => exact fun after count => congrArg Except.ok (readAll_eq _ after count)
  case head => exact congrArg Except.ok (head?_eq _)
  case placed => exact hkeeps.numbered.places
  case content => exact hkeeps.content
  case isOpen => exact fun stream => hkeeps.isOpen
  case isClosed => exact fun stream => hkeeps.isClosed
  case agrees =>
    intro stream
    cases hdeleted : deleted stream (taken MemoryStore changes) with
    | true => exact (hkeeps.isClosed (.inl hdeleted)).agrees
    | false =>
      cases hwritten : written stream (taken MemoryStore changes) with
      | true => exact (hkeeps.isOpen hwritten hdeleted).agrees
      | false => exact (hkeeps.isClosed (.inr hwritten)).agrees
  case stays =>
    intro stream hdeleted more
    rw [← hkeeps.deleted] at hdeleted
    rw [seen, hmore]
    exact entries_after _ hdeleted more
  case refused => exact fun now change error hrefused => run_error (Prod.ext hrefused rfl)
  case idle =>
    intro now stream expected
    match hrun : run (.append stream expected []) (atTime now (reached MemoryStore changes)) with
    | (.error error, s') => exact run_error hrun
    | (.ok reply, s') =>
      obtain ⟨appended, happend, -⟩ := map_ok hrun
      exact (append_ok (show append stream expected [] _ = _ from happend)).2.2.2
  case appends =>
    intro now stream expected events reply hevents hanswer
    obtain ⟨appended, happend, hreply⟩ := map_ok (show run (.append stream expected events)
      (atTime now (reached MemoryStore changes)) = (.ok (some reply), _) from Prod.ext hanswer rfl)
    cases hreply
    rw [seen, seen, reached, reached, after_concat]
    exact hkeeps.appends now hevents happend

end MemoryStore

end EventSourcing

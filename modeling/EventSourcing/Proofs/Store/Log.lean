/-
# The log of a store

Calls add to the end of the log and move marks forward, and nothing else.  The positions written
into the events are the places they have in the log and in their stream, so a page is a piece of the
stream's events.

What the file settles:

* `Grown`: what every call does to the store, whatever it answers;
* `Numbered`: events carry their places, kept by every call (`numbered_append`);
* `version?_eq`, `read_eq`: what is read off a stream that is not deleted and not hidden;
* `append_ok`, `added_of_append`: what an append that succeeds leaves behind;
* `Calls`: any number of calls one after the other.
-/
import EventSourcing.Store.Memory

namespace EventSourcing
namespace MemoryStore

/-! ## 1. Growth -/

/-- The log has grown at its end, and the marks have only moved forward. -/
structure Grown (s s' : MemoryStore) : Prop where
  log : ∃ more, s'.log.toList = s.log.toList ++ more
  hidden : ∀ stream, (s.mark stream).hiddenBefore ≤ (s'.mark stream).hiddenBefore
  deleted : ∀ stream, (s.mark stream).deleted = true → (s'.mark stream).deleted = true

theorem Grown.refl (s : MemoryStore) : Grown s s :=
  ⟨⟨[], by simp⟩, fun _ => Nat.le_refl _, fun _ => id⟩

theorem Grown.trans {s₁ s₂ s₃ : MemoryStore} (h : Grown s₁ s₂) (h' : Grown s₂ s₃) :
    Grown s₁ s₃ := by
  obtain ⟨more, hmore⟩ := h.log
  obtain ⟨more', hmore'⟩ := h'.log
  exact ⟨⟨more ++ more', by rw [hmore', hmore, List.append_assoc]⟩,
    fun stream => Nat.le_trans (h.hidden stream) (h'.hidden stream),
    fun stream hd => h'.deleted stream (h.deleted stream hd)⟩

/-- The events of a stream stay where they are. -/
theorem Grown.entries {s s' : MemoryStore} (h : Grown s s') (stream : StreamName) :
    s.entries stream <+: s'.entries stream := by
  obtain ⟨more, hmore⟩ := h.log
  rw [MemoryStore.entries, MemoryStore.entries, hmore, List.filter_append]
  exact List.prefix_append _ _

theorem Grown.visible {s s' : MemoryStore} (h : Grown s s') {stream : StreamName}
    (hvisible : (s'.mark stream).hiddenBefore = 0) : (s.mark stream).hiddenBefore = 0 :=
  Nat.le_zero.1 (hvisible ▸ h.hidden stream)

theorem Grown.alive {s s' : MemoryStore} (h : Grown s s') {stream : StreamName}
    (halive : (s'.mark stream).deleted = false) : (s.mark stream).deleted = false := by
  cases hd : (s.mark stream).deleted with
  | false => rfl
  | true => rw [h.deleted stream hd] at halive; cases halive

/-! ## 2. What an append writes -/

/-- The events as they are kept from the given positions on. -/
def block (stream : StreamName) (now : Instant) :
    (position globalPosition : Nat) → List NewEvent → List StoredEvent
  | _, _, [] => []
  | position, globalPosition, e :: rest =>
    stored e stream now position globalPosition ::
      block stream now (position + 1) (globalPosition + 1) rest

/-- What a stored event has from the writer. -/
def content (e : StoredEvent) : NewEvent := ⟨e.id, e.type, e.contentType, e.payload, e.metadata⟩

theorem toList_pushAll (stream : StreamName) (now : Instant) (events : List NewEvent)
    (position : Nat) (log : Array StoredEvent) :
    (pushAll stream now position log events).toList =
      log.toList ++ block stream now position log.size events := by
  induction events generalizing position log with
  | nil => simp [pushAll, block]
  | cons e rest ih => simp [pushAll, block, ih]

section Block

variable (stream : StreamName) (now : Instant) (position globalPosition : Nat)
  (events : List NewEvent)

theorem length_block :
    (block stream now position globalPosition events).length = events.length := by
  induction events generalizing position globalPosition with
  | nil => rfl
  | cons e rest ih => simp [block, ih]

theorem streamPosition_block :
    (block stream now position globalPosition events).map (·.streamPosition) =
      List.range' position events.length := by
  induction events generalizing position globalPosition with
  | nil => rfl
  | cons e rest ih => simp [block, ih, stored, List.range'_succ]

theorem globalPosition_block :
    (block stream now position globalPosition events).map (·.globalPosition) =
      List.range' globalPosition events.length := by
  induction events generalizing position globalPosition with
  | nil => rfl
  | cons e rest ih => simp [block, ih, stored, List.range'_succ]

theorem stream_of_mem_block {e : StoredEvent}
    (he : e ∈ block stream now position globalPosition events) : e.stream = stream := by
  induction events generalizing position globalPosition with
  | nil => cases he
  | cons x rest ih =>
    rcases List.mem_cons.1 he with rfl | he
    · rfl
    · exact ih _ _ he

theorem content_block : (block stream now position globalPosition events).map content = events := by
  induction events generalizing position globalPosition with
  | nil => rfl
  | cons e rest ih => simp [block, ih, stored, content]

end Block

/-! ## 3. Numbers -/

/-- Every event carries its place in the log and its place in its stream. -/
structure Numbered (s : MemoryStore) : Prop where
  global : s.log.toList.map (·.globalPosition) = List.range s.log.size
  places : ∀ stream,
    (s.entries stream).map (·.streamPosition) = List.range (s.entries stream).length

theorem numbered_empty : Numbered {} := ⟨rfl, fun _ => rfl⟩

theorem entries_append (stream : StreamName) {s s' : MemoryStore} {more : List StoredEvent}
    (hlog : s'.log.toList = s.log.toList ++ more) :
    s'.entries stream = s.entries stream ++ more.filter (·.stream = stream) := by
  rw [entries, entries, hlog, List.filter_append]

/-- The version of a stream that is not deleted is the place of its last event. -/
theorem version?_eq {s : MemoryStore} (hn : Numbered s) {stream : StreamName}
    (halive : (s.mark stream).deleted = false) :
    s.version? stream =
      if s.entries stream = [] then none else some ((s.entries stream).length - 1) := by
  have hplaces := congrArg List.getLast? (hn.places stream)
  rw [List.getLast?_map, List.getLast?_range] at hplaces
  unfold version?
  rw [halive, if_neg Bool.false_ne_true, hplaces]
  by_cases hempty : s.entries stream = []
  · simp [hempty]
  · have hlength : (s.entries stream).length ≠ 0 :=
      fun h => hempty (List.eq_nil_of_length_eq_zero h)
    simp [hempty]

/-- The place of the next event of a stream that is not deleted. -/
theorem next_eq {s : MemoryStore} (hn : Numbered s)
    {stream : StreamName} (halive : (s.mark stream).deleted = false) :
    ((s.version? stream).map (· + 1)).getD 0 = (s.entries stream).length := by
  rw [version?_eq hn halive]
  by_cases hempty : s.entries stream = []
  · simp [hempty]
  · have hpos : 0 < (s.entries stream).length := List.length_pos_iff.2 hempty
    simp only [if_neg hempty, Option.map_some, Option.getD_some]
    omega

theorem numbered_append {s : MemoryStore} (hn : Numbered s) {stream : StreamName}
    (halive : (s.mark stream).deleted = false)
    (events : List NewEvent) :
    Numbered { s with
      log := pushAll stream s.clock (((s.version? stream).map (· + 1)).getD 0) s.log events } := by
  rw [next_eq hn halive]
  have hlog := toList_pushAll stream s.clock events (s.entries stream).length s.log
  have hentries : ∀ other,
      ({ s with log := pushAll stream s.clock (s.entries stream).length s.log events } :
        MemoryStore).entries other = _ := fun other => entries_append other hlog
  constructor
  · have hsize : (pushAll stream s.clock (s.entries stream).length s.log events).size =
        s.log.size + events.length := by
      rw [← Array.length_toList, hlog, List.length_append, length_block, Array.length_toList]
    rw [hlog, hsize, List.map_append, hn.global, globalPosition_block, List.range_eq_range',
      List.range_eq_range', ← List.range'_append_1, Nat.zero_add]
  · intro other
    rw [hentries other]
    by_cases heq : stream = other
    · subst heq
      have hall : (block stream s.clock (s.entries stream).length s.log.size events).filter
          (·.stream = stream) =
          block stream s.clock (s.entries stream).length s.log.size events :=
        List.filter_eq_self.2 fun e he => by simpa using stream_of_mem_block _ _ _ _ _ he
      rw [hall, List.map_append, hn.places, streamPosition_block, List.length_append, length_block,
        List.range_eq_range', List.range_eq_range', ← List.range'_append_1, Nat.zero_add]
    · have hnone : (block stream s.clock (s.entries stream).length s.log.size events).filter
          (·.stream = other) = [] :=
        List.filter_eq_nil_iff.2 fun e he => by
          rw [stream_of_mem_block _ _ _ _ _ he]
          simpa using heq
      rw [hnone, List.append_nil]
      exact hn.places other

/-! ## 4. Reading -/

/-- Of events numbered in a row, those from a number on are what is left after dropping the ones
before. -/
theorem filter_from_eq_drop (f : StoredEvent → Nat) {l : List StoredEvent} {first : Nat}
    (numbers : l.map f = List.range' first l.length) (start : Nat) :
    l.filter (start ≤ f ·) = l.drop (start - first) := by
  induction l generalizing first with
  | nil => simp
  | cons e rest ih =>
    rw [List.map_cons, List.length_cons, List.range'_succ] at numbers
    obtain ⟨he, hrest⟩ := List.cons.inj numbers
    by_cases hle : start ≤ first
    · have hall : ∀ x ∈ rest, start ≤ f x := by
        intro x hx
        have hmem : f x ∈ List.range' (first + 1) rest.length := hrest ▸ List.mem_map_of_mem hx
        have := (List.mem_range'_1.1 hmem).1
        omega
      rw [Nat.sub_eq_zero_of_le hle, List.drop_zero, List.filter_cons_of_pos
        (by simpa [he] using hle), List.filter_eq_self.2 (fun x hx => by simpa using hall x hx)]
    · rw [List.filter_cons_of_neg (by simpa [he] using hle), ih hrest,
        show start - first = (start - (first + 1)) + 1 by omega, List.drop_succ_cons]

/-- Of events that carry their places, those from a place on are what is left after dropping the
ones before. -/
theorem filter_place_eq_drop {l : List StoredEvent} {first : Nat}
    (hplaces : l.map (·.streamPosition) = List.range' first l.length) (start : Nat) :
    l.filter (start ≤ ·.streamPosition) = l.drop (start - first) :=
  filter_from_eq_drop _ hplaces start

/-- The pieces of events that carry their places carry them too. -/
theorem places_of_append {l l' : List StoredEvent} {first : Nat}
    (hplaces : (l ++ l').map (·.streamPosition) = List.range' first (l ++ l').length) :
    l.map (·.streamPosition) = List.range' first l.length ∧
      l'.map (·.streamPosition) = List.range' (first + l.length) l'.length := by
  rw [List.map_append, List.length_append, ← List.range'_append_1] at hplaces
  exact List.append_inj hplaces (by simp)

/-- A page of a stream has the places that come next. -/
theorem places_of_page {s : MemoryStore} (hn : s.Numbered) {stream : StreamName}
    {stored rest : List StoredEvent} (hentries : s.entries stream = stored ++ rest) (size : Nat) :
    (rest.take size).map (·.streamPosition) =
      List.range' stored.length (rest.take size).length := by
  have hplaces := hn.places stream
  rw [hentries, List.range_eq_range'] at hplaces
  have hrest := (places_of_append hplaces).2
  rw [← List.take_append_drop size rest, Nat.zero_add] at hrest
  exact (places_of_append hrest).1

theorem visible_eq {s : MemoryStore} {stream : StreamName}
    (hvisible : (s.mark stream).hiddenBefore = 0) : s.visible stream = s.entries stream := by
  simp [visible, hvisible]

/-- A stream is there once it was written, and until it is deleted. -/
theorem hasStream_iff {s : MemoryStore} {stream : StreamName} :
    s.hasStream stream = true ↔ (s.mark stream).deleted = false ∧ s.entries stream ≠ [] := by
  rw [hasStream, version?]
  cases (s.mark stream).deleted <;> simp

/-- A page of a stream of which nothing is hidden is a piece of its events. -/
theorem read_eq {s : MemoryStore} (hn : Numbered s) {stream : StreamName}
    (hvisible : (s.mark stream).hiddenBefore = 0) (start count : Nat) : s.read stream start count =
      if (s.mark stream).deleted = true ∨ s.entries stream = [] then .error (.streamNotFound stream)
      else .ok (((s.entries stream).drop start).take count) := by
  unfold read hasStream
  cases hd : (s.mark stream).deleted with
  | true => simp [version?, hd]
  | false =>
    have hplaces := hn.places stream
    rw [List.range_eq_range'] at hplaces
    rw [version?_eq hn hd, visible_eq hvisible, filter_place_eq_drop hplaces]
    by_cases hempty : s.entries stream = [] <;> simp [hempty]

/-- A page of the log is a piece of it. -/
theorem readAll_eq (s : MemoryStore) (after : Option Nat) (count : Nat) :
    s.readAll after count = (s.log.toList.drop ((after.map (· + 1)).getD 0)).take count := by
  unfold readAll
  rw [Array.toList_extract, List.extract_eq_take_drop, Nat.add_sub_cancel_left]

/-- A page of the log has the positions behind the given one, in a row. -/
theorem globalPosition_readAll {s : MemoryStore}
    (hglobal : s.log.toList.map (·.globalPosition) = List.range s.log.size) (after : Option Nat)
    (count : Nat) : (s.readAll after count).map (·.globalPosition) =
      List.range' ((after.map (· + 1)).getD 0) (s.readAll after count).length := by
  rw [readAll_eq, List.map_take, List.map_drop, hglobal, List.range_eq_range', List.drop_range',
    List.length_take, List.length_drop, Array.length_toList, Nat.zero_add, Nat.mul_one]
  rcases Nat.le_total (s.log.size - (after.map (· + 1)).getD 0) count with hle | hle
  · rw [List.take_range'_of_length_le hle, Nat.min_eq_right hle]
  · rw [List.take_range'_of_length_ge hle, Nat.min_eq_left hle]

theorem mem_of_readAll {s : MemoryStore} {after : Option Nat} {count : Nat} {e : StoredEvent}
    (he : e ∈ s.readAll after count) : e ∈ s.log.toList := by
  rw [readAll_eq] at he
  exact List.mem_of_mem_drop (List.mem_of_mem_take he)

/-- What was numbered earlier on is numbered. -/
theorem Grown.global {s s' : MemoryStore} (h : Grown s s') (hn : Numbered s') :
    s.log.toList.map (·.globalPosition) = List.range s.log.size := by
  obtain ⟨more, hmore⟩ := h.log
  have hglobal := hn.global
  rw [← Array.length_toList, hmore, List.map_append, List.length_append, List.range_eq_range',
    ← List.range'_append_1] at hglobal
  rw [← Array.length_toList, List.range_eq_range']
  exact (List.append_inj hglobal (by simp)).1

theorem Grown.mem {s s' : MemoryStore} (h : Grown s s') {e : StoredEvent} (he : e ∈ s.log.toList) :
    e ∈ s'.log.toList := by
  obtain ⟨more, hmore⟩ := h.log
  rw [hmore]
  exact List.mem_append_left more he

/-! ## 5. Calls -/

theorem mark_congr {s s' : MemoryStore} (h : s'.marks = s.marks) (stream : StreamName) :
    s'.mark stream = s.mark stream := by
  unfold MemoryStore.mark
  rw [h]

theorem mark_insert {s : MemoryStore} {stream other : StreamName} {mark : StreamMark} :
    ({ s with marks := s.marks.insert stream.text mark } : MemoryStore).mark other =
      if other.text = stream.text then mark else s.mark other := by
  unfold MemoryStore.mark
  rw [Table.get?_insert]
  split <;> rfl

/-- What an append that succeeds leaves behind. -/
theorem append_ok {s s' : MemoryStore} {stream : StreamName}
    {expected : ExpectedVersion} {events : List NewEvent} {answer : Appended}
    (h : append stream expected events s = (.ok answer, s')) :
    (s.mark stream).deleted = false ∧ expected.accepts (s.version? stream) = true ∧
      answer = ⟨.ofVersion (s'.version? stream), s'.lastPosition⟩ ∧
      s' = { s with
        log :=
          pushAll stream s.clock (((s.version? stream).map (· + 1)).getD 0) s.log events } := by
  unfold append checkVersion at h
  split at h
  · cases h
  · rename_i halive
    split at h
    · cases h
    · rename_i hcheck
      split at hcheck
      · rename_i haccepts
        cases h
        exact ⟨by simpa using halive, haccepts, rfl, rfl⟩
      · cases hcheck

/-- An append to a stream that is not deleted succeeds if its expectation fits. -/
theorem append_of_accepts {s : MemoryStore} {stream : StreamName} {expected : ExpectedVersion}
    (halive : (s.mark stream).deleted = false)
    (haccepts : expected.accepts (s.version? stream) = true) (events : List NewEvent) :
    ∃ answer s', append stream expected events s = (.ok answer, s') := by
  unfold append checkVersion
  rw [halive, if_neg Bool.false_ne_true, if_pos haccepts]
  exact ⟨_, _, rfl⟩

/-- An append that fails leaves the store as it is. -/
theorem append_error {s s' : MemoryStore} {stream : StreamName}
    {expected : ExpectedVersion} {events : List NewEvent} {error : StoreError}
    (h : append stream expected events s = (.error error, s')) : s' = s := by
  unfold append at h
  split at h
  · cases h
    rfl
  · split at h <;> cases h
    rfl

/-- The events of the stream after an append that succeeds. -/
theorem entries_of_append {s : MemoryStore} (hn : Numbered s) {stream : StreamName}
    (halive : (s.mark stream).deleted = false) (events : List NewEvent) :
    ({ s with
      log := pushAll stream s.clock (((s.version? stream).map (· + 1)).getD 0) s.log events } :
      MemoryStore).entries stream =
      s.entries stream ++ block stream s.clock (s.entries stream).length s.log.size events := by
  rw [next_eq hn halive, entries_append stream (toList_pushAll stream s.clock events _ s.log)]
  congr 1
  exact List.filter_eq_self.2 fun e he => by simpa using stream_of_mem_block _ _ _ _ _ he

/-- What an append adds to its stream; the version it answers is that of the last event. -/
theorem added_of_append {s s' : MemoryStore} (hn : Numbered s) {stream : StreamName}
    {expected : ExpectedVersion} {events : List NewEvent} {answer : Appended}
    (h : append stream expected events s = (.ok answer, s')) :
    s'.Numbered ∧ s'.marks = s.marks ∧ ∃ added, s'.entries stream = s.entries stream ++ added ∧
      added.map content = events ∧
      (events ≠ [] →
        answer.nextExpected = .exact ((s.entries stream).length + events.length - 1)) := by
  obtain ⟨halive, -, rfl, hs'⟩ := append_ok h
  have hn' : Numbered s' := hs' ▸ numbered_append hn halive events
  have halive' : (s'.mark stream).deleted = false := by rw [hs']; exact halive
  have hentries : s'.entries stream =
      s.entries stream ++ block stream s.clock (s.entries stream).length s.log.size events := by
    rw [hs', entries_of_append hn halive]
  refine ⟨hn', by rw [hs'], _, hentries, content_block _ _ _ _ _, fun hevents => ?_⟩
  have hne : s'.entries stream ≠ [] := by
    rw [hentries]
    intro hnil
    have := congrArg List.length (List.append_eq_nil_iff.1 hnil).2
    rw [length_block] at this
    exact hevents (List.eq_nil_of_length_eq_zero this)
  show ExpectedVersion.ofVersion (s'.version? stream) = _
  rw [version?_eq hn' halive', if_neg hne, hentries, List.length_append, length_block]
  rfl

/-- The change a single call makes, or the passing of time. -/
inductive Does : MemoryStore → MemoryStore → Prop where
  | append (s : MemoryStore) (stream : StreamName) (expected : ExpectedVersion)
    (events : List NewEvent) :
    Does s (append stream expected events s).2
  | truncate (s : MemoryStore) (stream : StreamName) (before : Nat) (expected : ExpectedVersion) :
    Does s (truncate stream before expected s).2
  | delete (s : MemoryStore) (stream : StreamName) (expected : ExpectedVersion) :
    Does s (delete stream expected s).2
  | tick (s : MemoryStore) (now : Instant) : Does s { s with clock := now }

/-- The changes any number of calls make, one after the other. -/
inductive Calls : MemoryStore → MemoryStore → Prop where
  | none (s : MemoryStore) : Calls s s
  | more {s₁ s₂ s₃ : MemoryStore} (before : Calls s₁ s₂) (does : Does s₂ s₃) : Calls s₁ s₃

theorem grown_of_mark {s : MemoryStore} {stream : StreamName} {mark : StreamMark}
    (hhidden : (s.mark stream).hiddenBefore ≤ mark.hiddenBefore)
    (hdeleted : (s.mark stream).deleted = true → mark.deleted = true) :
    Grown s { s with marks := s.marks.insert stream.text mark } := by
  have heq : ∀ other : StreamName, other.text = stream.text → other = stream := by
    rintro ⟨_⟩ rfl
    rfl
  refine ⟨⟨[], by simp⟩, fun other => ?_, fun other hd => ?_⟩
  · rw [mark_insert]
    split
    · rename_i h
      rw [heq other h]
      exact hhidden
    · exact Nat.le_refl _
  · rw [mark_insert]
    split
    · rename_i h
      rw [heq other h] at hd
      exact hdeleted hd
    · exact hd

theorem Does.grown {s s' : MemoryStore} (h : Does s s') : Grown s s' := by
  cases h with
  | append stream expected events =>
    match happend : MemoryStore.append stream expected events s with
    | (.ok answer, s') =>
      obtain ⟨-, -, -, rfl⟩ := append_ok happend
      exact ⟨⟨_, toList_pushAll _ _ _ _ _⟩, fun _ => Nat.le_refl _, fun _ => id⟩
    | (.error error, s') =>
      rw [append_error happend]
      exact Grown.refl s
  | truncate stream before expected =>
    unfold MemoryStore.truncate
    split
    · exact Grown.refl s
    · exact grown_of_mark (Nat.le_max_left _ _) id
  | delete stream expected =>
    unfold MemoryStore.delete
    split
    · exact Grown.refl s
    · exact grown_of_mark (Nat.le_refl _) fun _ => rfl
  | tick now => exact ⟨⟨[], by simp⟩, fun _ => Nat.le_refl _, fun _ => id⟩

theorem Does.numbered {s s' : MemoryStore} (h : Does s s') (hn : Numbered s) : Numbered s' := by
  cases h with
  | append stream expected events =>
    match happend : MemoryStore.append stream expected events s with
    | (.ok answer, s') =>
      obtain ⟨halive, -, -, rfl⟩ := append_ok happend
      exact numbered_append hn halive events
    | (.error error, s') =>
      rw [append_error happend]
      exact hn
  | truncate stream before expected =>
    unfold MemoryStore.truncate
    split
    · exact hn
    · exact ⟨hn.global, hn.places⟩
  | delete stream expected =>
    unfold MemoryStore.delete
    split
    · exact hn
    · exact ⟨hn.global, hn.places⟩
  | tick now => exact ⟨hn.global, hn.places⟩

theorem Calls.grown {s s' : MemoryStore} (h : Calls s s') : Grown s s' := by
  induction h with
  | none => exact Grown.refl _
  | more _ does ih => exact ih.trans does.grown

theorem Calls.numbered {s s' : MemoryStore} (h : Calls s s') (hn : Numbered s) : Numbered s' := by
  induction h with
  | none => exact hn
  | more _ does ih => exact does.numbered ih

end MemoryStore
end EventSourcing

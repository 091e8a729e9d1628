/-
# A store with shelves is the store in memory

`ShelvedStore` keeps every event twice and `MemoryStore` once.  Each shelf is what the log and the
marks say of its stream (`MemoryStore.shelf?`); a change made to both stores is answered alike and
keeps it so, and what can be seen of the two is the same.

What the file settles:

* `ShelvedStore.Mirrors`: the two copies of every event agree with the one;
* `Mirrors.run`, `Mirrors.after`: a change, and a list of changes;
* `Mirrors.observe`: what can be seen of the two;
* `ShelvedStore.run_error`, `ShelvedStore.run_nothing`: what leaves a store with shelves as it is;
* `shelved_faithful`: both stores are faithful ledgers, with the same answers.
-/
import EventSourcing.Store.Shelved
import EventSourcing.Proofs.Store.Ledger

namespace EventSourcing

/-! ## 1. The shelf of a stream in the log -/

/-- What would be on the shelf of the stream. -/
def MemoryStore.shelf (t : MemoryStore) (stream : StreamName) : Shelf where
  events := if (t.mark stream).deleted then #[] else (t.entries stream).toArray
  hiddenBefore := (t.mark stream).hiddenBefore
  deleted := (t.mark stream).deleted

/-- The shelf of the stream, once it has an event. -/
def MemoryStore.shelf? (t : MemoryStore) (stream : StreamName) : Option Shelf :=
  if t.entries stream = [] then none else some (t.shelf stream)

namespace MemoryStore

variable (t : MemoryStore) (stream : StreamName)

theorem version?_shelf : (t.shelf stream).version? = t.version? stream := by
  unfold shelf Shelf.version? version?
  split <;> simp

theorem visible_shelf (halive : (t.mark stream).deleted = false) :
    (t.shelf stream).visible = t.visible stream := by
  unfold shelf Shelf.visible visible
  simp [halive]

theorem version?_of_entries (hempty : t.entries stream = []) : t.version? stream = none := by
  simp [version?, hempty]

theorem isKnown_eq : t.isKnown stream = !(t.entries stream).isEmpty := by
  rw [Bool.eq_iff_iff, isKnown, Array.any_eq_true']
  simp [entries]

end MemoryStore

instance : Ledger ShelvedStore where
  empty := {}
  log s := s.log.toList
  atTime now s := { s with clock := now }

namespace ShelvedStore

open Ledger

variable {s s' : ShelvedStore} {t : MemoryStore} {stream : StreamName} {expected : ExpectedVersion}

/-! ## 2. Two copies and one -/

/-- The log is the same, every shelf holds what the log says, and no stream has a mark before it has
an event. -/
structure Mirrors (s : ShelvedStore) (t : MemoryStore) : Prop where
  log : s.log = t.log
  clock : s.clock = t.clock
  shelves : ∀ stream, s.shelf? stream = t.shelf? stream
  unmarked : ∀ stream, t.entries stream = [] → t.mark stream = {}

theorem mirrors_empty : Mirrors {} {} := ⟨rfl, rfl, fun _ => rfl, fun _ _ => rfl⟩

theorem Mirrors.shelf?_eq_none (h : Mirrors s t) (hempty : t.entries stream = []) :
    s.shelf? stream = none := by
  rw [h.shelves, MemoryStore.shelf?, if_pos hempty]

theorem Mirrors.shelf?_eq_some (h : Mirrors s t) (hentries : t.entries stream ≠ []) :
    s.shelf? stream = some (t.shelf stream) := by
  rw [h.shelves, MemoryStore.shelf?, if_neg hentries]

theorem Mirrors.version? (h : Mirrors s t) (stream : StreamName) :
    s.version? stream = t.version? stream := by
  unfold ShelvedStore.version?
  by_cases hempty : t.entries stream = []
  · rw [h.shelf?_eq_none hempty, t.version?_of_entries stream hempty]
    rfl
  · rw [h.shelf?_eq_some hempty]
    exact t.version?_shelf stream

theorem Mirrors.checkAppend (h : Mirrors s t) (stream : StreamName) (expected : ExpectedVersion) :
    s.checkAppend stream expected = if (t.mark stream).deleted then .error (.streamDeleted stream)
      else MemoryStore.checkVersion stream expected (t.version? stream) := by
  unfold ShelvedStore.checkAppend
  by_cases hempty : t.entries stream = []
  · rw [h.shelf?_eq_none hempty, h.unmarked stream hempty, t.version?_of_entries stream hempty]
    rfl
  · rw [h.shelf?_eq_some hempty, ← t.version?_shelf]
    rfl

theorem Mirrors.checkChange (h : Mirrors s t) (stream : StreamName) (expected : ExpectedVersion) :
    s.checkChange stream expected = (t.checkChange stream expected).map fun _ =>
      t.shelf stream := by
  unfold ShelvedStore.checkChange MemoryStore.checkChange
  by_cases hempty : t.entries stream = []
  · rw [h.shelf?_eq_none hempty, h.unmarked stream hempty, t.isKnown_eq, hempty]
    rfl
  · rw [h.shelf?_eq_some hempty, t.isKnown_eq, List.isEmpty_eq_false_iff.2 hempty,
      ← t.version?_shelf]
    simp only [Bool.not_false, if_true]
    show (if (t.mark stream).deleted then _ else _) = _
    split <;> rfl

/-! ## 3. Changes -/

theorem write_eq (stream : StreamName) (now : Instant) (events : List NewEvent) (position : Nat)
    (log shelf : Array StoredEvent) : write stream now position log shelf events =
      (MemoryStore.pushAll stream now position log events,
        shelf ++ (MemoryStore.block stream now position log.size events).toArray) := by
  induction events generalizing position log shelf with
  | nil => simp [write, MemoryStore.pushAll, MemoryStore.block]
  | cons e rest ih => simp [write, MemoryStore.pushAll, MemoryStore.block, ih]

theorem shelf?_insert {shelf : Shelf} {log : Array StoredEvent} {clock : Instant}
    {other : StreamName} :
    (⟨s.shelves.insert stream.text shelf, log, clock⟩ : ShelvedStore).shelf? other =
      if stream = other then some shelf else s.shelf? other := by
  obtain ⟨_⟩ := stream
  obtain ⟨_⟩ := other
  unfold ShelvedStore.shelf?
  rw [Table.get?_insert]
  simp only [StreamName.mk.injEq, eq_comm]

theorem entries_ne_nil_of_checkChange (h : t.checkChange stream expected = .ok ()) :
    t.entries stream ≠ [] := by
  intro hempty
  unfold MemoryStore.checkChange at h
  rw [t.isKnown_eq, hempty] at h
  split at h <;> cases h

/-- The mark of a stream with events and its shelf, changed alike. -/
theorem Mirrors.mark (h : Mirrors s t) (hentries : t.entries stream ≠ [])
    {shelf : Shelf} {mark : StreamMark} (hshelf : shelf =
      ({ t with marks := t.marks.insert stream.text mark } : MemoryStore).shelf stream) :
    Mirrors { s with shelves := s.shelves.insert stream.text shelf }
      { t with marks := t.marks.insert stream.text mark } := by
  refine ⟨h.log, h.clock, fun other => ?_, fun other hempty => ?_⟩
  · rw [shelf?_insert]
    split
    · rename_i heq
      subst heq
      rw [hshelf]
      exact (if_neg hentries).symm
    · rename_i hne
      rw [h.shelves]
      unfold MemoryStore.shelf? MemoryStore.shelf
      rw [MemoryStore.mark_insert_eq, if_neg hne]
      rfl
  · have hother : stream ≠ other := by
      rintro rfl
      exact hentries hempty
    rw [MemoryStore.mark_insert_eq, if_neg hother]
    exact h.unmarked other hempty

theorem Mirrors.getD_shelf? (h : Mirrors s t) (halive : (t.mark stream).deleted = false) :
    (s.shelf? stream).getD {} =
      ⟨(t.entries stream).toArray, (t.mark stream).hiddenBefore, false⟩ := by
  by_cases hempty : t.entries stream = []
  · rw [h.shelf?_eq_none hempty, h.unmarked stream hempty, hempty]
    rfl
  · rw [h.shelf?_eq_some hempty, MemoryStore.shelf, halive]
    rfl

/-- The events put into the log and onto the shelf are those appended to the log. -/
theorem Mirrors.put (h : Mirrors s t) (halive : (t.mark stream).deleted = false)
    {events : List NewEvent} (hevents : events ≠ []) {t' : MemoryStore} (ht' : t' = { t with
      log :=
        MemoryStore.pushAll stream t.clock (((t.version? stream).map (· + 1)).getD 0) t.log
          events }) :
    Mirrors (s.put stream events) t' := by
  have hversion : ((s.shelf? stream).getD {}).version? = t.version? stream := by
    rw [h.getD_shelf? halive, ← t.version?_shelf, MemoryStore.shelf, halive]
    rfl
  have hmark : ∀ other, t'.mark other = t.mark other := fun other => by rw [ht']; rfl
  have hentries := MemoryStore.entries_of_block ((congrArg (·.log.toList) ht').trans
    (MemoryStore.toList_pushAll stream t.clock events
      (((t.version? stream).map (· + 1)).getD 0) t.log))
  have hne : t'.entries stream ≠ [] := by
    intro hnil
    rw [hentries, if_pos rfl] at hnil
    have hlength := congrArg List.length (List.append_eq_nil_iff.1 hnil).2
    rw [MemoryStore.length_block] at hlength
    exact hevents (List.eq_nil_of_length_eq_zero hlength)
  unfold ShelvedStore.put
  simp only [hversion, write_eq, h.log, h.clock]
  refine ⟨by rw [ht'], by rw [ht'], fun other => ?_, fun other hempty => ?_⟩
  · rw [shelf?_insert]
    by_cases heq : stream = other
    · subst heq
      rw [if_pos rfl, MemoryStore.shelf?, if_neg hne, MemoryStore.shelf, hmark, halive, hentries,
        if_pos rfl, h.getD_shelf? halive]
      simp
    · rw [if_neg heq, h.shelves]
      unfold MemoryStore.shelf? MemoryStore.shelf
      rw [hmark, hentries, if_neg heq, List.append_nil]
  · rw [hentries] at hempty
    rw [hmark]
    exact h.unmarked other (List.append_eq_nil_iff.1 hempty).1

theorem Mirrors.append (h : Mirrors s t) (stream : StreamName) (expected : ExpectedVersion)
    (events : List NewEvent) :
    (append stream expected events s).1 = (t.append stream expected events).1 ∧
      Mirrors (append stream expected events s).2 (t.append stream expected events).2 := by
  unfold ShelvedStore.append MemoryStore.append
  rw [h.checkAppend]
  cases halive : (t.mark stream).deleted with
  | true => exact ⟨rfl, h⟩
  | false =>
    rw [if_neg Bool.false_ne_true]
    match hcheck : MemoryStore.checkVersion stream expected (t.version? stream) with
    | .error error => exact ⟨rfl, h⟩
    | .ok () =>
      cases events with
      | nil =>
        refine ⟨?_, h⟩
        show Except.ok (Appended.mk (.ofVersion (s.version? stream)) (s.log.size - 1)) = _
        rw [h.version?, h.log]
        rfl
      | cons e rest =>
        have hput := h.put halive (List.cons_ne_nil e rest) rfl
        refine ⟨?_, hput⟩
        show Except.ok (Appended.mk (.ofVersion ((s.put stream (e :: rest)).version? stream))
          ((s.put stream (e :: rest)).log.size - 1)) = _
        rw [hput.version?, hput.log]
        rfl

theorem Mirrors.truncate (h : Mirrors s t) (stream : StreamName) (before : Nat)
    (expected : ExpectedVersion) :
    (truncate stream before expected s).1 = (MemoryStore.truncate stream before expected t).1 ∧
      Mirrors (truncate stream before expected s).2
        (MemoryStore.truncate stream before expected t).2 := by
  unfold ShelvedStore.truncate MemoryStore.truncate
  rw [h.checkChange]
  match hcheck : t.checkChange stream expected with
  | .error error => exact ⟨rfl, h⟩
  | .ok () =>
    refine ⟨rfl, h.mark (entries_ne_nil_of_checkChange hcheck) ?_⟩
    unfold MemoryStore.shelf
    rw [MemoryStore.mark_insert_eq, if_pos rfl]
    rfl

theorem Mirrors.delete (h : Mirrors s t) (stream : StreamName) (expected : ExpectedVersion) :
    (delete stream expected s).1 = (MemoryStore.delete stream expected t).1 ∧
      Mirrors (delete stream expected s).2 (MemoryStore.delete stream expected t).2 := by
  unfold ShelvedStore.delete MemoryStore.delete
  rw [h.checkChange]
  match hcheck : t.checkChange stream expected with
  | .error error => exact ⟨rfl, h⟩
  | .ok () =>
    refine ⟨rfl, h.mark (entries_ne_nil_of_checkChange hcheck) ?_⟩
    unfold MemoryStore.shelf
    rw [MemoryStore.mark_insert_eq, if_pos rfl]
    rfl

/-- A change made to both stores is answered alike. -/
theorem Mirrors.run (h : Mirrors s t) (change : Change) :
    (run change s).1 = (run change t).1 ∧ Mirrors (run change s).2 (run change t).2 := by
  cases change with
  | append stream expected events =>
    obtain ⟨hanswer, hmirrors⟩ := h.append stream expected events
    exact ⟨congrArg (Except.map some) hanswer, hmirrors⟩
  | truncate stream before expected =>
    obtain ⟨hanswer, hmirrors⟩ := h.truncate stream before expected
    exact ⟨congrArg (Except.map fun _ => none) hanswer, hmirrors⟩
  | delete stream expected =>
    obtain ⟨hanswer, hmirrors⟩ := h.delete stream expected
    exact ⟨congrArg (Except.map fun _ => none) hanswer, hmirrors⟩

theorem Mirrors.atTime (h : Mirrors s t) (now : Instant) : Mirrors (atTime now s) (atTime now t) :=
  ⟨h.log, rfl, h.shelves, h.unmarked⟩

/-- Changes made to both stores, one after the other: the same ones succeed. -/
theorem Mirrors.after (h : Mirrors s t) (changes : List (Instant × Change)) :
    accepted s changes = accepted t changes ∧ Mirrors (after s changes) (after t changes) := by
  induction changes generalizing s t with
  | nil => exact ⟨rfl, h⟩
  | cons step rest ih =>
    obtain ⟨now, change⟩ := step
    obtain ⟨hanswer, hrun⟩ := (h.atTime now).run change
    obtain ⟨haccepted, hafter⟩ := ih hrun
    refine ⟨?_, hafter⟩
    unfold accepted
    rcases hs : Ledger.run change (Ledger.atTime now s) with ⟨answer, s'⟩
    rcases ht : Ledger.run change (Ledger.atTime now t) with ⟨answer', t'⟩
    rw [hs, ht] at hanswer haccepted
    -- Both stores answer alike, so the change is accepted by both or by neither.
    obtain rfl : answer = answer' := hanswer
    cases answer with
    | ok => exact congrArg (change :: ·) haccepted
    | error => exact haccepted

/-! ## 4. What can be seen -/

theorem Mirrors.shelf?_of_hasStream (h : Mirrors s t) (hstands : t.hasStream stream = true) :
    ∃ f, s.shelf? stream = some f ∧ f.isOpen = true ∧ f.visible = t.visible stream := by
  have hversion : (t.version? stream).isSome = true := hstands
  have halive : (t.mark stream).deleted = false := by
    cases hdeleted : (t.mark stream).deleted with
    | false => rfl
    | true => simp [MemoryStore.version?, hdeleted] at hversion
  have hentries : t.entries stream ≠ [] := by
    intro hempty
    rw [t.version?_of_entries stream hempty] at hversion
    cases hversion
  refine ⟨_, h.shelf?_eq_some hentries, ?_, t.visible_shelf stream halive⟩
  rw [Shelf.isOpen, t.version?_shelf, hversion, MemoryStore.shelf, halive]
  rfl

theorem Mirrors.not_isOpen (h : Mirrors s t) (hgone : t.hasStream stream = false) {f : Shelf}
    (hf : s.shelf? stream = some f) : f.isOpen = false := by
  have hversion : (s.version? stream).isSome = false := by rw [h.version?]; exact hgone
  rw [ShelvedStore.version?, hf] at hversion
  rw [Shelf.isOpen, show f.version?.isSome = false from hversion, Bool.and_false]

theorem Mirrors.hasStream (h : Mirrors s t) (stream : StreamName) :
    s.hasStream stream = t.hasStream stream := by
  unfold ShelvedStore.hasStream
  cases hstands : t.hasStream stream with
  | true =>
    obtain ⟨f, hf, hopen, -⟩ := h.shelf?_of_hasStream hstands
    rw [hf]
    exact hopen
  | false =>
    cases hf : s.shelf? stream with
    | none => rfl
    | some f => exact h.not_isOpen hstands hf

theorem Mirrors.onShelf {α : Type} (h : Mirrors s t) (stream : StreamName)
    (f : List StoredEvent → α) :
    s.onShelf stream (fun shelf => f shelf.visible) =
      if t.hasStream stream then .ok (f (t.visible stream))
        else .error (.streamNotFound stream) := by
  unfold ShelvedStore.onShelf
  cases hstands : t.hasStream stream with
  | true =>
    obtain ⟨shelf, hshelf, hopen, hvisible⟩ := h.shelf?_of_hasStream hstands
    rw [hshelf, ← hvisible]
    exact if_pos hopen
  | false =>
    cases hshelf : s.shelf? stream with
    | none => rfl
    | some shelf => exact if_neg (by simp [h.not_isOpen hstands hshelf])

theorem Mirrors.read (h : Mirrors s t) : s.read = t.read := by
  funext stream start count
  exact h.onShelf stream fun visible => (visible.filter (start ≤ ·.streamPosition)).take count

theorem Mirrors.readBackwards (h : Mirrors s t) : s.readBackwards = t.readBackwards := by
  funext stream count
  exact h.onShelf stream fun visible => visible.reverse.take count

theorem Mirrors.readAll (h : Mirrors s t) : s.readAll = t.readAll := by
  funext after count
  rw [t.readAll_eq, ShelvedStore.readAll, h.log]

theorem Mirrors.head? (h : Mirrors s t) : s.head? = t.head? := by
  rw [ShelvedStore.head?, MemoryStore.head?, h.log]

/-- The two stores cannot be told apart. -/
theorem Mirrors.observe (h : Mirrors s t) : observe s = observe t := by
  show Observation.mk s.log.toList (fun after count => .ok (s.readAll after count)) (.ok s.head?)
      (fun stream => .ok (s.hasStream stream)) (fun stream => .ok (s.version? stream))
      s.read s.readBackwards =
    Observation.mk t.log.toList (fun after count => .ok (t.readAll after count)) (.ok t.head?)
      (fun stream => .ok (t.hasStream stream)) (fun stream => .ok (t.version? stream))
      t.read t.readBackwards
  simp only [h.log, h.readAll, h.head?, h.hasStream, h.version?, h.read, h.readBackwards]

/-! ## 5. Ledgers -/

/-- A change that is refused leaves the shelves and the log as they are. -/
theorem run_error {change : Change} {error : StoreError} (h : run change s = (.error error, s')) :
    s' = s := by
  cases change with
  | append stream expected events =>
    have hcall : append stream expected events s = (.error error, s') := map_error h
    unfold append at hcall
    split at hcall
    · cases hcall
      rfl
    · split at hcall <;> cases hcall
  | truncate stream before expected =>
    have hcall : truncate stream before expected s = (.error error, s') := map_error h
    unfold truncate at hcall
    split at hcall <;> cases hcall
    rfl
  | delete stream expected =>
    have hcall : delete stream expected s = (.error error, s') := map_error h
    unfold delete at hcall
    split at hcall <;> cases hcall
    rfl

/-- So does an append of no events, whatever it answers. -/
theorem append_nil (s : ShelvedStore) (stream : StreamName) (expected : ExpectedVersion) :
    (append stream expected [] s).2 = s := by
  unfold append
  split <;> rfl

/-- The store with shelves is a faithful ledger because the store in memory is. -/
theorem faithful (changes : List (Instant × Change)) (h : Faithful MemoryStore changes) :
    Faithful ShelvedStore changes := by
  have htaken : taken ShelvedStore = taken MemoryStore :=
    funext fun changes => (mirrors_empty.after changes).1
  have hseen : seen ShelvedStore = seen MemoryStore :=
    funext fun changes => (mirrors_empty.after changes).2.observe
  have hanswer : ∀ now change,
      answer (reached ShelvedStore changes) now change =
        answer (reached MemoryStore changes) now change :=
    fun now change => (((mirrors_empty.after changes).2.atTime now).run change).1
  constructor
  case numbered => exact hseen ▸ h.numbered
  case grows => exact hseen ▸ h.grows
  case readAll => exact hseen ▸ h.readAll
  case head => exact hseen ▸ h.head
  case placed => exact hseen ▸ h.placed
  case content => exact hseen ▸ htaken ▸ h.content
  case isOpen => exact hseen ▸ htaken ▸ h.isOpen
  case isClosed => exact hseen ▸ htaken ▸ h.isClosed
  case agrees => exact hseen ▸ h.agrees
  case stays => exact hseen ▸ htaken ▸ h.stays
  case refused => exact fun now change error hrefused => run_error (Prod.ext hrefused rfl)
  case idle => exact fun now stream expected => append_nil _ stream expected
  case appends => exact fun now stream expected events reply hevents hreply =>
    hseen ▸ h.appends now stream expected events reply hevents (hanswer now _ ▸ hreply)

end ShelvedStore

open Ledger in
/-- After any changes, each store is a faithful ledger, and the one that keeps every event twice
answers every change and every reading as the one that keeps it once. -/
theorem ledgers_of_changes (changes : List (Instant × Change)) :
    Faithful MemoryStore changes ∧ Faithful ShelvedStore changes ∧
      (∀ now change, answer (reached ShelvedStore changes) now change =
        answer (reached MemoryStore changes) now change) ∧
      seen ShelvedStore changes = seen MemoryStore changes := by
  have hmirrors := (ShelvedStore.mirrors_empty.after changes).2
  have hfaithful := MemoryStore.faithful changes
  exact ⟨hfaithful, ShelvedStore.faithful changes hfaithful,
    fun now change => ((hmirrors.atTime now).run change).1, hmirrors.observe⟩

end EventSourcing

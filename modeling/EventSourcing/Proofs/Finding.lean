/-
# What a load finds

A load asks for one page after the other, from behind the last event it has folded, and takes the
first page that is not full for the last one.  What is to be found on a stream is known beforehand,
from the changes that were made to the store: the events that were written and are not hidden, as
long as the stream is not deleted.  A load finds exactly this, however many pages there are and
wherever in them the hidden events end, and it stops at the first event it cannot read.

What the file settles:

* `BreaksOff`: stored events of which the first that cannot be read fails in a given way
  (`takeEvents_error_iff`);
* `Keeps.found_none_iff`, `Keeps.found_error_iff`, `Keeps.found_some_iff`: what there is, in terms
  of the changes;
* `Mirrors.load`: a store with shelves is loaded from like the store in memory;
* `Finds`, `load_finds_what_is_visible`: what a load comes to in both stores.
-/
import EventSourcing.Proofs.Undisturbed
import EventSourcing.Proofs.Store.Shelves

namespace EventSourcing

open Ledger

/-! ## 1. The first event that cannot be read -/

section BreaksOff

variable {F : PayloadFamily} {A : Aggregate F} {r : TypeRegistry F} {stored : List StoredEvent}
  {error : SerializationError}

/-- All stored events before one of them can be read, and that one fails with the error. -/
def BreaksOff (r : TypeRegistry F) (A : Aggregate F) (stored : List StoredEvent)
    (error : SerializationError) : Prop :=
  ∃ before e after events, stored = before ++ e :: after ∧ Spells r A before events ∧
    r.deserializeEvent A.events e.serialized = .error error

theorem BreaksOff.cons {e : StoredEvent} {event : A.Event}
    (hread : r.deserializeEvent A.events e.serialized = .ok event)
    (h : BreaksOff r A stored error) : BreaksOff r A (e :: stored) error := by
  obtain ⟨before, bad, after, events, rfl, hspells, hfails⟩ := h
  refine ⟨e :: before, bad, after, event :: events, rfl, ?_, hfails⟩
  unfold Spells at hspells ⊢
  rw [List.map_cons, List.map_cons, hread, hspells]

namespace Loading

/-- Folding fails if and only if one of the events cannot be read, and with the error of the first
of these. -/
theorem takeEvents_error_iff {l : Loading A} :
    takeEvents r l stored = .error error ↔ BreaksOff r A stored error := by
  constructor
  · intro h
    induction stored generalizing l with
    | nil => cases h
    | cons e rest ih =>
      simp only [takeEvents, takeEvent] at h
      cases hread : r.deserializeEvent A.events e.serialized with
      | error cause =>
        simp only [hread, Except.error.injEq] at h
        exact ⟨[], e, rest, [], rfl, rfl, h ▸ hread⟩
      | ok event =>
        simp only [hread] at h
        exact (ih h).cons hread
  · rintro ⟨before, e, after, events, rfl, hspells, hfails⟩
    rw [takeEvents_append, takeEvents_ok_iff.2 ⟨events, hspells, rfl⟩]
    simp only [takeEvents, takeEvent, hfails]

end Loading

end BreaksOff

/-! ## 2. What there is after the changes -/

/-- The stream was written and is not deleted. -/
def Stands (stream : StreamName) (changes : List Change) : Prop :=
  written stream changes = true ∧ deleted stream changes = false

theorem not_stands_iff {stream : StreamName} {changes : List Change} : ¬ Stands stream changes ↔
    written stream changes = false ∨ deleted stream changes = true := by
  rw [Stands, Classical.not_and_iff_not_or_not, Bool.not_eq_true, Bool.not_eq_false]

/-- The events of the stream that none of the changes has hidden. -/
def Observation.unhidden (o : Observation) (stream : StreamName) (changes : List Change) :
    List StoredEvent :=
  (o.entries stream).filter (hidden stream changes ≤ ·.streamPosition)

namespace MemoryStore

variable {F : PayloadFamily} {A : Aggregate F} {r : TypeRegistry F} {acc : List Change}
  {s : MemoryStore} {stream : StreamName} {id : A.Id}

theorem Keeps.visible_eq (h : Keeps acc s) (stream : StreamName) :
    s.visible stream = (observe s).unhidden stream acc := by
  rw [visible, h.hidden]
  rfl

theorem Keeps.version?_eq_none_iff (h : Keeps acc s) :
    s.version? stream = none ↔ ¬ Stands stream acc := by
  rw [not_stands_iff, ← h.entries_eq_nil, ← h.deleted, version?]
  cases (s.mark stream).deleted <;> simp

/-- A stream that stands is at the position of the last of its events. -/
theorem Keeps.version?_eq_some (h : Keeps acc s) (hstands : Stands stream acc) :
    ∃ last, (s.entries stream).getLast? = some last ∧
      s.version? stream = some last.streamPosition := by
  obtain ⟨last, hlast, hversion⟩ := (h.isOpen hstands.1 hstands.2).version
  exact ⟨last, hlast, Except.ok.inj hversion⟩

theorem Keeps.found_of_stands (h : Keeps acc s) (hstands : Stands stream acc)
    (r : TypeRegistry F) (A : Aggregate F) (id : A.Id) :
    ∃ last, (s.entries stream).getLast? = some last ∧ Loading.found r A stream id s =
      match Loading.takeEvents r (.start A stream id) ((observe s).unhidden stream acc) with
      | .error error => .error (.serialization error)
      | .ok l => .ok (some (l.result last.streamPosition)) := by
  obtain ⟨last, hlast, hversion⟩ := h.version?_eq_some hstands
  refine ⟨last, hlast, ?_⟩
  cases taken : Loading.takeEvents r (.start A stream id) ((observe s).unhidden stream acc) with
  | error | ok => simp only [Loading.found, hversion, h.visible_eq, taken]

/-- There is no instance exactly if the stream does not stand, -/
theorem Keeps.found_none_iff (h : Keeps acc s) :
    Loading.found r A stream id s = .ok none ↔ ¬ Stands stream acc := by
  constructor
  · intro hfound hstands
    obtain ⟨last, -, heq⟩ := h.found_of_stands hstands r A id
    rw [hfound] at heq
    split at heq <;> cases heq
  · intro hgone
    rw [Loading.found, h.version?_eq_none_iff.2 hgone]

/-- a failure exactly if a visible event cannot be read, which is then that of the first of
these, -/
theorem Keeps.found_error_iff (h : Keeps acc s) {error : AggregateError} :
    Loading.found r A stream id s = .error error ↔ Stands stream acc ∧
      ∃ cause, BreaksOff r A ((observe s).unhidden stream acc) cause ∧
        error = .serialization cause := by
  by_cases hstands : Stands stream acc
  · obtain ⟨last, -, heq⟩ := h.found_of_stands hstands r A id
    simp only [← Loading.takeEvents_error_iff (l := .start A stream id), heq]
    cases Loading.takeEvents r (.start A stream id) ((observe s).unhidden stream acc) with
    | error cause => simp [hstands, eq_comm]
    | ok l => simp
  · rw [h.found_none_iff.2 hstands]
    simp [hstands]

/-- and an instance exactly if all visible events can be read, which is then what all of them
make. -/
theorem Keeps.found_some_iff (h : Keeps acc s) {state : AggregateState A} :
    Loading.found r A stream id s = .ok (some state) ↔ Stands stream acc ∧
      ∃ events last, Spells r A ((observe s).unhidden stream acc) events ∧
        ((observe s).entries stream).getLast? = some last ∧
        state = ⟨id, A.fold A.initial events, .exact last.streamPosition, []⟩ := by
  by_cases hstands : Stands stream acc
  · obtain ⟨last, hlast, heq⟩ := h.found_of_stands hstands r A id
    have hlast' : ((observe s).entries stream).getLast? = some last := hlast
    rw [heq]
    constructor
    · intro hfound
      refine ⟨hstands, ?_⟩
      split at hfound
      · cases hfound
      · rename_i l htaken
        cases hfound
        obtain ⟨events, hspells, rfl⟩ := Loading.takeEvents_ok_iff.1 htaken
        exact ⟨events, last, hspells, hlast', rfl⟩
    · rintro ⟨-, events, last', hspells, hlast'', rfl⟩
      rw [hlast'] at hlast''
      cases hlast''
      rw [Loading.takeEvents_ok_iff.2 ⟨events, hspells, rfl⟩]
      rfl
  · rw [h.found_none_iff.2 hstands]
    simp [hstands]

end MemoryStore

/-! ## 3. Loading from a store with shelves -/

namespace ShelvedStore

variable {F : PayloadFamily} {A : Aggregate F} {r : TypeRegistry F} {s : ShelvedStore}
  {t : MemoryStore}

theorem Mirrors.callPage (h : Mirrors s t) (l : Loading A) :
    l.callPage r s = ((l.callPage r t).1, s) := by
  show (l.takePage r (s.read l.stream l.nextPosition loadPageSize), s) = _
  rw [h.read]
  rfl

theorem Mirrors.callVersion (h : Mirrors s t) (l : Loading A) :
    l.callVersion s = ((l.callVersion t).1, s) := by
  show (l.takeVersion (.ok (s.version? l.stream)), s) = _
  rw [h.version?]
  rfl

/-- A load from a store with shelves, call by call. -/
theorem Mirrors.load (h : Mirrors s t) (fuel : Nat) (l : Loading A) :
    l.run r fuel s = ((l.run r fuel t).1, s) := by
  induction fuel generalizing l with
  | zero => rfl
  | succ fuel ih =>
    have hstays : (l.callPage r t).2 = t := rfl
    rw [Loading.run, Loading.run, h.callPage]
    cases hnext : l.callPage r t with
    | mk next t' =>
      obtain rfl : t' = t := by rw [← hstays, hnext]
      cases next with
      | page l' => exact ih l'
      | version l' =>
        dsimp only
        rw [h.callVersion]
      | done result => rfl

theorem Mirrors.pageBound (h : Mirrors s t) : pageBound s = pageBound t := by
  show s.log.size / loadPageSize + 2 = t.log.size / loadPageSize + 2
  rw [h.log]

end ShelvedStore

/-! ## 4. Both stores -/

section Finds

variable {F : PayloadFamily}

/-- What a load comes to after the changes, when nobody else makes one in between. -/
structure Finds (σ : Type) [Ledger σ] (r : TypeRegistry F) (A : Aggregate F) (stream : StreamName)
    (id : A.Id) (changes : List (Instant × Change)) (result : Loaded A) : Prop where
  /-- It ends, with a call for each page of the log and two more at most, and leaves the store as it
  is. -/
  ends : ∃ calls ≤ (seen σ changes).log.length / loadPageSize + 2, ∀ fuel, calls ≤ fuel →
    (Loading.start A stream id).run r fuel (reached σ changes) = (some result, reached σ changes)
  /-- The calls that are granted suffice. -/
  returns : load? r A stream id (reached σ changes) = (some result, reached σ changes)
  /-- There is no instance if the stream was never written or is deleted, and only then. -/
  none : result = .ok none ↔
    written stream (taken σ changes) = false ∨ deleted stream (taken σ changes) = true
  /-- It fails with the error of the first visible event that cannot be read, and only so. -/
  error : ∀ error, result = .error error ↔ Stands stream (taken σ changes) ∧
    ∃ cause, BreaksOff r A ((seen σ changes).unhidden stream (taken σ changes)) cause ∧
      error = .serialization cause
  /-- A state is what all visible events make, at the position of the last event that was ever
  written. -/
  some : ∀ state, result = .ok (.some state) ↔ Stands stream (taken σ changes) ∧
    ∃ events last, Spells r A ((seen σ changes).unhidden stream (taken σ changes)) events ∧
      ((seen σ changes).entries stream).getLast? = .some last ∧
      state = ⟨id, A.fold A.initial events, .exact last.streamPosition, []⟩

variable (r : TypeRegistry F) (A : Aggregate F) (stream : StreamName) (id : A.Id)
  (changes : List (Instant × Change))

theorem MemoryStore.finds :
    Finds MemoryStore r A stream id changes
      (Loading.found r A stream id (reached MemoryStore changes)) := by
  have hkeeps : Keeps (taken MemoryStore changes) (reached MemoryStore changes) :=
    keeps_after keeps_empty changes
  obtain ⟨calls, hcalls, hreturns⟩ := Loading.returns_found r A stream id hkeeps.numbered
  constructor
  case ends => exact ⟨calls, hcalls, hreturns.run⟩
  case returns => exact Loading.load?_eq hkeeps.numbered
  case none => exact hkeeps.found_none_iff.trans not_stands_iff
  case error => exact fun _ => hkeeps.found_error_iff
  case some => exact fun _ => hkeeps.found_some_iff

theorem ShelvedStore.finds {result : Loaded A}
    (h : Finds MemoryStore r A stream id changes result) :
    Finds ShelvedStore r A stream id changes result := by
  obtain ⟨htaken, hmirrors⟩ := mirrors_empty.after changes
  have htaken : taken ShelvedStore changes = taken MemoryStore changes := htaken
  have hmirrors : Mirrors (reached ShelvedStore changes) (reached MemoryStore changes) := hmirrors
  have hseen : seen ShelvedStore changes = seen MemoryStore changes := hmirrors.observe
  have hrun : ∀ fuel, (Loading.start A stream id).run r fuel (reached MemoryStore changes) =
      (.some result, reached MemoryStore changes) → (Loading.start A stream id).run r fuel
      (reached ShelvedStore changes) = (.some result, reached ShelvedStore changes) := by
    intro fuel hmemory
    rw [hmirrors.load, hmemory]
  obtain ⟨calls, hcalls, hends⟩ := h.ends
  constructor
  case ends => exact ⟨calls, hseen ▸ hcalls, fun fuel hfuel => hrun fuel (hends fuel hfuel)⟩
  case returns =>
    rw [load?, hmirrors.pageBound]
    exact hrun _ h.returns
  case none => exact htaken ▸ h.none
  case error => exact hseen ▸ htaken ▸ h.error
  case some => exact hseen ▸ htaken ▸ h.some

end Finds

/-- **A load that nobody disturbs finds all that is visible.**  After any changes it ends with no
instance, with the first event it cannot read or with the state that all visible events make, in
both stores alike. -/
theorem load_finds_what_is_visible {F : PayloadFamily} (r : TypeRegistry F) (A : Aggregate F)
    (stream : StreamName) (id : A.Id) (changes : List (Instant × Change)) :
    ∃ result, Finds MemoryStore r A stream id changes result ∧
      Finds ShelvedStore r A stream id changes result := by
  have hmemory := MemoryStore.finds r A stream id changes
  exact ⟨_, hmemory, ShelvedStore.finds r A stream id changes hmemory⟩

end EventSourcing

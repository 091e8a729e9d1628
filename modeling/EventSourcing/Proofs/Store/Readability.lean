/-
# How long an event can be read

An event stays in the log for good, but what the readings of its stream return of it is decided by
two things: the stream may be deleted, and a truncation may lie behind the event.  A truncation is a
mark that is kept, not a removal: it hides the events before it that are there, and those that are
appended later on as well, when it lies ahead of the stream.

What the file settles:

* `Observation.Shows`, `Observation.Conceals`: every reading that reaches far enough returns the
  event, or none does;
* `Change.takesAway`: a change that takes the event from its readers;
* `Faithful.shows`, `Faithful.conceals`: which of the two holds after any changes;
* `appended_shown_iff`: for how long the events of an append are returned.
-/
import EventSourcing.Proofs.Store.Shelves
import EventSourcing.Proofs.Snapshot

namespace EventSourcing

/-! ## 1. Events that are returned -/

namespace Observation

variable (o : Observation) (e : StoredEvent)

/-- Every reading of the stream that reaches the event returns it. -/
structure Shows : Prop where
  read : ∀ start count, start ≤ e.streamPosition → (o.entries e.stream).length ≤ count →
    ∃ page, o.read e.stream start count = .ok page ∧ e ∈ page
  readBackwards : ∀ count, (o.entries e.stream).length ≤ count →
    ∃ page, o.readBackwards e.stream count = .ok page ∧ e ∈ page

/-- No reading of the stream returns the event. -/
structure Conceals : Prop where
  read : ∀ start count page, o.read e.stream start count = .ok page → e ∉ page
  readBackwards : ∀ count page, o.readBackwards e.stream count = .ok page → e ∉ page

variable {o e}

theorem Shows.not_conceals (h : o.Shows e) : ¬ o.Conceals e := by
  intro hconceals
  obtain ⟨page, hpage, hmem⟩ := h.readBackwards _ (Nat.le_refl _)
  exact hconceals.readBackwards _ page hpage hmem

/-- What is not hidden of an open stream is shown, -/
theorem Open.shows {hiddenBefore : Nat} (h : o.Open e.stream hiddenBefore) (hlog : e ∈ o.log)
    (hplace : hiddenBefore ≤ e.streamPosition) : o.Shows e := by
  have hentry : e ∈ o.entries e.stream := List.mem_filter.2 ⟨hlog, by simp⟩
  constructor
  case read =>
    intro start count hstart hcount
    refine ⟨_, h.read start count, ?_⟩
    rw [List.take_of_length_le (Nat.le_trans (List.length_filter_le _ _) hcount)]
    exact List.mem_filter.2 ⟨hentry, decide_eq_true (Nat.max_le.2 ⟨hstart, hplace⟩)⟩
  case readBackwards =>
    intro count hcount
    refine ⟨_, h.readBackwards count, ?_⟩
    rw [List.take_of_length_le (by simpa using Nat.le_trans (List.length_filter_le _ _) hcount),
      List.mem_reverse]
    exact List.mem_filter.2 ⟨hentry, decide_eq_true hplace⟩

/-- what is hidden of it is not, -/
theorem Open.conceals {hiddenBefore : Nat} (h : o.Open e.stream hiddenBefore)
    (hplace : e.streamPosition < hiddenBefore) : o.Conceals e := by
  constructor
  case read =>
    intro start count page hpage hmem
    rw [h.read start count] at hpage
    cases hpage
    have hle := (List.mem_filter.1 (List.mem_of_mem_take hmem)).2
    exact Nat.not_le_of_lt hplace (Nat.max_le.1 (of_decide_eq_true hle)).2
  case readBackwards =>
    intro count page hpage hmem
    rw [h.readBackwards count] at hpage
    cases hpage
    have hle := (List.mem_filter.1 (List.mem_reverse.1 (List.mem_of_mem_take hmem))).2
    exact Nat.not_le_of_lt hplace (of_decide_eq_true hle)

/-- and a stream that is not there shows nothing. -/
theorem Closed.conceals (h : o.Closed e.stream) : o.Conceals e := by
  constructor
  case read =>
    intro start count page hpage
    rw [h.read start count] at hpage
    cases hpage
  case readBackwards =>
    intro count page hpage
    rw [h.readBackwards count] at hpage
    cases hpage

end Observation

/-! ## 2. Changes that take an event away -/

/-- Whether the change, if it succeeds, takes the event from the readers of its stream: it deletes
the stream, or truncates it before a position behind the event. -/
def Change.takesAway (e : StoredEvent) (change : Change) : Bool :=
  change.deletes e.stream || decide (e.streamPosition < change.hides e.stream)

section TakesAway

variable (stream : StreamName) (earlier later : List Change)

theorem deleted_append :
    deleted stream (earlier ++ later) = (deleted stream earlier || deleted stream later) :=
  List.any_append

theorem hidden_append_le {position : Nat} : hidden stream (earlier ++ later) ≤ position ↔
    hidden stream earlier ≤ position ∧ ∀ change ∈ later, change.hides stream ≤ position := by
  induction later generalizing earlier with
  | nil => simp
  | cons change rest ih =>
    rw [List.append_cons, ih, hidden_concat, Nat.max_le, List.forall_mem_cons, and_assoc]

/-- A stream that stands and hides nothing from a position on goes on like this while nothing takes
the event at the position away. -/
theorem kept_iff {e : StoredEvent} (halive : deleted e.stream earlier = false) :
    deleted e.stream (earlier ++ later) = false ∧
        hidden e.stream (earlier ++ later) ≤ e.streamPosition ↔
      hidden e.stream earlier ≤ e.streamPosition ∧
      ∀ change ∈ later, change.takesAway e = false := by
  rw [deleted_append, halive, Bool.false_or, hidden_append_le, deleted, List.any_eq_false]
  simp only [Change.takesAway, Bool.or_eq_false_iff, decide_eq_false_iff_not, Nat.not_lt,
    Bool.not_eq_true]
  constructor
  · rintro ⟨hdeletes, hplace, hhides⟩
    exact ⟨hplace, fun c hc => ⟨hdeletes c hc, hhides c hc⟩⟩
  · rintro ⟨hplace, h⟩
    exact ⟨fun c hc => (h c hc).1, hplace, fun c hc => (h c hc).2⟩

end TakesAway

/-! ## 3. After any changes -/

open Ledger

section Faithful

variable {σ : Type} [Ledger σ] {changes : List (Instant × Change)} {e : StoredEvent}

theorem Faithful.written_of_mem (h : Faithful σ changes) (hlog : e ∈ (seen σ changes).log) :
    written e.stream (taken σ changes) = true := by
  rw [written_eq, ← h.content, List.any_map]
  exact List.any_eq_true.2 ⟨e, hlog, by simp⟩

/-- An event of a stream that is not deleted is shown when it lies behind all truncations, -/
theorem Faithful.shows (h : Faithful σ changes) (hlog : e ∈ (seen σ changes).log)
    (hkept : deleted e.stream (taken σ changes) = false ∧
      hidden e.stream (taken σ changes) ≤ e.streamPosition) : (seen σ changes).Shows e :=
  (h.isOpen e.stream (h.written_of_mem hlog) hkept.1).shows hlog hkept.2

/-- and any other is not. -/
theorem Faithful.conceals (h : Faithful σ changes) (hlog : e ∈ (seen σ changes).log)
    (hgone : ¬ (deleted e.stream (taken σ changes) = false ∧
      hidden e.stream (taken σ changes) ≤ e.streamPosition)) : (seen σ changes).Conceals e := by
  cases hdeleted : deleted e.stream (taken σ changes) with
  | true => exact (h.isClosed e.stream (.inl hdeleted)).conceals
  | false =>
    exact (h.isOpen e.stream (h.written_of_mem hlog) hdeleted).conceals
      (Nat.lt_of_not_le fun hle => hgone ⟨hdeleted, hle⟩)

end Faithful

/-! ## 4. What was appended -/

/-- What becomes of an event in the course of further changes. -/
structure Fate (o : Observation) (e : StoredEvent) (earlier since : List Change) : Prop where
  /-- It is shown exactly if no truncation made before it came lies behind it, and nothing has taken
  it away since. -/
  shown : o.Shows e ↔
    hidden e.stream earlier ≤ e.streamPosition ∧ ∀ change ∈ since, change.takesAway e = false
  /-- An event that is not shown is returned by no reading. -/
  concealed : ¬ o.Shows e → o.Conceals e

/-- What becomes of the events that an append made after `earlier` has added, in the course of
`later`. -/
def Readable (σ : Type) [Ledger σ] (earlier : List (Instant × Change)) (now : Instant)
    (stream : StreamName) (expected : ExpectedVersion) (events : List NewEvent)
    (later : List (Instant × Change)) : Prop :=
  let appended := earlier ++ [(now, .append stream expected events)]
  ∃ added, (seen σ appended).log = (seen σ earlier).log ++ added ∧
    added.map (fun e => (e.stream, MemoryStore.content e)) = events.map (stream, ·) ∧
    ∀ e ∈ added,
      Fate (seen σ (appended ++ later)) e (taken σ earlier) (accepted (reached σ appended) later)

section Readable

variable {σ : Type} [Ledger σ] (faithful : ∀ changes, Faithful σ changes)

include faithful

/-- The fate of an event that was written by the last of the changes, which took nothing away. -/
theorem fate_of_faithful {changes : List (Instant × Change)} {earlier : List Change}
    {change : Change} {e : StoredEvent} (htaken : taken σ changes = earlier ++ [change])
    (hlog : e ∈ (seen σ changes).log) (halive : deleted e.stream earlier = false)
    (hkeeps : change.takesAway e = false) (later : List (Instant × Change)) :
    Fate (seen σ (changes ++ later)) e earlier (accepted (reached σ changes) later) := by
  have hlater : e ∈ (seen σ (changes ++ later)).log := ((faithful changes).grows later).subset hlog
  have hkept := kept_iff earlier (change :: accepted (reached σ changes) later) halive
  rw [List.append_cons, ← htaken, List.forall_mem_cons, and_iff_right hkeeps,
    show taken σ changes ++ accepted (reached σ changes) later = taken σ (changes ++ later) from
      (accepted_append _ _ _).symm] at hkept
  have hshown : (seen σ (changes ++ later)).Shows e ↔ _ :=
    ⟨fun hshows => Classical.byContradiction fun hgone =>
      hshows.not_conceals ((faithful _).conceals hlater hgone), (faithful _).shows hlater⟩
  exact ⟨hshown.trans hkept,
    fun hnot => (faithful _).conceals hlater fun hkept => hnot (hshown.2 hkept)⟩

/-- Of a faithful ledger everything about an append can be read off what has succeeded. -/
theorem readable_of_faithful {earlier : List (Instant × Change)} {now : Instant}
    {stream : StreamName} {expected : ExpectedVersion} {events : List NewEvent}
    {reply : Option Appended} (halive : deleted stream (taken σ earlier) = false)
    (hanswer : answer (reached σ earlier) now (.append stream expected events) = .ok reply)
    (later : List (Instant × Change)) : Readable σ earlier now stream expected events later := by
  have htaken := taken_snoc hanswer
  obtain ⟨added, hadded⟩ := (faithful earlier).grows [(now, .append stream expected events)]
  have hcontent : added.map (fun e => (e.stream, MemoryStore.content e)) =
      events.map (stream, ·) := by
    have hall := (faithful (earlier ++ [(now, .append stream expected events)])).content
    rw [htaken, ← hadded, List.map_append, (faithful earlier).content, List.flatMap_append] at hall
    simpa [Change.adds] using List.append_cancel_left hall
  refine ⟨added, hadded.symm, hcontent, fun e he => ?_⟩
  have hstream : e.stream = stream := by
    have hmem := List.mem_map_of_mem (f := fun e => (e.stream, MemoryStore.content e)) he
    rw [hcontent] at hmem
    obtain ⟨event, -, hevent⟩ := List.mem_map.1 hmem
    exact (congrArg Prod.fst hevent).symm
  exact fate_of_faithful faithful htaken (hadded ▸ List.mem_append_right _ he)
    (hstream ▸ halive) rfl later

end Readable

/-- A stream that takes an append was never deleted. -/
theorem MemoryStore.not_deleted_of_append {changes : List (Instant × Change)}
    {now : Instant} {stream : StreamName} {expected : ExpectedVersion}
    {events : List NewEvent} {reply : Option Appended}
    (hanswer : answer (reached MemoryStore changes) now (.append stream expected events) =
      .ok reply) : deleted stream (taken MemoryStore changes) = false := by
  obtain ⟨appended, happend, -⟩ := map_ok (show run (.append stream expected events)
    (atTime now (reached MemoryStore changes)) = (.ok reply, _) from Prod.ext hanswer rfl)
  have hkeeps : Keeps (taken MemoryStore changes) (reached MemoryStore changes) :=
    keeps_after keeps_empty changes
  rw [← hkeeps.deleted]
  exact (append_ok (show append stream expected events _ = _ from happend)).1

/-- **For how long an event can be read.**  The events of an append that succeeded are returned by
every reading that reaches them, in both stores, exactly as long as their stream is neither deleted
nor truncated before a position behind them, and no truncation made before they came lies behind
them already; from then on no reading returns them. -/
theorem appended_shown_iff {earlier : List (Instant × Change)} {now : Instant} {stream : StreamName}
    {expected : ExpectedVersion} {events : List NewEvent} {reply : Option Appended}
    (hanswer : answer (reached MemoryStore earlier) now (.append stream expected events) =
      .ok reply) (later : List (Instant × Change)) :
    Readable MemoryStore earlier now stream expected events later ∧
      Readable ShelvedStore earlier now stream expected events later := by
  have hmirrors := ShelvedStore.mirrors_empty.after earlier
  have halive := MemoryStore.not_deleted_of_append hanswer
  have hanswer' : answer (reached ShelvedStore earlier) now (.append stream expected events) =
      .ok reply :=
    ((hmirrors.2.atTime now).run (.append stream expected events)).1.trans hanswer
  exact ⟨readable_of_faithful MemoryStore.faithful halive hanswer later,
    readable_of_faithful
      (fun changes => ShelvedStore.faithful changes (MemoryStore.faithful changes))
      ((congrArg (deleted stream) hmirrors.1).trans halive) hanswer' later⟩

section Sample

open Sample
open Loading (firstTick hiddenTick secondTick)

/-- One tick of the tally, then a truncation. -/
def markedTick (before : Nat) : List (Instant × Change) :=
  [(⟨0⟩, .append tallyStream .any [newTick 0])] ++ [(⟨0⟩, .truncate tallyStream before .any)]

/-- One more tick. -/
def tickAfter : Change := .append tallyStream .any [newTick 1]

theorem truncate_firstTick (before : Nat) :
    Ledger.run (.truncate tallyStream before .any) firstTick = (.ok none, hiddenTick before) := by
  have hcheck : firstTick.checkChange tallyStream .any = .ok () := by
    unfold MemoryStore.checkChange
    rw [MemoryStore.isKnown_eq]
    rfl
  have htruncate : MemoryStore.truncate tallyStream before .any firstTick =
      (.ok (), hiddenTick before) := by
    unfold MemoryStore.truncate
    rw [hcheck]
    show (_,
      { firstTick with marks := firstTick.marks.insert tallyStream.text ⟨max 0 before, false⟩ }) = _
    rw [Nat.zero_max]
    rfl
  exact congrArg (Prod.map (Except.map fun _ => none) id) htruncate

theorem reached_markedTick (before : Nat) :
    reached MemoryStore (markedTick before) = hiddenTick before := by
  rw [markedTick, reached_snoc]
  exact congrArg Prod.snd (truncate_firstTick before)

theorem taken_markedTick (before : Nat) : taken MemoryStore (markedTick before) =
    [.append tallyStream .any [newTick 0], .truncate tallyStream before .any] :=
  taken_snoc (congrArg Prod.fst (truncate_firstTick before))

theorem answer_tickAfter (before : Nat) :
    answer (reached MemoryStore (markedTick before)) ⟨0⟩ tickAfter =
      .ok (some ⟨.exact 1, 1⟩) := by
  rw [reached_markedTick]
  rfl

theorem seen_tickAfter (before : Nat) :
    seen MemoryStore (markedTick before ++ [(⟨0⟩, tickAfter)]) =
      observe (secondTick (hiddenTick before)) := by
  rw [seen, reached_snoc, reached_markedTick]
  rfl

/-- The second tick comes in behind a mark that hides the first, and is shown. -/
theorem second_tick_is_shown : ∃ e, (seen MemoryStore (markedTick 1 ++ [(⟨0⟩, tickAfter)])).log =
      (seen MemoryStore (markedTick 1)).log ++ [e] ∧ e.streamPosition = 1 ∧
    (seen MemoryStore (markedTick 1 ++ [(⟨0⟩, tickAfter)])).Shows e := by
  obtain ⟨added, hlog, -, hfate⟩ := (appended_shown_iff (answer_tickAfter 1) []).1
  have hadded : (seen MemoryStore (markedTick 1 ++ [(⟨0⟩, tickAfter)])).log =
      (seen MemoryStore (markedTick 1)).log ++
        [MemoryStore.stored (newTick 1) tallyStream ⟨0⟩ 1 1] := by
    rw [seen_tickAfter, seen, reached_markedTick]
    rfl
  cases List.append_cancel_left (hlog.symm.trans hadded)
  have hshown := (hfate _ List.mem_cons_self).shown.2
  rw [taken_markedTick] at hshown
  exact ⟨_, hadded, rfl, hshown ⟨by decide, List.forall_mem_nil _⟩⟩

/-- The mark lies ahead of the stream as the second tick comes in, and no reading returns it,
although nothing was truncated or deleted since. -/
theorem second_tick_is_not_returned :
      ∃ e, (seen MemoryStore (markedTick 5 ++ [(⟨0⟩, tickAfter)])).log =
        (seen MemoryStore (markedTick 5)).log ++ [e] ∧ e.streamPosition = 1 ∧
    answer (reached MemoryStore (markedTick 5)) ⟨0⟩ tickAfter = .ok (some ⟨.exact 1, 1⟩) ∧
    (seen MemoryStore (markedTick 5 ++ [(⟨0⟩, tickAfter)])).Conceals e := by
  rw [seen_tickAfter]
  refine ⟨MemoryStore.stored (newTick 1) tallyStream ⟨0⟩ 1 1, ?_, rfl, answer_tickAfter 5, ?_⟩
  · rw [seen, reached_markedTick]
    rfl
  · constructor
    case read =>
      intro start count page hpage
      cases (show Except.ok (List.take count []) = Except.ok page from hpage)
      rw [List.take_nil]
      exact List.not_mem_nil
    case readBackwards =>
      intro count page hpage
      cases (show Except.ok (List.take count []) = Except.ok page from hpage)
      rw [List.take_nil]
      exact List.not_mem_nil

end Sample

end EventSourcing

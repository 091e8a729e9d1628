/-
# What a load has folded

A load sees the stream in pieces, and the stream may grow between two of them.  It never sees more
or less than a prefix: each page starts behind the last event that was folded, and what was folded
is never taken away.  So the version a load ends with is that of the very prefix its state is the
fold of.

What the file settles:

* `Spells`: the events that stored events stand for;
* `Folded`: the prefix a load has folded so far, extended by every page (`folded_of_callPage`);
* `Holds`: the state an instance has after a prefix of its stream;
* `unchanged_of_accepts`: a version that is accepted says that the prefix is still the whole stream.
-/
import EventSourcing.Aggregate.Loading
import EventSourcing.Proofs.Store.Log

namespace EventSourcing

variable {F : PayloadFamily} {A : Aggregate F} {r : TypeRegistry F}

/-! ## 1. Stored events and events -/

/-- The stored events are read as these events, in order. -/
def Spells (r : TypeRegistry F) (A : Aggregate F) (stored : List StoredEvent)
    (events : List A.Event) : Prop :=
  stored.map (fun e => r.deserializeEvent A.events e.serialized) = events.map .ok

theorem Spells.append {stored stored' : List StoredEvent} {events events' : List A.Event}
    (h : Spells r A stored events) (h' : Spells r A stored' events') :
    Spells r A (stored ++ stored') (events ++ events') := by
  unfold Spells
  rw [List.map_append, List.map_append, h, h']

/-- Stored events stand for one list of events at most. -/
theorem Spells.unique {stored : List StoredEvent} {events events' : List A.Event}
    (h : Spells r A stored events) (h' : Spells r A stored events') : events = events' := by
  have heq : events.map (Except.ok (ε := SerializationError)) = events'.map .ok := h.symm.trans h'
  exact (List.map_inj_right fun _ _ => Except.ok.inj).1 heq

namespace Loading

/-! ## 2. Folding a page -/

/-- The last position of a page that is not empty is that of one of its events. -/
theorem lastPosition_cons (e : StoredEvent) (rest : List StoredEvent) (version : Option Nat) :
    ((e :: rest).getLast?.map (·.streamPosition)).or version =
      (rest.getLast?.map (·.streamPosition)).or (some e.streamPosition) := by
  cases hlast : rest.getLast? with
  | none =>
    rw [List.getLast?_eq_none_iff.1 hlast]
    rfl
  | some last =>
    rw [List.getLast?_cons, hlast]
    rfl

/-- A page is folded if and only if it can be read, and then all of it is. -/
theorem takeEvents_ok_iff {l l' : Loading A} {page : List StoredEvent} :
    takeEvents r l page = .ok l' ↔ ∃ events, Spells r A page events ∧
      l' = { l with
        state := A.fold l.state events
        version := (page.getLast?.map (·.streamPosition)).or l.version } := by
  induction page generalizing l with
  | nil =>
    constructor
    · intro h
      cases h
      exact ⟨[], rfl, rfl⟩
    · rintro ⟨events, hspells, rfl⟩
      cases List.map_eq_nil_iff.1 hspells.symm
      rfl
  | cons e rest ih =>
    simp only [takeEvents, takeEvent]
    cases hread : r.deserializeEvent A.events e.serialized with
    | error error =>
      constructor
      · intro h
        cases h
      · rintro ⟨events, hspells, -⟩
        cases events with
        | nil => cases hspells
        | cons event more => cases hread.symm.trans (List.cons.inj hspells).1
    | ok event =>
      dsimp only
      rw [ih, lastPosition_cons]
      constructor
      · rintro ⟨events, hspells, rfl⟩
        refine ⟨event :: events, ?_, rfl⟩
        unfold Spells
        rw [List.map_cons, List.map_cons, hread, hspells]
      · rintro ⟨events, hspells, rfl⟩
        cases events with
        | nil => cases hspells
        | cons event' more =>
          obtain ⟨hevent, hrest⟩ := List.cons.inj hspells
          cases hread.symm.trans hevent
          exact ⟨more, hrest, rfl⟩

/-! ## 3. Prefixes -/

/-- The version a stream has after these events, as a writer states it. -/
def versionAfter (stored : List StoredEvent) : ExpectedVersion :=
  if stored = [] then .noStream else .exact (stored.length - 1)

theorem versionAfter_append (before : List StoredEvent)
    {block : List StoredEvent} (hne : block ≠ []) :
    versionAfter (before ++ block) = .exact (before.length + block.length - 1) := by
  rw [versionAfter, if_neg (by simp [hne]), List.length_append]

/-- The load has folded exactly these events. -/
structure Folded (r : TypeRegistry F) (l : Loading A) (stored : List StoredEvent) : Prop where
  state : ∃ events, Spells r A stored events ∧ l.state = A.fold A.initial events
  version : l.version = if stored = [] then none else some (stored.length - 1)

theorem folded_start (stream : StreamName) (id : A.Id) : Folded r (start A stream id) [] :=
  ⟨⟨[], rfl, rfl⟩, rfl⟩

theorem Folded.nextPosition {l : Loading A} {stored : List StoredEvent} (h : Folded r l stored) :
    l.nextPosition = stored.length := by
  unfold Loading.nextPosition
  rw [h.version]
  by_cases hempty : stored = []
  · simp [hempty]
  · have hpos : 0 < stored.length := List.length_pos_iff.2 hempty
    rw [if_neg hempty, Option.map_some, Option.getD_some]
    omega

/-- Folding what comes next in a stream extends the prefix by it. -/
theorem Folded.takeEvents {l l' : Loading A}
    {stored page : List StoredEvent} (h : Folded r l stored)
    (hplaces : page.map (·.streamPosition) = List.range' stored.length page.length)
    (htake : Loading.takeEvents r l page = .ok l') : Folded r l' (stored ++ page) := by
  obtain ⟨events, hspells, rfl⟩ := takeEvents_ok_iff.1 htake
  obtain ⟨before, hbefore, hstate⟩ := h.state
  refine ⟨⟨before ++ events, hbefore.append hspells, ?_⟩, ?_⟩
  · rw [hstate, Aggregate.fold, Aggregate.fold, Aggregate.fold, List.foldl_append]
  · have hlast := congrArg List.getLast? hplaces
    rw [List.getLast?_map] at hlast
    dsimp only
    rw [hlast, List.getLast?_range']
    by_cases hempty : page = []
    · subst hempty
      simpa using h.version
    · have hlength : page.length ≠ 0 := fun h => hempty (List.eq_nil_of_length_eq_zero h)
      rw [if_neg hlength, Option.some_or, if_neg (by simp [hempty]), List.length_append]

/-- The state of an instance whose stream consists of these events. -/
def Holds (r : TypeRegistry F) (id : A.Id) (stored : List StoredEvent)
    (state : AggregateState A) : Prop :=
  ∃ events, Spells r A stored events ∧
    state = .loaded id (A.fold A.initial events) (versionAfter stored)

theorem holds_new (id : A.Id) : Holds r id [] (AggregateState.new (A := A) id) := ⟨[], rfl, rfl⟩

theorem Holds.originalVersion_eq {id : A.Id} {stored : List StoredEvent} {state : AggregateState A}
    (h : Holds r id stored state) : state.originalVersion = versionAfter stored := by
  obtain ⟨events, -, rfl⟩ := h
  rfl

theorem Holds.unique {id : A.Id} {stored : List StoredEvent} {state state' : AggregateState A}
    (h : Holds r id stored state) (h' : Holds r id stored state') : state = state' := by
  obtain ⟨events, hspells, rfl⟩ := h
  obtain ⟨events', hspells', rfl⟩ := h'
  rw [hspells.unique hspells']

/-- A page of a stream of which nothing is hidden: the prefix that has been folded grows by it, or
the load is done. -/
theorem folded_of_callPage {l : Loading A} {s : MemoryStore} {stored : List StoredEvent}
    (hn : s.Numbered) (hvisible : (s.mark l.stream).hiddenBefore = 0)
    (hpre : stored <+: s.entries l.stream) (h : Folded r l stored) :
    match (l.callPage r s).1 with
    | .page l' =>
      l'.stream = l.stream ∧ l'.id = l.id ∧ ∃ stored', stored' <+: s.entries l.stream ∧
        Folded r l' stored'
    | .version _ => False
    | .done (.ok none) => stored = []
    | .done (.ok (some state)) =>
      ∃ stored', stored' ≠ [] ∧ stored' <+: s.entries l.stream ∧ Holds r l.id stored' state
    | .done (.error _) => True := by
  obtain ⟨rest, hentries⟩ := hpre
  have hcall : l.callPage r s = (l.takePage r (s.read l.stream stored.length loadPageSize), s) := by
    rw [← h.nextPosition]
    rfl
  rw [hcall, MemoryStore.read_eq hn hvisible]
  by_cases hgone : (s.mark l.stream).deleted = true ∨ s.entries l.stream = []
  · -- The stream is not found: on the first page there is no instance, later the load fails.
    rw [if_pos hgone]
    by_cases hempty : stored = []
    · simp [takePage, h.version, hempty]
    · simp [takePage, h.version, hempty]
  · have hentries_ne : s.entries l.stream ≠ [] := fun heq => hgone (.inr heq)
    rw [if_neg hgone, ← hentries, List.drop_left]
    have hpre : stored ++ rest.take loadPageSize <+: stored ++ rest :=
      (List.prefix_append_right_inj stored).2 (List.take_prefix _ _)
    have hplaces := MemoryStore.places_of_page hn hentries.symm loadPageSize
    simp only [takePage]
    cases htake : Loading.takeEvents r l (rest.take loadPageSize) with
    | error error => trivial
    | ok l' =>
      have hfolded := h.takeEvents hplaces htake
      have hsame : l'.stream = l.stream ∧ l'.id = l.id := by
        obtain ⟨events, -, rfl⟩ := takeEvents_ok_iff.1 htake
        exact ⟨rfl, rfl⟩
      dsimp only
      by_cases hfull : loadPageSize ≤ (rest.take loadPageSize).length
      · rw [if_pos hfull]
        exact ⟨hsame.1, hsame.2, _, hpre, hfolded⟩
      · rw [if_neg hfull]
        -- A page that is not full ends the stream, so something has been folded.
        have hne : stored ++ rest.take loadPageSize ≠ [] := by
          have hshort : rest.take loadPageSize = rest := by
            rw [List.length_take] at hfull
            exact List.take_of_length_le (by omega)
          rw [hshort, hentries]
          exact hentries_ne
        rw [hfolded.version, if_neg hne]
        obtain ⟨events, hspells, hstate⟩ := hfolded.state
        refine ⟨_, hne, hpre, events, hspells, ?_⟩
        rw [result, hstate, hsame.2, versionAfter, if_neg hne]

/-- A writer that has seen the whole stream is let in. -/
theorem accepts_versionAfter {s : MemoryStore} (hn : s.Numbered) {stream : StreamName}
    (halive : (s.mark stream).deleted = false) :
    (versionAfter (s.entries stream)).accepts (s.version? stream) = true := by
  rw [MemoryStore.version?_eq hn halive, versionAfter]
  by_cases hempty : s.entries stream = [] <;> simp [hempty, ExpectedVersion.accepts]

/-- A version that is accepted says that the prefix is the whole stream. -/
theorem entries_eq_of_accepts {s : MemoryStore} (hn : s.Numbered)
    {stream : StreamName} {stored : List StoredEvent}
    (halive : (s.mark stream).deleted = false) (hpre : stored <+: s.entries stream)
    (haccepts : (versionAfter stored).accepts (s.version? stream) = true) :
    s.entries stream = stored := by
  rw [MemoryStore.version?_eq hn halive, versionAfter] at haccepts
  refine (hpre.eq_of_length ?_).symm
  by_cases hstored : stored = []
  · by_cases hentries : s.entries stream = []
    · rw [hstored, hentries]
    · simp [hstored, hentries, ExpectedVersion.accepts] at haccepts
  · have hentries : s.entries stream ≠ [] := fun h => hstored (List.prefix_nil.1 (h ▸ hpre))
    have hpos := List.length_pos_iff.2 hstored
    have hpos' := List.length_pos_iff.2 hentries
    simp only [hstored, hentries, if_false, ExpectedVersion.accepts, beq_iff_eq] at haccepts
    omega

/-- When the version is accepted, nobody has written to the stream since it had this prefix. -/
theorem unchanged_of_accepts {s₀ s₁ s : MemoryStore} (hn : s.Numbered) {stream : StreamName}
    {stored : List StoredEvent} (halive : (s.mark stream).deleted = false)
    (haccepts : (versionAfter stored).accepts (s.version? stream) = true)
    (hpre : stored <+: s₀.entries stream)
    (first : MemoryStore.Grown s₀ s₁) (second : MemoryStore.Grown s₁ s) :
    s₀.entries stream = stored ∧ s₁.entries stream = stored ∧ s.entries stream = stored := by
  have hfirst := first.entries stream
  have hsecond := second.entries stream
  have hwhole := entries_eq_of_accepts hn halive (hpre.trans (hfirst.trans hsecond)) haccepts
  rw [hwhole] at hsecond
  have hsame := (hfirst.trans hsecond).eq_of_length_le hpre.length_le
  exact ⟨hsame, hsecond.eq_of_length_le (hsame ▸ hfirst.length_le), hwhole⟩

end Loading
end EventSourcing

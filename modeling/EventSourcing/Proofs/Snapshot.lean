/-
# What a load amid writers returns

Between any two calls of a load others may use the store.  Pages are read behind one another, so
what a load has folded is always a piece of what is visible, from the first event that is not hidden
on, and a version that was read off an event is that of the last one folded.  A version that was
asked for in a call of its own is another matter: what was visible at the time of the first page
need not be all that is visible by then.

What the file settles:

* `Amid`: a load one call at a time, with calls of others anywhere between; `amid_load?`: one that
  nobody disturbs;
* `Seen`: the events a load has folded; `seen_of_callPage`: what a page makes of them;
* `Captured`: what a state that was returned is made of, kept while others write (`Captured.mono`);
* `snapshot_of_load`: when the state is that of the visible events up to its version, and when it is
  not.
-/
import EventSourcing.Proofs.Loading
import EventSourcing.Sample.Tally

namespace EventSourcing

/-! ## 1. What is visible -/

namespace MemoryStore

variable {s s' : MemoryStore} {stream : StreamName}

/-- Of events that carry their places, those up to a place are the ones before the next place. -/
theorem filter_place_eq_take {l : List StoredEvent} {first : Nat}
    (hplaces : l.map (·.streamPosition) = List.range' first l.length) (v : Nat) :
    l.filter (·.streamPosition ≤ v) = l.take (v + 1 - first) := by
  induction l generalizing first with
  | nil => simp
  | cons e rest ih =>
    rw [List.map_cons, List.length_cons, List.range'_succ] at hplaces
    obtain ⟨he, hrest⟩ := List.cons.inj hplaces
    by_cases hle : first ≤ v
    · rw [List.filter_cons_of_pos (by simpa [he] using hle), ih hrest,
        show v + 1 - first = (v + 1 - (first + 1)) + 1 by omega, List.take_succ_cons]
    · rw [List.filter_cons_of_neg (by simpa [he] using hle), ih hrest,
        show v + 1 - first = 0 by omega,
        show v + 1 - (first + 1) = 0 by omega, List.take_zero, List.take_zero]

theorem visible_eq_drop (hn : Numbered s) (stream : StreamName) :
    s.visible stream = (s.entries stream).drop (s.mark stream).hiddenBefore := by
  have hplaces := hn.places stream
  rw [List.range_eq_range'] at hplaces
  exact filter_place_eq_drop hplaces _

theorem places_visible (hn : Numbered s) (stream : StreamName) :
    (s.visible stream).map (·.streamPosition) =
      List.range' (s.mark stream).hiddenBefore (s.visible stream).length := by
  rw [visible_eq_drop hn, List.map_drop, hn.places, List.range_eq_range', List.drop_range',
    List.length_drop]
  simp

/-- What is visible stays visible, in front of what comes, while nothing more is hidden. -/
theorem Grown.visible_prefix (h : Grown s s')
    (hsame : (s'.mark stream).hiddenBefore = (s.mark stream).hiddenBefore) :
    s.visible stream <+: s'.visible stream := by
  obtain ⟨more, hmore⟩ := h.entries stream
  rw [MemoryStore.visible, MemoryStore.visible, ← hmore, hsame, List.filter_append]
  exact List.prefix_append _ _

theorem mem_entries_of_visible {e : StoredEvent} (he : e ∈ s.visible stream) :
    e ∈ s.entries stream :=
  (List.mem_filter.1 he).1

theorem streamPosition_lt (hn : Numbered s) {e : StoredEvent} (he : e ∈ s.entries stream) :
    e.streamPosition < (s.entries stream).length := by
  have hplace := List.mem_map_of_mem (f := (·.streamPosition)) he
  rw [hn.places] at hplace
  exact List.mem_range.1 hplace

/-- A page of a stream that is there is a piece of what is visible. -/
theorem read_eq_drop (hn : Numbered s) (start count : Nat) : s.read stream start count =
    if s.hasStream stream
      then .ok (((s.visible stream).drop (start - (s.mark stream).hiddenBefore)).take count)
    else .error (.streamNotFound stream) := by
  rw [MemoryStore.read, filter_place_eq_drop (places_visible hn stream)]

theorem Calls.trans {s₁ s₂ s₃ : MemoryStore} (h : Calls s₁ s₂) (h' : Calls s₂ s₃) :
    Calls s₁ s₃ := by
  induction h' with
  | none => exact h
  | more _ does ih => exact ih.more does

/-- The version is the place of the last event. -/
theorem length_of_version? (hn : Numbered s) {v : Nat} (h : s.version? stream = some v) :
    v + 1 = (s.entries stream).length := by
  have halive : (s.mark stream).deleted = false := by
    cases hdeleted : (s.mark stream).deleted with
    | false => rfl
    | true => simp [version?, hdeleted] at h
  have hnext := next_eq hn halive
  rw [h] at hnext
  exact hnext

end MemoryStore

open MemoryStore

namespace Loading

variable {F : PayloadFamily} {A : Aggregate F} {r : TypeRegistry F} {l l' l₀ : Loading A}
  {s s' s₀ : MemoryStore} {stream : StreamName} {id : A.Id}

/-! ## 2. A load amid others -/

/-- A load at work on a store that others use too: what it does next and how the store is then. -/
inductive Amid (r : TypeRegistry F) (l₀ : Loading A) (s₀ : MemoryStore) :
    Next A → MemoryStore → Prop where
  | start : Amid r l₀ s₀ (.page l₀) s₀
  | others {next : Next A} {s s' : MemoryStore} (before : Amid r l₀ s₀ next s)
    (calls : Calls s s') :
    Amid r l₀ s₀ next s'
  | page {l : Loading A} {s : MemoryStore} (before : Amid r l₀ s₀ (.page l) s) :
    Amid r l₀ s₀ (l.callPage r s).1 (l.callPage r s).2
  | version {l : Loading A} {s : MemoryStore} (before : Amid r l₀ s₀ (.version l) s) :
    Amid r l₀ s₀ (.done (l.callVersion s).1) (l.callVersion s).2

/-- A load that makes its calls one after the other is one amid others that do nothing. -/
theorem amid_run {fuel : Nat} {result : Loaded A} (before : Amid r l₀ s₀ (.page l) s)
    (h : l.run r fuel s = (some result, s')) : Amid r l₀ s₀ (.done result) s' := by
  induction fuel generalizing l s with
  | zero => cases h
  | succ fuel ih =>
    have after := before.page
    rw [run] at h
    match hpage : l.callPage r s with
    | (.page l', s₁) =>
      rw [hpage] at h after
      exact ih after h
    | (.version l', s₁) =>
      rw [hpage] at h after
      cases h
      exact after.version
    | (.done result', s₁) =>
      rw [hpage] at h after
      cases h
      exact after

theorem amid_load? {result : Loaded A} (h : load? r A stream id s = (some result, s')) :
    Amid r (Loading.start A stream id) s (.done result) s' :=
  amid_run .start h

/-! ## 3. What has been folded -/

/-- The load has folded exactly these events. -/
structure Seen (r : TypeRegistry F) (l : Loading A) (seen : List StoredEvent) : Prop where
  state : ∃ events, Spells r A seen events ∧ l.state = A.fold A.initial events
  version : l.version = seen.getLast?.map (·.streamPosition)

theorem seen_start (stream : StreamName) (id : A.Id) : Seen r (start A stream id) [] :=
  ⟨⟨[], rfl, rfl⟩, rfl⟩

theorem Seen.takeEvents {seen page : List StoredEvent} (h : Seen r l seen)
    (htake : Loading.takeEvents r l page = .ok l') :
    l'.stream = l.stream ∧ l'.id = l.id ∧ Seen r l' (seen ++ page) := by
  obtain ⟨events, hspells, rfl⟩ := takeEvents_ok_iff.1 htake
  obtain ⟨before, hbefore, hstate⟩ := h.state
  refine ⟨rfl, rfl, ⟨before ++ events, hbefore.append hspells, ?_⟩, ?_⟩
  · rw [hstate, Aggregate.fold, Aggregate.fold, Aggregate.fold, List.foldl_append]
  · rw [List.getLast?_append, Option.map_or, ← h.version]

/-- The next page starts behind what has been folded of the visible events. -/
theorem Seen.nextPosition (hn : s.Numbered) {seen : List StoredEvent} (h : Seen r l seen)
    (hpre : seen <+: s.visible stream) :
    l.nextPosition - (s.mark stream).hiddenBefore = seen.length := by
  obtain ⟨rest, hrest⟩ := hpre
  have hplaces := places_visible hn stream
  rw [← hrest] at hplaces
  have hlast := congrArg List.getLast? (places_of_append hplaces).1
  rw [List.getLast?_map, ← h.version, List.getLast?_range'] at hlast
  unfold Loading.nextPosition
  rw [hlast]
  by_cases hempty : seen.length = 0
  · simp [hempty]
  · rw [if_neg hempty, Option.map_some, Option.getD_some]
    omega

/-- What a state at a version is made of, in a store where it was loaded. -/
structure Captured (r : TypeRegistry F) (id : A.Id) (s : MemoryStore) (stream : StreamName)
    (seen : List StoredEvent) (v : Nat) (state : AggregateState A) : Prop where
  state : ∃ events, Spells r A seen events ∧ state = .loaded id (A.fold A.initial events) (.exact v)
  folded : seen <+: s.visible stream
  last : ∀ e, seen.getLast? = some e → e.streamPosition = v
  written : v < (s.entries stream).length

theorem Captured.mono {seen : List StoredEvent} {v : Nat} {state : AggregateState A}
    (h : Captured r id s stream seen v state) (hgrown : Grown s s')
    (hsame : (s'.mark stream).hiddenBefore = (s.mark stream).hiddenBefore) :
    Captured r id s' stream seen v state :=
  ⟨h.state, h.folded.trans (hgrown.visible_prefix hsame), h.last,
    Nat.lt_of_lt_of_le h.written (hgrown.entries stream).length_le⟩

/-- How far a load has come. -/
def Sound (r : TypeRegistry F) (id : A.Id) (stream : StreamName) (s : MemoryStore) : Next A → Prop
  | .page l => l.stream = stream ∧ l.id = id ∧ ∃ seen, seen <+: s.visible stream ∧ Seen r l seen
  | .version l => l.stream = stream ∧ l.id = id ∧ Seen r l []
  | .done (.ok (some state)) => ∃ seen v, Captured r id s stream seen v state
  | .done _ => True

theorem Sound.mono {next : Next A} (h : Sound r id stream s next) (hgrown : Grown s s')
    (hsame : (s'.mark stream).hiddenBefore = (s.mark stream).hiddenBefore) :
    Sound r id stream s' next := by
  match next with
  | .page l =>
    obtain ⟨hstream, hid, seen, hfolded, hseen⟩ := h
    exact ⟨hstream, hid, seen, hfolded.trans (hgrown.visible_prefix hsame), hseen⟩
  | .version l => exact h
  | .done (.ok (some state)) =>
    obtain ⟨seen, v, hcaptured⟩ := h
    exact ⟨seen, v, hcaptured.mono hgrown hsame⟩
  | .done (.ok none) | .done (.error _) => trivial

/-- A page is folded behind what has been folded. -/
theorem Sound.page (hn : s.Numbered) (h : Sound r id stream s (.page l)) :
    Sound r id stream s (l.callPage r s).1 := by
  obtain ⟨rfl, rfl, seen, hfolded, hseen⟩ := h
  show Sound r l.id l.stream s (l.takePage r (s.read l.stream l.nextPosition loadPageSize))
  rw [read_eq_drop hn, hseen.nextPosition hn hfolded]
  cases hstands : s.hasStream l.stream with
  | false =>
    show Sound r l.id l.stream s (if _ then _ else _)
    split <;> trivial
  | true =>
    obtain ⟨rest, hrest⟩ := hfolded
    rw [if_pos rfl, ← hrest, List.drop_left]
    cases htake : Loading.takeEvents r l (rest.take loadPageSize) with
    | error error =>
      rw [takePage, htake]
      trivial
    | ok l' =>
      obtain ⟨hstream, hid, hseen'⟩ := hseen.takeEvents htake
      have hfolded' : seen ++ rest.take loadPageSize <+: s.visible l.stream := by
        rw [← hrest]
        exact (List.prefix_append_right_inj seen).2 (List.take_prefix _ _)
      rw [takePage, htake]
      dsimp only
      split
      · exact ⟨hstream, hid, _, hfolded', hseen'⟩
      · cases hversion : l'.version with
        | none =>
          have hnone := hseen'.version
          rw [hversion, eq_comm, Option.map_eq_none_iff, List.getLast?_eq_none_iff] at hnone
          exact ⟨hstream, hid, hnone ▸ hseen'⟩
        | some v =>
          have hsome := hseen'.version
          rw [hversion] at hsome
          obtain ⟨e, hlast, hplace⟩ := Option.map_eq_some_iff.1 hsome.symm
          obtain ⟨events, hspells, hstate⟩ := hseen'.state
          refine ⟨_, v, ⟨events, hspells, ?_⟩, hfolded', fun e' he' => ?_, ?_⟩
          · rw [Loading.result, hid, hstate]
          · cases hlast.symm.trans he'
            exact hplace
          · rw [← hplace]
            exact streamPosition_lt hn
              (mem_entries_of_visible (hfolded'.subset (List.mem_of_getLast? hlast)))

/-- A version of its own belongs to a load that has folded nothing. -/
theorem Sound.version (hn : s.Numbered) (h : Sound r id stream s (.version l)) :
    Sound r id stream s (.done (l.callVersion s).1) := by
  obtain ⟨rfl, rfl, hseen⟩ := h
  show Sound r l.id l.stream s (.done (l.takeVersion (.ok (s.version? l.stream))))
  cases hversion : s.version? l.stream with
  | none => trivial
  | some v =>
    obtain ⟨events, hspells, hstate⟩ := hseen.state
    refine ⟨[], v, ⟨events, hspells, ?_⟩, List.nil_prefix, by simp, ?_⟩
    · rw [Loading.result, hstate]
    · have := length_of_version? hn hversion
      omega

theorem Amid.calls {next : Next A} (h : Amid r l₀ s₀ next s) : Calls s₀ s := by
  induction h with
  | start => exact .none s₀
  | others _ calls ih => exact ih.trans calls
  | page _ ih => exact ih
  | version _ ih => exact ih

/-- A load is sound as long as nothing more is hidden. -/
theorem Amid.sound {next : Next A} (h : Amid r (Loading.start A stream id) s₀ next s)
    (hn : s₀.Numbered) (hsame : (s.mark stream).hiddenBefore = (s₀.mark stream).hiddenBefore) :
    Sound r id stream s next := by
  induction h with
  | start => exact ⟨rfl, rfl, [], List.nil_prefix, seen_start stream id⟩
  | others before calls ih =>
    have hbefore := before.calls.grown.hidden stream
    have hafter := calls.grown.hidden stream
    exact (ih (by omega)).mono calls.grown (by omega)
  | page before ih => exact (ih hsame).page (before.calls.numbered hn)
  | version before ih => exact (ih hsame).version (before.calls.numbered hn)

/-! ## 4. Snapshots -/

/-- What was folded is all that is visible up to the version, if anything was folded or all up to
there is hidden. -/
theorem Captured.eq_filter_iff {seen : List StoredEvent} {v : Nat} {state : AggregateState A}
    (h : Captured r id s stream seen v state) (hn : s.Numbered) :
    seen = (s.visible stream).filter (·.streamPosition ≤ v) ↔
      (seen = [] → v < (s.mark stream).hiddenBefore) := by
  rw [filter_place_eq_take (places_visible hn stream)]
  by_cases hempty : seen = []
  · have hlength : (s.visible stream).length =
        (s.entries stream).length - (s.mark stream).hiddenBefore := by
      rw [visible_eq_drop hn, List.length_drop]
    have hwritten := h.written
    subst hempty
    rw [eq_comm, List.take_eq_nil_iff, ← List.length_eq_zero_iff]
    refine ⟨fun h _ => ?_, fun h => ?_⟩
    · omega
    · have := h rfl
      omega
  · obtain ⟨rest, hrest⟩ := h.folded
    refine iff_of_true ?_ fun hnil => (hempty hnil).elim
    -- The version is the place of the last event folded.
    have hplaces := places_visible hn stream
    rw [← hrest] at hplaces
    have hlast := congrArg List.getLast? (places_of_append hplaces).1
    rw [List.getLast?_map, List.getLast?_eq_some_getLast hempty, List.getLast?_range',
      Option.map_some, h.last _ (List.getLast?_eq_some_getLast hempty),
      if_neg (mt List.eq_nil_of_length_eq_zero hempty), Option.some.injEq] at hlast
    have hpos := List.length_pos_iff.2 hempty
    rw [show v + 1 - (s.mark stream).hiddenBefore = seen.length by omega]
    exact List.prefix_iff_eq_take.1 h.folded

/-- A version that is accepted is that of the last event. -/
theorem visible_of_accepts (hn : s.Numbered) {v : Nat}
    (haccepts : (ExpectedVersion.exact v).accepts (s.version? stream) = true) :
    (s.visible stream).filter (·.streamPosition ≤ v) = s.visible stream := by
  refine List.filter_eq_self.2 fun e he => ?_
  cases hversion : s.version? stream with
  | none => simp [hversion, ExpectedVersion.accepts] at haccepts
  | some last =>
    have hlength := length_of_version? hn hversion
    have hplace := streamPosition_lt hn (mem_entries_of_visible he)
    simp only [hversion, ExpectedVersion.accepts, beq_iff_eq] at haccepts
    simp only [decide_eq_true_eq]
    omega

/-- A state at a version and the events it was made of. -/
structure Snapshot (r : TypeRegistry F) (id : A.Id) (s : MemoryStore) (stream : StreamName)
    (seen : List StoredEvent) (v : Nat) (state : AggregateState A) : Prop where
  /-- The state is the fold of the events. -/
  state : ∃ events, Spells r A seen events ∧ state = .loaded id (A.fold A.initial events) (.exact v)
  /-- The events are all that are visible up to the version, unless there are none and the version
  is that of a visible event. -/
  whole : seen = (s.visible stream).filter (·.streamPosition ≤ v) ↔
    (seen = [] → v < (s.mark stream).hiddenBefore)
  /-- Under the same condition a writer that expects the version is let in on top of exactly these
  events. -/
  accepted : ∀ s', Calls s s' → (s'.mark stream).hiddenBefore = (s.mark stream).hiddenBefore →
    (ExpectedVersion.exact v).accepts (s'.version? stream) = true →
    (seen = s'.visible stream ↔ (seen = [] → v < (s.mark stream).hiddenBefore))

/-- **What a load returns.**  Amid any calls of others that hide nothing more of the stream, a state
at a version is the fold of what is visible up to the version exactly if the load has folded an
event, or the version it was told is that of a hidden one. -/
theorem snapshot_of_load {state : AggregateState A} (stored : Calls {} s₀)
    (load : Amid r (Loading.start A stream id) s₀ (.done (.ok (some state))) s)
    (unhidden : (s.mark stream).hiddenBefore = (s₀.mark stream).hiddenBefore) :
    ∃ seen v, Snapshot r id s stream seen v state := by
  have hn₀ := stored.numbered numbered_empty
  have hn := load.calls.numbered hn₀
  obtain ⟨seen, v, hcaptured⟩ := load.sound hn₀ unhidden
  refine ⟨seen, v, hcaptured.state, hcaptured.eq_filter_iff hn, fun s' calls hsame haccepts => ?_⟩
  have hn' := calls.numbered hn
  rw [← visible_of_accepts hn' haccepts, ← hsame]
  exact (hcaptured.mono calls.grown hsame).eq_filter_iff hn'

/-! ## 5. A tally that is hidden and goes on -/

section Sample

open Sample

/-- A tally of one tick. -/
def firstTick : MemoryStore := (append tallyStream .any [newTick 0] {}).2

/-- The same with everything before a position hidden. -/
def hiddenTick (before : Nat) : MemoryStore :=
  { firstTick with marks := firstTick.marks.insert tallyStream.text ⟨before, false⟩ }

/-- One more tick. -/
def secondTick (s : MemoryStore) : MemoryStore := (append tallyStream .any [newTick 1] s).2

theorem calls_firstTick : Calls {} firstTick := (Calls.none {}).more (.append _ _ _ _)

theorem calls_secondTick (s : MemoryStore) : Calls s (secondTick s) :=
  (Calls.none s).more (.append _ _ _ _)

theorem calls_hiddenTick (before : Nat) : Calls {} (hiddenTick before) := by
  have hknown : firstTick.isKnown tallyStream = true := by
    rw [isKnown, Array.any_eq_true']
    exact ⟨_, List.mem_toArray.2 List.mem_cons_self, rfl⟩
  have htruncate : (truncate tallyStream before .any firstTick).2 = hiddenTick before := by
    unfold truncate checkChange
    rw [hknown]
    show { firstTick with marks := firstTick.marks.insert tallyStream.text ⟨max 0 before, false⟩ } =
      hiddenTick before
    rw [Nat.zero_max]
    rfl
  exact htruncate ▸ calls_firstTick.more (.truncate _ _ _ _)

/-- A load of a tally whose marks lie ahead, with the second tick between its page and the
version. -/
theorem amid_hiddenTick : Amid tickRegistry (Loading.start tally tallyStream ()) (hiddenTick 5)
    (.done (.ok (some (.loaded () (0 : Nat) (.exact 1))))) (secondTick (hiddenTick 5)) := by
  have page : Amid tickRegistry (Loading.start tally tallyStream ()) (hiddenTick 5)
      (.version (Loading.start tally tallyStream ())) (hiddenTick 5) :=
    Amid.start.page (l := Loading.start tally tallyStream ())
  exact (page.others (calls_secondTick (hiddenTick 5))).version

/-- The tally that was loaded has folded all that is visible up to its version, which is nothing:
the second tick, whose version it was told, is hidden as it comes. -/
theorem overtaken_load_is_whole : ∃ seen, Snapshot tickRegistry () (secondTick (hiddenTick 5))
    tallyStream seen 1 (.loaded () (0 : Nat) (.exact 1) : AggregateState tally) ∧
      seen = ((secondTick (hiddenTick 5)).visible tallyStream).filter (·.streamPosition ≤ 1) := by
  obtain ⟨seen, v, snapshot⟩ := snapshot_of_load (calls_hiddenTick 5) amid_hiddenTick rfl
  obtain ⟨events, hspells, hstate⟩ := snapshot.state
  cases congrArg AggregateState.originalVersion hstate
  exact ⟨seen, snapshot, snapshot.whole.2 fun _ => by decide⟩

/-- The first tick is hidden when the load asks for its page, the second one there when it asks for
the version: it returns a tally of none at the version of the second tick, which is visible, and a
third tick is appended on top.  Likewise when the mark lies ahead of the stream, where the second
tick is hidden as it comes. -/
theorem tally_without_second_tick :
    (Calls {} (hiddenTick 1) ∧ ∃ state : AggregateState tally,
      Amid tickRegistry (Loading.start tally tallyStream ()) (hiddenTick 1)
        (.done (.ok (some state))) (secondTick (hiddenTick 1)) ∧
      state = .loaded () (0 : Nat) (.exact 1) ∧
      ∃ e, ((secondTick (hiddenTick 1)).visible tallyStream).filter (·.streamPosition ≤ 1) = [e] ∧
        Spells tickRegistry tally [e] [ticked] ∧ state.inner ≠ tally.fold tally.initial [ticked] ∧
        ∃ answer s', append tallyStream state.originalVersion [newTick 2]
          (secondTick (hiddenTick 1)) = (.ok answer, s')) ∧
    Calls {} (hiddenTick 5) ∧ ∃ state : AggregateState tally,
      load? tickRegistry tally tallyStream () (secondTick (hiddenTick 5)) =
        (some (.ok (some state)), secondTick (hiddenTick 5)) ∧
      state = .loaded () (0 : Nat) (.exact 1) ∧
      ∃ answer s', append tallyStream state.originalVersion [newTick 2]
        (secondTick (hiddenTick 5)) = (.ok answer, s') := by
  constructor
  · have load : Amid tickRegistry (Loading.start tally tallyStream ()) (hiddenTick 1)
        (.version (Loading.start tally tallyStream ())) (hiddenTick 1) :=
      Amid.start.page (l := Loading.start tally tallyStream ())
    exact ⟨calls_hiddenTick 1, _, (load.others (calls_secondTick _)).version, rfl, _, rfl, rfl,
      nofun, _, _, rfl⟩
  · exact ⟨calls_hiddenTick 5, _, rfl, rfl, _, _, rfl⟩

end Sample

end Loading
end EventSourcing

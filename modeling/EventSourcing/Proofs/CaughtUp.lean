/-
# What an idle poll means

A poller that gets an empty page takes it that there is nothing new, and sleeps.  Between its pages
others use the store in any way: they append, but they also hide events of the source or delete it.
What is in front of the poller was then handed out or is gone, since whatever is appended comes
behind everything that was ever written, and what is gone never comes back.  So an empty page means
that the run is caught up, unless the page was empty because it had to be.

What the file settles:

* `Source.written`: the events that were ever in a source; `Source.events_of_written`: none of them
  comes back;
* `Pursuit.Reachable`: a run amid any calls, and the store as the last page found it;
* `Covered`, `covered`: what the source had behind the checkpoint is in front of the poller, or it
  was handed out;
* `caught_up_iff`: when a poll that finds nothing new means that the run is caught up.
-/
import EventSourcing.Proofs.Delivery

namespace EventSourcing

open MemoryStore Run

variable {F : PayloadFamily} {s : Subscription F} {source : Source} {store store' : MemoryStore}

/-! ## 1. What was ever in a source -/

namespace Source

/-- The events that were ever written where the source reads. -/
def written : Source → MemoryStore → List StoredEvent
  | .all, store => store.log.toList
  | .stream name, store => store.entries name

theorem written_mono (source : Source) (grown : Grown store store') :
    source.written store <+: source.written store' := by
  cases source with
  | all =>
    obtain ⟨more, hmore⟩ := grown.log
    exact ⟨more, hmore.symm⟩
  | stream name => exact grown.entries name

theorem sorted_written (hn : store.Numbered) (source : Source) :
    (source.written store).Pairwise (source.position · < source.position ·) := by
  cases source with
  | all => exact List.pairwise_map.1 (hn.global ▸ List.pairwise_lt_range)
  | stream name => exact List.pairwise_map.1 (hn.places name ▸ List.pairwise_lt_range)

theorem mem_events_stream {name : StreamName} {e : StoredEvent} :
    e ∈ (Source.stream name).events store ↔ (store.mark name).deleted = false ∧
        e ∈ store.entries name ∧ (store.mark name).hiddenBefore ≤ e.streamPosition := by
  show e ∈ (if store.hasStream name then store.visible name else []) ↔ _
  have hvisible : e ∈ store.visible name ↔
      e ∈ store.entries name ∧ (store.mark name).hiddenBefore ≤ e.streamPosition := by
        simp [visible]
  split
  · rename_i stands
    rw [hvisible, (hasStream_iff.1 stands).1]
    simp
  · rename_i gone
    refine iff_of_false List.not_mem_nil ?_
    rintro ⟨alive, here, -⟩
    exact gone (hasStream_iff.2 ⟨alive, List.ne_nil_of_mem here⟩)

theorem events_subset_written (source : Source) (store : MemoryStore) :
    source.events store ⊆ source.written store := by
  cases source with
  | all => exact fun _ here => here
  | stream name => exact fun _ here => (mem_events_stream.1 here).2.1

/-- What was there and is there now was never taken away. -/
theorem events_of_written (grown : Grown store store') {e : StoredEvent}
    (now : e ∈ source.events store') (was : e ∈ source.written store) :
    e ∈ source.events store := by
  cases source with
  | all => exact was
  | stream name =>
    obtain ⟨alive, -, hidden⟩ := mem_events_stream.1 now
    exact mem_events_stream.2 ⟨grown.alive alive, was, Nat.le_trans (grown.hidden name) hidden⟩

/-- What is there now and was not before comes behind everything that ever was. -/
theorem lt_of_new (grown : Grown store store') (hn : store'.Numbered) {e : StoredEvent}
    (now : e ∈ source.events store') (new : e ∉ source.events store) {old : StoredEvent}
    (here : old ∈ source.written store) : source.position old < source.position e := by
  obtain ⟨more, hmore⟩ := source.written_mono grown
  have sorted := source.sorted_written hn
  rw [← hmore, List.pairwise_append] at sorted
  have hwritten := source.events_subset_written store' now
  rw [← hmore, List.mem_append] at hwritten
  exact sorted.2.2 old here e
    (hwritten.resolve_left fun was => new (events_of_written grown now was))

end Source

/-! ## 2. A run amid any calls -/

/-- A run, what it went through, the store its source reads, and that store as the last page found
it. -/
structure Pursuit (F : PayloadFamily) where
  store : MemoryStore
  seen : MemoryStore
  history : List (Entry F) := []
  run : Run F := {}

namespace Pursuit

variable {w w' : Pursuit F}

/-- What can happen while the run is on. -/
inductive Step (s : Subscription F) (source : Source) : Pursuit F → Pursuit F → Prop where
  /-- Others use the store, and may take something of the source away. -/
  | stored {w : Pursuit F} {store : MemoryStore} (does : Does w.store store) :
    Step s source w { w with store }
  /-- A page arrives: what the source had at some time since the page before it. -/
  | read {w : Pursuit F} {cursor : Cursor} {past : MemoryStore} {page : List StoredEvent}
    {r : Run F} {effects : List (Effect F)} (phase : w.run.phase = .reading cursor)
    (since : Calls w.seen past) (earlier : Calls past w.store)
    (answer : source.readAfter cursor.after s.options.pageSize past = .ok page)
    (made : Run.step s w.run (.pageRead (.ok page)) = some (r, effects)) :
    Step s source w
      { w with
        seen := past
        history := w.history ++ [⟨w.run, .pageRead (.ok page), r, effects⟩]
        run := r }
  /-- Anything else happens to the run; a read may fail at any time. -/
  | acted {w : Pursuit F} {a : Run.Action} {r : Run F} {effects : List (Effect F)}
    (other : ∀ page, a ≠ .pageRead (.ok page)) (made : Run.step s w.run a = some (r, effects)) :
    Step s source w { w with history := w.history ++ [⟨w.run, a, r, effects⟩], run := r }

/-- What can be come to from a store that was used in any way. -/
inductive Reachable (s : Subscription F) (source : Source) : Pursuit F → Prop where
  | start {store : MemoryStore} (calls : Calls {} store) :
    Reachable s source { store, seen := store }
  | step {w w' : Pursuit F} (before : Reachable s source w) (step : Step s source w w') :
    Reachable s source w'

/-- The run was given pages of its source, none longer than it asked for. -/
structure Sound (s : Subscription F) (source : Source) (w : Pursuit F) : Prop where
  past : Calls {} w.seen
  later : Calls w.seen w.store
  hist : History s w.history w.run
  short : ∀ e ∈ w.history, ∀ page, e.action = .pageRead (.ok page) →
    page.length ≤ s.options.pageSize
  given : ∀ e, Given w.history e → e ∈ source.written w.seen

theorem readAfter_eq (calls : Calls {} store) (source : Source) (after : Option Nat) (count : Nat) :
    source.readAfter after count store =
      .ok ((behind source.position after (source.events store)).take count) :=
  Source.readAfter_eq (calls.numbered numbered_empty).global source after count

/-- What a run was given after one step more is in the page of that step, if it is one, or was given
before. -/
theorem given_snoc {h : List (Entry F)} {r r' : Run F} {a : Run.Action}
    {effects : List (Effect F)} {e : StoredEvent} (given : Given (h ++ [⟨r, a, r', effects⟩]) e) :
    Given h e ∨ ∃ page, a = .pageRead (.ok page) ∧ e ∈ page := by
  obtain ⟨entry, here, page, action, hpage⟩ := given
  rcases List.mem_append.1 here with old | new
  · exact .inl ⟨entry, old, page, action, hpage⟩
  · cases List.mem_singleton.1 new
    exact .inr ⟨page, action, hpage⟩

theorem Sound.step (sound : w.Sound s source) (step : Step s source w w') : w'.Sound s source := by
  cases step with
  | stored does => exact ⟨sound.past, sound.later.more does, sound.hist, sound.short, sound.given⟩
  | @read cursor past page r effects phase since earlier answer made =>
    have calls := sound.past.trans since
    rw [readAfter_eq calls, Except.ok.injEq] at answer
    refine ⟨calls, earlier, sound.hist.step made, fun e he page' action => ?_, fun e given => ?_⟩
    · rcases List.mem_append.1 he with old | new
      · exact sound.short e old page' action
      · cases List.mem_singleton.1 new
        cases action
        rw [← answer, List.length_take]
        exact Nat.min_le_left ..
    · rcases given_snoc given with old | ⟨page', action, here⟩
      · exact (source.written_mono since.grown).subset (sound.given e old)
      · cases action
        rw [← answer] at here
        exact source.events_subset_written past (List.mem_of_mem_filter (List.mem_of_mem_take here))
  | @acted a r effects other made =>
    refine ⟨sound.past, sound.later, sound.hist.step made, fun e he page action => ?_,
      fun e given => ?_⟩
    · rcases List.mem_append.1 he with old | new
      · exact sound.short e old page action
      · cases List.mem_singleton.1 new
        exact absurd action (other page)
    · rcases given_snoc given with old | ⟨page, action, -⟩
      · exact sound.given e old
      · exact absurd action (other page)

theorem Reachable.sound (reachable : Reachable s source w) : w.Sound s source := by
  induction reachable with
  | start calls =>
    exact ⟨calls, .none _, .begin, by simp, fun e ⟨_, here, _⟩ => absurd here List.not_mem_nil⟩
  | step before step ih => exact ih.step step

/-- The events the source had at a time behind the checkpoint of the run. -/
def due (source : Source) (w : Pursuit F) (past : MemoryStore) : List StoredEvent :=
  behind source.position (origin w.history) (source.events past)

end Pursuit

/-! ## 3. In front of the poller, or handed out -/

/-- One of the messages is made of the event. -/
def HandedOut (s : Subscription F) (source : Source) (h : List (Entry F))
    (e : StoredEvent) : Prop :=
  ∃ m ∈ dispatched h, Carries s source e m.sequence m

/-- What the source had behind the checkpoint when it was read last is in front of the poller, or
was handed out. -/
structure Covered (s : Subscription F) (source : Source) (seen : MemoryStore) (h : List (Entry F))
    (r : Run F) : Prop where
  early : r.phase.IsEarly → origin h = none
  due : ∀ cursor, r.phase.cursor? = some cursor →
    ∀ e ∈ behind source.position (origin h) (source.events seen),
    e ∈ behind source.position cursor.after (source.events seen) ∨ HandedOut s source h e
  page : ∀ cursor page, r.phase = .delivering cursor page →
    page <+: behind source.position cursor.after (source.events seen)
  place : ∀ cursor, r.phase.cursor? = some cursor →
    cursor.after = origin h ∨ ∃ e ∈ source.written seen, cursor.after = some (source.position e)

namespace Covered

variable {seen past : MemoryStore} {h : List (Entry F)} {r r' : Run F} {a : Run.Action}
  {effects : List (Effect F)}

/-- A step that hands nothing out, and gets no checkpoint. -/
theorem step_quiet (hc : Covered s source seen h r)
    (quiet : effects.filterMap Effect.dispatched? = [])
    (unloaded : a.loaded? = none) (early : r'.phase.IsEarly → r.phase.IsEarly)
    (cursor : ∀ cursor', r'.phase.cursor? = some cursor' →
      ∃ cursor, r.phase.cursor? = some cursor ∧ cursor'.after = cursor.after)
    (page : ∀ cursor page, r'.phase = .delivering cursor page →
      page <+: behind source.position cursor.after (source.events seen)) :
    Covered s source seen (h ++ [⟨r, a, r', effects⟩]) r' := by
  have hdispatched := dispatched_snoc h ⟨r, a, r', effects⟩
  have horigin := Followed.origin_snoc h ⟨r, a, r', effects⟩
  rw [quiet, List.append_nil] at hdispatched
  rw [unloaded, Option.or_none] at horigin
  constructor
  case early => exact fun early' => horigin.trans (hc.early (early early'))
  case due =>
    intro cursor' here e he
    obtain ⟨cursor₀, here₀, hafter⟩ := cursor cursor' here
    rw [horigin] at he
    rw [hafter, HandedOut, hdispatched]
    exact hc.due cursor₀ here₀ e he
  case page => exact page
  case place =>
    intro cursor' here
    obtain ⟨cursor₀, here₀, hafter⟩ := cursor cursor' here
    rw [hafter, horigin]
    exact hc.place cursor₀ here₀

/-- The first event of the page is handed out, and the others of it come next. -/
theorem step_handed (position : s.position = source.position) (hn : seen.Numbered)
    (hc : Covered s source seen h r) {cursor : Cursor} {e : StoredEvent}
    {rest : List StoredEvent} {m : Message F} (phase : r.phase = .delivering cursor (e :: rest))
    (decoded : s.decode e cursor.sequence = .ok m)
    (hands : effects.filterMap Effect.dispatched? = [m])
    (next : ∀ cursor', r'.phase.cursor? = some cursor' → cursor' = cursorAfter s cursor e)
    (left : ∀ cursor' page, r'.phase = .delivering cursor' page → page = rest)
    (late : ¬r'.phase.IsEarly) : Covered s source seen (h ++ [⟨r, .deliver, r', effects⟩]) r' := by
  have hdispatched := dispatched_snoc h ⟨r, .deliver, r', effects⟩
  rw [hands] at hdispatched
  have horigin : origin (h ++ [⟨r, .deliver, r', effects⟩]) = origin h :=
    (Followed.origin_snoc h ⟨r, .deliver, r', effects⟩).trans Option.or_none
  obtain ⟨more, hmore⟩ := hc.page cursor _ phase
  have hnext : behind source.position (some (source.position e)) (source.events seen) =
      rest ++ more :=
    behind_next (source.sorted_events hn) (hmore.symm.trans (List.cons_append ..))
  have hafter : ∀ cursor', r'.phase.cursor? = some cursor' →
      cursor'.after = some (source.position e) := by
    intro cursor' here
    rw [next cursor' here, ← position]
    rfl
  constructor
  case early => exact fun early => absurd early late
  case due =>
    intro cursor' here x hx
    rw [horigin] at hx
    rw [hafter cursor' here, hnext, HandedOut, hdispatched]
    rcases hc.due cursor (congrArg Phase.cursor? phase) x hx with ahead | ⟨m', hm', carries⟩
    · rw [← hmore, List.cons_append] at ahead
      rcases List.mem_cons.1 ahead with rfl | ahead
      · refine .inr ⟨m, List.mem_append_right _ (List.mem_singleton_self m), ?_⟩
        exact sequence_of_decode decoded ▸ carries_of_decode position decoded
      · exact .inl ahead
    · exact .inr ⟨m', List.mem_append_left _ hm', carries⟩
  case page =>
    intro cursor' page here
    rw [hafter cursor' (congrArg Phase.cursor? here), hnext, left cursor' page here]
    exact List.prefix_append ..
  case place =>
    intro cursor' here
    have hbehind : e ∈ behind source.position cursor.after (source.events seen) :=
      hmore ▸ List.mem_append_left more List.mem_cons_self
    exact .inr ⟨e, source.events_subset_written seen (List.mem_of_mem_filter hbehind),
      hafter cursor' here⟩

/-- What the source has got since comes in front of the poller, and what it has lost needs not be
handed out. -/
theorem renew (hc : Covered s source seen h r) (grown : Grown seen past) (hn : past.Numbered)
    {cursor : Cursor} (phase : r.phase = .reading cursor) : Covered s source past h r := by
  constructor
  case early => exact hc.early
  case due =>
    intro cursor' here e he
    obtain ⟨now, behindOrigin⟩ := List.mem_filter.1 he
    by_cases before : e ∈ source.events seen
    · refine (hc.due cursor' here e (List.mem_filter.2 ⟨before, behindOrigin⟩)).imp
        (fun ahead => ?_) id
      exact List.mem_filter.2 ⟨now, (List.mem_filter.1 ahead).2⟩
    · refine .inl (List.mem_filter.2 ⟨now, ?_⟩)
      rcases hc.place cursor' here with hafter | ⟨old, hold, hafter⟩
      · rw [hafter]
        exact behindOrigin
      · rw [hafter]
        simpa using Source.lt_of_new grown hn now before hold
  case page =>
    intro cursor' page here
    cases phase.symm.trans here
  case place =>
    intro cursor' here
    refine (hc.place cursor' here).imp id ?_
    rintro ⟨e, he, hafter⟩
    exact ⟨e, (source.written_mono grown).subset he, hafter⟩

/-- The poller is put where the checkpoint says. -/
theorem step_begun (hc : Covered s source seen h r) {c : Checkpoint} (early : r.phase.IsEarly)
    (late : ¬r'.phase.IsEarly)
    (cursor : ∀ cursor, r'.phase.cursor? = some cursor → cursor = { after := c.position })
    (page : ∀ cursor page, r'.phase ≠ .delivering cursor page) :
    Covered s source seen (h ++ [⟨r, .checkpointLoaded (.ok c), r', effects⟩]) r' := by
  have horigin : origin (h ++ [⟨r, .checkpointLoaded (.ok c), r', effects⟩]) = c.position := by
    rw [Followed.origin_snoc, hc.early early, Option.none_or]
    rfl
  have hafter : ∀ cursor', r'.phase.cursor? = some cursor' → cursor'.after = c.position :=
    fun cursor' here => congrArg Cursor.after (cursor cursor' here)
  constructor
  case early => exact fun early' => absurd early' late
  case due =>
    intro cursor' here e he
    rw [horigin] at he
    rw [hafter cursor' here]
    exact .inl he
  case page => exact fun cursor' page' here => (page cursor' page' here).elim
  case place => exact fun cursor' here => .inl ((hafter cursor' here).trans horigin.symm)

/-- A page of what is in front of the poller comes. -/
theorem step_arrived (hc : Covered s source seen h r) {cursor : Cursor} {page : List StoredEvent}
    (phase : r.phase = .reading cursor) (quiet : effects.filterMap Effect.dispatched? = [])
    (phase' : r'.phase = .delivering { cursor with failures := 0 } page)
    (front : page <+: behind source.position cursor.after (source.events seen)) :
    Covered s source seen (h ++ [⟨r, .pageRead (.ok page), r', effects⟩]) r' := by
  refine hc.step_quiet quiet rfl (fun early => ?_) (fun cursor' here => ?_)
    fun cursor' page' here => ?_
  · rw [phase'] at early
    exact early.elim
  · rw [phase'] at here
    cases here
    exact ⟨cursor, congrArg Phase.cursor? phase, rfl⟩
  · cases phase'.symm.trans here
    exact front

/-- A step keeps what is covered if a page that comes with it is one of what is in front of the
poller. -/
theorem step_run (position : s.position = source.position) (hn : seen.Numbered)
    (hc : Covered s source seen h r) (made : Run.step s r a = some (r', effects))
    (front : ∀ cursor page, r.phase = .reading cursor → a = .pageRead (.ok page) →
      page <+: behind source.position cursor.after (source.events seen)) :
    Covered s source seen (h ++ [⟨r, a, r', effects⟩]) r' := by
  cases (transition_of_step made).draws with
  | begun early late quiet cursor page => exact hc.step_begun early late cursor page
  | arrived phase quiet phase' => exact hc.step_arrived phase quiet phase' (front _ _ phase rfl)
  | handed phase decoded hands next left late =>
    exact hc.step_handed position hn phase decoded hands next left late
  | nothing quiet unloaded cursor page early =>
    refine hc.step_quiet quiet unloaded early (fun cursor' here => ?_) fun cursor' page' here =>
      hc.page cursor' page' (page cursor' page' here)
    obtain ⟨cursor₀, here₀, hafter, -⟩ := cursor cursor' here
    exact ⟨cursor₀, here₀, hafter⟩

theorem step (position : s.position = source.position) {w w' : Pursuit F} (sound : w.Sound s source)
    (hc : Covered s source w.seen w.history w.run) (step : Pursuit.Step s source w w') :
    Covered s source w'.seen w'.history w'.run := by
  cases step with
  | stored => exact hc
  | read phase since earlier answer made =>
    -- What the page was taken from is what the source has now, so the cursor is looked at there
    -- first.
    have calls := sound.past.trans since
    have hn := calls.numbered numbered_empty
    refine (hc.renew since.grown hn phase).step_run position hn made
      fun cursor' page' phase' action => ?_
    cases phase.symm.trans phase'
    cases action
    rw [Pursuit.readAfter_eq calls, Except.ok.injEq] at answer
    exact answer ▸ List.take_prefix ..
  | acted other made =>
    exact hc.step_run position (sound.past.numbered numbered_empty) made
        fun cursor page phase action =>
      absurd action (other page)

end Covered

theorem covered (position : s.position = source.position) {w : Pursuit F}
    (reachable : Pursuit.Reachable s source w) : Covered s source w.seen w.history w.run := by
  induction reachable with
  | start => exact ⟨fun _ => rfl, by simp [Phase.cursor?], by simp, by simp [Phase.cursor?]⟩
  | step before step ih => exact ih.step position before.sound step

/-! ## 4. Idle polls -/

/-- A run that asks for pages of no events is never given one to hand out. -/
theorem Pursuit.Sound.stalled {w : Pursuit F} (sound : w.Sound s source)
    (noRoom : s.options.pageSize = 0) : dispatched w.history = [] := by
  refine List.eq_nil_iff_forall_not_mem.2 fun m hm => ?_
  obtain ⟨e, ⟨entry, here, page, action, hpage⟩, -⟩ := (sourced sound.hist).messages m hm
  have short := sound.short entry here page action
  rw [noRoom, Nat.le_zero, List.length_eq_zero_iff] at short
  rw [short] at hpage
  cases hpage

/-- A successful read on which the poller goes to sleep brought nothing. -/
theorem empty_of_idle {r r' : Run F} {effects : List (Effect F)} {cursor cursor' : Cursor}
    {page : List StoredEvent} (phase : r.phase = .reading cursor)
    (made : Run.step s r (.pageRead (.ok page)) = some (r', effects))
    (idle : r'.phase = .sleeping cursor') :
    page = [] ∧ effects = [.sleeping s.options.pollInterval] := by
  have hstep : some (pageRead s r cursor (.ok page)) = some (r', effects) := by
    rw [← made]
    show _ = pollerStep s r (.pageRead (.ok page))
    rw [pollerStep, phase]
  cases page with
  | nil =>
    cases hstep
    exact ⟨rfl, rfl⟩
  | cons =>
    cases hstep
    cases idle

/-- What a successful read says on which the poller goes to sleep. -/
structure IdlePoll (s : Subscription F) (source : Source) (w : Pursuit F) (past : MemoryStore)
    (page : List StoredEvent) (effects : List (Effect F)) : Prop where
  /-- There was nothing in the page. -/
  empty : page = []
  /-- The poller sleeps for its interval. -/
  sleeps : effects = [.sleeping s.options.pollInterval]
  /-- Everything the source had behind the checkpoint was handed out, exactly if pages have room or
  nothing was due. -/
  caughtUp : (∀ e ∈ w.due source past, HandedOut s source w.history e) ↔
    0 < s.options.pageSize ∨ w.due source past = []
  /-- A run whose pages have no room hands nothing out, and finds nothing new whatever there is. -/
  stalled : s.options.pageSize = 0 → dispatched w.history = []

/-- **An idle poll means caught up**, as long as a page has room for an event: whatever mode the run
is in, wherever it began and whatever others did to the source between its reads, everything the
source had behind the checkpoint at the time of the read was handed out.  With a page size of zero
this holds only if there was nothing. -/
theorem caught_up_iff (position : s.position = source.position) {w : Pursuit F}
    (reachable : Pursuit.Reachable s source w) {cursor cursor' : Cursor} {past : MemoryStore}
    {page : List StoredEvent} {r : Run F} {effects : List (Effect F)}
    (phase : w.run.phase = .reading cursor) (since : Calls w.seen past)
    (answer : source.readAfter cursor.after s.options.pageSize past = .ok page)
    (made : Run.step s w.run (.pageRead (.ok page)) = some (r, effects))
    (idle : r.phase = .sleeping cursor') : IdlePoll s source w past page effects := by
  have sound := reachable.sound
  have calls := sound.past.trans since
  have renewed :=
    (covered position reachable).renew since.grown (calls.numbered numbered_empty) phase
  rw [Pursuit.readAfter_eq calls, Except.ok.injEq] at answer
  obtain ⟨rfl, heffects⟩ := empty_of_idle phase made idle
  refine ⟨rfl, heffects, ?_, sound.stalled⟩
  constructor
  · intro all
    rcases Nat.eq_zero_or_pos s.options.pageSize with noRoom | room
    · refine .inr (List.eq_nil_iff_forall_not_mem.2 fun e he => ?_)
      obtain ⟨m, hm, -⟩ := all e he
      rw [sound.stalled noRoom] at hm
      cases hm
    · exact .inl room
  · rintro (room | nothing) e he
    · -- The page is empty and has room, so nothing is in front of the poller.
      have hahead : behind source.position cursor.after (source.events past) = [] :=
        (List.take_eq_nil_iff.1 answer).resolve_left (Nat.pos_iff_ne_zero.1 room)
      refine (renewed.due cursor (congrArg Phase.cursor? phase) e he).resolve_left ?_
      rw [hahead]
      exact List.not_mem_nil
    · rw [nothing] at he
      cases he

section Sample

open Sample

/-- A subscription to ticks with the given page size. -/
def pagedFeed (pageSize : Nat) : Subscription ticks :=
  { tickFeed none with options := { (tickFeed none).options with pageSize } }

/-- The store with one tick. -/
def oneTick : MemoryStore := (MemoryStore.append tallyStream .any [newTick 0] {}).2

theorem calls_oneTick : Calls {} oneTick :=
  (Calls.none {}).more (.append _ tallyStream .any [newTick 0])

/-- With room for one event, the tick is handed out, and the next poll is an idle one. -/
theorem tick_is_handed_out_before_idling : ∃ (w : Pursuit ticks) (effects : List (Effect ticks)),
    Pursuit.Reachable (pagedFeed 1) .all w ∧ IdlePoll (pagedFeed 1) .all w oneTick [] effects ∧
    (w.due .all oneTick).map (·.id) = [(newTick 0).id] ∧
    ∀ e ∈ w.due .all oneTick, HandedOut (pagedFeed 1) .all w.history e := by
  have start : Pursuit.Reachable (pagedFeed 1) .all { store := oneTick, seen := oneTick } :=
    .start calls_oneTick
  have subscribed := start.step (.acted (a := .subscribe) (by simp) rfl)
  have loaded :=
    subscribed.step (.acted (a := .checkpointLoaded (.ok ⟨"feed", none⟩)) (by simp) rfl)
  have page : Source.readAfter .all none 1 oneTick = .ok (oneTick.readAll none 1) := rfl
  have read := loaded.step (.read rfl (.none _) (.none _) page rfl)
  have delivered := read.step (.acted (a := .deliver) (by simp) rfl)
  have nothing : Source.readAfter .all (some 0) 1 oneTick = .ok [] := rfl
  have idle := caught_up_iff (show (pagedFeed 1).position = Source.all.position from rfl)
    delivered rfl (.none _) nothing rfl rfl
  exact ⟨_, _, delivered, idle, rfl, idle.caughtUp.2 (.inl Nat.one_pos)⟩

/-- With room for none, the poller sleeps for its interval, and the tick was not handed out. -/
theorem blind_poll_is_idle : ∃ (w : Pursuit ticks) (cursor cursor' : Cursor) (r : Run ticks),
    Pursuit.Reachable (pagedFeed 0) .all w ∧ w.run.phase = .reading cursor ∧
    Source.readAfter .all cursor.after (pagedFeed 0).options.pageSize w.store = .ok [] ∧
    Run.step (pagedFeed 0) w.run (.pageRead (.ok [])) =
      some (r, [.sleeping (pagedFeed 0).options.pollInterval]) ∧ r.phase = .sleeping cursor' ∧
    ∃ e ∈ w.due .all w.store, ¬HandedOut (pagedFeed 0) .all w.history e := by
  have start : Pursuit.Reachable (pagedFeed 0) .all { store := oneTick, seen := oneTick } :=
    .start calls_oneTick
  have subscribed := start.step (.acted (a := .subscribe) (by simp) rfl)
  have loaded :=
    subscribed.step (.acted (a := .checkpointLoaded (.ok ⟨"feed", none⟩)) (by simp) rfl)
  refine ⟨_, _, _, _, loaded, rfl, rfl, rfl, rfl, _, List.mem_singleton_self _, ?_⟩
  rintro ⟨m, hm, -⟩
  cases hm

end Sample

end EventSourcing

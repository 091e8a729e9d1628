/-
# Commands side by side

Any number of clients carry out commands on one store, each by its own calls, and others write to
the store directly.  A command that succeeds with new events has appended them right behind the
events its state was loaded from; so the commands on a stream take turns, and each might as well
have been carried out at once when its turn came.

What the file settles:

* `Traffic.Reachable`: every order of steps;
* `Turn`: what a command that succeeds has done to its stream;
* `Client.turn_of_next`: the step in which a command takes its turn;
* `InTurns.one_by_one`: the same stream from the commands alone, one after the other;
* `Traffic.commands_go_in_turns`: no update is lost.
-/
import EventSourcing.Proofs.Execution
import EventSourcing.Sample.Tally
import Mathlib.Data.List.Nodup

namespace EventSourcing

open MemoryStore Loading

variable {F : PayloadFamily}

/-! ## 1. Clients -/

/-- A command on its way. -/
structure Client (F : PayloadFamily) where
  aggregate : Aggregate F
  Command : Type
  order : Order aggregate Command MemoryStore
  honest : order.Honest
  execution : Execution aggregate
  /-- The state the business rule was given. -/
  given : Option (AggregateState aggregate)

namespace Client

/-- The command before its first step. -/
def new {A : Aggregate F} {C : Type} (order : Order A C MemoryStore)
    (honest : order.Honest) : Client F :=
  ⟨A, C, order, honest, order.start, none⟩

/-- The command after its next step. -/
def next (c : Client F) (b : Backend MemoryStore) : Client F :=
  ⟨c.aggregate, c.Command, c.order, c.honest, (c.order.step c.execution b).1,
    Order.givenAfter c.given c.execution⟩

/-- What the next step leaves behind. -/
def left (c : Client F) (b : Backend MemoryStore) : Backend MemoryStore :=
  (c.order.step c.execution b).2

/-- The command has succeeded with new events on the stream. -/
def Changed (c : Client F) (stream : StreamName) : Prop :=
  c.order.stream = stream ∧ ∃ outcome, c.execution = .finished (.ok outcome) ∧ outcome.changes ≠ []

theorem not_changed_new {A : Aggregate F} {C : Type} {order : Order A C MemoryStore}
    {honest : order.Honest} {stream : StreamName} : ¬(new order honest).Changed stream := by
  rintro ⟨-, outcome, hfinished, -⟩
  cases hfinished

/-- A command that has succeeded takes no more steps. -/
theorem Changed.rests {c : Client F} {stream : StreamName} (h : c.Changed stream)
    (b : Backend MemoryStore) : c.next b = c ∧ c.left b = b := by
  obtain ⟨-, outcome, hfinished, -⟩ := h
  have hstep : c.order.step c.execution b = (c.execution, b) := by
    rw [hfinished]
    rfl
  have hgiven : Order.givenAfter c.given c.execution = c.given := by
    rw [hfinished]
    rfl
  unfold next left
  rw [hstep, hgiven]
  exact ⟨rfl, rfl⟩

theorem calls_of_left (c : Client F) (b : Backend MemoryStore) : Calls b.store (c.left b).store :=
  have hstep : c.order.step c.execution b = ((c.next b).execution, c.left b) := rfl
  Order.calls_of_step c.honest hstep

end Client

/-! ## 2. Traffic -/

/-- The store with everything that goes on. -/
structure Traffic (F : PayloadFamily) where
  backend : Backend MemoryStore
  clients : List (Client F)

namespace Traffic

/-- What can happen next.  Identifiers may be taken by others meanwhile. -/
inductive Step : Traffic F → Traffic F → Prop where
  | arrive {t : Traffic F} {A : Aggregate F} {C : Type} (order : Order A C MemoryStore)
    (honest : order.Honest) :
    Step t ⟨t.backend, t.clients ++ [.new order honest]⟩
  | progress {t : Traffic F} {i : Nat} {c : Client F} (hc : t.clients[i]? = some c) :
    Step t ⟨c.left t.backend, t.clients.set i (c.next t.backend)⟩
  | direct {t : Traffic F} {store : MemoryStore} (ids : IdSupply)
    (does : Does t.backend.store store) :
    Step t ⟨⟨store, ids⟩, t.clients⟩

/-- What can come about on a store that was empty at first. -/
inductive Reachable : Traffic F → Prop where
  | start (ids : IdSupply) : Reachable ⟨⟨{}, ids⟩, []⟩
  | step {t t' : Traffic F} (before : Reachable t) (step : Step t t') : Reachable t'

end Traffic

/-! ## 3. Turns -/

/-- The same state, events and version; the global positions may differ. -/
structure Outcome.Agrees {A : Aggregate F} (o o' : Outcome A) : Prop where
  state : o.state = o'.state
  changes : o.changes = o'.changes
  streamVersion : o.streamVersion = o'.streamVersion

/-- What a command that succeeds has done to its stream: the business rule was given the state of
all events before, and the new events are all that was added. -/
structure Turn (c : Client F) (known : AggregateState c.aggregate) (outcome : Outcome c.aggregate)
    (before block : List StoredEvent) : Prop where
  given : c.given = some known
  loaded : Holds c.order.registry c.order.target before known
  finished : c.execution = .finished (.ok outcome)
  changed : outcome.changes ≠ []
  state : outcome.state = c.aggregate.fold known.inner outcome.changes
  version : outcome.streamVersion = versionAfter (before ++ block)
  places : (before ++ block).map (·.streamPosition) = List.range (before ++ block).length
  written : outcome.changes.map c.order.registry.serializeEvent = block.map (.ok ·.serialized)
  /-- The rule took its decision on this stream. -/
  decided : ∃ b state b' ids, b.store.entries c.order.stream = before ∧
    c.order.handler.expected.allows (!before.isEmpty) = true ∧
    c.order.decide known b = (.ok state, b') ∧
    state.inner = outcome.state ∧ state.changes = outcome.changes ∧
    newEvents c.order.registry c.order.metadata state.changes b'.ids =
      (.ok (block.map content), ids)
  /-- The command carried out at once on this stream does the same. -/
  alone : ∃ b result b' again, b.store.entries c.order.stream = before ∧
    c.order.run (pageBound b.store + 4) c.order.start b = (some (.ok result), b') ∧
    result.Agrees outcome ∧ b'.store.entries c.order.stream = before ++ again ∧
    again.map content = block.map content

/-- The commands have changed the stream one after the other, each in its turn; in between others
wrote to it. -/
inductive InTurns (stream : StreamName) : List StoredEvent → List (Client F) → Prop where
  | start : InTurns stream [] []
  | others {log : List StoredEvent} {clients : List (Client F)}
    (before : InTurns stream log clients) (more : List StoredEvent) :
    InTurns stream (log ++ more) clients
  | command {log block : List StoredEvent} {clients : List (Client F)} {c : Client F}
    {known : AggregateState c.aggregate} {outcome : Outcome c.aggregate}
    (before : InTurns stream log clients) (hstream : c.order.stream = stream)
    (turn : Turn c known outcome log block) :
    InTurns stream (log ++ block) (clients ++ [c])

theorem InTurns.turn_of_mem {stream : StreamName} {log : List StoredEvent}
    {clients : List (Client F)} (h : InTurns stream log clients) {c : Client F} (hc : c ∈ clients) :
    ∃ known outcome before block after, log = before ++ block ++ after ∧
      Turn c known outcome before block := by
  induction h with
  | start => cases hc
  | others before more ih =>
    obtain ⟨known, outcome, first, block, after, rfl, turn⟩ := ih hc
    exact ⟨known, outcome, first, block, after ++ more, List.append_assoc _ _ _, turn⟩
  | command before hstream turn ih =>
    rename_i log block clients last known outcome
    rcases List.mem_append.1 hc with hc | hc
    · obtain ⟨known', outcome', first, block', after, rfl, turn'⟩ := ih hc
      exact ⟨known', outcome', first, block', after ++ block, List.append_assoc _ _ _, turn'⟩
    · cases List.mem_singleton.1 hc
      exact ⟨known, outcome, log, block, [], (List.append_nil _).symm, turn⟩

/-! ## 4. Taking a turn -/

/-- The step in which a command succeeds adds a block to its stream, and it is its turn. -/
theorem Client.turn_of_next {c : Client F} {b : Backend MemoryStore} {stream : StreamName}
    (hn : b.store.Numbered) (hvisible : (b.store.mark stream).hiddenBefore = 0)
    (sees : c.order.stream = stream → c.order.Sees c.given b.store c.execution)
    (hbefore : ¬c.Changed stream) (hafter : (c.next b).Changed stream) : ∃ known outcome block,
      (c.left b).store.entries stream = b.store.entries stream ++ block ∧
        Turn (c.next b) known outcome (b.store.entries stream) block := by
  obtain ⟨hstream, outcome, hfinished, hchanges⟩ := hafter
  replace hstream : c.order.stream = stream := hstream
  subst hstream
  replace hfinished : (c.order.step c.execution b).1 = .finished (.ok outcome) := hfinished
  have hstep : c.order.step c.execution b = (.finished (.ok outcome), c.left b) :=
    Prod.ext hfinished rfl
  rcases Order.appending_of_step hstep hchanges
    with hdone | ⟨state, events, answer, hexecution, happend, houtcome⟩
  · exact (hbefore ⟨rfl, outcome, hdone, hchanges⟩).elim
  have hsees := sees rfl
  rw [hexecution] at hsees
  obtain ⟨known, stored, hgiven, hpre, hholds, hallows, b₀, b₁, ids, hn₀, hpre₀, hdecide, hne,
      hevents, hgrown⟩ :=
    hsees
  obtain ⟨hcalls, happly⟩ := Order.decide_spec c.honest hdecide
  obtain ⟨more, rfl⟩ := happly state rfl
  obtain ⟨halive, haccepts, -, -⟩ := append_ok happend
  -- The version was accepted, so nobody has written to the stream since the decision.
  obtain ⟨hsame₀, hsame₁, hwhole⟩ :=
    unchanged_of_accepts hn halive (hholds.originalVersion_eq ▸ haccepts) hpre₀ hcalls.grown hgrown
  -- So the command might as well have been carried out then.
  obtain ⟨result, store, again, hrun, hinner, hchanged, hnext, hentries, hcontent, -, -⟩ :=
    Order.run_adds c.honest hn₀ ((hcalls.grown.trans hgrown).visible hvisible) (hgrown.alive halive)
      (hsame₀ ▸ hholds) (hsame₀ ▸ hallows) hdecide hne hevents (hsame₁.trans hsame₀.symm)
  rw [hsame₀] at hnext hentries
  obtain ⟨hn', -, added, hadded, hblock, hanswer⟩ := added_of_append hn happend
  have hlast := hanswer (Order.ne_nil_of_newEvents hevents hne)
  have hadded_ne : added ≠ [] := fun hnil =>
    Order.ne_nil_of_newEvents hevents hne (by rw [← hblock, hnil]; rfl)
  rw [hwhole] at hlast hadded ⊢
  refine ⟨known, outcome, added, hadded, ?_⟩
  constructor
  case given =>
    show Order.givenAfter c.given c.execution = some known
    rw [hexecution]
    exact hgiven
  case loaded => exact hholds
  case finished => exact hfinished
  case changed => exact hchanges
  case state =>
    obtain ⟨folded, -, rfl⟩ := hholds
    rw [houtcome]
    rfl
  case version =>
    have hlength : added.length = events.length := by rw [← hblock, List.length_map]
    rw [houtcome, versionAfter_append stored hadded_ne, hlength]
    exact hlast
  case places =>
    rw [← hadded]
    exact hn'.places _
  case written =>
    rw [houtcome]
    refine (newEvents_ok hevents).trans ?_
    rw [← hblock, List.map_map]
    rfl
  case decided =>
    exact ⟨b₀, _, b₁, ids, hsame₀, hallows, hdecide, by rw [houtcome]; rfl,
        by rw [houtcome]; rfl, by
      rw [hblock]
      exact hevents⟩
  case alone =>
    refine ⟨b₀, result, _, again, hsame₀, hrun, ⟨?_, ?_, ?_⟩, hentries, hcontent.trans hblock.symm⟩
    · rw [hinner, houtcome]
      rfl
    · rw [hchanged, houtcome]
      rfl
    · rw [hnext, houtcome]
      exact hlast.symm

/-! ## 5. One after the other -/

/-- The business rule goes by the state and the command alone. -/
def Order.StoreFree {A : Aggregate F} {C : Type} (o : Order A C MemoryStore) : Prop :=
  ∀ known, ∃ answer, ∀ b, o.decide known b = (answer, b)

theorem Order.storeFree_of_action {A : Aggregate F} {C : Type} {o : Order A C MemoryStore}
    (h : ∀ rule, o.handler.action ≠ .actWith rule) : o.StoreFree := by
  intro known
  unfold decide
  cases haction : o.handler.action with
  | act rule | actOn rule => exact ⟨_, fun b => rfl⟩
  | actWith rule => exact (h rule haction).elim

/-- Commands carried out on one store, each from its load to its append before the next one starts.
In between others append to the stream or take identifiers. -/
inductive OneByOne (stream : StreamName) : List (Client F) → Backend MemoryStore → Prop where
  | start (ids : IdSupply) : OneByOne stream [] ⟨{}, ids⟩
  | others {clients : List (Client F)} {b : Backend MemoryStore}
    (before : OneByOne stream clients b) (events : List NewEvent) :
    OneByOne stream clients ⟨(MemoryStore.append stream .any events b.store).2, b.ids⟩
  | taken {clients : List (Client F)} {b : Backend MemoryStore} (before : OneByOne stream clients b)
    (ids : IdSupply) :
    OneByOne stream clients ⟨b.store, ids⟩
  | command {clients : List (Client F)} {b b' : Backend MemoryStore} {c : Client F}
    {outcome result : Outcome c.aggregate} (before : OneByOne stream clients b)
    (finished : c.execution = .finished (.ok outcome))
    (run : c.order.run (pageBound b.store + 4) c.order.start b = (some (.ok result), b'))
    (agrees : result.Agrees outcome) : OneByOne stream (clients ++ [c]) b'

/-- An instance is the same on every stream with the same contents. -/
theorem Loading.Holds.congr {A : Aggregate F} {r : TypeRegistry F} {id : A.Id}
    {stored stored' : List StoredEvent} {state : AggregateState A} (h : Holds r id stored state)
    (hsame : stored'.map content = stored.map content) : Holds r id stored' state := by
  obtain ⟨events, hspells, rfl⟩ := h
  have hserialized : stored'.map (·.serialized) = stored.map (·.serialized) := by
    have := congrArg
      (List.map fun e : NewEvent => (⟨e.type, e.contentType, e.payload⟩ : SerializedPayload)) hsame
    rw [List.map_map, List.map_map] at this
    exact this
  have hlength : stored'.length = stored.length := by simpa using congrArg List.length hsame
  refine ⟨events, ?_, ?_⟩
  · unfold Spells at hspells ⊢
    rw [← hspells]
    have := congrArg (List.map (r.deserializeEvent A.events)) hserialized
    rw [List.map_map, List.map_map] at this
    exact this
  · have hempty : stored' = [] ↔ stored = [] := by
      rw [← List.length_eq_zero_iff, hlength, List.length_eq_zero_iff]
    rw [versionAfter, versionAfter, hlength]
    simp only [hempty]

/-- What others append is always taken in. -/
theorem OneByOne.others_added {s : MemoryStore} (hn : s.Numbered) {stream : StreamName}
    (halive : (s.mark stream).deleted = false) (events : List NewEvent) :
    (MemoryStore.append stream .any events s).2.Numbered ∧
        (MemoryStore.append stream .any events s).2.marks = s.marks ∧
        ((MemoryStore.append stream .any events s).2.entries stream).map content =
        (s.entries stream).map content ++ events := by
  have haccepts : ExpectedVersion.any.accepts (s.version? stream) = true := rfl
  obtain ⟨answer, store, happend⟩ := append_of_accepts halive haccepts events
  obtain ⟨hn', hmarks, added, hadded, hcontent, -⟩ := added_of_append hn happend
  rw [happend]
  refine ⟨hn', hmarks, ?_⟩
  rw [hadded, List.map_append, hcontent]

/-- **One after the other.**  Rules that go by the state alone make the same stream when each
command is carried out before the next one starts. -/
theorem InTurns.one_by_one {stream : StreamName} {log : List StoredEvent}
    {clients : List (Client F)} (h : InTurns stream log clients)
    (hfree : ∀ c ∈ clients, c.order.StoreFree) : ∃ b : Backend MemoryStore,
      OneByOne stream clients b ∧ b.store.Numbered ∧ b.store.mark stream = {} ∧
        (b.store.entries stream).map content = log.map content := by
  induction h with
  | start => exact ⟨⟨{}, {}⟩, .start _, numbered_empty, rfl, rfl⟩
  | others before more ih =>
    obtain ⟨b, hbefore, hn, hmark, hsame⟩ := ih hfree
    have halive : (b.store.mark stream).deleted = false := by rw [hmark]
    obtain ⟨hn', hmarks, hadded⟩ := OneByOne.others_added hn halive (more.map content)
    refine ⟨_, hbefore.others (more.map content), hn', (mark_congr hmarks stream).trans hmark, ?_⟩
    · rw [hadded, hsame, List.map_append]
  | @command log block clients c known outcome before hstream turn ih =>
    obtain ⟨b, hbefore, hn, hmark, hsame⟩ := ih fun c hc => hfree c (List.mem_append_left _ hc)
    obtain ⟨b₀, state, b₁, ids, -, hallows, hdecide, hinner, hchanges, hevents⟩ := turn.decided
    have hlength : (b.store.entries stream).length = log.length := by
      simpa using congrArg List.length hsame
    have hempty : (b.store.entries stream).isEmpty = log.isEmpty := by
      rw [Bool.eq_iff_iff, List.isEmpty_iff_length_eq_zero,
        List.isEmpty_iff_length_eq_zero, hlength]
    obtain ⟨answer, hanswer⟩ := hfree c (List.mem_append_right _ (List.mem_singleton_self c)) known
    have hfirst : answer = .ok state := congrArg Prod.fst ((hanswer b₀).symm.trans hdecide)
    have hblock : block ≠ [] := by
      rintro rfl
      exact turn.changed (List.map_eq_nil_iff.1 turn.written)
    have hchanged : state.changes ≠ [] := hchanges ▸ turn.changed
    subst hstream hfirst
    -- The identifiers are set to those the command took.
    let here : Backend MemoryStore := ⟨b.store, b₁.ids⟩
    have hnumbered : here.store.Numbered := hn
    have hdecide' : c.order.decide known here = (.ok state, here) := hanswer here
    have hvisible : (here.store.mark c.order.stream).hiddenBefore = 0 := by rw [hmark]
    have halive : (here.store.mark c.order.stream).deleted = false := by rw [hmark]
    obtain ⟨result, store, added, hrun, hstate, hsameChanges, hversion, hentries, hcontent,
        hn', hmarks⟩ :=
      Order.run_adds c.honest hnumbered hvisible halive (turn.loaded.congr hsame) (hempty ▸ hallows)
        hdecide' hchanged hevents rfl
    refine ⟨⟨store, ids⟩, .command (hbefore.taken b₁.ids) turn.finished hrun ⟨?_, ?_, ?_⟩, hn',
      (mark_congr hmarks _).trans hmark, ?_⟩
    · exact hstate.trans hinner
    · exact hsameChanges.trans hchanges
    · rw [hversion, turn.version, versionAfter_append log hblock, List.length_map, hlength]
    · rw [hentries, List.map_append, List.map_append, hsame, hcontent]

/-! ## 6. Every order of steps -/

namespace Traffic

variable {t t' : Traffic F} {stream : StreamName}

/-- The commands that have changed the stream, by their places among the clients: each of them once,
in the order of their turns. -/
structure Turns (t : Traffic F) (stream : StreamName) (turns : List Nat) : Prop where
  nodup : turns.Nodup
  mem : ∀ i, i ∈ turns ↔ ∃ c, t.clients[i]? = some c ∧ c.Changed stream
  inTurns : InTurns stream (t.backend.store.entries stream) (turns.filterMap (t.clients[·]?))

/-- What holds of a stream of which nothing is hidden, in every order of steps. -/
structure Orderly (t : Traffic F) (stream : StreamName) : Prop where
  sees : ∀ (i : Nat) (c : Client F), t.clients[i]? = some c → c.order.stream = stream →
    c.order.Sees c.given t.backend.store c.execution
  turns : ∃ turns, t.Turns stream turns

theorem Step.calls (h : Step t t') : Calls t.backend.store t'.backend.store := by
  cases h with
  | arrive => exact .none _
  | progress => exact Client.calls_of_left _ _
  | direct ids does => exact .more (.none _) does

/-- As long as no command takes its turn, the turns stay as they are. -/
theorem Turns.stay {turns : List Nat} (h : t.Turns stream turns)
    (hgrown : Grown t.backend.store t'.backend.store)
    (hsame : ∀ i ∈ turns, t'.clients[i]? = t.clients[i]?)
    (hchanged : ∀ (i : Nat) (c : Client F),
      t'.clients[i]? = some c → c.Changed stream → t.clients[i]? = some c) :
    t'.Turns stream turns := by
  obtain ⟨more, hmore⟩ := hgrown.entries stream
  refine ⟨h.nodup, fun i => ⟨fun hi => ?_, ?_⟩, ?_⟩
  · rw [hsame i hi]
    exact (h.mem i).1 hi
  · rintro ⟨c, hc, hdone⟩
    exact (h.mem i).2 ⟨c, hchanged i c hc hdone, hdone⟩
  · rw [← hmore, List.filterMap_congr hsame]
    exact h.inTurns.others more

/-- A command that has not changed the stream yet takes its turn behind the others. -/
theorem Turns.take {turns : List Nat} (h : t.Turns stream turns) {i : Nat} {c d : Client F}
    (hc : t.clients[i]? = some c) (hbefore : ¬c.Changed stream) (hafter : d.Changed stream)
    {b : Backend MemoryStore} {known : AggregateState d.aggregate}
    {outcome : Outcome d.aggregate} {block : List StoredEvent}
    (hadded : b.store.entries stream = t.backend.store.entries stream ++ block)
    (turn : Turn d known outcome (t.backend.store.entries stream) block) :
    Turns ⟨b, t.clients.set i d⟩ stream (turns ++ [i]) := by
  have hself : (t.clients.set i d)[i]? = some d :=
    List.getElem?_set_self (List.getElem?_eq_some_iff.1 hc).1
  have hfresh : i ∉ turns := by
    intro hmem
    obtain ⟨c', hc', hchanged⟩ := (h.mem i).1 hmem
    cases hc.symm.trans hc'
    exact hbefore hchanged
  have hsame : ∀ j ∈ turns, (t.clients.set i d)[j]? = t.clients[j]? := by
    intro j hj
    refine List.getElem?_set_ne ?_
    rintro rfl
    exact hfresh hj
  refine ⟨List.Nodup.append h.nodup (List.nodup_singleton i) (by simpa using hfresh),
    fun j => ⟨fun hj => ?_, ?_⟩, ?_⟩
  · rcases List.mem_append.1 hj with hj | hj
    · obtain ⟨c', hc', hchanged⟩ := (h.mem j).1 hj
      exact ⟨c', (hsame j hj).trans hc', hchanged⟩
    · cases List.mem_singleton.1 hj
      exact ⟨d, hself, hafter⟩
  · rintro ⟨c', hc', hchanged⟩
    by_cases hj : i = j
    · exact List.mem_append_right _ (List.mem_singleton.2 hj.symm)
    · rw [List.getElem?_set_ne hj] at hc'
      exact List.mem_append_left _ ((h.mem j).2 ⟨c', hc', hchanged⟩)
  · rw [List.filterMap_append, List.filterMap_congr hsame, List.filterMap_cons_some hself,
      List.filterMap_nil, hadded]
    exact h.inTurns.command hafter.1 turn

/-- A step of a command keeps the order of the turns, or it is its own turn. -/
theorem Orderly.progress (hn : t.backend.store.Numbered)
    (hvisible : (t.backend.store.mark stream).hiddenBefore = 0)
    (h : t.Orderly stream) {i : Nat} {c : Client F} (hc : t.clients[i]? = some c) :
    Orderly ⟨c.left t.backend, t.clients.set i (c.next t.backend)⟩ stream := by
  have hgrown := (c.calls_of_left t.backend).grown
  have hself : (t.clients.set i (c.next t.backend))[i]? = some (c.next t.backend) :=
    List.getElem?_set_self (List.getElem?_eq_some_iff.1 hc).1
  refine ⟨fun j d hd hstream => ?_, ?_⟩
  · by_cases hj : i = j
    · subst hj
      cases hself.symm.trans hd
      replace hstream : c.order.stream = stream := hstream
      exact (h.sees i c hc hstream).step c.honest hn (hstream ▸ hvisible) rfl
    · rw [List.getElem?_set_ne hj] at hd
      exact (h.sees j d hd hstream).mono hgrown
  obtain ⟨turns, hturns⟩ := h.turns
  by_cases hbefore : c.Changed stream
  · -- The command has had its turn, and nothing happens any more.
    obtain ⟨hnext, hleft⟩ := hbefore.rests t.backend
    have hsame : t.clients.set i c = t.clients := by
      obtain ⟨hi, rfl⟩ := List.getElem?_eq_some_iff.1 hc
      exact List.set_getElem_self hi
    rw [hnext, hleft, hsame]
    exact ⟨turns, hturns⟩
  · by_cases hafter : (c.next t.backend).Changed stream
    · obtain ⟨known, outcome, block, hadded, turn⟩ :=
        Client.turn_of_next hn hvisible (h.sees i c hc) hbefore hafter
      exact ⟨turns ++ [i], hturns.take hc hbefore hafter hadded turn⟩
    · refine ⟨turns, hturns.stay hgrown (fun j hj => ?_) fun j d hd hchanged => ?_⟩
      · refine List.getElem?_set_ne ?_
        rintro rfl
        obtain ⟨c', hc', hchanged⟩ := (hturns.mem i).1 hj
        cases hc.symm.trans hc'
        exact hbefore hchanged
      · by_cases hj : i = j
        · subst hj
          cases hself.symm.trans hd
          exact (hafter hchanged).elim
        · exact (List.getElem?_set_ne hj).symm.trans hd

theorem Orderly.step (hn : t.backend.store.Numbered)
    (hvisible : (t.backend.store.mark stream).hiddenBefore = 0) (h : t.Orderly stream)
    (step : Step t t') : t'.Orderly stream := by
  have hgrown := step.calls.grown
  obtain ⟨turns, hturns⟩ := h.turns
  cases step with
  | arrive order honest =>
    have hlast : ∀ (i : Nat) (c : Client F), (t.clients ++ [Client.new order honest])[i]? = some c →
        t.clients[i]? = some c ∨ c = .new order honest := by
      intro i c hc
      rw [List.getElem?_append] at hc
      split at hc
      · exact .inl hc
      · exact .inr (List.mem_singleton.1 (List.mem_of_getElem? hc))
    refine ⟨fun i c hc hstream => ?_, turns,
      hturns.stay hgrown (fun i hi => ?_) fun i c hc hchanged => ?_⟩
    · rcases hlast i c hc with hc | rfl
      · exact h.sees i c hc hstream
      · exact Order.sees_start _
    · obtain ⟨c, hc, -⟩ := (hturns.mem i).1 hi
      exact List.getElem?_append_left (List.getElem?_eq_some_iff.1 hc).1
    · rcases hlast i c hc with hc | rfl
      · exact hc
      · exact (Client.not_changed_new hchanged).elim
  | direct ids does =>
    refine ⟨fun i c hc hstream => (h.sees i c hc hstream).mono hgrown, turns, ?_⟩
    exact hturns.stay hgrown (fun _ _ => rfl) fun _ _ hc _ => hc
  | progress hc => exact h.progress hn hvisible hc

theorem Reachable.numbered (h : Reachable t) : t.backend.store.Numbered := by
  induction h with
  | start => exact numbered_empty
  | step before step ih => exact step.calls.numbered ih

theorem Reachable.orderly (h : Reachable t)
    (hvisible : (t.backend.store.mark stream).hiddenBefore = 0) : t.Orderly stream := by
  induction h with
  | start ids =>
    refine ⟨fun i c hc => ?_, [], List.nodup_nil,
      fun i => ⟨fun hi => ?_, fun ⟨c, hc, _⟩ => ?_⟩, .start⟩
    · rw [List.getElem?_nil] at hc
      cases hc
    · cases hi
    · rw [List.getElem?_nil] at hc
      cases hc
  | step before step ih =>
    have hvisible' := step.calls.grown.visible hvisible
    exact (ih hvisible').step before.numbered hvisible' step

/-- **No update is lost.**  In every order of steps, a command that succeeds with new events has
appended them in one block, directly behind the events its state was folded from.  So the commands
on a stream take turns; and unless their rules use the store, carrying them out one after the other
makes the same stream. -/
theorem commands_go_in_turns (h : Reachable t)
    (hvisible : (t.backend.store.mark stream).hiddenBefore = 0) :
    (∀ c ∈ t.clients, c.Changed stream → ∃ known outcome before block after,
      t.backend.store.entries stream = before ++ block ++ after ∧
      Turn c known outcome before block) ∧
    ∃ turns, t.Turns stream turns ∧
      ((∀ c ∈ t.clients, c.Changed stream → c.order.StoreFree) → ∃ b,
        OneByOne stream (turns.filterMap (t.clients[·]?)) b ∧
          (b.store.entries stream).map content = (t.backend.store.entries stream).map content) := by
  obtain ⟨turns, hturns⟩ := (h.orderly hvisible).turns
  refine ⟨fun c hc hchanged => ?_, turns, hturns, fun hfree => ?_⟩
  · obtain ⟨i, hi⟩ := List.mem_iff_getElem?.1 hc
    exact hturns.inTurns.turn_of_mem
      (List.mem_filterMap.2 ⟨i, (hturns.mem i).2 ⟨c, hi, hchanged⟩, hi⟩)
  · obtain ⟨b, hone, -, -, hsame⟩ := hturns.inTurns.one_by_one fun c hc => by
      obtain ⟨i, hi, hc⟩ := List.mem_filterMap.1 hc
      obtain ⟨d, hd, hchanged⟩ := (hturns.mem i).1 hi
      cases hc.symm.trans hd
      exact hfree c (List.mem_of_getElem? hc) hchanged
    exact ⟨b, hone, hsame⟩

/-! ## 7. Three ticks -/

section Sample

open Sample

/-- A tally that was loaded from `n` ticks. -/
def loadedTally : Nat → AggregateState tally
  | 0 => .new ()
  | n + 1 => .loaded () (n + 1 : Nat) (.exact n)

/-- A client that adds a tick. -/
def ticking (execution : Execution tally) (given : Option (AggregateState tally)) : Client ticks :=
  ⟨tally, Unit, addTick, trivial, execution, given⟩

/-- It has loaded `n` ticks. -/
def deciding (n : Nat) : Client ticks := ticking (.deciding (loadedTally n)) none

/-- It appends one more, with this identifier. -/
def appending (n id : Nat) : Client ticks :=
  ticking (.appending ((loadedTally n).applyAll [ticked]) [newTick id]) (some (loadedTally n))

/-- Its tick was taken in. -/
def counted (n : Nat) : Client ticks :=
  ticking (.finished (.ok ⟨(n + 1 : Nat), [ticked], .exact n, some n⟩)) (some (loadedTally n))

/-- Its tick was refused, as there was one already. -/
def refused : Client ticks :=
  ticking (.finished (.error (.conflict tallyStream .noStream (some 0)))) (some (loadedTally 0))

/-- The store with these ticks, by their identifiers. -/
def tallied (ids : List Nat) : MemoryStore :=
  { log := MemoryStore.pushAll tallyStream ⟨0⟩ 0 #[] (ids.map newTick) }

/-- Two commands find no tick, and the second append is refused; a third command comes later and
finds one tick. -/
def threeTicks : Traffic ticks := ⟨⟨tallied [0, 2], ⟨3⟩⟩, [counted 0, refused, counted 1]⟩

theorem reachable_threeTicks : threeTicks.Reachable := by
  let waiting := ticking addTick.start none
  have arrived : Reachable ⟨⟨tallied [], ⟨0⟩⟩, [waiting, waiting]⟩ :=
    ((Reachable.start ⟨0⟩).step (.arrive addTick trivial)).step (.arrive addTick trivial)
  -- Both load before either of them appends.
  have loaded₀ : Reachable ⟨⟨tallied [], ⟨0⟩⟩, [deciding 0, waiting]⟩ :=
    arrived.step (.progress (i := 0) (c := waiting) rfl)
  have loaded₁ : Reachable ⟨⟨tallied [], ⟨0⟩⟩, [deciding 0, deciding 0]⟩ :=
    loaded₀.step (.progress (i := 1) (c := waiting) rfl)
  have decided₀ : Reachable ⟨⟨tallied [], ⟨1⟩⟩, [appending 0 0, deciding 0]⟩ :=
    loaded₁.step (.progress (i := 0) (c := deciding 0) rfl)
  have decided₁ : Reachable ⟨⟨tallied [], ⟨2⟩⟩, [appending 0 0, appending 0 1]⟩ :=
    decided₀.step (.progress (i := 1) (c := deciding 0) rfl)
  have appended₀ : Reachable ⟨⟨tallied [0], ⟨2⟩⟩, [counted 0, appending 0 1]⟩ :=
    decided₁.step (.progress (i := 0) (c := appending 0 0) rfl)
  have appended₁ : Reachable ⟨⟨tallied [0], ⟨2⟩⟩, [counted 0, refused]⟩ :=
    appended₀.step (.progress (i := 1) (c := appending 0 1) rfl)
  -- The third one loads what the first one has appended.
  have arrived₂ : Reachable ⟨⟨tallied [0], ⟨2⟩⟩, [counted 0, refused, waiting]⟩ :=
    appended₁.step (.arrive addTick trivial)
  have loaded₂ : Reachable ⟨⟨tallied [0], ⟨2⟩⟩, [counted 0, refused, deciding 1]⟩ :=
    arrived₂.step (.progress (i := 2) (c := waiting) rfl)
  have decided₂ : Reachable ⟨⟨tallied [0], ⟨3⟩⟩, [counted 0, refused, appending 1 2]⟩ :=
    loaded₂.step (.progress (i := 2) (c := deciding 1) rfl)
  exact decided₂.step (.progress (i := 2) (c := appending 1 2) rfl)

theorem storeFree_addTick : addTick.StoreFree := Order.storeFree_of_action nofun

/-- The first and the third command have had their turns; one after the other they make the same two
ticks. -/
theorem first_and_third_tick_go_in_turns : threeTicks.Reachable ∧
    (threeTicks.backend.store.mark tallyStream).hiddenBefore = 0 ∧
    ∃ turns, threeTicks.Turns tallyStream turns ∧ 0 ∈ turns ∧ 1 ∉ turns ∧ 2 ∈ turns ∧ ∃ b,
      OneByOne tallyStream (turns.filterMap (threeTicks.clients[·]?)) b ∧
        (b.store.entries tallyStream).map content = [newTick 0, newTick 2] := by
  obtain ⟨-, turns, hturns, hone⟩ := commands_go_in_turns reachable_threeTicks
    (show (threeTicks.backend.store.mark tallyStream).hiddenBefore = 0 from rfl)
  obtain ⟨b, hb, hsame⟩ := hone fun c hc _ => by
    rcases List.mem_cons.1 hc with rfl | hc
    · exact storeFree_addTick
    · rcases List.mem_cons.1 hc with rfl | hc
      · exact storeFree_addTick
      · cases List.mem_singleton.1 hc
        exact storeFree_addTick
  refine ⟨reachable_threeTicks, rfl, turns, hturns, ?_, ?_, ?_, b, hb, hsame⟩
  · exact (hturns.mem 0).2 ⟨_, rfl, rfl, _, rfl, List.cons_ne_nil _ _⟩
  · intro hmem
    obtain ⟨c, hc, -, outcome, hfinished, -⟩ := (hturns.mem 1).1 hmem
    cases hc
    cases hfinished
  · exact (hturns.mem 2).2 ⟨_, rfl, rfl, _, rfl, List.cons_ne_nil _ _⟩

end Sample

end Traffic
end EventSourcing

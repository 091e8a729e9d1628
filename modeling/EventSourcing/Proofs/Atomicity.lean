/-
# A command stores all or nothing

A command may fail at many places between its first page and its append: the load, the expectation,
the business rule, the writing of any one event, the append itself.  Only the append touches the
store, there is one at most, and it takes all new events in or none.  So a command that fails has
done nothing, and one that succeeds has stored the very events it reports; and because what was
written is read back, the stream then holds the state it reports.

What the file settles:

* `Order.Amid`: a command one step at a time, with others anywhere between;
* `Gains`: what an append of new events adds to the store;
* `AllOrNothing`, `Amid.allOrNothing`: what a command has done, whatever others did meanwhile;
* `Cause`, `Hindered`: why a command fails, with others about and alone;
* `Alone`, `alone_of_run`: what it has done when nobody else uses the store, and what is loaded
  afterwards;
* `CommandService.commands_are_all_or_nothing`: both, for the commands of a service.
-/
import EventSourcing.Proofs.Registry
import EventSourcing.Proofs.Store.Expecting
import EventSourcing.Proofs.Undisturbed

namespace EventSourcing

open MemoryStore Loading

variable {F : PayloadFamily} {A : Aggregate F} {C : Type}

namespace Order

variable {o : Order A C MemoryStore} {s s' : MemoryStore} {changes : List A.Event}

/-! ## 1. What an append adds -/

/-- The store has taken in these events at its end: the changes as the registry writes them, each
with the metadata of the command.  Nothing else of the store has changed. -/
structure Gains (o : Order A C MemoryStore) (changes : List A.Event) (s s' : MemoryStore)
    (added : List StoredEvent) : Prop where
  log : s'.log.toList = s.log.toList ++ added
  marks : s'.marks = s.marks
  clock : s'.clock = s.clock
  written : changes.map o.registry.serializeEvent = added.map (.ok ·.serialized)
  stamped : ∀ e ∈ added, e.stream = o.stream ∧ e.metadata = o.metadata

theorem gains_nothing (o : Order A C MemoryStore) (s : MemoryStore) : Gains o [] s s [] :=
  ⟨(List.append_nil _).symm, rfl, rfl, rfl, List.forall_mem_nil _⟩

theorem metadata_of_newEvents {r : TypeRegistry F} {metadata : Metadata} {ids ids' : IdSupply}
    {events : List NewEvent} (h : newEvents r metadata changes ids = (.ok events, ids')) :
    ∀ e ∈ events, e.metadata = metadata := by
  induction changes generalizing ids ids' events with
  | nil =>
    cases h
    exact List.forall_mem_nil _
  | cons change rest ih =>
    simp only [newEvents] at h
    split at h
    · cases h
    · split at h
      · cases h
      · rename_i more ids'' hrest
        cases h
        exact List.forall_mem_cons.2 ⟨rfl, ih hrest⟩

theorem unwritable_of_newEvents {r : TypeRegistry F} {metadata : Metadata} {ids ids' : IdSupply}
    {error : SerializationError} (h : newEvents r metadata changes ids = (.error error, ids')) :
    ∃ change ∈ changes, r.serializeEvent change = .error error := by
  induction changes generalizing ids ids' with
  | nil => cases h
  | cons change rest ih =>
    simp only [newEvents] at h
    split at h
    · rename_i unwritten hserialize
      cases h
      exact ⟨change, List.mem_cons_self, hserialize⟩
    · split at h
      · rename_i unwritten ids'' hrest
        cases h
        obtain ⟨e, he, hserialize⟩ := ih hrest
        exact ⟨e, List.mem_cons_of_mem _ he, hserialize⟩
      · cases h

theorem Gains.length_eq {added : List StoredEvent} (gains : Gains o changes s s' added) :
    added.length = changes.length := by
  simpa using (congrArg List.length gains.written).symm

theorem Gains.entries {added : List StoredEvent} (gains : Gains o changes s s' added) :
    s'.entries o.stream = s.entries o.stream ++ added := by
  rw [entries_append o.stream gains.log,
    List.filter_eq_self.2 fun e he => by simpa using (gains.stamped e he).1]

/-- The position of the last event of the store is that of the last event added. -/
theorem Gains.last {added : List StoredEvent}
    (gains : Gains o changes s s' added) (hn' : s'.Numbered) (hne : added ≠ []) :
    added.getLast?.map (·.globalPosition) = some s'.lastPosition := by
  have hlast := congrArg List.getLast? hn'.global
  rw [gains.log, List.getLast?_map, List.getLast?_append, List.getLast?_range] at hlast
  obtain ⟨e, he⟩ : ∃ e, added.getLast? = some e := ⟨_, List.getLast?_eq_some_getLast hne⟩
  rw [he, Option.some_or, Option.map_some] at hlast
  rw [he, Option.map_some, hlast]
  split at hlast
  · cases hlast
  · rename_i hsize
    rw [if_neg hsize]
    rfl

/-- The events that were added are read as the changes. -/
theorem Gains.spells (built : o.registry.Built) (codec : o.registry.Decodes)
    {added : List StoredEvent} (gains : Gains o changes s s' added) :
    Spells o.registry A added changes := by
  have written := gains.written
  clear gains
  induction changes generalizing added with
  | nil =>
    cases List.map_eq_nil_iff.1 written.symm
    rfl
  | cons change rest ih =>
    cases added with
    | nil => cases written
    | cons e more =>
      obtain ⟨hfirst, hrest⟩ := List.cons.inj written
      unfold Spells
      rw [List.map_cons, List.map_cons,
        TypeRegistry.deserializeEvent_of_serializeEvent built codec hfirst, ih hrest]

/-- An append of the changes that succeeds adds them. -/
theorem gains_of_append (hn : s.Numbered) {expected : ExpectedVersion}
    {idsBefore idsAfter : IdSupply} {events : List NewEvent} {answer : Appended}
    (hevents : newEvents o.registry o.metadata changes idsBefore = (.ok events, idsAfter))
    (happend : append o.stream expected events s = (.ok answer, s')) :
    ∃ added, Gains o changes s s' added := by
  obtain ⟨halive, -, -, hs'⟩ := append_ok happend
  rw [next_eq hn halive] at hs'
  have hcontent := content_block o.stream s.clock (s.entries o.stream).length s.log.size events
  refine ⟨block o.stream s.clock (s.entries o.stream).length s.log.size events, ?_⟩
  constructor
  case log =>
    rw [hs']
    exact toList_pushAll _ _ _ _ _
  case marks => rw [hs']
  case clock => rw [hs']
  case written =>
    rw [newEvents_ok hevents]
    refine (congrArg _ hcontent.symm).trans ?_
    rw [List.map_map]
    rfl
  case stamped =>
    intro e he
    have hmem : content e ∈ events := hcontent ▸ List.mem_map_of_mem he
    exact ⟨stream_of_mem_block _ _ _ _ _ he, metadata_of_newEvents hevents _ hmem⟩

/-! ## 2. The two steps that matter -/

/-- A state as it is given to a business rule: nothing is applied to it yet, and it expects a
version. -/
def Untouched (given : AggregateState A) : Prop :=
  ∃ id inner version, given = .loaded id inner version ∧ version ≠ .any

/-- The state that is reported is what the changes make of the one that was given, and the version
is advanced by their number. -/
structure Follows (given : AggregateState A) (outcome : Outcome A) : Prop where
  state : outcome.state = A.fold given.inner outcome.changes
  version : outcome.streamVersion = given.originalVersion.advance outcome.changes.length

/-- The changes have been added to the store, and the position of the last one is reported. -/
def Stored (o : Order A C MemoryStore) (outcome : Outcome A) (s s' : MemoryStore) : Prop :=
  ∃ added, Gains o outcome.changes s s' added ∧
    outcome.globalPosition = added.getLast?.map (·.globalPosition)

/-- Why a command fails on its decision. -/
inductive Denied (o : Order A C MemoryStore) (given : AggregateState A) (b : Backend MemoryStore) :
    CommandError A → Prop where
  /-- The business rule refuses. -/
  | refused {error : A.Error} (refuses : (o.decide given b).1 = .error error) :
    Denied o given b (.domain error)
  /-- One of the changes cannot be written. -/
  | unwritable {changes : List A.Event} {change : A.Event} {error : SerializationError}
    (decides : (o.decide given b).1 = .ok (given.applyAll changes)) (mem : change ∈ changes)
    (refuses : o.registry.serializeEvent change = .error error) :
    Denied o given b (.serialization error)

/-- The decision fails, or there is nothing to store, or the changes can be written and are to be
appended. -/
theorem step_deciding (honest : o.Honest) {given : AggregateState A} (untouched : Untouched given)
    (b : Backend MemoryStore) :
    (∃ error, (o.step (.deciding given) b).1 = .finished (.error error) ∧ Denied o given b error) ∨
    ∃ changes, (o.decide given b).1 = .ok (given.applyAll changes) ∧
      ((changes = [] ∧ (o.step (.deciding given) b).1 = .finished (.ok (outcome given none))) ∨
       (changes ≠ [] ∧ ∃ events ids ids',
        newEvents o.registry o.metadata changes ids = (.ok events, ids') ∧
        (o.step (.deciding given) b).1 = .appending (given.applyAll changes) events)) := by
  obtain ⟨id, inner, expected, rfl, -⟩ := untouched
  have hstep : (o.step (.deciding (.loaded id inner expected)) b).1 = (o.decided
      (o.decide (.loaded id inner expected) b).1
        (o.decide (.loaded id inner expected) b).2.ids).1 := rfl
  rw [hstep]
  have hdecide : o.decide (.loaded id inner expected) b =
      ((o.decide (.loaded id inner expected) b).1, (o.decide (.loaded id inner expected) b).2) :=
        rfl
  have happly := (decide_spec honest hdecide).2
  cases hanswer : (o.decide (.loaded id inner expected) b).1 with
  | error error => exact .inl ⟨_, rfl, .refused hanswer⟩
  | ok state =>
    obtain ⟨changes, rfl⟩ := happly state hanswer
    cases changes with
    | nil => exact .inr ⟨[], rfl, .inl ⟨rfl, rfl⟩⟩
    | cons change more =>
      unfold decided
      dsimp only [AggregateState.applyAll, AggregateState.loaded, List.nil_append]
      rw [if_neg (by simp)]
      match hevents : newEvents o.registry o.metadata (change :: more)
          (o.decide (.loaded id inner expected) b).2.ids with
      | (.error error, ids) =>
        obtain ⟨e, he, refuses⟩ := unwritable_of_newEvents hevents
        exact .inl ⟨_, rfl, .unwritable hanswer he refuses⟩
      | (.ok events, ids) =>
        exact .inr ⟨change :: more, rfl, .inr ⟨List.cons_ne_nil _ _, events, _, ids, hevents, rfl⟩⟩

/-- The append leaves the store as it is, or stores all changes. -/
theorem step_appending {given : AggregateState A} (untouched : Untouched given)
    (hchanges : changes ≠ []) {idsBefore idsAfter : IdSupply} {events : List NewEvent}
    (hevents : newEvents o.registry o.metadata changes idsBefore = (.ok events, idsAfter))
    {b : Backend MemoryStore} (hn : b.store.Numbered) {e : Execution A}
    (he : e = .appending (given.applyAll changes) events) :
    (∃ error, (o.step e b).1 = .finished (.error (.ofStoreError error)) ∧
      (o.step e b).2.store = b.store ∧
      (append o.stream given.originalVersion events b.store).1 = .error error) ∨
    ∃ outcome, (o.step e b).1 = .finished (.ok outcome) ∧ outcome.changes = changes ∧
      Follows given outcome ∧
      Stored o outcome b.store (o.step e b).2.store ∧ (o.step e b).2.store.Numbered ∧
      outcome.streamVersion = .ofVersion ((o.step e b).2.store.version? o.stream) := by
  obtain ⟨id, inner, expected, rfl, definite⟩ := untouched
  subst he
  have hnext : (o.step
      (.appending ((AggregateState.loaded id inner expected).applyAll changes) events) b).1 =
      appended _ (append o.stream expected events b.store).1 := rfl
  have hstore : (o.step
      (.appending ((AggregateState.loaded id inner expected).applyAll changes) events) b).2.store =
      (append o.stream expected events b.store).2 := rfl
  match happend : append o.stream expected events b.store with
  | (.error error, s') =>
    rw [happend] at hnext hstore
    exact .inl ⟨error, hnext, hstore.trans (append_error happend), rfl⟩
  | (.ok answer, s') =>
    rw [happend] at hnext hstore
    dsimp only at hstore
    obtain ⟨hn', -, -⟩ := added_of_append hn happend
    obtain ⟨haccepts, hlength, hversion, hanswer⟩ := lengths_of_append hn happend
    obtain ⟨added, gains⟩ := gains_of_append hn hevents happend
    have hcount : events.length = changes.length := by
      simpa using (congrArg List.length (newEvents_ok hevents)).symm
    have hadded : added ≠ [] := by
      rw [← List.length_pos_iff, gains.length_eq]
      exact List.length_pos_iff.2 hchanges
    have hadvanced : answer.nextExpected = expected.advance changes.length := by
      rw [hanswer, hversion, hlength, hcount]
      exact ExpectedVersion.ofVersion_advance definite haccepts _
    have hposition : some answer.globalPosition = added.getLast?.map (·.globalPosition) := by
      rw [gains.last hn' hadded, (append_ok happend).2.2.1]
    exact .inr ⟨_, hnext, rfl, ⟨rfl, hadvanced⟩, ⟨added, hstore ▸ gains, hposition⟩, hstore ▸ hn',
      hstore ▸ hanswer⟩

/-! ## 3. A command amid others -/

/-- A step of a command: how far the command was, and the backend before and after. -/
structure Own (A : Aggregate F) where
  execution : Execution A
  before : Backend MemoryStore
  after : Backend MemoryStore

/-- Whether the step is the append. -/
def Own.appends (x : Own A) : Bool :=
  match x.execution with
  | .appending .. => true
  | _ => false

/-- The step has left the store as it was, but for what a business rule does to it by itself. -/
def Own.Idle (o : Order A C MemoryStore) (x : Own A) : Prop :=
  x.after.store = match x.execution with
    | .deciding state => (o.decide state x.before).2.store
    | _ => x.before.store

/-- The step that is due. -/
def due (o : Order A C MemoryStore) (e : Execution A) (b : Backend MemoryStore) : Own A :=
  ⟨e, b, (o.step e b).2⟩

/-- A command at work on a store that others use too: the steps it has taken, how far it has come
and how the backend is then.  Identifiers may be taken by others meanwhile. -/
inductive Amid (o : Order A C MemoryStore) (b₀ : Backend MemoryStore) :
    List (Own A) → Execution A → Backend MemoryStore → Prop where
  | start : Amid o b₀ [] o.start b₀
  | others {steps : List (Own A)} {e : Execution A} {b : Backend MemoryStore} {store : MemoryStore}
    (ids : IdSupply) (before : Amid o b₀ steps e b) (calls : Calls b.store store) :
    Amid o b₀ steps e ⟨store, ids⟩
  | own {steps : List (Own A)} {e : Execution A} {b : Backend MemoryStore}
    (before : Amid o b₀ steps e b) (unfinished : ∀ result, e ≠ .finished result) :
    Amid o b₀ (steps ++ [o.due e b]) (o.step e b).1 (o.step e b).2

variable {b₀ b b' : Backend MemoryStore} {steps : List (Own A)} {e : Execution A}

theorem Amid.calls (honest : o.Honest) (h : Amid o b₀ steps e b) : Calls b₀.store b.store := by
  induction h with
  | start => exact .none _
  | others ids before calls ih => exact ih.trans calls
  | own before unfinished ih => exact ih.trans (calls_of_step honest rfl)

theorem run_step (fuel : Nat) (unfinished : ∀ result, e ≠ .finished result) :
    o.run (fuel + 1) e b = o.run fuel (o.step e b).1 (o.step e b).2 := by
  cases e with
  | finished result => exact absurd rfl (unfinished result)
  | loading | checking | deciding | appending => rfl

/-- A command that takes its steps one after the other is one amid others that do nothing. -/
theorem amid_run {fuel : Nat} {result : Except (CommandError A) (Outcome A)}
    (before : Amid o b₀ steps e b) (h : o.run fuel e b = (some result, b')) :
    ∃ more, Amid o b₀ (steps ++ more) (.finished result) b' := by
  induction fuel generalizing steps e b with
  | zero =>
    cases e with
    | finished last =>
      cases h
      exact ⟨[], by rwa [List.append_nil]⟩
    | loading | checking | deciding | appending => cases h
  | succ fuel ih =>
    by_cases unfinished : ∀ result, e ≠ .finished result
    · rw [run_step fuel unfinished] at h
      obtain ⟨more, hmore⟩ := ih (before.own unfinished) h
      exact ⟨_, List.append_assoc _ _ _ ▸ hmore⟩
    · obtain ⟨last, rfl⟩ : ∃ last, e = .finished last := by simpa using unfinished
      rw [run_finished] at h
      cases h
      exact ⟨[], by rwa [List.append_nil]⟩

/-- The state a business rule is given: what a load amid others has found, where the command wants
it so. -/
def Given (o : Order A C MemoryStore) (s₀ : MemoryStore) (given : AggregateState A) : Prop :=
  ∃ found s, Loading.Amid o.registry (Loading.start A o.stream o.target) s₀ (.done (.ok found)) s ∧
    o.handler.expected.allows found.isSome = true ∧ given = found.getD (.new o.target)

theorem loads_of_amid {r : TypeRegistry F} {l₀ : Loading A} {next : Loading.Next A}
    (h : Loading.Amid r l₀ s next s') : Loads MemoryStore r l₀ next := by
  induction h with
  | start => exact .start
  | others before calls ih => exact ih
  | page before ih => exact .page ih _
  | version before ih => exact .version ih _

theorem Given.untouched {given : AggregateState A} (h : Given o s given) : Untouched given := by
  obtain ⟨found, s', load, -, rfl⟩ := h
  cases found with
  | none => exact ⟨_, _, _, rfl, nofun⟩
  | some state =>
    obtain ⟨id, inner, version, rfl⟩ := (loads_of_amid load).exact rfl
    exact ⟨id, inner, _, rfl, nofun⟩

/-- The rule was given this state and has applied these changes to it. -/
def Produced (o : Order A C MemoryStore) (steps : List (Own A)) (given : AggregateState A)
    (changes : List A.Event) : Prop :=
  ∃ x ∈ steps, x.execution = .deciding given ∧
    (o.decide given x.before).1 = .ok (given.applyAll changes)

/-- Why a command has failed amid others. -/
inductive Cause (o : Order A C MemoryStore) (s₀ : MemoryStore) (steps : List (Own A)) :
    CommandError A → Prop where
  /-- The instance could not be loaded. -/
  | unloaded {error : AggregateError} {s : MemoryStore}
    (load : Loading.Amid o.registry (Loading.start A o.stream o.target) s₀
      (.done (.error error)) s) :
    Cause o s₀ steps (.ofAggregateError error)
  /-- The instance is there although it must not, or the other way round. -/
  | unexpected {found : Option (AggregateState A)} {s : MemoryStore}
    (load : Loading.Amid o.registry (Loading.start A o.stream o.target) s₀ (.done (.ok found)) s)
    (unwanted : o.handler.expected.allows found.isSome = false) :
    Cause o s₀ steps (.expectedState o.handler.expected o.stream)
  | denied {given : AggregateState A} {x : Own A} {error : CommandError A}
    (loaded : Given o s₀ given) (mem : x ∈ steps) (decides : x.execution = .deciding given)
    (denied : Denied o given x.before error) : Cause o s₀ steps error
  /-- The store refused the append. -/
  | refused {given : AggregateState A} {changes : List A.Event} {x : Own A} {events : List NewEvent}
    {error : StoreError} (loaded : Given o s₀ given) (produced : Produced o steps given changes)
    (mem : x ∈ steps) (appends : x.execution = .appending (given.applyAll changes) events)
    (refuses : (append o.stream given.originalVersion events x.before.store).1 = .error error) :
    Cause o s₀ steps (.ofStoreError error)

/-- What a command that succeeds has done: its rule has applied the changes to the state it was
given, and one append has stored them, unless there were none. -/
structure Carried (o : Order A C MemoryStore) (s₀ : MemoryStore) (steps : List (Own A))
    (outcome : Outcome A) (given : AggregateState A) : Prop where
  loaded : Given o s₀ given
  produced : Produced o steps given outcome.changes
  follows : Follows given outcome
  nothing : outcome.changes = [] → outcome.globalPosition = none ∧ ∀ x ∈ steps, x.appends = false
  stored : outcome.changes ≠ [] →
    ∃ x ∈ steps, x.appends = true ∧ Stored o outcome x.before.store x.after.store

/-- What a command has done by the time it is finished, whatever others did meanwhile. -/
structure AllOrNothing (o : Order A C MemoryStore) (s₀ : MemoryStore) (steps : List (Own A))
    (result : Except (CommandError A) (Outcome A)) : Prop where
  /-- The command appends once at most. -/
  once : steps.countP Own.appends ≤ 1
  /-- Steps that are no append leave the store alone. -/
  idle : ∀ x ∈ steps, x.appends = false → x.Idle o
  /-- A command that fails, for whatever cause, has left the store alone. -/
  refused : ∀ error, result = .error error → (∀ x ∈ steps, x.Idle o) ∧ Cause o s₀ steps error
  /-- A command that succeeds has stored what is reported. -/
  carried : ∀ outcome, result = .ok outcome → ∃ given, Carried o s₀ steps outcome given

/-- How far a command has come: before it is finished it has appended nothing. -/
def Reached (o : Order A C MemoryStore) (s₀ : MemoryStore) (steps : List (Own A))
    (s : MemoryStore) :
    Execution A → Prop
  | .loading l => (∀ x ∈ steps, x.appends = false) ∧
    Loading.Amid o.registry (Loading.start A o.stream o.target) s₀ (.page l) s
  | .checking l => (∀ x ∈ steps, x.appends = false) ∧
    Loading.Amid o.registry (Loading.start A o.stream o.target) s₀ (.version l) s
  | .deciding given => (∀ x ∈ steps, x.appends = false) ∧ Given o s₀ given
  | .appending state events =>
    (∀ x ∈ steps, x.appends = false) ∧ ∃ given changes ids ids', Given o s₀ given ∧
    Produced o steps given changes ∧ changes ≠ [] ∧ state = given.applyAll changes ∧
    newEvents o.registry o.metadata changes ids = (.ok events, ids')
  | .finished result => AllOrNothing o s₀ steps result

variable {s₀ : MemoryStore}

theorem countP_appends (unappended : ∀ x ∈ steps, x.appends = false) :
    steps.countP Own.appends = 0 :=
  List.countP_eq_zero.2 fun x hx => by rw [unappended x hx]; exact Bool.false_ne_true

theorem allOrNothing_of_error {error : CommandError A} (unappended : ∀ x ∈ steps, x.appends = false)
    (idle : ∀ x ∈ steps, x.appends = false → x.Idle o) (cause : Cause o s₀ steps error) :
    AllOrNothing o s₀ steps (.error error) where
  once := Nat.le_succ_of_le (Nat.le_of_eq (countP_appends unappended))
  idle := idle
  refused := by
    rintro _ ⟨⟩
    exact ⟨fun x hx => idle x hx (unappended x hx), cause⟩
  carried := nofun

theorem reached_loaded {result : Loaded A} (unappended : ∀ x ∈ steps, x.appends = false)
    (idle : ∀ x ∈ steps, x.appends = false → x.Idle o)
    (load : Loading.Amid o.registry (Loading.start A o.stream o.target) s₀ (.done result) s) :
    Reached o s₀ steps s (o.loaded result) := by
  cases result with
  | error error => exact allOrNothing_of_error unappended idle (.unloaded load)
  | ok found =>
    unfold loaded
    dsimp only
    split
    · rename_i wanted
      exact ⟨unappended, found, s, load, wanted, rfl⟩
    · rename_i unwanted
      exact allOrNothing_of_error unappended idle (.unexpected load (Bool.not_eq_true _ ▸ unwanted))

theorem reached_decided (honest : o.Honest) {given : AggregateState A} (hgiven : Given o s₀ given)
    (unappended : ∀ x ∈ steps ++ [o.due (.deciding given) b], x.appends = false)
    (idle : ∀ x ∈ steps ++ [o.due (.deciding given) b], x.appends = false → x.Idle o) :
    Reached o s₀ (steps ++ [o.due (.deciding given) b]) s
      (o.step (.deciding given) b).1 := by
  have produced : ∀ changes, (o.decide given b).1 = .ok (given.applyAll changes) →
      Produced o (steps ++ [o.due (.deciding given) b]) given changes :=
    fun changes hdecide => ⟨_, List.mem_concat_self, rfl, hdecide⟩
  obtain ⟨error, hnext, denied⟩
      | ⟨changes, hdecide, ⟨rfl, hnext⟩ | ⟨hchanges, events, ids, ids', hevents, hnext⟩⟩ :=
    step_deciding honest hgiven.untouched b
  · rw [hnext]
    exact allOrNothing_of_error unappended idle (.denied hgiven List.mem_concat_self rfl denied)
  · rw [hnext]
    obtain ⟨id, inner, version, rfl, -⟩ := hgiven.untouched
    refine ⟨Nat.le_succ_of_le (Nat.le_of_eq (countP_appends unappended)), idle, nofun, ?_⟩
    rintro _ ⟨⟩
    exact ⟨_, hgiven, produced _ hdecide, ⟨rfl, rfl⟩, fun _ => ⟨rfl, unappended⟩,
      fun h => absurd rfl h⟩
  · rw [hnext]
    exact ⟨unappended, given, changes, ids, ids', hgiven, produced _ hdecide, hchanges,
      rfl, hevents⟩

theorem Reached.append (hn : b.store.Numbered) {state : AggregateState A} {events : List NewEvent}
    (h : Reached o s₀ steps b.store (.appending state events))
    (idle : ∀ x ∈ steps ++ [o.due (.appending state events) b],
      x.appends = false → x.Idle o) :
    Reached o s₀ (steps ++ [o.due (.appending state events) b]) s
      (o.step (.appending state events) b).1 := by
  obtain ⟨unappended, given, changes, ids, ids', hgiven, ⟨x, hx, hproduced⟩, hchanges, rfl,
    hevents⟩ := h
  have once : (steps ++ [o.due (.appending (given.applyAll changes) events) b]).countP
      Own.appends ≤ 1 := by
    rw [List.countP_append, countP_appends unappended, Nat.zero_add]
    exact List.countP_le_length
  obtain ⟨error, hnext, hsame, refuses⟩ | ⟨outcome, hnext, rfl, hfollows, hstored, -⟩ :=
    step_appending hgiven.untouched hchanges hevents hn rfl
  · rw [hnext]
    refine ⟨once, idle, ?_, nofun⟩
    rintro _ ⟨⟩
    refine ⟨fun x hx => ?_,
      .refused hgiven ⟨x, List.mem_append_left _ hx, hproduced⟩ List.mem_concat_self rfl refuses⟩
    cases happends : x.appends with
    | false => exact idle x hx happends
    | true =>
      rcases List.mem_append.1 hx with hx | hx
      · rw [unappended x hx] at happends
        cases happends
      · cases List.mem_singleton.1 hx
        exact hsame
  · rw [hnext]
    refine ⟨once, idle, nofun, ?_⟩
    rintro _ ⟨⟩
    exact ⟨given, hgiven, ⟨x, List.mem_append_left _ hx, hproduced⟩, hfollows,
      fun h => absurd h hchanges, fun _ => ⟨_, List.mem_concat_self, rfl, hstored⟩⟩

/-- A step of the command comes further. -/
theorem Reached.own (honest : o.Honest) (hn : b.store.Numbered) (h : Reached o s₀ steps b.store e)
    (unfinished : ∀ result, e ≠ .finished result)
    (idle : ∀ x ∈ steps ++ [o.due e b], x.appends = false → x.Idle o) :
    Reached o s₀ (steps ++ [o.due e b]) (o.step e b).2.store (o.step e b).1 := by
  have unappended : (∀ x ∈ steps, x.appends = false) → (o.due e b).appends = false →
      ∀ x ∈ steps ++ [o.due e b], x.appends = false := fun hsteps hlast x hx =>
    (List.mem_append.1 hx).elim (hsteps x) fun hx => List.mem_singleton.1 hx ▸ hlast
  cases e with
  | loading l =>
    obtain ⟨hsteps, load⟩ := h
    have after := load.page
    replace unappended := unappended hsteps rfl
    revert unappended idle
    rw [step_loading]
    intro idle unappended
    match hnext : (l.callPage o.registry b.store).1 with
    | .page l' =>
      rw [hnext] at after
      exact ⟨unappended, after⟩
    | .version l' =>
      rw [hnext] at after
      exact ⟨unappended, after⟩
    | .done result =>
      rw [hnext] at after
      exact reached_loaded unappended idle after
  | checking l => exact reached_loaded (unappended h.1 rfl) idle h.2.version
  | deciding given => exact reached_decided honest h.2 (unappended h.1 rfl) idle
  | appending state events => exact h.append hn idle
  | finished result => exact absurd rfl (unfinished result)

theorem Reached.others (h : Reached o s₀ steps s e) (calls : Calls s s') :
    Reached o s₀ steps s' e := by
  cases e with
  | loading l => exact ⟨h.1, h.2.others calls⟩
  | checking l => exact ⟨h.1, h.2.others calls⟩
  | deciding | appending | finished => exact h

theorem Amid.idle (h : Amid o b₀ steps e b) : ∀ x ∈ steps, x.appends = false → x.Idle o := by
  induction h with
  | start => exact List.forall_mem_nil _
  | others ids before calls ih => exact ih
  | @own steps e b before unfinished ih =>
    intro x hx happends
    rcases List.mem_append.1 hx with hx | hx
    · exact ih x hx happends
    · cases List.mem_singleton.1 hx
      cases e with
      | appending => cases happends
      | loading | checking | deciding | finished => rfl

theorem Amid.reached (honest : o.Honest) (hn : b₀.store.Numbered) (h : Amid o b₀ steps e b) :
    Reached o b₀.store steps b.store e := by
  induction h with
  | start => exact ⟨List.forall_mem_nil _, .start⟩
  | others ids before calls ih => exact ih.others calls
  | own before unfinished ih =>
    exact ih.own honest ((before.calls honest).numbered hn) unfinished (before.own unfinished).idle

/-- **All or nothing.**  Whatever others do meanwhile, a command that is finished has made one
append at most, which has stored all it reports or nothing. -/
theorem Amid.allOrNothing (honest : o.Honest) (hn : b₀.store.Numbered)
    {result : Except (CommandError A) (Outcome A)} (h : Amid o b₀ steps (.finished result) b) :
    AllOrNothing o b₀.store steps result :=
  h.reached honest hn

/-! ## 4. A command alone -/

/-- The business rule leaves the store alone. -/
def Quiet (o : Order A C MemoryStore) : Prop := ∀ known b, (o.decide known b).2.store = b.store

theorem quiet_of_action (h : ∀ rule, o.handler.action ≠ .actWith rule) : o.Quiet := by
  intro known b
  unfold decide
  cases haction : o.handler.action with
  | act rule | actOn rule => rfl
  | actWith rule => exact absurd haction (h rule)

/-- What a command that succeeds has done when nobody else uses the store. -/
structure Kept (o : Order A C MemoryStore) (b : Backend MemoryStore) (outcome : Outcome A)
    (s' : MemoryStore) (found : Option (AggregateState A)) : Prop where
  loaded : load? o.registry A o.stream o.target b.store = (some (.ok found), b.store)
  wanted : o.handler.expected.allows found.isSome = true
  produced : (o.decide (found.getD (.new o.target)) b).1 =
    .ok ((found.getD (.new o.target)).applyAll outcome.changes)
  follows : Follows (found.getD (.new o.target)) outcome
  stored : Stored o outcome b.store s'
  /-- The instance that is loaded afterwards is the one that is reported, or there is none if it has
  no stream. -/
  reloaded : ∃ again, load? o.registry A o.stream o.target s' = (some (.ok again), s') ∧
    again.getD (.new o.target) = .loaded o.target outcome.state outcome.streamVersion ∧
    (again = none ↔ outcome.streamVersion = .noStream)

/-- Why a command fails when nobody else uses the store; there are no conflicts then. -/
inductive Hindered (o : Order A C MemoryStore) (b : Backend MemoryStore) :
    CommandError A → Prop where
  /-- The instance cannot be loaded. -/
  | unloaded {error : AggregateError}
    (load : load? o.registry A o.stream o.target b.store = (some (.error error), b.store)) :
    Hindered o b (.ofAggregateError error)
  /-- The instance is there although it must not, or the other way round. -/
  | unexpected {found : Option (AggregateState A)}
    (load : load? o.registry A o.stream o.target b.store = (some (.ok found), b.store))
    (unwanted : o.handler.expected.allows found.isSome = false) :
    Hindered o b (.expectedState o.handler.expected o.stream)
  | denied {found : Option (AggregateState A)} {error : CommandError A}
    (load : load? o.registry A o.stream o.target b.store = (some (.ok found), b.store))
    (denied : Denied o (found.getD (.new o.target)) b error) : Hindered o b error
  /-- The stream is deleted. -/
  | deleted (gone : (b.store.mark o.stream).deleted = true) :
    Hindered o b (.store (.streamDeleted o.stream))

/-- What a command has done when nobody else uses the store. -/
structure Alone (o : Order A C MemoryStore) (b : Backend MemoryStore)
    (result : Except (CommandError A) (Outcome A)) (s' : MemoryStore) : Prop where
  refused : ∀ error, result = .error error → s' = b.store ∧ Hindered o b error
  kept : ∀ outcome, result = .ok outcome → ∃ found, Kept o b outcome s' found
  nothing : ∀ outcome, result = .ok outcome → outcome.changes = [] →
    s' = b.store ∧ outcome.globalPosition = none

/-- The instance that is found, or a new one, has the identity that was asked for. -/
theorem found_spec {found : Option (AggregateState A)} (hfound : o.found s = .ok found) :
    ∃ inner version, found.getD (.new o.target) = .loaded o.target inner version ∧ version ≠ .any ∧
      (found = none ↔ version = .noStream) := by
  obtain ⟨-, rfl⟩ | ⟨version, l, -, -, hid, rfl⟩ := found_ok hfound
  · exact ⟨A.initial, .noStream, rfl, nofun, iff_of_true rfl rfl⟩
  · refine ⟨l.state, .exact version, ?_, nofun, iff_of_false nofun nofun⟩
    rw [Option.getD_some, Loading.result, hid]

/-- The state that is found is what the visible events make of the first one. -/
theorem taken_of_found (hn : s.Numbered) (halive : (s.mark o.stream).deleted = false)
    {found : Option (AggregateState A)} (hfound : o.found s = .ok found) :
    ∃ l, takeEvents o.registry (Loading.start A o.stream o.target) (s.visible o.stream) = .ok l ∧
      l.id = o.target ∧ l.state = (found.getD (.new o.target)).inner := by
  obtain ⟨hversion, rfl⟩ | ⟨version, l, -, htaken, hid, rfl⟩ := found_ok hfound
  · have hentries : s.entries o.stream = [] := by
      rw [version?_eq hn halive] at hversion
      split at hversion
      · assumption
      · cases hversion
    refine ⟨Loading.start A o.stream o.target, ?_, rfl, rfl⟩
    rw [MemoryStore.visible, hentries]
    rfl
  · exact ⟨l, htaken, hid, rfl⟩

/-- What is visible after the changes were added. -/
theorem Gains.visible (hn : s.Numbered) (hn' : s'.Numbered)
    (hhidden : (s.mark o.stream).hiddenBefore ≤ (s.entries o.stream).length)
    {added : List StoredEvent} (gains : Gains o changes s s' added) :
    s'.visible o.stream = s.visible o.stream ++ added := by
  rw [visible_eq_drop hn', visible_eq_drop hn, gains.entries, mark_congr gains.marks,
    List.drop_append_of_le_length hhidden]

/-- The instance that is found after the changes were added has them applied. -/
theorem Gains.found (built : o.registry.Built) (codec : o.registry.Decodes) (hn : s.Numbered)
    (hn' : s'.Numbered) (hhidden : (s.mark o.stream).hiddenBefore ≤ (s.entries o.stream).length)
    {added : List StoredEvent} (gains : Gains o changes s s' added)
    {found : Option (AggregateState A)} (hfound : o.found s = .ok found) {version : Nat}
    (hversion : s'.version? o.stream = some version) :
    o.found s' = .ok (some
      (.loaded o.target (A.fold (found.getD (.new o.target)).inner changes) (.exact version))) := by
  have halive : (s.mark o.stream).deleted = false := by
    rw [← mark_congr gains.marks]
    exact (hasStream_iff.1 (by rw [hasStream, hversion]; rfl)).1
  obtain ⟨l, htaken, hid, hstate⟩ := taken_of_found hn halive hfound
  have hmore := (takeEvents_ok_iff (l := l)).2 ⟨changes, gains.spells built codec, rfl⟩
  rw [Order.found, Loading.found, hversion, gains.visible hn hn' hhidden, takeEvents_append, htaken]
  dsimp only
  rw [hmore, ← hstate, ← hid]
  rfl

theorem advance_ne_noStream {version : ExpectedVersion} {count : Nat} (hcount : count ≠ 0) :
    version.advance count ≠ .noStream := by
  cases count with
  | zero => exact absurd rfl hcount
  | succ count => cases version <;> nofun

theorem alone_of_error {error : CommandError A} (hsame : s = b.store)
    (hindered : Hindered o b error) : Alone o b (.error error) s where
  refused := by
    rintro _ ⟨⟩
    exact ⟨hsame, hindered⟩
  kept := nofun
  nothing := nofun

/-- An append that expects what was found is refused only if the stream is deleted. -/
theorem deleted_of_refused {found : Option (AggregateState A)} (hfound : o.found s = .ok found)
    {events : List NewEvent} {error : StoreError}
    (refuses : (append o.stream (found.getD (.new o.target)).originalVersion events s).1 =
      .error error) : (s.mark o.stream).deleted = true ∧ error = .streamDeleted o.stream := by
  cases halive : (s.mark o.stream).deleted with
  | true =>
    unfold append at refuses
    rw [if_pos halive] at refuses
    cases refuses
    exact ⟨rfl, rfl⟩
  | false =>
    have haccepts : (found.getD (.new o.target)).originalVersion.accepts (s.version? o.stream) =
        true := by
      obtain ⟨hversion, rfl⟩ | ⟨version, l, hversion, -, -, rfl⟩ := found_ok hfound
      · rw [hversion]
        rfl
      · rw [hversion]
        exact beq_self_eq_true version
    obtain ⟨answer, s', happend⟩ := append_of_accepts halive haccepts events
    rw [happend] at refuses
    cases refuses

section Undisturbed

variable (hn : b.store.Numbered) {found : Option (AggregateState A)}
  (hfound : o.found b.store = .ok found) (wanted : o.handler.expected.allows found.isSome = true)

include hn hfound wanted

/-- A command with nothing to store reports what was loaded. -/
theorem alone_of_nothing
    (produced : (o.decide (found.getD (.new o.target)) b).1 =
      .ok ((found.getD (.new o.target)).applyAll [])) :
    Alone o b (.ok (outcome (found.getD (.new o.target)) none)) b.store := by
  have hload : load? o.registry A o.stream o.target b.store = (some (.ok found), b.store) :=
    hfound ▸ load?_found hn
  obtain ⟨inner, version, hgiven, -, hnone⟩ := found_spec hfound
  have follows : Follows (found.getD (.new o.target))
      (outcome (found.getD (.new o.target)) none) := by
    rw [hgiven]
    exact ⟨rfl, rfl⟩
  constructor
  case refused => nofun
  case kept =>
    rintro _ ⟨⟩
    rw [hgiven] at follows ⊢
    exact ⟨found, hload, wanted, hgiven.symm ▸ produced, hgiven.symm ▸ follows,
      ⟨[], gains_nothing o _, rfl⟩, found, hload, hgiven, hnone⟩
  case nothing =>
    rintro _ ⟨⟩ -
    exact ⟨rfl, rfl⟩

/-- A command that has stored changes is as good as its word: what it reports is loaded again. -/
theorem alone_of_stored (built : o.registry.Built) (codec : o.registry.Decodes)
    (hhidden : (b.store.mark o.stream).hiddenBefore ≤ (b.store.entries o.stream).length)
    {outcome : Outcome A} (produced : (o.decide (found.getD (.new o.target)) b).1 =
      .ok ((found.getD (.new o.target)).applyAll outcome.changes))
    (hchanges : outcome.changes ≠ []) (follows : Follows (found.getD (.new o.target)) outcome)
    (stored : Stored o outcome b.store s') (hn' : s'.Numbered)
    (hversion : outcome.streamVersion = .ofVersion (s'.version? o.stream)) :
    Alone o b (.ok outcome) s' := by
  have hload : load? o.registry A o.stream o.target b.store = (some (.ok found), b.store) :=
    hfound ▸ load?_found hn
  -- The stream has a version, since it was advanced.
  have hwritten : outcome.streamVersion ≠ .noStream := by
    rw [follows.version]
    exact advance_ne_noStream fun hnil => hchanges (List.eq_nil_of_length_eq_zero hnil)
  obtain ⟨version, hsome⟩ : ∃ version, s'.version? o.stream = some version := by
    cases hnow : s'.version? o.stream with
    | none =>
      rw [hnow] at hversion
      exact absurd hversion hwritten
    | some version => exact ⟨version, rfl⟩
  obtain ⟨added, gains, -⟩ := id stored
  have hagain := load?_found (o := o) hn'
  rw [gains.found built codec hn hn' hhidden hfound hsome] at hagain
  constructor
  case refused => nofun
  case kept =>
    rintro _ ⟨⟩
    refine ⟨found, hload, wanted, produced, follows, stored, _, hagain, ?_, ?_⟩
    · rw [Option.getD_some, follows.state, hversion, hsome]
      rfl
    · exact iff_of_false nofun hwritten
  case nothing =>
    rintro _ ⟨⟩ hnil
    exact absurd hnil hchanges

/-- What a command does from its decision on. -/
theorem alone_of_deciding (built : o.registry.Built)
    (codec : o.registry.Decodes) (honest : o.Honest) (quiet : o.Quiet)
    (hhidden : (b.store.mark o.stream).hiddenBefore ≤ (b.store.entries o.stream).length)
    {fuel : Nat} {result : Except (CommandError A) (Outcome A)}
    (h : o.run (fuel + 2) (.deciding (found.getD (.new o.target))) b = (some result, b')) :
    Alone o b result b'.store := by
  rw [run_step (e := .deciding _) _ nofun] at h
  obtain ⟨inner, version, hgiven, definite, -⟩ := found_spec hfound
  have untouched : Untouched (found.getD (.new o.target)) := ⟨_, _, _, hgiven, definite⟩
  have hsame : (o.step (.deciding (found.getD (.new o.target))) b).2.store = b.store := quiet _ b
  obtain ⟨error, hnext, denied⟩
      | ⟨changes, hdecide, ⟨rfl, hnext⟩ | ⟨hchanges, events, ids, ids', hevents, hnext⟩⟩ :=
    step_deciding honest untouched b
  · rw [hnext, run_finished] at h
    cases h
    exact alone_of_error hsame (.denied (hfound ▸ load?_found hn) denied)
  · rw [hnext, run_finished] at h
    cases h
    rw [hsame]
    exact alone_of_nothing hn hfound wanted hdecide
  · rw [hnext, run_step (e := .appending _ _) _ nofun] at h
    obtain ⟨error, hlast, hkept, refuses⟩ | ⟨outcome, hlast, rfl, follows, stored, hn', hversion⟩ :=
      step_appending untouched hchanges hevents (hsame.symm ▸ hn) rfl
    · rw [hlast, run_finished] at h
      cases h
      rw [hsame] at refuses
      obtain ⟨gone, rfl⟩ := deleted_of_refused hfound refuses
      exact alone_of_error (hkept.trans hsame) (.deleted gone)
    · rw [hlast, run_finished] at h
      cases h
      exact alone_of_stored hn hfound wanted built codec hhidden hdecide hchanges follows
        (hsame ▸ stored) hn' hversion

end Undisturbed

/-- **Nobody else uses the store.**  Then a command that fails has done nothing, and one that
succeeds has stored its changes and leaves the state it reports to be loaded. -/
theorem alone_of_run (built : o.registry.Built) (codec : o.registry.Decodes)
    (honest : o.Honest) (quiet : o.Quiet) (hn : b.store.Numbered)
    (hhidden : (b.store.mark o.stream).hiddenBefore ≤ (b.store.entries o.stream).length)
    {result : Except (CommandError A) (Outcome A)}
    (h : o.run (pageBound b.store + 4) o.start b = (some result, b')) :
    Alone o b result b'.store := by
  obtain ⟨fuel, hrun⟩ := run_load (o := o) hn
  rw [hrun] at h
  match hfound : o.found b.store with
  | .error error =>
    rw [hfound, show o.loaded (.error error) = .finished _ from rfl, run_finished] at h
    cases h
    exact alone_of_error rfl (.unloaded (hfound ▸ load?_found hn))
  | .ok found =>
    rw [hfound] at h
    by_cases wanted : o.handler.expected.allows found.isSome = true
    case pos =>
      rw [show o.loaded (.ok found) = .deciding _ from if_pos wanted] at h
      exact alone_of_deciding hn hfound wanted built codec honest quiet hhidden h
    case neg =>
      rw [show o.loaded (.ok found) = .finished _ from if_neg wanted, run_finished] at h
      cases h
      exact alone_of_error rfl (.unexpected (hfound ▸ load?_found hn) (Bool.not_eq_true _ ▸ wanted))

/-- A decision and an append take two steps. -/
theorem run_deciding (fuel : Nat) (given : AggregateState A) (b : Backend MemoryStore) :
    ∃ result b', o.run (fuel + 2) (.deciding given) b = (some result, b') := by
  have hdecided : (o.step (.deciding given) b).1 =
      (o.decided (o.decide given b).1 (o.decide given b).2.ids).1 := rfl
  have happended : ∀ state events b, (o.step (.appending state events) b).1 =
      appended state (append o.stream state.originalVersion events b.store).1 := fun _ _ _ => rfl
  rw [run_step (e := .deciding given) _ nofun, hdecided]
  unfold decided
  split
  · exact ⟨_, _, run_finished _ _ _⟩
  · split
    · exact ⟨_, _, run_finished _ _ _⟩
    · split
      · exact ⟨_, _, run_finished _ _ _⟩
      · rw [run_step (e := .appending _ _) _ nofun, happended]
        unfold appended
        split <;> exact ⟨_, _, run_finished _ _ _⟩

/-- Every command comes to its end. -/
theorem run_ends (hn : b.store.Numbered) :
    ∃ result b', o.run (pageBound b.store + 4) o.start b = (some result, b') := by
  obtain ⟨fuel, hrun⟩ := run_load (o := o) hn
  rw [hrun]
  unfold loaded
  split
  · exact ⟨_, _, run_finished _ _ _⟩
  · split
    · exact run_deciding fuel _ b
    · exact ⟨_, _, run_finished _ _ _⟩

end Order

/-! ## 5. The commands of a service -/

namespace CommandService

variable {K : CommandSet}

/-- A command with its handler. -/
def order (s : CommandService A K MemoryStore) {k : K.Kind}
    (handler : Handler A (K.Body k) MemoryStore) (c : K.Body k) (metadata : Metadata) :
    Order A (K.Body k) MemoryStore :=
  ⟨s.registry, handler, c, metadata⟩

/-- What the commands of a kind do. -/
structure Atomic (s : CommandService A K MemoryStore) (k : K.Kind) (c : K.Body k)
    (metadata : Metadata) : Prop where
  /-- Without a handler nothing is done. -/
  unknown : s.handler? k = none →
    ∀ b, s.handle? k c metadata b = (some (.error (.handlerNotFound (K.name k))), b)
  /-- Every command that has a handler is carried out to its end. -/
  ends : ∀ handler, s.handler? k = some handler → ∀ b, Calls {} b.store → ∃ result b' steps,
    s.handle? k c metadata b = (some result, b') ∧
    (s.order handler c metadata).Amid b steps (.finished result) b'
  /-- A command does all or nothing, whatever others do between its steps. -/
  amid : ∀ handler, s.handler? k = some handler → ∀ b₀ steps result b, Calls {} b₀.store →
    (s.order handler c metadata).Amid b₀ steps (.finished result) b →
    (s.order handler c metadata).AllOrNothing b₀.store steps result
  /-- What a command reports is what is loaded afterwards, if nobody else uses the store and the
  stream was not truncated beyond its next position. -/
  alone : ∀ handler, s.handler? k = some handler → (s.order handler c metadata).Quiet →
    ∀ b, Calls {} b.store → (b.store.mark (s.order handler c metadata).stream).hiddenBefore ≤
      (b.store.entries (s.order handler c metadata).stream).length →
    ∀ result b', s.handle? k c metadata b = (some result, b') →
      (s.order handler c metadata).Alone b result b'.store

theorem handle?_eq {s : CommandService A K MemoryStore} {k : K.Kind}
    {handler : Handler A (K.Body k) MemoryStore} (registered : s.handler? k = some handler)
    (c : K.Body k) (metadata : Metadata) (b : Backend MemoryStore) :
    s.handle? k c metadata b =
      (s.order handler c metadata).run (pageBound b.store + 4)
        (s.order handler c metadata).start b := by
  unfold handle?
  rw [registered]
  rfl

/-- **Commands are all or nothing.**  With a registry whose codecs read what they wrote, and a rule
that goes by applying events: a command that fails leaves the store as it is, and one that succeeds
has stored in one append all it reports, which is what is loaded afterwards. -/
theorem commands_are_all_or_nothing (s : CommandService A K MemoryStore) (built : s.registry.Built)
    (codec : s.registry.Decodes) (k : K.Kind) (c : K.Body k) (metadata : Metadata)
    (honest : ∀ handler, s.handler? k = some handler → (s.order handler c metadata).Honest) :
    s.Atomic k c metadata where
  unknown missing b := by
    unfold handle?
    rw [missing]
  ends handler registered b calls := by
    obtain ⟨result, b', hrun⟩ :=
      Order.run_ends (o := s.order handler c metadata) (calls.numbered numbered_empty)
    obtain ⟨steps, hamid⟩ := Order.amid_run .start hrun
    exact ⟨result, b', steps, (handle?_eq registered c metadata b).trans hrun, hamid⟩
  amid handler registered b₀ steps result b calls h :=
    h.allOrNothing (honest handler registered) (calls.numbered numbered_empty)
  alone handler registered quiet b calls hhidden result b' h :=
    Order.alone_of_run built codec (honest handler registered) quiet (calls.numbered numbered_empty)
      hhidden ((handle?_eq registered c metadata b).symm.trans h)

section Sample

open Sample

theorem built_tickRegistry : tickRegistry.Built :=
  .register .empty (show TypeRegistry.empty.register "tick" () = .ok tickRegistry from rfl)

theorem decodes_tickRegistry : tickRegistry.Decodes := by
  rintro t - value bytes hbytes
  cases hbytes
  rfl

/-- The first tick is hidden when the second one comes in: a tally of one at the second version is
reported, and it is what is loaded then. -/
theorem second_tick_is_loaded_again : tallyService.registry.Built ∧ tallyService.registry.Decodes ∧
    (∀ handler, tallyService.handler? () = some handler →
      (tallyService.order handler () (.ofList [])).Honest) ∧
      tallyService.Atomic () () (.ofList []) ∧ Calls {} (Loading.hiddenTick 1) ∧ ∃ outcome b',
      tallyService.handle? () () (.ofList []) ⟨Loading.hiddenTick 1, {}⟩ =
        (some (.ok outcome), b') ∧
        outcome.state = (1 : Nat) ∧ outcome.changes = [ticked] ∧ outcome.streamVersion = .exact 1 ∧
        EventSourcing.load? tickRegistry tally tallyStream () b'.store =
          (some (.ok (some (.loaded () outcome.state outcome.streamVersion))), b'.store) := by
  have honest : ∀ handler, tallyService.handler? () = some handler →
      (tallyService.order handler () (.ofList [])).Honest := by
    rintro _ ⟨⟩
    trivial
  have atomic := commands_are_all_or_nothing tallyService built_tickRegistry decodes_tickRegistry ()
    () (.ofList []) honest
  have calls : Calls {} (Loading.hiddenTick 1) := Loading.calls_hiddenTick 1
  have alone := atomic.alone addTick.handler rfl (Order.quiet_of_action nofun)
    ⟨Loading.hiddenTick 1, {}⟩ calls (Nat.le_refl 1) _ _ rfl
  obtain ⟨found, kept⟩ := alone.kept _ rfl
  obtain ⟨again, hload, hagain, hnone⟩ := kept.reloaded
  refine ⟨built_tickRegistry, decodes_tickRegistry, honest, atomic, calls, _, _, rfl, rfl,
    rfl, rfl, ?_⟩
  cases again with
  | none => cases hnone.1 rfl
  | some state =>
    rw [Option.getD_some] at hagain
    exact hagain ▸ hload

end Sample

end CommandService
end EventSourcing

/-
# What a command knows of its stream

Between the steps of a command other writers may do as they like.  What the command knows stays true
all the same: the state it works on is that of a prefix of its stream, with the version of this
prefix.  Once the append goes through, the version says that the prefix is the whole stream; so
nobody wrote to it since the load, and the command could as well have been carried out at once.

What the file settles:

* `Order.Honest`: what is taken for granted of business rules;
* `Order.Sees`: what holds between two steps (`Order.Sees.step`);
* `Order.run_alone`: the command carried out at once.
-/
import EventSourcing.Proofs.Undisturbed

namespace EventSourcing

open MemoryStore Loading

variable {F : PayloadFamily} {A : Aggregate F} {C : Type}

/-! ## 1. Writing events -/

theorem newEvents_ok {r : TypeRegistry F} {metadata : Metadata}
    {changes : List A.Event} {ids ids' : IdSupply} {events : List NewEvent}
    (h : newEvents r metadata changes ids = (.ok events, ids')) :
    changes.map r.serializeEvent = events.map fun e => .ok ⟨e.type, e.contentType, e.payload⟩ := by
  induction changes generalizing ids ids' events with
  | nil =>
    cases h
    rfl
  | cons change rest ih =>
    simp only [newEvents] at h
    split at h
    · cases h
    · rename_i stored hstored
      split at h
      · cases h
      · rename_i more ids'' hrest
        cases h
        rw [List.map_cons, List.map_cons, hstored, ih hrest]
        rfl

namespace Order

variable {o : Order A C MemoryStore}

/-! ## 2. Business rules -/

/-- What is taken for granted of a business rule: what it does to the store it does by calls, and
what it does to the state it does by applying events. -/
def Honest (o : Order A C MemoryStore) : Prop :=
  match o.handler.action with
  | .act _ => True
  | .actWith rule => ∀ state c b, Calls b.store (rule state c b).2.store
  | .actOn rule =>
    ∀ state c state', rule state c = .ok state' → ∃ events, state' = state.applyAll events

theorem decide_spec (honest : o.Honest) {given : AggregateState A}
    {answer : Except A.Error (AggregateState A)} {b b' : Backend MemoryStore}
    (h : o.decide given b = (answer, b')) :
    Calls b.store b'.store ∧ ∀ state, answer = .ok state →
      ∃ events, state = given.applyAll events := by
  have of_map : ∀ (rule : Except A.Error (List A.Event)) state,
      rule.map given.applyAll = .ok state → ∃ events, state = given.applyAll events := by
    intro rule state hrule
    cases rule with
    | error => cases hrule
    | ok events =>
      cases hrule
      exact ⟨events, rfl⟩
  unfold decide at h
  unfold Honest at honest
  cases haction : o.handler.action with
  | act rule =>
    rw [haction] at h
    cases h
    exact ⟨.none _, of_map _⟩
  | actOn rule =>
    rw [haction] at h honest
    cases h
    exact ⟨.none _, fun state hstate => honest _ _ _ hstate⟩
  | actWith rule =>
    rw [haction] at h honest
    cases h
    exact ⟨honest _ _ _, of_map _⟩

/-! ## 3. Between two steps -/

/-- The decision was taken on `given`, at a time when the stream already had these events; the
events to append are those of the decision, and the store has only grown since. -/
def Decided (o : Order A C MemoryStore) (given state : AggregateState A) (events : List NewEvent)
    (stored : List StoredEvent) (s : MemoryStore) : Prop :=
  ∃ b b' ids, b.store.Numbered ∧ stored <+: b.store.entries o.stream ∧
    o.decide given b = (.ok state, b') ∧ state.changes ≠ [] ∧
    newEvents o.registry o.metadata state.changes b'.ids = (.ok events, ids) ∧
    Grown b'.store s

/-- What the command knows of its stream. -/
def Sees (o : Order A C MemoryStore) (given : Option (AggregateState A)) (s : MemoryStore) :
    Execution A → Prop
  | .loading l => l.stream = o.stream ∧ l.id = o.target ∧
    ∃ stored, stored <+: s.entries o.stream ∧ Folded o.registry l stored
  | .checking _ => False
  | .deciding state =>
    ∃ stored, stored <+: s.entries o.stream ∧ Holds o.registry o.target stored state ∧
      o.handler.expected.allows (!stored.isEmpty) = true
  | .appending state events => ∃ known stored, given = some known ∧ stored <+: s.entries o.stream ∧
    Holds o.registry o.target stored known ∧ o.handler.expected.allows (!stored.isEmpty) = true ∧
    o.Decided known state events stored s
  | .finished _ => True

/-- The state a decision is taken on is kept once the decision is due. -/
def givenAfter (given : Option (AggregateState A)) : Execution A → Option (AggregateState A)
  | .deciding state => some state
  | _ => given

theorem sees_start (s : MemoryStore) : o.Sees none s o.start :=
  ⟨rfl, rfl, [], List.nil_prefix, folded_start _ _⟩

/-- What others write takes nothing away from it. -/
theorem Sees.mono {given : Option (AggregateState A)} {s s' : MemoryStore} {e : Execution A}
    (h : o.Sees given s e) (grown : Grown s s') : o.Sees given s' e := by
  have hentries := grown.entries o.stream
  cases e with
  | loading l =>
    obtain ⟨hstream, hid, stored, hpre, hfolded⟩ := h
    exact ⟨hstream, hid, stored, hpre.trans hentries, hfolded⟩
  | checking => exact h
  | deciding state =>
    obtain ⟨stored, hpre, hholds⟩ := h
    exact ⟨stored, hpre.trans hentries, hholds⟩
  | appending state events =>
    obtain ⟨known, stored, hgiven, hpre, hholds, hallows, b, b', ids, hn, hseen, hdecide, hne,
      hevents, hgrown⟩ := h
    exact ⟨known, stored, hgiven, hpre.trans hentries, hholds, hallows, b, b', ids, hn, hseen,
      hdecide, hne, hevents, hgrown.trans grown⟩
  | finished => trivial

theorem sees_loaded {given : Option (AggregateState A)} {s : MemoryStore}
    {found : Option (AggregateState A)} {stored : List StoredEvent}
    (hpre : stored <+: s.entries o.stream) (hfound : found.isSome = !stored.isEmpty)
    (hholds : Holds o.registry o.target stored (found.getD (.new o.target))) :
    o.Sees given s (o.loaded (.ok found)) := by
  unfold loaded
  dsimp only
  split
  · rename_i hallows
    exact ⟨stored, hpre, hholds, hfound ▸ hallows⟩
  · trivial

theorem sees_appended (given : Option (AggregateState A)) (s : MemoryStore)
    (state : AggregateState A) {answer : Except StoreError Appended} :
    o.Sees given s (appended state answer) := by
  cases answer <;> trivial

theorem Sees.load {given : Option (AggregateState A)} {b : Backend MemoryStore} {l : Loading A}
    (hn : b.store.Numbered) (hvisible : (b.store.mark o.stream).hiddenBefore = 0)
    (h : o.Sees given b.store (.loading l)) : o.Sees given b.store (o.step (.loading l) b).1 := by
  obtain ⟨hstream, hid, stored, hpre, hfolded⟩ := h
  have hpage := folded_of_callPage hn (hstream ▸ hvisible) (hstream ▸ hpre) hfolded
  rw [step_loading]
  match hnext : (l.callPage o.registry b.store).1 with
  | .page l' =>
    rw [hnext] at hpage
    obtain ⟨hstream', hid', stored', hpre', hfolded'⟩ := hpage
    exact ⟨hstream'.trans hstream, hid'.trans hid, stored', hstream ▸ hpre', hfolded'⟩
  | .version l' =>
    rw [hnext] at hpage
    exact hpage.elim
  | .done (.ok none) => exact sees_loaded List.nil_prefix rfl (holds_new _)
  | .done (.ok (some state)) =>
    rw [hnext] at hpage
    obtain ⟨stored', hne, hpre', hholds⟩ := hpage
    exact sees_loaded (hstream ▸ hpre') (by simpa using hne) (hid ▸ hholds)
  | .done (.error error) => trivial

theorem Sees.decide (honest : o.Honest) {given : Option (AggregateState A)}
    {b : Backend MemoryStore} {state : AggregateState A}
    (hn : b.store.Numbered) (h : o.Sees given b.store (.deciding state)) :
    o.Sees (some state) (o.step (.deciding state) b).2.store (o.step (.deciding state) b).1 := by
  obtain ⟨stored, hpre, hholds, hallows⟩ := h
  unfold Order.step
  match hdecide : o.decide state b with
  | (answer, b') =>
    obtain ⟨hcalls, -⟩ := decide_spec honest hdecide
    simp only [hdecide, decided]
    cases answer with
    | error error => trivial
    | ok decidedState =>
      dsimp only
      split
      · trivial
      · rename_i hchanges
        split
        · trivial
        · rename_i events ids hevents
          exact ⟨state, stored, rfl, hpre.trans (hcalls.grown.entries _), hholds, hallows, b, b',
            ids, hn, hpre, hdecide, by simpa using hchanges, hevents, Grown.refl _⟩

/-- A step keeps what the command knows. -/
theorem Sees.step (honest : o.Honest) {given : Option (AggregateState A)}
    {b b' : Backend MemoryStore} {e e' : Execution A} (hn : b.store.Numbered)
    (hvisible : (b.store.mark o.stream).hiddenBefore = 0) (h : o.Sees given b.store e)
    (hstep : o.step e b = (e', b')) : o.Sees (givenAfter given e) b'.store e' := by
  cases e with
  | loading l =>
    have hloaded := h.load hn hvisible
    rw [hstep] at hloaded
    cases congrArg Prod.snd hstep
    exact hloaded
  | checking l => exact h.elim
  | deciding state =>
    have hdecided := h.decide honest hn
    rw [hstep] at hdecided
    exact hdecided
  | appending state events =>
    cases hstep
    exact sees_appended _ _ _
  | finished =>
    cases hstep
    trivial

/-- A command that ends well with new events ends with its append. -/
theorem appending_of_step {b b' : Backend MemoryStore} {e : Execution A} {result : Outcome A}
    (hstep : o.step e b = (.finished (.ok result), b')) (hchanges : result.changes ≠ []) :
    e = .finished (.ok result) ∨ ∃ state events answer, e = .appending state events ∧
      EventStore.append o.stream state.originalVersion events b.store = (.ok answer, b'.store) ∧
      result = outcome state (some answer) := by
  have of_loaded : ∀ l : Loaded A, o.loaded l ≠ .finished (.ok result) := by
    intro l hl
    unfold loaded at hl
    split at hl
    · cases hl
    · split at hl <;> cases hl
  have hfirst := congrArg Prod.fst hstep
  cases e with
  | loading l =>
    rw [step_loading] at hfirst
    dsimp only at hfirst
    split at hfirst
    · cases hfirst
    · cases hfirst
    · exact (of_loaded _ hfirst).elim
  | checking l => exact (of_loaded (l.callVersion b.store).1 hfirst).elim
  | deciding state =>
    -- Without an append there was nothing to add.
    replace hfirst : (o.decided (o.decide state b).1 (o.decide state b).2.ids).1 =
      .finished (.ok result) := hfirst
    unfold decided at hfirst
    split at hfirst
    · cases hfirst
    · split at hfirst
      · rename_i hempty
        cases hfirst
        exact (hchanges (by simpa [outcome] using hempty)).elim
      · split at hfirst <;> cases hfirst
  | appending state events =>
    right
    match happend : EventStore.append o.stream state.originalVersion events b.store with
    | (.error error, store) =>
      simp only [Order.step, happend, appended] at hfirst
      cases hfirst
    | (.ok answer, store) =>
      simp only [Order.step, happend, appended] at hstep
      cases hstep
      exact ⟨state, events, answer, rfl, happend, rfl⟩
  | finished answer =>
    cases hfirst
    exact .inl rfl

theorem calls_of_step (honest : o.Honest) {b b' : Backend MemoryStore} {e e' : Execution A}
    (hstep : o.step e b = (e', b')) : Calls b.store b'.store := by
  cases e with
  | loading | checking | finished => cases hstep; exact .none _
  | deciding state =>
    cases hstep
    have hdecide : o.decide state b = ((o.decide state b).1, (o.decide state b).2) := rfl
    exact (decide_spec honest hdecide).1
  | appending state events =>
    cases hstep
    exact .more (.none _) (.append _ _ _ _)

/-! ## 4. Carried out at once -/

theorem run_finished (fuel : Nat) (result : Except (CommandError A) (Outcome A))
    (b : Backend MemoryStore) : o.run fuel (.finished result) b = (some result, b) := by
  cases fuel <;> rfl

/-- What is found on the stream goes to the business rule, when the command allows it. -/
theorem loaded_found {s : MemoryStore} (hn : s.Numbered)
    (hvisible : (s.mark o.stream).hiddenBefore = 0) (halive : (s.mark o.stream).deleted = false)
    {known : AggregateState A} (hholds : Holds o.registry o.target (s.entries o.stream) known)
    (hallows : o.handler.expected.allows (!(s.entries o.stream).isEmpty) = true) :
    o.loaded (o.found s) = .deciding known := by
  rw [show o.found s = _ from found_of_holds hn hvisible halive hholds]
  by_cases hempty : s.entries o.stream = []
  · rw [hempty] at hholds hallows
    rw [if_pos hempty, hholds.unique (holds_new _)]
    exact if_pos (by simpa using hallows)
  · have hfound : (s.entries o.stream).isEmpty = false := by simpa using hempty
    rw [hfound] at hallows
    rw [if_neg hempty]
    exact if_pos (by simpa using hallows)

/-- **A command carried out at once.**  On a store whose stream has the prefix a state was loaded
from, and on which the decision is the same, the command goes through; it adds its events directly
behind the prefix. -/
theorem run_alone (honest : o.Honest) {b b' : Backend MemoryStore} {known state : AggregateState A}
    {events : List NewEvent} {ids : IdSupply} (hn : b.store.Numbered)
    (hvisible : (b.store.mark o.stream).hiddenBefore = 0)
    (halive : (b'.store.mark o.stream).deleted = false)
    (hholds : Holds o.registry o.target (b.store.entries o.stream) known)
    (hallows : o.handler.expected.allows (!(b.store.entries o.stream).isEmpty) = true)
    (hdecide : o.decide known b = (.ok state, b')) (hchanges : state.changes ≠ [])
    (hevents : newEvents o.registry o.metadata state.changes b'.ids = (.ok events, ids))
    (hsame : b'.store.entries o.stream = b.store.entries o.stream) :
    ∃ appended store, EventStore.append o.stream state.originalVersion events b'.store =
      (.ok appended, store) ∧
      o.run (pageBound b.store + 4) o.start b =
        (some (.ok (outcome state (some appended))), ⟨store, ids⟩) := by
  obtain ⟨hcalls, happly⟩ := decide_spec honest hdecide
  -- The version still is the one that was loaded.
  have hversion : state.originalVersion = versionAfter (b'.store.entries o.stream) := by
    obtain ⟨more, rfl⟩ := happly state rfl
    rw [hsame]
    exact hholds.originalVersion_eq
  have haccepts : state.originalVersion.accepts (b'.store.version? o.stream) = true := by
    rw [hversion]
    exact accepts_versionAfter (hcalls.numbered hn) halive
  obtain ⟨appended, store, happend⟩ := append_of_accepts halive haccepts events
  have hdeciding : o.step (.deciding known) b = (.appending state events, { b' with ids }) := by
    simp only [Order.step, hdecide, decided, hevents]
    rw [if_neg (by simpa using hchanges)]
  obtain ⟨fuel, hrun⟩ := run_load (o := o) hn
  refine ⟨appended, store, happend, ?_⟩
  rw [hrun, loaded_found hn hvisible (hcalls.grown.alive halive) hholds hallows]
  show o.run (fuel + 1) (o.step (.deciding known) b).1 (o.step (.deciding known) b).2 = _
  rw [hdeciding]
  show o.run fuel
    (Order.appended state (MemoryStore.append o.stream state.originalVersion events b'.store).1)
    ⟨(MemoryStore.append o.stream state.originalVersion events b'.store).2, ids⟩ = _
  rw [happend]
  exact run_finished _ _ _

theorem ne_nil_of_newEvents {r : TypeRegistry F} {metadata : Metadata}
    {changes : List A.Event} {ids ids' : IdSupply} {events : List NewEvent}
    (h : newEvents r metadata changes ids = (.ok events, ids')) (hchanges : changes ≠ []) :
    events ≠ [] := by
  rintro rfl
  exact hchanges (List.map_eq_nil_iff.1 (newEvents_ok h))

/-- What a command that was carried out at once has added. -/
theorem run_adds (honest : o.Honest) {b b' : Backend MemoryStore} {known state : AggregateState A}
    {events : List NewEvent} {ids : IdSupply} (hn : b.store.Numbered)
    (hvisible : (b.store.mark o.stream).hiddenBefore = 0)
    (halive : (b'.store.mark o.stream).deleted = false)
    (hholds : Holds o.registry o.target (b.store.entries o.stream) known)
    (hallows : o.handler.expected.allows (!(b.store.entries o.stream).isEmpty) = true)
    (hdecide : o.decide known b = (.ok state, b')) (hchanges : state.changes ≠ [])
    (hevents : newEvents o.registry o.metadata state.changes b'.ids = (.ok events, ids))
    (hsame : b'.store.entries o.stream = b.store.entries o.stream) :
    ∃ result store added,
      o.run (pageBound b.store + 4) o.start b = (some (.ok result), ⟨store, ids⟩) ∧
      result.state = state.inner ∧ result.changes = state.changes ∧
      result.streamVersion = .exact ((b.store.entries o.stream).length + events.length - 1) ∧
      store.entries o.stream = b.store.entries o.stream ++ added ∧ added.map content = events ∧
      store.Numbered ∧ store.marks = b'.store.marks := by
  obtain ⟨appended, store, happend, hrun⟩ :=
    run_alone honest hn hvisible halive hholds hallows hdecide hchanges hevents hsame
  obtain ⟨hn', hmarks, added, hadded, hcontent, hversion⟩ :=
    added_of_append ((decide_spec honest hdecide).1.numbered hn) happend
  rw [hsame] at hadded hversion
  have hlast := hversion (ne_nil_of_newEvents hevents hchanges)
  exact ⟨_, store, added, hrun, rfl, rfl, hlast, hadded, hcontent, hn', hmarks⟩

end Order
end EventSourcing

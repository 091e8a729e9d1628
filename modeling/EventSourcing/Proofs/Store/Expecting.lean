/-
# What an expectation is good for

The version of a stream is its length less one, and nothing ever shortens a stream: a truncation
hides its events and a deletion closes it for good.  So an expectation that has let events in is
used up.  No version comes back, and a state can be stored but once.

What the file settles:

* `versionOf`: the version of a stream by its length; `ofVersion_advance`: an expectation that was
  met, advanced;
* `MemoryStore.Used`: an expectation that is behind its stream, kept by all calls and never met
  again;
* `Deed`, `attempts`: a state stored over and over, with changes by others anywhere between;
* `Optimistic`, `expectations_are_used_once`: what an expectation is good for in both stores.
-/
import EventSourcing.Proofs.Store.Shelves
import EventSourcing.Proofs.Execution
import EventSourcing.Sample.Tally

namespace EventSourcing

/-! ## 1. Versions and lengths -/

/-- The version of a stream with so many events. -/
def versionOf : Nat → Option Nat
  | 0 => none
  | n + 1 => some n

namespace ExpectedVersion

variable {e : ExpectedVersion} {n m : Nat}

/-- An expectation that is met is, advanced, the version there is after so many more events. -/
theorem ofVersion_advance (hany : e ≠ .any) (haccepts : e.accepts (versionOf n) = true) (k : Nat) :
    ofVersion (versionOf (n + k)) = e.advance k := by
  cases e with
  | any => exact absurd rfl hany
  | noStream =>
    cases n with
    | succ n => cases haccepts
    | zero => cases k <;> simp [versionOf, ofVersion, advance]
  | exact position =>
    cases n with
    | zero => cases haccepts
    | succ n =>
      cases (beq_iff_eq.1 haccepts : position = n)
      cases k with
      | zero => rfl
      | succ k => exact congrArg exact (by omega : position + 1 + k = position + (k + 1))

/-- An expectation that is met is not met by any longer stream. -/
theorem not_accepts_of_lt (hany : e ≠ .any) (haccepts : e.accepts (versionOf n) = true)
    (hlt : n < m) : e.accepts (versionOf m) = false := by
  obtain ⟨k, rfl⟩ := Nat.exists_eq_add_of_lt hlt
  cases e with
  | any => exact absurd rfl hany
  | noStream => rfl
  | exact position =>
    cases n with
    | zero => cases haccepts
    | succ n =>
      cases (beq_iff_eq.1 haccepts : position = n)
      exact beq_eq_false_iff_ne.2 (by omega)

end ExpectedVersion

/-! ## 2. Appends to the store in memory -/

open Ledger

namespace MemoryStore

variable {s s' : MemoryStore} {stream : StreamName} {expected : ExpectedVersion}
  {events : List NewEvent} {answer : Appended}

theorem version?_of_alive (hn : Numbered s) (halive : (s.mark stream).deleted = false) :
    s.version? stream = versionOf (s.entries stream).length := by
  rw [version?_eq hn halive]
  cases s.entries stream <;> rfl

/-- How long a stream is before and after an append that succeeds, and what is answered. -/
theorem lengths_of_append (hn : Numbered s)
    (happend : append stream expected events s = (.ok answer, s')) :
    expected.accepts (versionOf (s.entries stream).length) = true ∧
      (s'.entries stream).length = (s.entries stream).length + events.length ∧
      s'.version? stream = versionOf (s'.entries stream).length ∧
      answer.nextExpected = .ofVersion (s'.version? stream) := by
  obtain ⟨hn', hmarks, added, hadded, hcontent, -⟩ := added_of_append hn happend
  obtain ⟨halive, haccepts, rfl, -⟩ := append_ok happend
  refine ⟨version?_of_alive hn halive ▸ haccepts, ?_, ?_, rfl⟩
  · rw [hadded, List.length_append, ← hcontent, List.length_map]
  · exact version?_of_alive hn' (mark_congr hmarks stream ▸ halive)

/-- The expectation was met by the stream when it was shorter. -/
structure Used (s : MemoryStore) (stream : StreamName) (expected : ExpectedVersion) : Prop where
  numbered : s.Numbered
  some : expected ≠ .any
  behind : ∃ n, expected.accepts (versionOf n) = true ∧ n < (s.entries stream).length

theorem used_of_append (hn : Numbered s) (hany : expected ≠ .any) (hevents : events ≠ [])
    (happend : append stream expected events s = (.ok answer, s')) : Used s' stream expected := by
  obtain ⟨haccepts, hlength, -⟩ := lengths_of_append hn happend
  have hpos : 0 < events.length := List.length_pos_iff.2 hevents
  exact ⟨(added_of_append hn happend).1, hany, _, haccepts, by omega⟩

/-- Streams do not get shorter, -/
theorem Used.calls (h : Used s stream expected) (calls : Calls s s') : Used s' stream expected := by
  obtain ⟨n, haccepts, hlt⟩ := h.behind
  exact ⟨calls.numbered h.numbered, h.some, n, haccepts,
    Nat.lt_of_lt_of_le hlt (calls.grown.entries stream).length_le⟩

/-- so an expectation that is behind lets no event in. -/
theorem Used.refuses (h : Used s stream expected) (events : List NewEvent) :
    ∃ error, (append stream expected events s).1 = .error error := by
  obtain ⟨n, haccepts, hlt⟩ := h.behind
  match happend : append stream expected events s with
  | (.error error, s') => exact ⟨error, rfl⟩
  | (.ok answer, s') =>
    have hnow := (lengths_of_append h.numbered happend).1
    rw [ExpectedVersion.not_accepts_of_lt h.some haccepts hlt] at hnow
    cases hnow

end MemoryStore

/-! ## 3. A state that is stored over and over -/

section Attempts

variable {σ : Type} [Ledger σ] {F : PayloadFamily} {A : Aggregate F} {r : TypeRegistry F}

/-- What is done with a store: someone changes it, or tries to store the state with some
metadata. -/
inductive Deed where
  | change (change : Change)
  | store (metadata : Metadata)

/-- The answers to the attempts to store the state, each deed done at its time. -/
def attempts (r : TypeRegistry F) (stream : StreamName) (state : AggregateState A) (b : Backend σ) :
    List (Instant × Deed) → List (Except AggregateError (Option Appended))
  | [] => []
  | (now, .change change) :: rest =>
    attempts r stream state { b with store := (run change (atTime now b.store)).2 } rest
  | (now, .store metadata) :: rest =>
    match storeChanges r stream state metadata { b with store := atTime now b.store } with
    | (answer, b) => answer :: attempts r stream state b rest

/-- A load, each call of it made on the store as it happens to be. -/
inductive Loads (σ : Type) [EventStore σ] (r : TypeRegistry F) (l₀ : Loading A) :
    Loading.Next A → Prop where
  | start : Loads σ r l₀ (.page l₀)
  | page {l : Loading A} (before : Loads σ r l₀ (.page l)) (s : σ) : Loads σ r l₀ (l.callPage r s).1
  | version {l : Loading A} (before : Loads σ r l₀ (.version l)) (s : σ) :
    Loads σ r l₀ (.done (l.callVersion s).1)

/-- A state without pending changes that is new, or was loaded. -/
inductive Fresh (σ : Type) [EventStore σ] (r : TypeRegistry F) (stream : StreamName) :
    AggregateState A → Prop where
  | new (id : A.Id) : Fresh σ r stream (.new id)
  | loaded {id : A.Id} {state : AggregateState A}
    (load : Loads σ r (Loading.start A stream id) (.done (.ok (some state)))) :
    Fresh σ r stream state

/-- Whatever the store answers, a state that a load returns has a version of its own, and no
changes. -/
theorem Loads.exact {l₀ : Loading A} {next : Loading.Next A} (load : Loads σ r l₀ next)
    {state : AggregateState A} (hnext : next = .done (.ok (some state))) :
    ∃ id inner version, state = .loaded id inner (.exact version) := by
  cases load with
  | start => cases hnext
  | @page l before s =>
    change l.takePage r _ = _ at hnext
    unfold Loading.takePage at hnext
    split at hnext
    · split at hnext <;> cases hnext
    · cases hnext
    · split at hnext
      · cases hnext
      · split at hnext
        · cases hnext
        · split at hnext
          · cases hnext
            exact ⟨_, _, _, rfl⟩
          · cases hnext
  | @version l before s =>
    change Loading.Next.done (l.takeVersion _) = _ at hnext
    unfold Loading.takeVersion at hnext
    split at hnext
    · cases hnext
    · rename_i version hversion
      match version with
      | none => cases hnext
      | some version =>
        cases hnext
        exact ⟨_, _, version, rfl⟩

theorem Fresh.expects {stream : StreamName} {state : AggregateState A}
    (h : Fresh σ r stream state) : state.originalVersion ≠ .any := by
  cases h with
  | new id => nofun
  | loaded load =>
    obtain ⟨id, inner, version, rfl⟩ := load.exact rfl
    nofun

/-- An attempt to store pending changes makes one append, unless an event cannot be written. -/
theorem storeChanges_cases (stream : StreamName) {state : AggregateState A}
    (hpending : state.changes ≠ []) (metadata : Metadata) (b : Backend σ) : ∃ ids, (∃ error,
      storeChanges r stream state metadata b = (.error error, ⟨b.store, ids⟩)) ∨
    ∃ events, events ≠ [] ∧ ∃ answer, storeChanges r stream state metadata b =
        (answer, ⟨(EventStore.append stream state.originalVersion events b.store).2, ids⟩) ∧
      answer.isOk = (EventStore.append stream state.originalVersion events b.store).1.isOk := by
  unfold storeChanges
  rw [if_neg (by simpa using hpending)]
  match hevents : newEvents r metadata state.changes b.ids with
  | (.error error, ids) => exact ⟨ids, .inl ⟨_, rfl⟩⟩
  | (.ok events, ids) =>
    refine ⟨ids, .inr ⟨events, Order.ne_nil_of_newEvents hevents hpending, ?_⟩⟩
    simp only [Backend.call]
    match happend : EventStore.append stream state.originalVersion events b.store with
    | (.error error, s) => exact ⟨_, rfl, rfl⟩
    | (.ok appended, s) => exact ⟨_, rfl, rfl⟩

/-- No append that expects it will ever succeed. -/
def Spent (σ : Type) [Ledger σ] (changes : List (Instant × Change)) (stream : StreamName)
    (expected : ExpectedVersion) : Prop :=
  ∀ more now events, ∃ error,
    answer (reached σ (changes ++ more)) now (.append stream expected events) = .error error

/-- Every append of events uses its expectation up. -/
def UsedOnce (σ : Type) [Ledger σ] (changes : List (Instant × Change))
    (stream : StreamName) : Prop :=
  ∀ now expected events reply, expected ≠ .any → events ≠ [] →
    answer (reached σ changes) now (.append stream expected events) = .ok reply →
    Spent σ (changes ++ [(now, .append stream expected events)]) stream expected

theorem Spent.more {changes : List (Instant × Change)} {stream : StreamName}
    {expected : ExpectedVersion} (h : Spent σ changes stream expected)
    (more : List (Instant × Change)) : Spent σ (changes ++ more) stream expected := by
  intro more' now events
  rw [List.append_assoc]
  exact h (more ++ more') now events

theorem isOk_append {stream : StreamName} {expected : ExpectedVersion} {events : List NewEvent}
    {s : σ} {now : Instant} :
    (EventStore.append stream expected events (atTime now s)).1.isOk = true ↔
      ∃ reply, answer s now (.append stream expected events) = .ok reply := by
  show _ ↔
    ∃ reply, Except.map some (EventStore.append stream expected events (atTime now s)).1 = .ok reply
  cases (EventStore.append stream expected events (atTime now s)).1
    <;> simp [Except.isOk, Except.toBool, Except.map]

section Stored

variable {stream : StreamName} {state : AggregateState A} (faithful : ∀ changes, Faithful σ changes)
  (hpending : state.changes ≠ [])

include faithful hpending

/-- An attempt leaves the store as one more append does, and succeeds if that does. -/
theorem attempt_spec (stream : StreamName) (changes : List (Instant × Change)) (now : Instant)
    (metadata : Metadata) (ids : IdSupply) :
    ∃ events ids' answer',
      storeChanges r stream state metadata ⟨atTime now (reached σ changes), ids⟩ =
        (answer',
          ⟨reached σ (changes ++ [(now, .append stream state.originalVersion events)]), ids'⟩) ∧
      (answer'.isOk = true → events ≠ [] ∧
        ∃ reply, answer (reached σ changes) now (.append stream state.originalVersion events) =
          .ok reply) := by
  obtain ⟨ids', ⟨error, hstore⟩ | ⟨events, hevents, answer', hstore, hok⟩⟩ :=
    storeChanges_cases (r := r) stream hpending metadata ⟨atTime now (reached σ changes), ids⟩
  · -- no call is made, which is what an append of no events comes to
    refine ⟨[], ids', .error error, hstore.trans ?_, fun h => (Bool.false_ne_true h).elim⟩
    rw [reached_snoc, (faithful changes).idle]
  · refine ⟨events, ids', answer', hstore.trans ?_, fun h => ⟨hevents, isOk_append.1 (hok ▸ h)⟩⟩
    rw [reached_snoc]
    rfl

/-- With a spent expectation no attempt succeeds, -/
theorem attempts_of_spent {changes : List (Instant × Change)}
    (hspent : Spent σ changes stream state.originalVersion)
    (ids : IdSupply) (deeds : List (Instant × Deed)) :
    (attempts r stream state ⟨reached σ changes, ids⟩ deeds).countP (·.isOk) = 0 := by
  induction deeds generalizing changes ids with
  | nil => rfl
  | cons deed rest ih =>
    obtain ⟨now, change | metadata⟩ := deed
    · have hrest := ih (hspent.more [(now, change)]) ids
      rw [reached_snoc] at hrest
      exact hrest
    · obtain ⟨events, ids', answer', hstore, hok⟩ :=
        attempt_spec (r := r) faithful hpending stream changes now metadata ids
      rw [attempts, hstore, List.countP_cons, ih (hspent.more _) ids']
      obtain ⟨error, herror⟩ := hspent [] now events
      rw [List.append_nil] at herror
      cases hanswer : answer'.isOk with
      | false => rfl
      | true =>
        obtain ⟨-, reply, hreply⟩ := hok hanswer
        rw [herror] at hreply
        cases hreply

/-- and the first attempt that does succeed spends it. -/
theorem attempts_le_one (once : ∀ changes, UsedOnce σ changes stream)
    (hany : state.originalVersion ≠ .any) (changes : List (Instant × Change))
    (ids : IdSupply) (deeds : List (Instant × Deed)) :
    (attempts r stream state ⟨reached σ changes, ids⟩ deeds).countP (·.isOk) ≤ 1 := by
  induction deeds generalizing changes ids with
  | nil => exact Nat.zero_le 1
  | cons deed rest ih =>
    obtain ⟨now, change | metadata⟩ := deed
    · have hrest := ih (changes ++ [(now, change)]) ids
      rw [reached_snoc] at hrest
      exact hrest
    · obtain ⟨events, ids', answer', hstore, hok⟩ :=
        attempt_spec (r := r) faithful hpending stream changes now metadata ids
      rw [attempts, hstore, List.countP_cons]
      cases hanswer : answer'.isOk with
      | false => exact ih _ ids'
      | true =>
        obtain ⟨hevents, reply, hreply⟩ := hok hanswer
        rw [attempts_of_spent faithful hpending (once _ _ _ _ _ hany hevents hreply) ids' rest]
        exact Nat.le_refl 1

end Stored

end Attempts

/-! ## 4. What an expectation is good for -/

/-- Appends to the stream of a store after the changes. -/
structure Optimistic (σ : Type) [Ledger σ] (changes : List (Instant × Change))
    (stream : StreamName) : Prop where
  /-- An append succeeds exactly if the stream is not deleted and the expectation fits its
  version. -/
  succeeds : ∀ now expected events,
    (∃ reply, answer (reached σ changes) now (.append stream expected events) = .ok (some reply)) ↔
      deleted stream (taken σ changes) = false ∧
        ∃ version, (seen σ changes).version stream = .ok version ∧ expected.accepts version = true
  /-- An append that succeeds answers the expectation that fits the new version. -/
  next : ∀ now expected events reply,
    answer (reached σ changes) now (.append stream expected events) = .ok (some reply) →
      ∃ version,
        (seen σ (changes ++ [(now, .append stream expected events)])).version stream = .ok version ∧
        reply.nextExpected = .ofVersion version ∧ reply.nextExpected.accepts version = true
  /-- The answer to an append is the expectation that was met, advanced by as many events. -/
  advanced : ∀ now expected events reply, expected ≠ .any →
    answer (reached σ changes) now (.append stream expected events) = .ok (some reply) →
      reply.nextExpected = expected.advance events.length
  /-- An expectation that let events in is not met again, whatever is done after. -/
  once : UsedOnce σ changes stream
  /-- A state with pending changes is stored at most once, however often it is tried. -/
  stored : ∀ {F : PayloadFamily} {A : Aggregate F} (r : TypeRegistry F) {state : AggregateState A},
    Fresh σ r stream state → ∀ events, events ≠ [] → ∀ ids deeds,
      (attempts r stream (state.applyAll events) ⟨reached σ changes, ids⟩ deeds).countP (·.isOk) ≤ 1

namespace MemoryStore

variable (changes : List (Instant × Change)) (stream : StreamName)

/-- An append to the store in memory, as the call that is made. -/
theorem append_of_answer {changes : List (Instant × Change)} {stream : StreamName} {now : Instant}
    {expected : ExpectedVersion} {events : List NewEvent} {reply : Option Appended}
    (hanswer : Ledger.answer (reached MemoryStore changes) now (.append stream expected events) =
      .ok reply) :
    ∃ appended, reply = some appended ∧
      append stream expected events (Ledger.atTime now (reached MemoryStore changes)) =
        (.ok appended,
          reached MemoryStore (changes ++ [(now, .append stream expected events)])) := by
  rw [reached_snoc]
  obtain ⟨appended, happend, rfl⟩ := map_ok (show run (.append stream expected events)
    (Ledger.atTime now (reached MemoryStore changes)) = (.ok reply, _) from Prod.ext hanswer rfl)
  exact ⟨appended, rfl, happend⟩

theorem usedOnce : UsedOnce MemoryStore changes stream := by
  intro now expected events reply hany hevents hanswer more now' events'
  obtain ⟨appended, -, happend⟩ := append_of_answer hanswer
  have hkeeps : Keeps (taken MemoryStore changes) (reached MemoryStore changes) :=
    keeps_after keeps_empty changes
  have hused := used_of_append (hkeeps.atTime now).numbered hany hevents happend
  rw [reached, after_append]
  have hlater := hused.calls (((Calls.none _).after more).more (.tick _ now'))
  obtain ⟨error, herror⟩ := hlater.refuses events'
  exact ⟨error, congrArg (Except.map some) herror⟩

theorem optimistic : Optimistic MemoryStore changes stream := by
  have hkeeps : Keeps (taken MemoryStore changes) (reached MemoryStore changes) :=
    keeps_after keeps_empty changes
  constructor
  case succeeds =>
    intro now expected events
    rw [← hkeeps.deleted]
    constructor
    · rintro ⟨reply, hanswer⟩
      obtain ⟨appended, -, happend⟩ := append_of_answer hanswer
      obtain ⟨halive, haccepts, -⟩ := append_ok happend
      exact ⟨halive, _, rfl, haccepts⟩
    · rintro ⟨halive, version, hversion, haccepts⟩
      cases hversion
      have hnow : ((Ledger.atTime now (reached MemoryStore changes)).mark stream).deleted = false ∧
          expected.accepts ((Ledger.atTime now (reached MemoryStore changes)).version? stream) =
            true :=
        ⟨halive, haccepts⟩
      obtain ⟨appended, s', happend⟩ := append_of_accepts hnow.1 hnow.2 events
      exact ⟨appended,
        congrArg (fun r : Except StoreError Appended × MemoryStore => r.1.map some) happend⟩
  case next =>
    intro now expected events reply hanswer
    obtain ⟨appended, happended, happend⟩ := append_of_answer hanswer
    cases happended
    obtain ⟨-, -, -, hnext⟩ := lengths_of_append (hkeeps.atTime now).numbered happend
    exact ⟨_, rfl, hnext,
      by rw [hnext, ExpectedVersion.accepts_ofVersion]; exact beq_self_eq_true _⟩
  case advanced =>
    intro now expected events reply hany hanswer
    obtain ⟨appended, happended, happend⟩ := append_of_answer hanswer
    cases happended
    obtain ⟨haccepts, hlength, hversion, hnext⟩ :=
      lengths_of_append (hkeeps.atTime now).numbered happend
    rw [hnext, hversion, hlength]
    exact ExpectedVersion.ofVersion_advance hany haccepts events.length
  case once => exact usedOnce changes stream
  case stored =>
    intro F A r state hfresh events hevents ids deeds
    have hpending : (state.applyAll events).changes ≠ [] :=
      fun h => hevents (List.append_eq_nil_iff.1 h).2
    exact attempts_le_one faithful hpending (fun changes => usedOnce changes stream) hfresh.expects
      changes ids deeds

end MemoryStore

/-- The store with shelves answers alike, so the same holds of it. -/
theorem ShelvedStore.optimistic (changes : List (Instant × Change)) (stream : StreamName)
    (h : ∀ changes, Optimistic MemoryStore changes stream) :
    Optimistic ShelvedStore changes stream := by
  have htaken : taken ShelvedStore = taken MemoryStore :=
    funext fun changes => (mirrors_empty.after changes).1
  have hseen : seen ShelvedStore = seen MemoryStore :=
    funext fun changes => (mirrors_empty.after changes).2.observe
  have hanswer : ∀ changes now change,
      answer (reached ShelvedStore changes) now change =
        answer (reached MemoryStore changes) now change :=
    fun changes now change => (((mirrors_empty.after changes).2.atTime now).run change).1
  have honce : ∀ changes, UsedOnce ShelvedStore changes stream := by
    intro changes now expected events reply hany hevents hreply more now' events'
    rw [hanswer] at hreply
    obtain ⟨error, herror⟩ :=
      (h changes).once now expected events reply hany hevents hreply more now' events'
    exact ⟨error, (hanswer _ _ _).trans herror⟩
  constructor
  case succeeds =>
    intro now expected events
    rw [hanswer, htaken, hseen]
    exact (h changes).succeeds now expected events
  case next =>
    intro now expected events reply hreply
    rw [hseen]
    exact (h changes).next now expected events reply (hanswer _ _ _ ▸ hreply)
  case advanced =>
    intro now expected events reply hany hreply
    exact (h changes).advanced now expected events reply hany (hanswer _ _ _ ▸ hreply)
  case once => exact honce changes
  case stored =>
    intro F A r state hfresh events hevents ids deeds
    have hpending : (state.applyAll events).changes ≠ [] :=
      fun h => hevents (List.append_eq_nil_iff.1 h).2
    exact attempts_le_one (fun changes => faithful changes (MemoryStore.faithful changes))
      hpending honce
      hfresh.expects changes ids deeds

/-- **An expectation is good for one append.**  In both stores, after any changes: an append
succeeds exactly if its stream is not deleted and at the version expected; it answers the
expectation that fits next; and an expectation that has let events in is never met again, so that a
state which is new or was loaded is stored at most once. -/
theorem expectations_are_used_once (changes : List (Instant × Change)) (stream : StreamName) :
    Optimistic MemoryStore changes stream ∧ Optimistic ShelvedStore changes stream :=
  ⟨MemoryStore.optimistic changes stream,
    ShelvedStore.optimistic changes stream fun changes => MemoryStore.optimistic changes stream⟩

open Sample in
example : ((attempts tickRegistry tallyStream
    ((AggregateState.new (A := tally) ()).applyAll [ticked]) (⟨{}, {}⟩ : Backend MemoryStore)
    [(⟨0⟩, .store (.ofList [])), (⟨1⟩, .store (.ofList []))]).map (·.isOk)) = [true, false] := rfl

end EventSourcing

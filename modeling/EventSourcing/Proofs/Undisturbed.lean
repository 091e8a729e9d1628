/-
# A load that nobody disturbs

When nobody else uses the store between two calls, the pages of a load are the visible events of the
stream, cut into pieces.  So the load folds the visible events as if it had them at once, up to the
first that cannot be read, and ends at the version of the stream.  This takes one call for each full
page, one more, and another one if no event is visible.

What the file settles:

* `found`: what there is to be found on a stream;
* `Returns`: the calls of a load and what it returns; `returns_found`: a load returns what there is;
* `load?_eq`: the calls that are granted suffice; `Order.run_load`: those of a command do.
-/
import EventSourcing.Command.Execution
import EventSourcing.Proofs.Snapshot

namespace EventSourcing

open MemoryStore

namespace Loading

variable {F : PayloadFamily} {A : Aggregate F} {r : TypeRegistry F} {l l' : Loading A}
  {s : MemoryStore} {stream : StreamName} {id : A.Id}

/-! ## 1. What there is -/

/-- The instance on the stream: its visible events, folded up to the first one that cannot be read,
at the version of the stream.  There is none if the stream was never written or is deleted. -/
def found (r : TypeRegistry F) (A : Aggregate F) (stream : StreamName) (id : A.Id)
    (s : MemoryStore) : Loaded A :=
  match s.version? stream with
  | none => .ok none
  | some version =>
    match takeEvents r (start A stream id) (s.visible stream) with
    | .error error => .error (.serialization error)
    | .ok l => .ok (some (l.result version))

theorem found_ok {found : Option (AggregateState A)}
    (hfound : Loading.found r A stream id s = .ok found) :
    (s.version? stream = none ∧ found = none) ∨ ∃ version l, s.version? stream = some version ∧
      takeEvents r (start A stream id) (s.visible stream) = .ok l ∧ l.id = id ∧
      found = some (l.result version) := by
  unfold Loading.found at hfound
  split at hfound
  · rename_i hversion
    cases hfound
    exact .inl ⟨hversion, rfl⟩
  · rename_i version hversion
    split at hfound
    · cases hfound
    · rename_i l htaken
      cases hfound
      obtain ⟨-, hid, -⟩ := (seen_start (r := r) stream id).takeEvents htaken
      exact .inr ⟨version, l, hversion, htaken, hid, rfl⟩

theorem takeEvents_append (page rest : List StoredEvent) : takeEvents r l (page ++ rest) =
    match takeEvents r l page with
    | .error error => .error error
    | .ok l => takeEvents r l rest := by
  induction page generalizing l with
  | nil => rfl
  | cons e page ih =>
    rw [List.cons_append, takeEvents, takeEvents]
    cases l.takeEvent r e with
    | error error => rfl
    | ok l => exact ih

/-- On a stream of which nothing is hidden there is what all its events make, once there are any. -/
theorem found_of_holds (hn : s.Numbered) (hvisible : (s.mark stream).hiddenBefore = 0)
    (halive : (s.mark stream).deleted = false) {known : AggregateState A}
    (hholds : Holds r id (s.entries stream) known) :
    Loading.found r A stream id s = .ok (if s.entries stream = [] then none else some known) := by
  obtain ⟨events, hspells, rfl⟩ := hholds
  have htaken := (takeEvents_ok_iff (l := start A stream id)).2 ⟨events, hspells, rfl⟩
  rw [Loading.found, version?_eq hn halive, visible_eq hvisible, htaken, versionAfter]
  by_cases hempty : s.entries stream = []
  · rw [if_pos hempty, if_pos hempty]
  · rw [if_neg hempty, if_neg hempty, if_neg hempty]
    rfl

/-- The last visible event has the version of the stream. -/
theorem version_of_last (hn : s.Numbered) {version place : Nat}
    (hversion : s.version? stream = some version)
    (hlast : (s.visible stream).getLast?.map (·.streamPosition) = some place) :
    place = version := by
  have hlength := length_of_version? hn hversion
  have hplaces := congrArg List.getLast? (places_visible hn stream)
  rw [List.getLast?_map, hlast, List.getLast?_range'] at hplaces
  split at hplaces
  · cases hplaces
  · have hvisible : (s.visible stream).length =
        (s.entries stream).length - (s.mark stream).hiddenBefore := by
      rw [visible_eq_drop hn, List.length_drop]
    cases hplaces
    omega

/-! ## 2. Page by page -/

/-- From here on a load that nobody disturbs makes `calls` calls, and returns this. -/
inductive Returns (r : TypeRegistry F) (s : MemoryStore) :
    Loading A → (calls : Nat) → Loaded A → Prop where
  | done {l : Loading A} {result : Loaded A} (page : (l.callPage r s).1 = .done result) :
    Returns r s l 1 result
  | version {l l' : Loading A} (page : (l.callPage r s).1 = .version l') :
    Returns r s l 2 (l'.callVersion s).1
  | page {l l' : Loading A} {calls : Nat} {result : Loaded A} (page : (l.callPage r s).1 = .page l')
    (rest : Returns r s l' calls result) : Returns r s l (calls + 1) result

/-- The next page of a load that has folded `seen` of the visible events. -/
theorem callPage_eq (hn : s.Numbered) {seen rest : List StoredEvent} (hseen : Seen r l seen)
    (hvisible : s.visible l.stream = seen ++ rest) (hstands : s.hasStream l.stream = true) :
    (l.callPage r s).1 = l.takePage r (.ok (rest.take loadPageSize)) := by
  show l.takePage r (s.read l.stream l.nextPosition loadPageSize) = _
  rw [read_eq_drop hn, if_pos hstands, hseen.nextPosition hn ⟨rest, hvisible.symm⟩, hvisible,
    List.drop_left]

/-- The last page, or the version that is asked for after it. -/
theorem returns_of_last (hn : s.Numbered) {version : Nat}
    (hversion : s.version? stream = some version) (hstream : l'.stream = stream)
    (hseen : Seen r l' (s.visible stream)) (hpage : (l.callPage r s).1 = match l'.version with
      | some version => .done (.ok (some (l'.result version)))
      | none =>
        .version l') : ∃ calls ≤ 2, Returns r s l calls (.ok (some (l'.result version))) := by
  cases hlast : l'.version with
  | some place =>
    rw [hlast] at hpage
    have hplace := version_of_last hn hversion (hseen.version.symm.trans hlast)
    subst hplace
    exact ⟨1, Nat.le_succ 1, .done hpage⟩
  | none =>
    rw [hlast] at hpage
    refine ⟨2, Nat.le_refl _, ?_⟩
    have hasked : (l'.callVersion s).1 = .ok (some (l'.result version)) := by
      show l'.takeVersion (.ok (s.version? l'.stream)) = _
      rw [hstream, hversion]
      rfl
    exact hasked ▸ .version hpage

section Seen

variable {version : Nat} {seen rest : List StoredEvent} (hn : s.Numbered)
  (hversion : s.version? stream = some version) (hvisible : s.visible stream = seen ++ rest)
  (htaken : takeEvents r (start A stream id) seen = .ok l)

include hversion hvisible htaken

/-- What there is in the end is what the rest makes of a load that has folded `seen`. -/
theorem found_of_seen : found r A stream id s = match takeEvents r l rest with
    | .error error => .error (.serialization error)
    | .ok l => .ok (some (l.result version)) := by
  simp only [found, hversion, hvisible, takeEvents_append, htaken]

include hn

theorem callPage_of_seen : (l.callPage r s).1 = l.takePage r (.ok (rest.take loadPageSize)) := by
  obtain ⟨(hstream : l.stream = stream), -, hseen⟩ :=
    (seen_start (r := r) stream id).takeEvents htaken
  have hstands : s.hasStream stream = true := by simp [MemoryStore.hasStream, hversion]
  exact callPage_eq hn hseen (hstream ▸ hvisible) (hstream ▸ hstands)

/-- A load that cannot read its next page returns so. -/
theorem returns_of_unreadable {error : SerializationError}
    (herror : takeEvents r l (rest.take loadPageSize) = .error error) :
    Returns r s l 1 (found r A stream id s) := by
  have hpage := callPage_of_seen hn hversion hvisible htaken
  rw [takePage, herror] at hpage
  rw [found_of_seen hversion hvisible htaken, ← List.take_append_drop loadPageSize rest,
    takeEvents_append, herror]
  exact .done hpage

/-- A load whose next page is not full returns what there is. -/
theorem returns_of_short (hshort : rest.length < loadPageSize) :
    ∃ calls ≤ 2, Returns r s l calls (found r A stream id s) := by
  have hall : rest.take loadPageSize = rest := List.take_of_length_le (Nat.le_of_lt hshort)
  cases htake : takeEvents r l rest with
  | error error =>
    exact ⟨1, Nat.le_succ 1, returns_of_unreadable hn hversion hvisible htaken (hall.symm ▸ htake)⟩
  | ok l' =>
    have hpage := callPage_of_seen hn hversion hvisible htaken
    rw [hall, takePage, htake] at hpage
    dsimp only at hpage
    rw [if_neg (Nat.not_le.2 hshort)] at hpage
    have hwhole : takeEvents r (start A stream id) (s.visible stream) = .ok l' := by
      rw [hvisible, takeEvents_append, htaken]
      exact htake
    obtain ⟨hstream, -, hseen⟩ := (seen_start (r := r) stream id).takeEvents hwhole
    rw [found_of_seen hversion hvisible htaken, htake]
    exact returns_of_last hn hversion hstream hseen hpage

end Seen

/-- A load that has folded `seen` returns what there is, with a call for each full page and two more
at most. -/
theorem returns_of_seen (hn : s.Numbered) {version : Nat}
    (hversion : s.version? stream = some version) {rest : List StoredEvent} :
    ∀ {l : Loading A} {seen : List StoredEvent}, s.visible stream = seen ++ rest →
      takeEvents r (start A stream id) seen = .ok l →
      ∃ calls ≤ rest.length / loadPageSize + 2, Returns r s l calls (found r A stream id s) := by
  induction hlength : rest.length using Nat.strongRecOn generalizing rest with
  | ind n ih =>
    intro l seen hvisible htaken
    by_cases hfull : loadPageSize ≤ rest.length
    case neg =>
      obtain ⟨calls, hcalls, hreturns⟩ :=
        returns_of_short hn hversion hvisible htaken (Nat.not_le.1 hfull)
      exact ⟨calls, Nat.le_trans hcalls (Nat.le_add_left _ _), hreturns⟩
    case pos =>
      cases htake : takeEvents r l (rest.take loadPageSize) with
      | error error =>
        exact ⟨1, Nat.le_add_left _ _, returns_of_unreadable hn hversion hvisible htaken htake⟩
      | ok l' =>
        have hpage := callPage_of_seen hn hversion hvisible htaken
        rw [takePage, htake] at hpage
        dsimp only at hpage
        rw [if_pos (by rw [List.length_take]; omega)] at hpage
        have hvisible' : s.visible stream = (seen ++ rest.take loadPageSize) ++
            rest.drop loadPageSize := by
          rw [hvisible, List.append_assoc, List.take_append_drop]
        have htaken' : takeEvents r (start A stream id) (seen ++ rest.take loadPageSize) =
            .ok l' := by
          rw [takeEvents_append, htaken]
          exact htake
        obtain ⟨calls, hcalls, hreturns⟩ := ih (rest.length - loadPageSize)
          (by unfold loadPageSize at hfull ⊢; omega) List.length_drop hvisible' htaken'
        exact ⟨calls + 1, by unfold loadPageSize at *; omega, .page hpage hreturns⟩

/-- **A load that nobody disturbs returns what there is.** -/
theorem returns_found (r : TypeRegistry F) (A : Aggregate F) (stream : StreamName) (id : A.Id)
    (hn : s.Numbered) :
    ∃ calls ≤ s.log.size / loadPageSize + 2,
      Returns r s (start A stream id) calls (found r A stream id s) := by
  cases hversion : s.version? stream with
  | none =>
    have hmissing : s.hasStream stream = false := by simp [MemoryStore.hasStream, hversion]
    refine ⟨1, Nat.le_add_left _ _, .done ?_⟩
    show (start A stream id).takePage r (s.read stream 0 loadPageSize) = _
    rw [MemoryStore.read, hmissing, found, hversion]
    rfl
  | some version =>
    obtain ⟨calls, hcalls, hreturns⟩ :=
      returns_of_seen (r := r) (l := start A stream id) hn hversion (List.nil_append _).symm rfl
    refine ⟨calls, ?_, hreturns⟩
    have hvisible : (s.visible stream).length ≤ s.log.size := by
      rw [← Array.length_toList]
      exact Nat.le_trans (List.length_filter_le _ _) (List.length_filter_le _ _)
    have := Nat.div_le_div_right (c := loadPageSize) hvisible
    omega

/-! ## 3. Calls that suffice -/

theorem Returns.run {calls : Nat} {result : Loaded A} (h : Returns r s l calls result) :
    ∀ fuel, calls ≤ fuel → l.run r fuel s = (some result, s) := by
  induction h with
  | @done l result page =>
    intro fuel hle
    obtain ⟨fuel, rfl⟩ := Nat.exists_eq_add_of_le' hle
    have hcall : l.callPage r s = (.done result, s) := Prod.ext page rfl
    rw [Loading.run, hcall]
  | @version l l' page =>
    intro fuel hle
    obtain ⟨fuel, rfl⟩ := Nat.exists_eq_add_of_le' hle
    have hcall : l.callPage r s = (.version l', s) := Prod.ext page rfl
    rw [Loading.run, hcall]
    rfl
  | @page l l' calls result page rest ih =>
    intro fuel hle
    obtain ⟨fuel, rfl⟩ := Nat.exists_eq_add_of_le' (Nat.le_trans (Nat.le_add_left 1 _) hle)
    have hcall : l.callPage r s = (.page l', s) := Prod.ext page rfl
    rw [Loading.run, hcall]
    exact ih fuel (by omega)

/-- The calls that are granted suffice for a load. -/
theorem load?_eq (hn : s.Numbered) : load? r A stream id s = (some (found r A stream id s), s) := by
  obtain ⟨calls, hcalls, hreturns⟩ := returns_found r A stream id hn
  exact hreturns.run _ hcalls

end Loading

namespace Order

variable {F : PayloadFamily} {A : Aggregate F} {C : Type} {o : Order A C MemoryStore}
  {b : Backend MemoryStore}

open Loading

/-- What the command on this stream is to be told. -/
def found (o : Order A C MemoryStore) (s : MemoryStore) : Loaded A :=
  Loading.found o.registry A o.stream o.target s

/-- What is loaded in the place of the command. -/
theorem load?_found {s : MemoryStore} (hn : s.Numbered) :
    load? o.registry A o.stream o.target s = (some (o.found s), s) := load?_eq hn

theorem step_loading (l : Loading A) (b : Backend MemoryStore) : o.step (.loading l) b =
    (match (l.callPage o.registry b.store).1 with
      | .page l => .loading l
      | .version l => .checking l
      | .done result => o.loaded result, b) := rfl

theorem run_returns {l : Loading A} {calls : Nat} {result : Loaded A}
    (h : Returns o.registry b.store l calls result) (fuel : Nat) :
    o.run (fuel + calls) (.loading l) b = o.run fuel (o.loaded result) b := by
  induction h with
  | @done l result page =>
    show o.run fuel (o.step (.loading l) b).1 (o.step (.loading l) b).2 = _
    rw [step_loading, page]
  | @version l l' page =>
    show o.run (fuel + 1) (o.step (.loading l) b).1 (o.step (.loading l) b).2 = _
    rw [step_loading, page]
    rfl
  | @page l l' calls result page rest ih =>
    show o.run (fuel + calls) (o.step (.loading l) b).1 (o.step (.loading l) b).2 = _
    rw [step_loading, page]
    exact ih

/-- A command comes to what follows its load, and has two steps left at least. -/
theorem run_load (hn : b.store.Numbered) :
    ∃ fuel, o.run (pageBound b.store + 4) o.start b =
      o.run (fuel + 2) (o.loaded (o.found b.store)) b := by
  obtain ⟨calls, hcalls, hreturns⟩ :=
    returns_found o.registry A o.stream o.target hn
  have hbound : pageBound b.store = b.store.log.size / loadPageSize + 2 := rfl
  refine ⟨pageBound b.store + 2 - calls, ?_⟩
  rw [show pageBound b.store + 4 = pageBound b.store + 2 - calls + 2 + calls by omega]
  exact run_returns hreturns _

end Order
end EventSourcing

/-
# Where the messages of a run come from

Every message is an event that was read, and it stands in the source where its number says: as many
places behind the checkpoint of the run as there were messages before it, if the source leaves no
position out.

What the file settles:

* `Next`, `position_eq`: where the messages of a run stand if its source leaves no position out;
* `Sourced`: every message is an event that was read.
-/
import EventSourcing.Proofs.Run.Dispatching

namespace EventSourcing
namespace Run

variable {F : PayloadFamily} {s : Subscription F} {r r' : Run F} {a : Action}
  {effects : List (Effect F)} {h : List (Entry F)}

/-! ## 1. Positions in a row -/

/-- The position after this one; the first one is zero. -/
def nextOf (start : Option Nat) : Nat := (start.map (· + 1)).getD 0

/-- The position comes directly after the one before it. -/
def Next (start : Option Nat) (p : Nat) : Prop := p = nextOf start

theorem chained_next_iff {start : Option Nat} {l : List Nat} :
    Chained Next start l ↔ l = List.range' (nextOf start) l.length := by
  induction l generalizing start with
  | nil => exact ⟨fun _ => rfl, fun _ => trivial⟩
  | cons p rest ih =>
    rw [List.length_cons, List.range'_succ, List.cons.injEq]
    constructor
    · rintro ⟨hp, hrest⟩
      exact ⟨hp, hp ▸ ih.1 hrest⟩
    · rintro ⟨hp, hrest⟩
      exact ⟨hp, ih.2 (hp ▸ hrest)⟩

theorem nextOf_lastOf {start : Option Nat} {l : List Nat} (chain : Chained Next start l) :
    nextOf (lastOf start l) = nextOf start + l.length := by
  induction l generalizing start with
  | nil => rfl
  | cons p rest ih =>
    obtain ⟨hp, hrest⟩ := chain
    have hnext : nextOf (some p) = nextOf start + 1 := congrArg (· + 1) hp
    rw [lastOf, ih hrest, hnext, List.length_cons]
    omega

/-- A message stands as far behind the checkpoint of its run as its number says. -/
theorem position_eq (hist : History s h r) (reads : Reads Next s h) {p : CommitPosition}
    (hp : p ∈ (dispatched h).map (·.position)) : p.position = nextOf (origin h) + p.sequence := by
  obtain ⟨m, hm, rfl⟩ := List.mem_map.1 hp
  have hrow := chained_next_iff.1 (followed hist reads).chained
  have hplace := congrArg (·[m.sequence]?) hrow
  have hlt := (numbered hist).sequence_lt hm
  rw [positions, List.getElem?_map, (numbered hist).getElem?_sequence hm, List.length_map,
    List.getElem?_range' hlt] at hplace
  simpa using hplace

/-! ## 2. Events behind messages -/

/-- The event was in a page the run was given. -/
def Given (h : List (Entry F)) (event : StoredEvent) : Prop :=
  ∃ e ∈ h, ∃ page, e.action = .pageRead (.ok page) ∧ event ∈ page

/-- What was handed out, and what is to be handed out next, are events the run was given. -/
structure Sourced (s : Subscription F) (h : List (Entry F)) (r : Run F) : Prop where
  messages : ∀ m ∈ dispatched h, ∃ event, Given h event ∧ s.decode event m.sequence = .ok m
  page : ∀ cursor page, r.phase = .delivering cursor page → ∀ event ∈ page, Given h event

/-- The checkpoint a run was given stays its origin. -/
theorem origin_stays (made : Transition s r a r' effects) (late : ¬r.phase.IsEarly) :
    origin (h ++ [⟨r, a, r', effects⟩]) = origin h := by
  have unloaded : a.loaded? = none := by
    cases made.draws with
    | begun early => exact (late early).elim
    | arrived | handed => rfl
    | nothing quiet unloaded => exact unloaded
  rw [Followed.origin_snoc, unloaded, Option.or_none]

theorem Given.mono {event : StoredEvent} (given : Given h event) (h' : List (Entry F)) :
    Given (h ++ h') event := by
  obtain ⟨e, he, hgiven⟩ := given
  exact ⟨e, List.mem_append_left h' he, hgiven⟩

theorem Sourced.step (hs : Sourced s h r) (made : Transition s r a r' effects) :
    Sourced s (h ++ [⟨r, a, r', effects⟩]) r' := by
  have hdispatched := dispatched_snoc h ⟨r, a, r', effects⟩
  dsimp only at hdispatched
  have hold : ∀ m ∈ dispatched h, ∃ event, Given (h ++ [⟨r, a, r', effects⟩]) event ∧
      s.decode event m.sequence = .ok m := by
    intro m hm
    obtain ⟨event, given, decoded⟩ := hs.messages m hm
    exact ⟨event, given.mono _, decoded⟩
  -- A step that hands nothing out is right if its page is.
  have of_quiet : effects.filterMap Effect.dispatched? = [] →
      (∀ cursor page, r'.phase = .delivering cursor page →
        ∀ event ∈ page, Given (h ++ [⟨r, a, r', effects⟩]) event) →
      Sourced s (h ++ [⟨r, a, r', effects⟩]) r' := by
    intro quiet page
    rw [quiet, List.append_nil] at hdispatched
    exact ⟨by rw [hdispatched]; exact hold, page⟩
  cases made.draws with
  | begun early late quiet cursor page =>
    exact of_quiet quiet fun cursor' page' here => (page cursor' page' here).elim
  | @arrived cursor page phase quiet phase' =>
    refine of_quiet quiet fun cursor' page' here event hevent => ?_
    cases phase'.symm.trans here
    exact ⟨_, List.mem_append_right h (List.mem_singleton_self _), page, rfl, hevent⟩
  | @handed cursor event rest m phase decoded hands next left =>
    rw [hands] at hdispatched
    refine ⟨fun m' hm' => ?_, fun cursor' page' here event' hevent => ?_⟩
    · rw [hdispatched] at hm'
      rcases List.mem_append.1 hm' with hm' | hm'
      · exact hold m' hm'
      · cases List.mem_singleton.1 hm'
        rw [sequence_of_decode decoded]
        exact ⟨event, (hs.page _ _ phase event List.mem_cons_self).mono _, decoded⟩
    · cases left cursor' page' here
      exact (hs.page _ _ phase event' (List.mem_cons_of_mem _ hevent)).mono _
  | nothing quiet unloaded cursor page =>
    exact of_quiet quiet fun cursor' page' here event hevent =>
      (hs.page cursor' page' (page cursor' page' here) event hevent).mono _

theorem sourced (hist : History s h r) : Sourced s h r := by
  induction hist with
  | begin => exact ⟨by simp [dispatched, trace], nofun⟩
  | step past made ih => exact ih.step (transition_of_step made)

end Run
end EventSourcing

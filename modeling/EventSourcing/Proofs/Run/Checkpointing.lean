/-
# Checkpoints stay behind what is confirmed

Messages are confirmed in any order, from any of the places where handling may come to an end.  The
committer asks for a checkpoint only when the gapless part of the confirmed numbers has grown, and
it asks for the last message of that part.  So whatever a checkpoint leaves behind has been
confirmed before the checkpoint is asked for.

What the file settles:

* `Gapless`: everything the committer covers was confirmed, and so was everything up to a position
  that is being stored or was stored;
* `Commits`, `Transition.commits_or_rests`: the four steps that move the committer;
* `gapless`: what the committer knows holds of every history;
* `checkpoint_leaves_only_confirmed_behind`: a checkpoint that is asked for, forced or not.
-/
import EventSourcing.Proofs.CommitSequence
import EventSourcing.Proofs.Run.Settling
import EventSourcing.Sample.Ticks

namespace EventSourcing
namespace Run

variable {F : PayloadFamily} {s : Subscription F} {r r' : Run F} {a : Action}
  {effects : List (Effect F)} {h : List (Entry F)}

/-! ## 1. What the committer knows -/

/-- The position is that of a message handed out, and the committer has taken it out. -/
def Taken (h : List (Entry F)) (c : Committer) (p : CommitPosition) : Prop :=
  p ∈ (dispatched h).map (·.position) ∧ p.sequence < c.sequence.next

/-- Everything the committer covers was handed out and confirmed, and what is being stored or was
stored last has been taken out. -/
structure Gapless (s : Subscription F) (h : List (Entry F)) (r : Run F) : Prop where
  kept : r.committer.WellKept
  known : ∀ p ∈ r.committer.sequence.waiting, p ∈ (dispatched h).map (·.position)
  covered : ∀ n, r.committer.sequence.Covers n → n < (dispatched h).length ∧ IsConfirmed s h n
  storing : ∀ t ∈ r.tasks, ∀ p, t.stage = .storing p → Taken h r.committer p
  last : ∀ p, r.committer.last = some p → Taken h r.committer p

theorem mem_dispatched_mono {p : CommitPosition} (hp : p ∈ (dispatched h).map (·.position))
    (h' : List (Entry F)) : p ∈ (dispatched (h ++ h')).map (·.position) := by
  rw [dispatched_append, List.map_append]
  exact List.mem_append_left _ hp

theorem length_dispatched_le (h h' : List (Entry F)) :
    (dispatched h).length ≤ (dispatched (h ++ h')).length := by
  simp

theorem Taken.mono {c c' : Committer} {p : CommitPosition} (taken : Taken h c p)
    (hnext : c.sequence.next ≤ c'.sequence.next) (h' : List (Entry F)) : Taken (h ++ h') c' p :=
  ⟨mem_dispatched_mono taken.1 h', Nat.lt_of_lt_of_le taken.2 hnext⟩

/-! ## 2. Steps of the committer -/

/-- The committer is given a position to confirm, or hears that one was stored. -/
def Action.Commits : Action → Prop
  | .confirm _ | .stored _ (.ok ()) => True
  | _ => False

/-- How the committer moves. -/
inductive Commits (s : Subscription F) (r : Run F) : Action → Run F → List (Effect F) → Prop where
  | confirmed {t : Task F} {c : Committer} (task : r.task? t.sequence = some t)
    (stage : t.stage = .confirming) (free : r.isStoring = false)
    (answer : r.committer.confirm t.message.position = (none, c)) :
    Commits s r (.confirm t.sequence) { r.remove t.sequence with committer := c } []
  | asked {t : Task F} {p : CommitPosition} {c : Committer} (task : r.task? t.sequence = some t)
    (stage : t.stage = .confirming) (free : r.isStoring = false)
    (answer : r.committer.confirm t.message.position = (some p, c)) :
    Commits s r (.confirm t.sequence) { r.put { t with stage := .storing p } with committer := c }
      [.storing (s.checkpoint p.position) false]
  | stored {t : Task F} {p : CommitPosition} (task : r.task? t.sequence = some t)
    (stage : t.stage = .storing p) :
    Commits s r (.stored t.sequence (.ok ()))
      { r.remove t.sequence with committer := r.committer.recorded p } [.committed p]
  | flushed {p : CommitPosition} (phase : r.phase = .flushing p) :
    Commits s r (.flushed (.ok ()))
        { r with committer := r.committer.flushed, phase := .finished r.verdict }
        [.status r.lastStatus, .finished r.verdict]

theorem Fails.not_commits {t u : Task F} {name : String} {error : HandlerError}
    (h : Fails s t a name error u) : ¬a.Commits := by
  cases h <;> exact id

theorem Advance.not_commits {t u : Task F} (h : Advance s r t a u effects) : ¬a.Commits := by
  cases h with
  | recovering fails _ _ => exact fails.not_commits
  | _ => exact id

theorem LetsGo.not_commits {t : Task F} (h : LetsGo s t a) : ¬a.Commits := by
  cases h with
  | failed fails => exact fails.not_commits
  | _ => exact id

theorem Ends.not_commits {t : Task F} {e : SubscriptionError} (h : Ends s r t a e) :
    ¬a.Commits := by
  cases h with
  | failed fails _ _ => exact fails.not_commits
  | _ => exact id

theorem Breaks.not_commits {t : Task F} (h : Breaks s t a) : ¬a.Commits := by
  cases h <;> exact id

theorem Polls.not_commits (h : Polls s r a r' effects) : ¬a.Commits := by
  cases h with
  | aborted reason | stopped reason => cases reason <;> exact id
  | _ => exact id

/-- The committer moves, or the step leaves it as it is. -/
theorem Transition.commits_or_rests (made : Transition s r a r' effects) :
    Commits s r a r' effects ∨ r'.committer = r.committer ∧ ¬a.Commits := by
  cases made with
  | advanced task advance => exact .inr ⟨rfl, advance.not_commits⟩
  | letGo task halted reason => exact .inr ⟨rfl, reason.not_commits⟩
  | ended task reason => exact .inr ⟨rfl, reason.not_commits⟩
  | @broken t _ task reason =>
    obtain ⟨gone, lanes, hrun, -⟩ := loseWorker_spec r t
    exact .inr ⟨by rw [hrun], reason.not_commits⟩
  | confirmed task stage free answer => exact .inl (.confirmed task stage free answer)
  | asked task stage free answer => exact .inl (.asked task stage free answer)
  | stored task stage => exact .inl (.stored task stage)
  | cancelled => exact .inr ⟨rfl, id⟩
  | polled polls =>
    have quiet := polls.not_commits
    cases polls with
    | flushed phase => exact .inl (.flushed phase)
    | _ => exact .inr ⟨rfl, quiet⟩

/-! ## 3. Every step -/

/-- A task whose checkpoint is being stored was so before, or its confirmation has just asked for
it. -/
theorem Transition.storing_task (made : Transition s r a r' effects) {u : Task F}
    (hu : u ∈ r'.tasks) {p : CommitPosition} (stage : u.stage = .storing p) :
    (∃ t ∈ r.tasks, t.sequence = u.sequence ∧ t.stage = .storing p) ∨
      ∃ t c, r.task? t.sequence = some t ∧ t.stage = .confirming ∧
        r.committer.confirm t.message.position = (some p, c) ∧ a = .confirm t.sequence ∧
        u = { t with stage := .storing p } := by
  rcases made.arises hu with hold | arises
  · exact .inl ⟨u, hold, rfl, stage⟩
  · cases arises with
    | advanced task advance =>
      cases advance with
      | started _ _ _ onward | returned _ onward => cases onward <;> cases stage
      | recovering fails _ _ => cases fails <;> cases stage
      | ackTaken | ackSettled => exact .inl ⟨_, (mem_of_task? task).1, rfl, stage⟩
      | _ => cases stage
    | asked task hconfirming free answer =>
      cases stage
      exact .inr ⟨_, _, task, hconfirming, answer, rfl, rfl⟩
    | delivered => cases stage

namespace Gapless

theorem step_same (hg : Gapless s h r) (hsequence : r'.committer.sequence = r.committer.sequence)
    (hlast : ∀ p, r'.committer.last = some p →
      r.committer.last = some p ∨ ∃ t ∈ r.tasks, t.stage = .storing p)
    (htasks : ∀ u ∈ r'.tasks, ∀ p, u.stage = .storing p → ∃ t ∈ r.tasks, t.stage = .storing p) :
    Gapless s (h ++ [⟨r, a, r', effects⟩]) r' := by
  have hnext : r.committer.sequence.next ≤ r'.committer.sequence.next :=
    Nat.le_of_eq (congrArg CommitSequence.next hsequence.symm)
  constructor
  case kept => exact ⟨by rw [hsequence]; exact hg.kept.placed, by rw [hsequence]; exact hg.kept.gap⟩
  case known =>
    intro p hp
    rw [hsequence] at hp
    exact mem_dispatched_mono (hg.known p hp) _
  case covered =>
    intro n hn
    rw [hsequence] at hn
    obtain ⟨hlt, hconfirmed⟩ := hg.covered n hn
    exact ⟨Nat.lt_of_lt_of_le hlt (length_dispatched_le h _), hconfirmed.mono _⟩
  case storing =>
    intro u hu p stage
    obtain ⟨t, ht, hstoring⟩ := htasks u hu p stage
    exact (hg.storing t ht p hstoring).mono hnext _
  case last =>
    intro p hp
    rcases hlast p hp with hold | ⟨t, ht, hstoring⟩
    · exact (hg.last p hold).mono hnext _
    · exact (hg.storing t ht p hstoring).mono hnext _

/-- Confirming a message that was handed out and is confirmed keeps the committer right. -/
theorem step_confirm (hg : Gapless s h r) {t : Task F} {asked : Option CommitPosition}
    {c : Committer} (answer : r.committer.confirm t.message.position = (asked, c))
    (hcommitter : r'.committer = c) (hmem : t.message.position ∈ (dispatched h).map (·.position))
    (hlt : t.sequence < (dispatched h).length) (hconfirmed : IsConfirmed s h t.sequence)
    (htasks : ∀ u ∈ r'.tasks, ∀ p, u.stage = .storing p →
      asked = some p ∨ ∃ v ∈ r.tasks, v.stage = .storing p) :
    Gapless s (h ++ [⟨r, a, r', effects⟩]) r' := by
  have confirms := Committer.confirms hg.kept answer
  subst hcommitter
  have hknown : ∀ p ∈ r'.committer.sequence.waiting, p ∈ (dispatched h).map (·.position) := by
    intro p hp
    rcases confirms.waiting p hp with rfl | hp
    · exact hmem
    · exact hg.known p hp
  have hnext := confirms.next_le
  constructor
  case kept => exact confirms.kept
  case known =>
    intro p hp
    exact mem_dispatched_mono (hknown p hp) _
  case covered =>
    intro n hn
    rcases (confirms.covers n).1 hn with hold | rfl
    · obtain ⟨hn, hconfirmed⟩ := hg.covered n hold
      exact ⟨Nat.lt_of_lt_of_le hn (length_dispatched_le h _), hconfirmed.mono _⟩
    · exact ⟨Nat.lt_of_lt_of_le hlt (length_dispatched_le h _), hconfirmed.mono _⟩
  case storing =>
    intro u hu p stage
    rcases htasks u hu p stage with rfl | ⟨v, hv, hstoring⟩
    · obtain ⟨hp, -, heq⟩ := confirms.answer
      refine ⟨mem_dispatched_mono ?_ _, by omega⟩
      rcases hp with rfl | hp
      · exact hmem
      · exact hg.known p hp
    · exact (hg.storing v hv p hstoring).mono hnext _
  case last =>
    intro p hp
    rw [confirms.last] at hp
    exact (hg.last p hp).mono hnext _

theorem step (hg : Gapless s h r) (hn : Numbered h r) (hgrounded : ∀ t ∈ r.tasks, Grounded s h t)
    (made : Transition s r a r' effects) : Gapless s (h ++ [⟨r, a, r', effects⟩]) r' := by
  have confirmed : ∀ t ∈ r.tasks, t.stage = .confirming → IsConfirmed s h t.sequence := by
    intro t ht stage
    have holds : StageHolds s h t.sequence .confirming := stage ▸ (hgrounded t ht).stage
    exact holds
  rcases made.commits_or_rests with commits | ⟨hcommitter, rests⟩
  · cases commits with
    | @confirmed t c task stage free answer =>
      have ht := (mem_of_task? task).1
      refine hg.step_confirm answer rfl (hn.position_mem ht) (hn.task_sequence_lt ht)
        (confirmed t ht stage) ?_
      exact fun u hu p hstage => .inr ⟨u, List.mem_of_mem_filter hu, hstage⟩
    | @asked t p c task stage free answer =>
      have ht := (mem_of_task? task).1
      refine hg.step_confirm answer rfl (hn.position_mem ht) (hn.task_sequence_lt ht)
        (confirmed t ht stage) ?_
      intro u hu q hstage
      rcases mem_put (t := { t with stage := .storing p }) hu with rfl | ⟨hu, -⟩
      · cases hstage
        exact .inl rfl
      · exact .inr ⟨u, hu, hstage⟩
    | @stored t p task stage =>
      refine hg.step_same rfl (fun q hq => .inr ?_) fun u hu q hstage =>
        ⟨u, List.mem_of_mem_filter hu, hstage⟩
      cases hq
      exact ⟨t, (mem_of_task? task).1, stage⟩
    | flushed => exact hg.step_same rfl (fun p hp => .inl hp) fun u hu p hstage => ⟨u, hu, hstage⟩
  · refine hg.step_same (congrArg (·.sequence) hcommitter) (fun p hp => .inl (hcommitter ▸ hp))
      fun u hu p stage => ?_
    rcases made.storing_task hu stage with ⟨t, ht, -, hold⟩ | ⟨t, c, -, -, -, rfl, -⟩
    · exact ⟨t, ht, hold⟩
    · exact (rests trivial).elim

end Gapless

theorem gapless (hist : History s h r) : Gapless s h r := by
  induction hist with
  | begin =>
    refine ⟨Committer.wellKept_empty, by simp, fun n hn => ?_, by simp, by simp⟩
    exact absurd hn (CommitSequence.not_covers_empty n)
  | step past made ih => exact ih.step (numbered past) (grounded past) (transition_of_step made)

/-! ## 4. Checkpoints -/

/-- A position comes after the one before it, as the positions of a source do. -/
def After (start : Option Nat) (p : Nat) : Prop := ∀ q ∈ start, q < p

theorem chained_after_append {start : Option Nat} {l l' : List Nat} {p : Nat}
    (chain : Chained After start (l ++ p :: l')) : (∀ q ∈ start, q < p) ∧ ∀ q ∈ l', p < q := by
  induction l generalizing start with
  | nil =>
    obtain ⟨hp, hrest⟩ := chain
    refine ⟨hp, ?_⟩
    clear hp
    induction l' generalizing p with
    | nil => simp
    | cons q rest ih =>
      obtain ⟨hpq, hrest⟩ := hrest
      have hlt : p < q := hpq p rfl
      intro x hx
      rcases List.mem_cons.1 hx with rfl | hx
      · exact hlt
      · exact Nat.lt_trans hlt (ih hrest x hx)
  | cons q rest ih =>
    obtain ⟨hq, hrest⟩ := chain
    obtain ⟨hqp, hlater⟩ := ih hrest
    exact ⟨fun x hx => Nat.lt_trans (hq x hx) (hqp q rfl), hlater⟩

/-- A checkpoint that is asked for is that of a position the committer has taken out, once the
message at hand is confirmed. -/
theorem Transition.asks_for_taken (made : Transition s r a r' effects) (hg : Gapless s h r)
    (hn : Numbered h r) (hgrounded : ∀ t ∈ r.tasks, Grounded s h t) {c : Checkpoint} {force : Bool}
    (asked : Effect.storing c force ∈ effects) :
    ∃ p, c = s.checkpoint p.position ∧ p ∈ (dispatched h).map (·.position) ∧
      ∀ n ≤ p.sequence, IsConfirmed s h n := by
  cases made with
  | advanced task advance =>
    cases advance with
    | started _ _ _ onward | returned _ onward => cases onward <;> simp at asked
    | _ => simp at asked
  | @broken t _ task reason =>
    obtain ⟨gone, lanes, -, -, -, hlost⟩ := loseWorker_spec r t
    obtain ⟨n, heq⟩ := hlost _ asked
    cases heq
  | @asked t p _ task stage free answer =>
    have ht := (mem_of_task? task).1
    have hconfirmed : StageHolds s h t.sequence .confirming := stage ▸ (hgrounded t ht).stage
    have confirms := Committer.confirms hg.kept answer
    obtain ⟨hp, -, hnext⟩ := confirms.answer
    refine ⟨p, (by simpa using asked : _ ∧ _).1, ?_, fun n hle => ?_⟩
    · rcases hp with rfl | hp
      · exact hn.position_mem ht
      · exact hg.known p hp
    · rcases (confirms.covers n).1 (.inl (by omega)) with hold | rfl
      · exact (hg.covered n hold).2
      · exact hconfirmed
  | letGo | ended | confirmed | stored | cancelled => simp at asked
  | polled polls =>
    cases polls with
    | @flushing p phase empty due =>
      obtain ⟨hmem, hlt⟩ := hg.last p (Committer.last_of_due due)
      exact ⟨p, (by simpa using asked : _ ∧ _).1, hmem,
        fun n hle => (hg.covered n (.inl (by omega))).2⟩
    | delivered phase decoded place continues => cases continues <;> simp at asked
    | _ => simp at asked

theorem history_snoc {e : Entry F} (hist : History s (h ++ [e]) r) :
    History s h e.before ∧ step s e.before e.action = some (r, e.effects) := by
  generalize hh : h ++ [e] = h' at hist
  cases hist with
  | begin => simp at hh
  | step past made =>
    obtain ⟨rfl, heq⟩ := List.append_inj' hh rfl
    cases heq
    exact ⟨past, made⟩

/-- **A checkpoint leaves only confirmed messages behind.**  When one is asked for, forced or not,
it is that of a message handed out; this message and all handed out before it are confirmed.  If the
pages of the source have their positions in order, these are all messages at or before the
checkpoint. -/
theorem checkpoint_leaves_only_confirmed_behind {e : Entry F} (hist : History s (h ++ [e]) r)
    {c : Checkpoint} {force : Bool} (asked : Effect.storing c force ∈ e.effects) :
    ∃ before m later, dispatched h = before ++ m :: later ∧ c = s.checkpoint m.position.position ∧
      (∀ m' ∈ before ++ [m], IsConfirmed s h m'.sequence) ∧
      (Reads After s h →
        ∀ m' ∈ dispatched h, m'.position.position ≤ m.position.position →
          IsConfirmed s h m'.sequence) := by
  obtain ⟨past, made⟩ := history_snoc hist
  have hn := numbered past
  obtain ⟨p, hc, hp, hconfirmed⟩ :=
    (transition_of_step made).asks_for_taken (gapless past) hn (grounded past) asked
  obtain ⟨m, hm, rfl⟩ := List.mem_map.1 hp
  obtain ⟨before, later, heq⟩ := List.append_of_mem hm
  have hnumbers := hn.numbers
  have hbefore : ∀ m' ∈ before ++ [m], m'.sequence ≤ m.sequence := by
    rw [heq, List.map_append, List.map_cons, List.range_eq_range'] at hnumbers
    have hsorted :
        ((before.map (·.sequence)) ++ m.sequence :: later.map (·.sequence)).Pairwise (· < ·) :=
      hnumbers ▸ List.pairwise_lt_range'
    intro m' hm'
    rcases List.mem_append.1 hm' with hm' | hm'
    · have hall := (List.pairwise_append.1 hsorted).2.2
      exact Nat.le_of_lt (hall _ (List.mem_map_of_mem hm') _ List.mem_cons_self)
    · exact Nat.le_of_eq (congrArg Message.sequence (List.mem_singleton.1 hm'))
  refine ⟨before, m, later, heq, hc, fun m' hm' => hconfirmed _ (hbefore m' hm'),
    fun reads m' hm' hle => ?_⟩
  have chain := (followed past reads).chained
  rw [positions, heq, List.map_append, List.map_cons] at chain
  have hlater := (chained_after_append chain).2
  rw [heq] at hm'
  rcases List.mem_append.1 hm' with hm' | hm'
  · exact hconfirmed _ (hbefore m' (List.mem_append_left _ hm'))
  · rcases List.mem_cons.1 hm' with rfl | hm'
    · exact hconfirmed _ (hbefore _ (by simp))
    · have hlt := hlater _ (List.mem_map_of_mem hm')
      omega

section Witness

open Sample

/-- Two messages are handed out, and the second one is confirmed. -/
def secondFirst : List Action :=
  [.deliver, .deliver, .start 0, .start 1, .attemptEnded 1 (.returned .success), .confirm 1,
    .attemptEnded 0 (.returned .success)]

/-- The confirmation of the first message asks for the checkpoint of the second. -/
theorem checkpoint_after_gap_is_filled :
    ∃ (h : List (Entry ticks)) (e : Entry ticks) (r : Run ticks),
      History (tickFeed none) (h ++ [e]) r ∧ Reads After (tickFeed none) h ∧
        e.effects = [.storing ((tickFeed none).checkpoint 1) false] ∧
        ∀ m ∈ dispatched h, m.position.position ≤ 1 → IsConfirmed (tickFeed none) h m.sequence := by
  have begun : replay? (tickFeed none) {} [.subscribe, .checkpointLoaded (.ok ⟨"feed", none⟩)] =
    some (_, _) := rfl
  obtain ⟨h₀, past₀, hactions₀, -⟩ := history_of_replay? begun
  have past₁ := past₀.step (a := .pageRead (.ok [tick 0, tick 1])) rfl
  obtain ⟨h₂, past₂, hactions₂, -⟩ :=
    history_append_replay? past₁ (show replay? (tickFeed none) _ secondFirst = some (_, _) from rfl)
  have hist := past₂.step (a := .confirm 0) rfl
  have hquiet : ∀ (l : List (Entry ticks)) (actions : List Action), l.map (·.action) = actions →
      (∀ page, .pageRead (.ok page) ∉ actions) → Reads After (tickFeed none) l := by
    rintro l _ rfl hnone e he cursor page - haction
    exact absurd (haction ▸ List.mem_map_of_mem he) (hnone page)
  obtain ⟨-, m, -, -, hc, -, hconfirmed⟩ :=
    checkpoint_leaves_only_confirmed_behind hist (List.mem_singleton_self _)
  have hposition : m.position.position = 1 := Option.some.inj (congrArg Checkpoint.position hc).symm
  rw [hposition] at hconfirmed
  refine ⟨_, _, _, hist, ?reads, rfl, hconfirmed ?reads⟩
  intro e he
  rcases List.mem_append.1 he with he | he
  · rcases List.mem_append.1 he with he | he
    · exact hquiet h₀ _ hactions₀ (by simp) e he
    · rw [List.mem_singleton.1 he]
      intro cursor page phase action
      cases phase
      cases action
      exact ⟨by simp [After], by simp [After, tickFeed, tick], trivial⟩
  · exact hquiet h₂ _ hactions₂ (by simp [secondFirst]) e he

end Witness

end Run
end EventSourcing

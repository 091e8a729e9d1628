/-
# Resuming never skips

The runs of a subscription know of each other through the stored position only.  It is that of a
message up to which everything was confirmed, in the run that stored it or in one before; so it
never goes back, and the next run goes on from there, whether the run before ended well or the
process broke off at any point.  A run that ended well with everything confirmed has left the
position of its last message, and the next run begins with the message behind it.

What the file settles:

* `Lifetime.Consistent`: everything up to the stored position was confirmed in some run;
* `Lifetime.Linked`: what a run that ended well leaves is what the next one begins with;
* `Lifetime.resuming_never_skips`: the stored position, what is behind it, and clean restarts.
-/
import EventSourcing.Proofs.Lifetime
import EventSourcing.Sample.Ticks

namespace EventSourcing

open MemoryStore Run

variable {F : PayloadFamily}

namespace Lifetime

variable {id : String} {l l' : Lifetime F}

/-! ## 1. What has been confirmed -/

/-- The event at the position was confirmed in some run. -/
def Covered (l : Lifetime F) (position : Nat) : Prop :=
  ∃ e ∈ l.runs, ∃ m ∈ dispatched e.history, m.position.position = position ∧
    IsConfirmed e.subscription e.history m.sequence

/-- Everything up to the stored position was confirmed in some run. -/
structure Consistent (id : String) (l : Lifetime F) : Prop where
  numbered : l.store.Numbered
  sound : ∀ e ∈ l.runs, e.Sound id l.store
  stands : ∀ e, l.current = some e → Stands (l.position? id) l.taken e
  covered : ∀ p, l.position? id = some p → ∀ q ≤ p, l.Covered q
  origin : ∀ e, l.current = some e → ∀ o, origin e.history = some o → ∀ q ≤ o, l.Covered q

theorem runs_of_idle (idle : l.current = none) : l.runs = l.past := by
  rw [runs, idle]
  exact List.append_nil _

theorem runs_of_current {e : Episode F} (on : l.current = some e) : l.runs = l.past ++ [e] := by
  rw [runs, on]
  rfl

theorem mem_runs_of_current {e : Episode F} (on : l.current = some e) : e ∈ l.runs := by
  rw [runs_of_current on]
  exact List.mem_append_right _ (List.mem_singleton_self e)

theorem position?_start (sizes : List Nat) : (start sizes : Lifetime F).position? id = none := by
  rw [position?, start, LayeredCheckpoints.physical_ofSizes]
  rfl

theorem consistent_start (sizes : List Nat) : Consistent id (start sizes : Lifetime F) := by
  refine ⟨numbered_empty, fun e he => ?_, fun e on => ?_, fun p hp => ?_, fun e on => ?_⟩
  · cases he
  · cases on
  · rw [position?_start] at hp
    cases hp
  · cases on

/-- What has been confirmed stays confirmed while the runs go on. -/
theorem Covered.mono {q : Nat} (covered : l.Covered q)
    (goes : ∀ e ∈ l.runs, ∃ e' ∈ l'.runs, e'.subscription = e.subscription ∧
      ∃ more, e'.history = e.history ++ more) : l'.Covered q := by
  obtain ⟨e, he, m, hm, hposition, hconfirmed⟩ := covered
  obtain ⟨e', he', hsame, more, hmore⟩ := goes e he
  refine ⟨e', he', m, ?_, hposition, ?_⟩
  · rw [hmore, dispatched_append]
    exact List.mem_append_left _ hm
  · rw [hmore, hsame]
    exact hconfirmed.mono more

/-- Everything up to what a run asks for is confirmed, in this run or before it. -/
theorem Consistent.covered_of_asks (h : Consistent id l) {e : Episode F} (on : l.current = some e)
    {c : Checkpoint} {force : Bool} (asks : Asks e.subscription e.run c force) {p q : Nat}
    (hp : c.position = some p) (hq : q ≤ p) : l.Covered q := by
  have he := mem_runs_of_current on
  have sound := h.sound e he
  obtain ⟨last, rfl, hlast, hnext, -⟩ := asks.last sound.hist sound.served
  cases hp
  rw [sound.position_eq hlast] at hq
  by_cases hbefore : q < nextOf (Run.origin e.history)
  · -- It is behind the checkpoint the run began with.
    cases ho : Run.origin e.history with
    | none =>
      rw [ho] at hbefore
      exact (Nat.not_lt_zero _ hbefore).elim
    | some o =>
      rw [ho] at hbefore
      exact h.origin e on o ho q (Nat.le_of_lt_succ hbefore)
  · -- It is that of a message of this run.
    obtain ⟨n, rfl⟩ := Nat.exists_eq_add_of_le (Nat.le_of_not_lt hbefore)
    have hlt : n < e.run.committer.sequence.next := by omega
    obtain ⟨hknown, hconfirmed⟩ := (gapless sound.hist).covered n (.inl hlt)
    obtain ⟨m, hm, rfl⟩ := (Run.numbered sound.hist).exists_of_lt hknown
    exact ⟨e, he, m, hm, sound.position_eq (List.mem_map_of_mem hm), hconfirmed⟩

/-! ## 2. Every step -/

theorem position?_save (l : Lifetime F) (id : String) (c : Checkpoint) (force : Bool) :
    ({ l with checkpoints := (LayeredCheckpoints.save c force l.checkpoints).2 } :
        Lifetime F).position? id = l.position? id ∨ id = c.subscription ∧
        ({ l with checkpoints := (LayeredCheckpoints.save c force l.checkpoints).2 } :
            Lifetime F).position? id = c.position := by
  unfold position?
  rcases LayeredCheckpoints.physical_save l.checkpoints c force with heq | heq
  · exact .inl (by rw [heq])
  · by_cases hid : id = c.subscription
    · refine .inr ⟨hid, ?_⟩
      rw [heq, MemoryCheckpoints.position?_write, if_pos hid]
    · refine .inl ?_
      rw [heq, MemoryCheckpoints.position?_write, if_neg hid]

/-- A forced checkpoint is stored. -/
theorem position?_force (l : Lifetime F) (c : Checkpoint) :
    ({ l with checkpoints := (LayeredCheckpoints.save c true l.checkpoints).2 } :
        Lifetime F).position? c.subscription = c.position := by
  unfold position?
  rw [LayeredCheckpoints.physical_force, MemoryCheckpoints.position?_write, if_pos rfl]

/-- The stored position stays, or a run has asked for the new one. -/
theorem Step.position? (step : Step id l l') : l'.position? id = l.position? id ∨
    ∃ e c force, l.current = some e ∧ Asks e.subscription e.run c force ∧
      l'.position? id = c.position := by
  cases step with
  | elsewhere c force other =>
    rcases position?_save l id c force with heq | ⟨hid, -⟩
    · exact .inl heq
    · exact (other hid.symm).elim
  | took on asks once =>
    rename_i e c force
    rcases position?_save l id c force with heq | ⟨-, heq⟩
    · exact .inl heq
    · exact .inr ⟨e, c, force, on, asks, heq⟩
  | crashed checkpoints kept => exact .inl (congrArg (MemoryCheckpoints.position? · id) kept)
  | stored | begun | acted | ended => exact .inl rfl

/-- What a step makes of the runs: they stay as they are, one begins, or the one that is on goes
on. -/
inductive Moves (id : String) (l l' : Lifetime F) : Prop where
  | rest (same : l'.runs = l.runs)
  | begin (s : Subscription F) (own : s.options.id = id) (all : s.position = (·.globalPosition))
    (added : l'.runs = l.runs ++ [.new s])
  | goOn {e : Episode F} {a : Run.Action} {r : Run F} {effects : List (Effect F)}
    (on : l.current = some e) (made : Run.step e.subscription e.run a = some (r, effects))
    (answers : l.Answers e a) (last : l'.runs = l.past ++ [e.after a r effects])

theorem Step.moves (step : Step id l l') : Moves id l l' := by
  cases step with
  | stored | elsewhere | took => exact .rest rfl
  | begun s own all idle =>
    refine .begin s own all ?_
    rw [runs_of_idle idle]
    rfl
  | acted on made answers => exact .goOn on made answers rfl
  | ended on finished =>
    refine .rest ?_
    rw [runs_of_current on]
    exact runs_of_idle rfl
  | crashed checkpoints kept => exact .rest (runs_of_idle rfl)

theorem Step.goes (step : Step id l l') :
    ∀ e ∈ l.runs, ∃ e' ∈ l'.runs, e'.subscription = e.subscription ∧
      ∃ more, e'.history = e.history ++ more := by
  intro e he
  have stays : e ∈ l'.runs → ∃ e' ∈ l'.runs, e'.subscription = e.subscription ∧
      ∃ more, e'.history = e.history ++ more :=
        fun mem => ⟨e, mem, rfl, [], (List.append_nil _).symm⟩
  cases step.moves with
  | rest same => exact stays (same ▸ he)
  | begin s own all added => exact stays (added ▸ List.mem_append_left _ he)
  | @goOn e₁ a r effects on made answers last =>
    rw [runs_of_current on] at he
    rcases List.mem_append.1 he with he | he
    · exact stays (last ▸ List.mem_append_left _ he)
    · cases List.mem_singleton.1 he
      refine ⟨e.after a r effects, ?_, rfl, _, rfl⟩
      rw [last]
      exact List.mem_append_right _ (List.mem_singleton_self _)

theorem Step.grown (step : Step id l l') : Grown l.store l'.store := by
  cases step with
  | stored does => exact does.grown
  | elsewhere | begun | acted | took | ended | crashed => exact Grown.refl _

theorem Step.numbered (step : Step id l l') (hn : l.store.Numbered) : l'.store.Numbered := by
  cases step with
  | stored does => exact does.numbered hn
  | elsewhere | begun | acted | took | ended | crashed => exact hn

theorem Step.sound (step : Step id l l') (hn : l.store.Numbered)
    (sound : ∀ e ∈ l.runs, e.Sound id l.store) : ∀ e ∈ l'.runs, e.Sound id l'.store := by
  intro e' he'
  have grown := step.grown
  cases step.moves with
  | rest same => exact (sound e' (same ▸ he')).mono grown
  | begin s own all added =>
    rw [added] at he'
    rcases List.mem_append.1 he' with he' | he'
    · exact (sound e' he').mono grown
    · cases List.mem_singleton.1 he'
      exact Episode.sound_new own all l'.store
  | goOn on made answers last =>
    rw [last] at he'
    rcases List.mem_append.1 he' with he' | he'
    · have he := runs_of_current on ▸ List.mem_append_left _ he'
      exact (sound e' he).mono grown
    · cases List.mem_singleton.1 he'
      exact ((sound _ (mem_runs_of_current on)).after hn made answers).mono grown

/-- What a run is answered when it loads its checkpoint. -/
theorem loaded_of_answers {e : Episode F} {a : Run.Action} (own : e.subscription.options.id = id)
    (answers : l.Answers e a) :
    ∀ reply, a = .checkpointLoaded reply → ∃ c, reply = .ok c ∧ c.position = l.position? id := by
  rintro reply rfl
  obtain ⟨c, hload, hreply⟩ := answers
  rw [LayeredCheckpoints.load_eq, own] at hload
  cases hload
  exact ⟨_, hreply, rfl⟩

theorem answered_of_answers {e : Episode F} {a : Run.Action} (answers : l.Answers e a) :
    ∀ reply, a = .flushed reply → reply = .ok () ∧ l.taken = true := by
  rintro reply rfl
  exact answers

theorem Step.stands (step : Step id l l') (sound : ∀ e ∈ l.runs, e.Sound id l.store)
    (stands : ∀ e, l.current = some e → Stands (l.position? id) l.taken e) :
    ∀ e, l'.current = some e → Stands (l'.position? id) l'.taken e := by
  intro e' on'
  cases step with
  | stored does => exact stands e' on'
  | elsewhere c force other =>
    rcases position?_save l id c force with heq | ⟨hid, -⟩
    · rw [heq]
      exact stands e' on'
    · exact (other hid.symm).elim
  | begun s own all idle =>
    cases on'
    exact stands_new s _
  | acted on made answers =>
    cases on'
    have he := sound _ (mem_runs_of_current on)
    exact (stands _ on).after he made (loaded_of_answers he.own answers)
      (answered_of_answers answers)
  | took on asks once =>
    rename_i e c force
    cases on.symm.trans on'
    have he := sound e' (mem_runs_of_current on)
    obtain ⟨p, rfl, -⟩ := asks.last he.hist he.served
    have hstands := stands e' on
    rw [once] at hstands
    refine hstands.take he asks ?_ ?_
    · exact (position?_save l id _ force).imp_right fun h => h.2
    · rintro rfl
      rw [← he.own]
      exact position?_force l (e'.subscription.checkpoint p.position)
  | ended | crashed => cases on'

theorem Step.origin (step : Step id l l') (h : Consistent id l) : ∀ e, l'.current = some e →
    ∀ o, Run.origin e.history = some o → ∀ q ≤ o, l.Covered q := by
  intro e' on' o ho q hq
  cases step with
  | stored | elsewhere | took => exact h.origin e' on' o ho q hq
  | begun s own all idle =>
    cases on'
    cases ho
  | @acted e a r effects on made answers =>
    cases on'
    have he := h.sound e (mem_runs_of_current on)
    by_cases early : e.run.phase.IsEarly
    · by_cases late : r.phase.IsEarly
      · have he' := he.after h.numbered made answers
        rw [((Run.followed he'.hist he'.reads).early late).1] at ho
        cases ho
      · have hstored := origin_of_began he made (loaded_of_answers he.own answers) early late
        exact h.covered o (hstored.trans ho) q hq
    · rw [Episode.after, origin_stays (transition_of_step made) early] at ho
      exact h.origin e on o ho q hq
  | ended | crashed => cases on'

theorem Consistent.step (h : Consistent id l) (step : Step id l l') : Consistent id l' := by
  constructor
  case numbered => exact step.numbered h.numbered
  case sound => exact step.sound h.numbered h.sound
  case stands => exact step.stands h.sound h.stands
  case covered =>
    intro p hp q hq
    rcases step.position? with heq | ⟨e, c, force, on, asks, heq⟩
    · exact (h.covered p (heq.symm.trans hp) q hq).mono step.goes
    · exact (h.covered_of_asks on asks (heq.symm.trans hp) hq).mono step.goes
  case origin =>
    intro e on o ho q hq
    exact (step.origin h e on o ho q hq).mono step.goes

/-! ## 3. From run to run -/

/-- What is stored after these runs is where the last of them ended, if it ended well; before the
first run nothing is. -/
def Leaves (past : List (Episode F)) (stored : Option Nat) : Prop :=
  match past.getLast? with
  | none => stored = none
  | some e => e.Clean → stored = e.last

/-- No run is reading yet. -/
def Waits (l : Lifetime F) : Prop := ∀ e, l.current = some e → e.run.phase.IsEarly

/-- Every run began with what the runs before it had left. -/
structure Linked (id : String) (l : Lifetime F) : Prop where
  next : ∀ before e after, l.runs = before ++ e :: after → ¬e.run.phase.IsEarly →
    Leaves before (Run.origin e.history)
  left : l.Waits → Leaves l.past (l.position? id)

theorem leaves_append_singleton {past : List (Episode F)} {e : Episode F} {stored : Option Nat} :
    Leaves (past ++ [e]) stored ↔ (e.Clean → stored = e.last) := by
  rw [Leaves, List.getLast?_append, List.getLast?_singleton]
  rfl

theorem early_of_step {s : Subscription F} {r r' : Run F} {a : Run.Action}
    {effects : List (Effect F)} (made : Transition s r a r' effects) (early : r'.phase.IsEarly) :
    r.phase.IsEarly := by
  cases made.draws with
  | begun _ late => exact (late early).elim
  | arrived phase quiet phase' =>
    rw [phase'] at early
    exact early.elim
  | handed phase decoded hands next left late => exact (late early).elim
  | nothing quiet unloaded cursor page stays => exact stays early

theorem linked_start (sizes : List Nat) : Linked id (start sizes : Lifetime F) := by
  refine ⟨fun before e after hruns => ?_, fun _ => ?_⟩
  · have hmem : e ∈ (start sizes : Lifetime F).runs :=
      hruns ▸ List.mem_append_right _ List.mem_cons_self
    cases hmem
  · exact position?_start sizes

/-- A run among others and one behind them is the last one, or it is among the others. -/
theorem append_singleton_eq {past before after : List (Episode F)} {last e : Episode F}
    (h : past ++ [last] = before ++ e :: after) :
    (after = [] ∧ before = past ∧ e = last) ∨
      ∃ after', after = after' ++ [last] ∧ past = before ++ e :: after' := by
  rcases List.eq_nil_or_concat after with rfl | ⟨after', x, rfl⟩
  · obtain ⟨hbefore, he⟩ := List.append_inj' h rfl
    exact .inl ⟨rfl, hbefore.symm, (List.cons.inj he).1.symm⟩
  · rw [List.concat_eq_append, ← List.cons_append, ← List.append_assoc] at h
    obtain ⟨hpast, hlast⟩ := List.append_inj' h rfl
    cases hlast
    exact .inr ⟨after', List.concat_eq_append, hpast⟩

theorem Step.next (step : Step id l l') (h : Consistent id l) (linked : Linked id l)
    {before after : List (Episode F)} {e : Episode F} (hruns : l'.runs = before ++ e :: after)
    (late : ¬e.run.phase.IsEarly) : Leaves before (Run.origin e.history) := by
  cases step.moves with
  | rest same => exact linked.next before e after (same.symm.trans hruns) late
  | begin s own all added =>
    rcases append_singleton_eq (added.symm.trans hruns) with ⟨-, -, rfl⟩ | ⟨after', -, hpast⟩
    · exact (late trivial).elim
    · exact linked.next before e after' hpast late
  | @goOn e₁ a r effects on made answers last =>
    have hruns₁ := runs_of_current on
    rcases append_singleton_eq (last.symm.trans hruns) with ⟨-, rfl, rfl⟩ | ⟨after', -, hpast⟩
    · have he := h.sound e₁ (mem_runs_of_current on)
      by_cases early : e₁.run.phase.IsEarly
      · -- It begins with what is stored.
        rw [← origin_of_began he made (loaded_of_answers he.own answers) early late]
        refine linked.left fun e on' => ?_
        cases on.symm.trans on'
        exact early
      · rw [Episode.after, origin_stays (transition_of_step made) early]
        exact linked.next _ e₁ [] hruns₁ early
    · refine linked.next before e (after' ++ [e₁]) ?_ late
      rw [hruns₁, hpast]
      exact List.append_assoc _ _ _

theorem Step.left (step : Step id l l') (h : Consistent id l) (linked : Linked id l)
    (waits : l'.Waits) : Leaves l'.past (l'.position? id) := by
  cases step with
  | stored => exact linked.left waits
  | elsewhere c force other =>
    rcases position?_save l id c force with heq | ⟨hid, -⟩
    · rw [heq]
      exact linked.left waits
    · exact (other hid.symm).elim
  | begun s own all idle =>
    refine linked.left fun e on => ?_
    cases idle.symm.trans on
  | acted on made answers =>
    refine linked.left fun e on' => ?_
    cases on.symm.trans on'
    exact early_of_step (transition_of_step made) (waits _ rfl)
  | took on asks once =>
    exact (late_of_asks (h.sound _ (mem_runs_of_current on)) asks (waits _ on)).elim
  | ended on finished =>
    exact leaves_append_singleton.2
      ((h.stands _ on).last_of_clean (h.sound _ (mem_runs_of_current on)))
  | crashed checkpoints kept =>
    have hposition : checkpoints.physical.position? id = l.position? id :=
      congrArg (MemoryCheckpoints.position? · id) kept
    show Leaves l.runs (checkpoints.physical.position? id)
    rw [hposition]
    cases hcurrent : l.current with
    | none =>
      rw [runs_of_idle hcurrent]
      refine linked.left fun e on => ?_
      cases hcurrent.symm.trans on
    | some e =>
      rw [runs_of_current hcurrent]
      exact leaves_append_singleton.2
        ((h.stands e hcurrent).last_of_clean (h.sound e (mem_runs_of_current hcurrent)))

theorem Leads.kept (leads : Leads id l l') (h : Consistent id l) (linked : Linked id l) :
    Consistent id l' ∧ Linked id l' := by
  induction leads with
  | none => exact ⟨h, linked⟩
  | step before step ih =>
    obtain ⟨h, linked⟩ := ih
    exact ⟨h.step step, fun _ _ _ hruns late => step.next h linked hruns late, step.left h linked⟩

/-- **Clean restarts.**  Runs that ended well and the one after them hand out every event once, in
order; and the first run of all begins with the first event. -/
theorem Linked.in_a_row (linked : Linked id l) (h : Consistent id l)
    {clean before after : List (Episode F)} {e : Episode F}
    (hruns : l.runs = before ++ clean ++ e :: after) (hclean : ∀ c ∈ clean, c.Clean) :
    ∃ first rest, clean ++ [e] = first :: rest ∧ (clean ++ [e]).flatMap (positions ·.history) =
      List.range' (nextOf (Run.origin first.history))
        ((clean ++ [e]).flatMap (positions ·.history)).length := by
  induction clean generalizing before with
  | nil =>
    have he : e ∈ l.runs := hruns ▸ List.mem_append_right _ List.mem_cons_self
    refine ⟨e, [], rfl, ?_⟩
    rw [List.nil_append, List.flatMap_singleton]
    exact (h.sound e he).positions_eq
  | cons c clean ih =>
    have hruns' : l.runs = (before ++ [c]) ++ clean ++ e :: after := by
      rw [hruns, List.append_assoc before [c], List.singleton_append]
    obtain ⟨first, rest, hfirst, hrow⟩ := ih hruns' fun c hc => hclean c (List.mem_cons_of_mem _ hc)
    have hc :=
      h.sound c (hruns ▸ List.mem_append_left _ (List.mem_append_right _ List.mem_cons_self))
    refine ⟨c, clean ++ [e], rfl, ?_⟩
    rw [List.cons_append, List.flatMap_cons, List.length_append, ← List.range'_append_1,
      ← hc.positions_eq]
    congr 1
    by_cases late : first.run.phase.IsEarly
    · -- The last run has handed nothing out yet.
      have hnone : (clean ++ [e]).flatMap (positions ·.history) = [] := by
        cases clean with
        | nil =>
          cases hfirst
          have he := h.sound e (hruns ▸ List.mem_append_right _ List.mem_cons_self)
          rw [List.nil_append, List.flatMap_singleton, positions, (Run.numbered he.hist).early late]
          rfl
        | cons c' clean =>
          cases hfirst
          rw [(hclean first (List.mem_cons_of_mem _ List.mem_cons_self)).1] at late
          exact late.elim
      rw [hnone]
      rfl
    · have hleft := linked.next (before ++ [c]) first (rest ++ after) ?_ late
      · rw [leaves_append_singleton] at hleft
        rw [← hc.nextOf_last, ← hleft (hclean c List.mem_cons_self)]
        exact hrow
      · rw [hruns', ← List.cons_append, ← hfirst]
        simp [List.append_assoc]

/-! ## 4. The whole history -/

theorem Step.le (step : Step id l l') (h : Consistent id l) {p : Nat}
    (hp : l.position? id = some p) : ∃ q, l'.position? id = some q ∧ p ≤ q := by
  rcases step.position? with heq | ⟨e, c, force, on, asks, heq⟩
  · exact ⟨p, heq.trans hp, Nat.le_refl p⟩
  · obtain ⟨q, hq, hle⟩ := (h.stands e on).le_of_asks (h.sound e (mem_runs_of_current on)) asks hp
    exact ⟨q, heq.trans hq, hle⟩

theorem Leads.le (leads : Leads id l l') (h : Consistent id l) (linked : Linked id l) {p : Nat}
    (hp : l.position? id = some p) : ∃ q, l'.position? id = some q ∧ p ≤ q := by
  induction leads with
  | none => exact ⟨p, hp, Nat.le_refl p⟩
  | step before step ih =>
    obtain ⟨q, hq, hle⟩ := ih
    obtain ⟨q', hq', hle'⟩ := step.le (before.kept h linked).1 hq
    exact ⟨q', hq', Nat.le_trans hle hle'⟩

/-- The event at a position that is covered was handed out as a message and confirmed. -/
theorem Covered.event (h : Consistent id l) {event : StoredEvent}
    (hevent : event ∈ l.store.log.toList) (covered : l.Covered event.globalPosition) :
    ∃ e ∈ l.runs, ∃ m ∈ dispatched e.history,
      e.subscription.decode event m.sequence = .ok m ∧
      IsConfirmed e.subscription e.history m.sequence := by
  obtain ⟨e, he, m, hm, hposition, hconfirmed⟩ := covered
  have sound := h.sound e he
  obtain ⟨event', hgiven, decoded⟩ := (sourced sound.hist).messages m hm
  have hplace := position_of_decode decoded
  rw [sound.all, hposition] at hplace
  -- Positions tell the events of the log apart.
  have hnodup : (l.store.log.toList.map (·.globalPosition)).Nodup := by
    rw [h.numbered.global]
    exact List.nodup_range
  cases List.inj_on_of_nodup_map hnodup hevent (sound.given event' hgiven) hplace
  exact ⟨e, he, m, hm, decoded, hconfirmed⟩

/-- The first message of a run comes directly behind the last one of a run that ended well before
it. -/
theorem Linked.first_after (linked : Linked id l) (h : Consistent id l)
    {before after : List (Episode F)} {e e' : Episode F}
    (hruns : l.runs = before ++ e :: e' :: after) (clean : e.Clean)
    {last first : Nat} (hlast : (positions e.history).getLast? = some last)
    (hfirst : (positions e'.history).head? = some first) : first = last + 1 := by
  have hsound :=
    h.sound e' (hruns ▸ List.mem_append_right _ (List.mem_cons_of_mem _ List.mem_cons_self))
  have late : ¬e'.run.phase.IsEarly := by
    intro early
    rw [positions, (Run.numbered hsound.hist).early early] at hfirst
    cases hfirst
  have hleft := linked.next (before ++ [e]) e' after
    (by rw [hruns, List.append_assoc, List.singleton_append]) late
  have horigin := leaves_append_singleton.1 hleft clean
  obtain ⟨front, hfront⟩ := List.getLast?_eq_some_iff.1 hlast
  rw [Episode.last, hfront, lastOf_append_singleton] at horigin
  have hrow := hsound.positions_eq
  rw [horigin] at hrow
  cases hpositions : positions e'.history with
  | nil =>
    rw [hpositions] at hfirst
    cases hfirst
  | cons p rest =>
    rw [hpositions] at hfirst hrow
    cases hfirst
    rw [List.length_cons, List.range'_succ] at hrow
    exact (List.cons.inj hrow).1

/-- **Resuming never skips.**  In every lifetime of a subscription, whatever its runs end with and
wherever the process breaks off: the stored position never goes back; every event up to it was
confirmed in some run; and the first message after a run that ended well, with everything confirmed,
is the one directly behind its last, so that clean restarts hand out every event once and in
order. -/
theorem resuming_never_skips (reachable : Reachable id l) (later : Leads id l l') :
    (∀ p, l.position? id = some p → ∃ q, l'.position? id = some q ∧ p ≤ q) ∧
    (∀ p, l'.position? id = some p → ∀ event ∈ l'.store.log.toList, event.globalPosition ≤ p →
      ∃ e ∈ l'.runs, ∃ m ∈ dispatched e.history, e.subscription.decode event m.sequence = .ok m ∧
        IsConfirmed e.subscription e.history m.sequence) ∧
    (∀ before e e' after, l'.runs = before ++ e :: e' :: after → e.Clean →
      ∀ last first, (positions e.history).getLast? = some last →
        (positions e'.history).head? = some first →
        first = last + 1) ∧
    (∀ before clean e after, l'.runs = before ++ clean ++ e :: after → (∀ c ∈ clean, c.Clean) →
      ∃ start, (before = [] → start = 0) ∧ (clean ++ [e]).flatMap (positions ·.history) =
        List.range' start ((clean ++ [e]).flatMap (positions ·.history)).length) := by
  obtain ⟨sizes, leads⟩ := reachable
  obtain ⟨h, linked⟩ := leads.kept (consistent_start sizes) (linked_start sizes)
  obtain ⟨h', linked'⟩ := later.kept h linked
  refine ⟨fun p hp => later.le h linked hp, fun p hp event hevent hle => ?_, ?_, ?_⟩
  · exact (h'.covered p hp _ hle).event h' hevent
  · intro before e e' after hruns clean last first hlast hfirst
    exact linked'.first_after h' hruns clean hlast hfirst
  · intro before clean e after hruns hclean
    obtain ⟨first, rest, hfirst, hrow⟩ := linked'.in_a_row h' hruns hclean
    refine ⟨_, fun hbefore => ?_, hrow⟩
    subst hbefore
    have hruns' : l'.runs = [] ++ first :: (rest ++ after) := by
      rw [hruns, List.nil_append, List.nil_append, ← List.cons_append, ← hfirst]
      simp [List.append_assoc]
    have hsound := h'.sound first (hruns' ▸ List.mem_append_right _ List.mem_cons_self)
    have hnone : Run.origin first.history = none := by
      by_cases early : first.run.phase.IsEarly
      · exact ((Run.followed hsound.hist hsound.reads).early early).1
      · exact linked'.next [] first (rest ++ after) hruns' early
    rw [hnone]
    rfl

/-! ## 5. Two runs -/

section Witness

open Sample

/-- The action waits for no answer of a store. -/
def Unasked : Run.Action → Prop
  | .checkpointLoaded _ | .pageRead _ | .stored _ _ | .flushed _ => False
  | _ => True

/-- Steps of a run that wait for no answer can be made one after the other. -/
theorem Leads.play {l₀ : Lifetime F} {store : MemoryStore}
    {checkpoints : LayeredCheckpoints MemoryCheckpoints} {past : List (Episode F)}
    {s : Subscription F} {taken : Bool} {actions : List Run.Action}
    (unasked : ∀ a ∈ actions, Unasked a)
    {h : List (Entry F)} {r r' : Run F} {effects : List (Effect F)}
    (leads : Leads id l₀ ⟨store, checkpoints, past, some ⟨s, h, r⟩, taken⟩)
    (replayed : replay? s r actions = some (r', effects)) :
    ∃ h', Leads id l₀ ⟨store, checkpoints, past, some ⟨s, h ++ h', r'⟩, taken⟩ ∧
      trace h' = effects := by
  induction actions generalizing h r effects with
  | nil =>
    cases replayed
    exact ⟨[], by simpa using leads, rfl⟩
  | cons a rest ih =>
    simp only [replay?] at replayed
    split at replayed
    · cases replayed
    · rename_i r₁ effects₁ made
      obtain ⟨⟨r₂, effects₂⟩, hrest, heq⟩ := Option.map_eq_some_iff.1 replayed
      cases heq
      have hunasked := unasked a List.mem_cons_self
      have hstep : Step id ⟨store, checkpoints, past, some ⟨s, h, r⟩, taken⟩
          ⟨store, checkpoints, past, some (Episode.after ⟨s, h, r⟩ a r₁ effects₁),
            takenAfter taken a⟩ :=
        .acted rfl made (by cases a <;> first | exact hunasked.elim | trivial)
      have htaken : takenAfter taken a = taken := by
        cases a <;> first | exact hunasked.elim | rfl
      rw [htaken] at hstep
      obtain ⟨h', hleads, htrace⟩ :=
        ih (fun b hb => unasked b (List.mem_cons_of_mem a hb)) (leads.step hstep) hrest
      refine ⟨⟨r, a, r₁, effects₁⟩ :: h', ?_, ?_⟩
      · simpa [Episode.after] using hleads
      · rw [← htrace]
        rfl

/-- The store with these many ticks. -/
def ticking : Nat → MemoryStore
  | 0 => {}
  | n + 1 =>
    (MemoryStore.append ⟨"clock"⟩ .any [⟨.ofNat n, "tick", jsonContentType, [], .ofList []⟩]
      { ticking n with clock := ⟨n⟩ }).2

/-- One tick is handed out and confirmed; its checkpoint is held back, and stored by force at the
end. -/
theorem first_tick_run :
    ∃ (checkpoints : LayeredCheckpoints MemoryCheckpoints) (h : List (Entry ticks)) (r : Run ticks),
      Leads "feed" (start [2]) ⟨ticking 1, checkpoints, [⟨tickFeed none, h, r⟩], none, false⟩ ∧
      r.phase = .finished (.ok ()) ∧ checkpoints.physical.position? "feed" = some 0 ∧
      positions h = [0] := by
  have stored : Leads "feed" (start [2] : Lifetime ticks)
      ⟨ticking 1, .ofSizes {} [2], [], none, false⟩ :=
    (Leads.none.step (.stored (.tick _ ⟨0⟩))).step (.stored (.append _ ⟨"clock"⟩ .any _))
  have begun := stored.step (.begun (tickFeed none) rfl rfl rfl)
  obtain ⟨h₁, subscribed, htrace₁⟩ := begun.play (by simp [Unasked])
    (show replay? (tickFeed none) {} [.subscribe] = some (_, _) from rfl)
  have loaded :=
    subscribed.step (.acted (a := .checkpointLoaded (.ok ⟨"feed", none⟩)) rfl rfl ⟨_, rfl, rfl⟩)
  have read := loaded.step
    (.acted (a := .pageRead (.ok [tick 0])) rfl rfl ⟨_, ticking 1, rfl, Grown.refl _, rfl⟩)
  obtain ⟨h₂, asked, htrace₂⟩ := read.play (by simp [Unasked])
    (show replay? (tickFeed none) _
      [.deliver, .start 0, .attemptEnded 0 (.returned .success), .confirm 0] = some (_, _) from rfl)
  -- The batch holds the checkpoint back.
  have held := asked.step (.took rfl (.storing (List.mem_singleton_self _) rfl) rfl)
  have settled := held.step (.acted (a := .stored 0 (.ok ())) rfl rfl ⟨rfl, rfl⟩)
  obtain ⟨h₃, flushing, htrace₃⟩ := settled.play (by simp [Unasked])
    (show replay? (tickFeed none) _ [.cancel, .interrupt, .halt, .flush] = some (_, _) from rfl)
  have flushed := flushing.step (.took rfl (.flushing rfl) rfl)
  have finished := flushed.step (.acted (a := .flushed (.ok ())) rfl rfl ⟨rfl, rfl⟩)
  refine ⟨_, _, _, finished.step (.ended rfl rfl), rfl, ?_, ?_⟩
  · rw [LayeredCheckpoints.physical_force, MemoryCheckpoints.position?_write]
    rfl
  · simp only [positions, dispatched, Episode.after, trace_append, htrace₁, htrace₂, htrace₃]
    rfl

/-- The next run hands out the second tick. -/
theorem second_tick_run {checkpoints : LayeredCheckpoints MemoryCheckpoints} {e : Episode ticks}
    (hstored : checkpoints.physical.position? "feed" = some 0) :
    ∃ (h : List (Entry ticks)) (r : Run ticks),
      Leads "feed" ⟨ticking 1, checkpoints, [e], none, false⟩
        ⟨ticking 2, checkpoints, [e], some ⟨tickFeed none, h, r⟩, false⟩ ∧ positions h = [1] := by
  have hload : (LayeredCheckpoints.load "feed" checkpoints).1 = .ok ⟨"feed", some 0⟩ := by
    rw [LayeredCheckpoints.load_eq, hstored]
  have stored : Leads "feed" ⟨ticking 1, checkpoints, [e], none, false⟩
      ⟨ticking 2, checkpoints, [e], none, false⟩ :=
    (Leads.none.step (.stored (.tick _ ⟨1⟩))).step (.stored (.append _ ⟨"clock"⟩ .any _))
  have begun := stored.step (.begun (tickFeed none) rfl rfl rfl)
  obtain ⟨h₁, subscribed, htrace₁⟩ := begun.play (by simp [Unasked])
    (show replay? (tickFeed none) {} [.subscribe] = some (_, _) from rfl)
  have loaded :=
    subscribed.step (.acted (a := .checkpointLoaded (.ok ⟨"feed", some 0⟩)) rfl rfl ⟨_, hload, rfl⟩)
  have read := loaded.step
    (.acted (a := .pageRead (.ok [tick 1])) rfl rfl ⟨_, ticking 2, rfl, Grown.refl _, rfl⟩)
  obtain ⟨h₂, delivered, htrace₂⟩ := read.play (by simp [Unasked])
    (show replay? (tickFeed none) _ [.deliver] = some (_, _) from rfl)
  refine ⟨_, _, delivered, ?_⟩
  simp only [positions, dispatched, Episode.after, trace_append, htrace₁, htrace₂]
  rfl

/-- The process breaks off with the second run: the first tick was confirmed, so the run that handed
it out has ended well, and both runs together have handed out the two ticks in order. -/
theorem second_tick_follows_first :
    ∃ (l l' : Lifetime ticks) (e e' : Episode ticks), Reachable "feed" l ∧
      Leads "feed" l l' ∧ l'.runs = [e, e'] ∧ e.Clean ∧ l.position? "feed" = some 0 ∧
      (∃ q, l'.position? "feed" = some q ∧ 0 ≤ q) ∧ (positions e.history).getLast? = some 0 ∧
      (positions e'.history).head? = some (0 + 1) ∧
      l'.runs.flatMap (positions ·.history) = List.range' 0 2 := by
  obtain ⟨checkpoints, h, r, first, hfinished, hstored, hfirst⟩ := first_tick_run
  obtain ⟨h', r', second, hsecond⟩ := second_tick_run (e := ⟨tickFeed none, h, r⟩) hstored
  have crashed := second.step (.crashed checkpoints rfl)
  -- The one message of the first run is the one at the stored position.
  obtain ⟨-, hcovered, -, -⟩ := resuming_never_skips ⟨[2], first⟩ .none
  obtain ⟨e, he, m, hm, -, hconfirmed⟩ :=
    hcovered 0 hstored (tick 0) List.mem_cons_self (Nat.le_refl 0)
  cases List.mem_singleton.1 he
  have clean : Episode.Clean ⟨tickFeed none, h, r⟩ := by
    refine ⟨hfinished, fun m' hm' => ?_⟩
    obtain ⟨only, honly⟩ :=
      List.length_eq_one_iff.1 (by simpa [positions] using congrArg List.length hfirst)
    rw [honly] at hm hm'
    cases List.mem_singleton.1 hm
    cases List.mem_singleton.1 hm'
    exact hconfirmed
  have hlast : (positions h).getLast? = some 0 := by rw [hfirst]; rfl
  have hhead : (positions h').head? = some 1 := by rw [hsecond]; rfl
  obtain ⟨hmono, -, hnext, hrow⟩ := resuming_never_skips ⟨[2], first⟩ crashed
  have hfollows :=
    hnext [] ⟨tickFeed none, h, r⟩ ⟨tickFeed none, h', r'⟩ [] rfl clean 0 1 hlast hhead
  obtain ⟨start, hstart, hpositions⟩ :=
    hrow [] [⟨tickFeed none, h, r⟩] ⟨tickFeed none, h', r'⟩ [] rfl fun c hc => by
    cases List.mem_singleton.1 hc
    exact clean
  rw [hstart rfl] at hpositions
  refine ⟨_, _, ⟨tickFeed none, h, r⟩, ⟨tickFeed none, h', r'⟩, ⟨[2], first⟩, crashed, rfl, clean,
    hstored, hmono 0 hstored, hlast, hfollows ▸ hhead, hpositions.trans ?_⟩
  simp [hfirst, hsecond]

end Witness

end Lifetime
end EventSourcing

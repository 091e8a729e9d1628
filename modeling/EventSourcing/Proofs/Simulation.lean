/-
# Simulated runs are runs

Every run of a simulated world goes on by steps of a run, whatever the scripts, the clock and
whoever watches may do.
-/
import EventSourcing.Proofs.Run.History
import EventSourcing.Simulation.Session

namespace EventSourcing.Simulation.World

open Sample (family Outlet)

variable {w w' : World} {i : Nat}

/-! ## 1. What leaves runs alone -/

/-- The subscriptions of all subscribers. -/
def subscriptions (w : World) : List (Subscription family) := w.subscribers.map (·.subscription)

/-- The second world has the runs and the subscriptions of the first. -/
structure Unmoved (w w' : World) : Prop where
  runs : w'.runs = w.runs
  subscriptions : w'.subscriptions = w.subscriptions

theorem Unmoved.refl (w : World) : Unmoved w w := ⟨rfl, rfl⟩

theorem Unmoved.trans {w₁ w₂ w₃ : World} (h : Unmoved w₁ w₂) (h' : Unmoved w₂ w₃) : Unmoved w₁ w₃ :=
  ⟨h'.runs.trans h.runs, h'.subscriptions.trans h.subscriptions⟩

theorem unmoved_foldl {α : Type} {f : World → α → World} (same : ∀ w a, Unmoved w (f w a))
    (l : List α) (w : World) : Unmoved w (l.foldl f w) := by
  induction l generalizing w with
  | nil => exact .refl w
  | cons a rest ih => exact (same w a).trans (ih _)

theorem unmoved_modifySubscriber (w : World) (i : Nat) {f : Subscriber → Subscriber}
    (same : ∀ s, (f s).subscription = s.subscription) : Unmoved w (w.modifySubscriber i f) := by
  refine ⟨rfl, List.ext_getElem? fun j => ?_⟩
  simp only [subscriptions, modifySubscriber, List.getElem?_map, List.getElem?_modify]
  cases w.subscribers[j]? with
  | none => rfl
  | some s => split <;> simp [same]

theorem unmoved_scheduleCall (w : World) (run : Nat) (limit : Option Duration) (m : Message family)
    (ends : Option (Nat × Deed)) : Unmoved w (w.scheduleCall run limit m ends) := by
  unfold scheduleCall
  split
  · exact .refl w
  · exact ⟨rfl, rfl⟩
  · exact ⟨rfl, rfl⟩
  · split <;> exact ⟨rfl, rfl⟩

theorem unmoved_onCall (w : World) (run subscriber : Nat) (s : Subscriber) (handler : Nat)
    (m : Message family) : Unmoved w (w.onCall run subscriber s handler m) := by
  unfold onCall
  cases s.actors[handler]? with
  | none => exact .refl w
  | some actor =>
    dsimp only
    cases actor.behaviour with
    | gateway route => exact unmoved_scheduleCall _ _ _ _ _
    | scripted script =>
      have noted : Unmoved w (w.note fun j => { j with
          calls := ⟨w.now, m.position.position, actor.place, m.retryCount, m.type⟩ :: j.calls }) :=
        ⟨rfl, rfl⟩
      refine Unmoved.trans ?_ (unmoved_scheduleCall _ _ _ _ _)
      exact noted.trans (unmoved_modifySubscriber _ _ fun _ => rfl)

theorem unmoved_onFailure (w : World) (run subscriber : Nat) (s : Subscriber) (m : Message family)
    (error : HandlerError) : Unmoved w (w.onFailure run subscriber s m error) := by
  unfold onFailure
  cases s.recovery with
  | none => exact .refl w
  | some recovery =>
    cases recovery with
    | parking stream => exact ⟨rfl, rfl⟩
    | scripted script =>
      have noted := unmoved_modifySubscriber (w.note fun j =>
        { j with failures := ⟨m.position.position, m.retryCount, error⟩ :: j.failures }) subscriber
        (f := fun s => { s with recovery := some (.scripted (script.pick m).2) }) fun _ => rfl
      exact ⟨noted.runs, noted.subscriptions⟩

theorem unmoved_observe (run subscriber : Nat) (w : World) (e : Run.Effect family) :
    Unmoved w (observe run subscriber w e) := by
  unfold observe
  cases w.subscribers[subscriber]? with
  | none => exact .refl w
  | some s =>
    cases e with
    | status status => exact unmoved_modifySubscriber w subscriber fun _ => rfl
    | committed p => exact unmoved_modifySubscriber w subscriber fun _ => rfl
    | called handler m => exact unmoved_onCall w run subscriber s handler m
    | recovering m error => exact unmoved_onFailure w run subscriber s m error
    | _ => exact ⟨rfl, rfl⟩

/-! ## 2. One action -/

/-- An action of a run that can happen is a step of that run, and leaves all others alone. -/
theorem step_of_act? {a : Run.Action} (acted : w.act? i a = some w') :
    ∃ live s run effects, w.runs[i]? = some live ∧ w.subscriptions[live.subscriber]? = some s ∧
      Run.step s live.run a = some (run, effects) ∧
      w'.runs = w.runs.set i { live with run } ∧ w'.subscriptions = w.subscriptions := by
  unfold act? at acted
  obtain ⟨live, hlive, acted⟩ := Option.bind_eq_some_iff.1 acted
  obtain ⟨s, hs, acted⟩ := Option.bind_eq_some_iff.1 acted
  obtain ⟨⟨run, effects⟩, made, acted⟩ := Option.bind_eq_some_iff.1 acted
  cases acted
  have observed := unmoved_foldl (unmoved_observe i live.subscriber) effects
    { w with runs := w.runs.set i { live with run } }
  exact ⟨live, s.subscription, run, effects, hlive, by simp [subscriptions, hs], made,
    observed.runs, observed.subscriptions⟩

/-! ## 3. Worlds all of whose runs have a history -/

/-- A subscriber was built, and every run of the world has a history of its subscription. -/
structure Historic (w : World) : Prop where
  built : w.subscribers ≠ []
  runs : ∀ live ∈ w.runs, ∃ s, w.subscriptions[live.subscriber]? = some s ∧
    ∃ h, Run.History s h live.run

theorem Historic.built_of_eq (hist : Historic w) (same : w'.subscriptions = w.subscriptions) :
    w'.subscribers ≠ [] := by
  intro none
  have empty : w.subscriptions = [] := by rw [← same, subscriptions, none, List.map_nil]
  exact hist.built (List.map_eq_nil_iff.1 empty)

theorem Historic.unmoved (hist : Historic w) (same : Unmoved w w') : Historic w' := by
  refine ⟨hist.built_of_eq same.subscriptions, ?_⟩
  rw [same.runs, same.subscriptions]
  exact hist.runs

/-- An action adds one entry to the history of its run. -/
theorem Historic.act? {a : Run.Action} (hist : Historic w) (acted : w.act? i a = some w') :
    Historic w' := by
  obtain ⟨live, s, run, effects, hlive, hs, made, hruns, hsubscriptions⟩ := step_of_act? acted
  refine ⟨hist.built_of_eq hsubscriptions, ?_⟩
  rw [hruns, hsubscriptions]
  intro live' hmem
  rcases List.mem_or_eq_of_mem_set hmem with hold | rfl
  · exact hist.runs live' hold
  · obtain ⟨s', hs', h, past⟩ := hist.runs live (List.mem_of_getElem? hlive)
    cases hs.symm.trans hs'
    exact ⟨s, hs, _, past.step made⟩

theorem Historic.act (hist : Historic w) (i : Nat) (a : Run.Action) : Historic (w.act i a) := by
  unfold World.act
  cases acted : w.act? i a with
  | none => exact hist
  | some w' => exact hist.act? acted

/-! ## 4. Turns and time -/

theorem unmoved_save (w : World) (c : Checkpoint) (force : Bool) :
    Unmoved w (w.save c force).2 := ⟨rfl, rfl⟩

theorem Historic.subscribe (hist : Historic w) (i : Nat) (s : Subscriber) :
    Historic (w.subscribe i s) := by
  unfold World.subscribe
  refine Historic.act (Historic.act ?_ i .subscribe) i _
  exact hist.unmoved ⟨rfl, rfl⟩

theorem Historic.readPage (hist : Historic w) (i : Nat) (s : Subscriber) (cursor : Cursor) :
    Historic (w.readPage i s cursor) := by
  unfold World.readPage
  refine Historic.act ?_ i _
  exact hist.unmoved ⟨rfl, rfl⟩

theorem Historic.pollerJob? (hist : Historic w) (done : w.pollerJob? i = some w') :
    Historic w' := by
  unfold World.pollerJob? at done
  obtain ⟨live, -, done⟩ := Option.bind_eq_some_iff.1 done
  obtain ⟨s, -, done⟩ := Option.bind_eq_some_iff.1 done
  split at done
  · cases done
    exact hist.subscribe i s
  · split at done
    · exact hist.act? done
    · cases done
      exact hist.readPage i s _
  · exact hist.act? done
  · exact hist.act? done
  · split at done
    · exact hist.act? done
    · cases done
  · exact hist.act? done
  · cases done
    exact (hist.unmoved (unmoved_save w _ true)).act i _
  · cases done

theorem Historic.taskJob? {s : Subscriber} {t : Task family} (hist : Historic w)
    (done : w.taskJob? i s t = some w') : Historic w' := by
  unfold World.taskJob? at done
  split at done
  · exact hist.act? done
  · exact hist.act? done
  · rcases Option.or_eq_some_iff.1 done with resumed | ⟨-, abandoned⟩
    · exact hist.act? resumed
    · exact hist.act? abandoned
  · exact hist.act? done
  · cases done
    exact (hist.unmoved (unmoved_save w _ false)).act i _
  · cases done

theorem Historic.keepAck (hist : Historic w) (i : Nat) (m : Message family) (attempt : Attempt) :
    Historic (w.keepAck i m attempt) :=
  (hist.act i (.takeAck m.sequence attempt)).unmoved ⟨rfl, rfl⟩

theorem Historic.keep (hist : Historic w) (i : Nat) (deed : Deed) : Historic (w.keep i deed) := by
  cases deed with
  | act a => exact hist.act i a
  | endCall m attempt conduct =>
    rw [World.keep]
    cases conduct.outcome with
    | none => exact hist
    | some outcome =>
      dsimp only
      split
      · split
        · exact (hist.keepAck i m attempt).act i _
        · exact hist.act i _
      · exact hist
  | endPassing m attempt route =>
    rw [World.keep]
    split
    · refine Historic.act ?_ i _
      exact hist.unmoved ⟨rfl, rfl⟩
    · exact hist
  | endParking m error stream =>
    rw [World.keep]
    refine Historic.act ?_ i _
    exact hist.unmoved ⟨rfl, rfl⟩

theorem Historic.keepNext? {sequence : Option Nat} (hist : Historic w)
    (kept : w.keepNext? i sequence = some w') : Historic w' := by
  obtain ⟨a, -, rfl⟩ := Option.map_eq_some_iff.1 kept
  refine Historic.keep ?_ i a.deed
  exact hist.unmoved ⟨rfl, rfl⟩

theorem Historic.goOn? {t : Turn} (hist : Historic w) (gone : w.goOn? t = some w') :
    Historic w' := by
  unfold World.goOn? at gone
  obtain ⟨live, -, gone⟩ := Option.bind_eq_some_iff.1 gone
  obtain ⟨s, -, gone⟩ := Option.bind_eq_some_iff.1 gone
  split at gone
  · rw [Option.orElse_eq_orElse, Option.orElse_eq_or] at gone
    rcases Option.or_eq_some_iff.1 gone with kept | ⟨-, done⟩
    · exact hist.keepNext? kept
    · exact hist.pollerJob? done
  · obtain ⟨task, -, gone⟩ := Option.bind_eq_some_iff.1 gone
    rw [Option.orElse_eq_orElse, Option.orElse_eq_or] at gone
    rcases Option.or_eq_some_iff.1 gone with kept | ⟨-, done⟩
    · exact hist.keepNext? kept
    · exact hist.taskJob? done

theorem unmoved_endTurn (w : World) (t : Turn) : Unmoved w (w.endTurn t) := by
  unfold endTurn
  dsimp only
  cases t.strand with
  | lane number =>
    cases w.runs[t.run]? with
    | none => exact ⟨rfl, rfl⟩
    | some live => exact iteInduction (fun _ => ⟨rfl, rfl⟩) fun _ => ⟨rfl, rfl⟩
  | _ => exact ⟨rfl, rfl⟩

theorem unmoved_arrive (w : World) (time : Nat) : Unmoved w (w.arrive time) := by
  unfold arrive
  refine Unmoved.trans ?_ (unmoved_foldl (fun _ _ => ?_) _ _) <;> exact ⟨rfl, rfl⟩

/-- Whatever happens while time passes, every run keeps a history. -/
theorem Historic.proceed (bound : Nat) (enough : World → Bool) (fuel turns : Nat)
    (hist : Historic w) : Historic (w.proceed bound enough fuel turns) := by
  induction fuel generalizing turns w with
  | zero => exact hist
  | succ fuel ih =>
    rw [World.proceed]
    cases w.line with
    | cons t line =>
      dsimp only
      cases gone : w.goOn? t with
      | some w' => exact ih turns (hist.goOn? gone)
      | none =>
        have ended := hist.unmoved (unmoved_endTurn w t)
        dsimp only
        split
        · exact ih _ ended
        · split
          · exact ended
          · exact ih _ ended
    | nil =>
      dsimp only
      split
      · exact hist
      · cases w.agenda with
        | nil => exact hist
        | cons a agenda =>
          dsimp only
          split
          · exact ih _ (hist.unmoved (unmoved_arrive w a.due))
          · exact hist

theorem Historic.run (hist : Historic w) (duration : Nat) : Historic (w.run duration) := by
  have proceeded := hist.proceed (w.now + duration + 1) (fun _ => false) patience turnsPerLook
  exact proceeded.unmoved ⟨rfl, rfl⟩

theorem Historic.await (hist : Historic w) (limit : Nat) (holds : World → Bool) :
    Historic (w.await limit holds).2 := by
  have proceeded := hist.proceed (w.now + limit) holds patience turnsPerLook
  unfold World.await
  dsimp only
  generalize w.proceed (w.now + limit) holds patience turnsPerLook = w' at proceeded ⊢
  split
  · exact hist
  · split
    · exact proceeded
    · exact proceeded.unmoved (unmoved_arrive w' _)

/-! ## 5. Sessions -/

theorem historic_opening (feed : Feed) (checkpoints : LayeredCheckpoints FaultyCheckpoints)
    (outlet : Outlet) (design : Subscriber) :
    Historic (opening feed checkpoints outlet design) := by
  refine ⟨List.cons_ne_nil design [], fun live hmem => ?_⟩
  cases hmem

theorem Historic.release (hist : Historic w) : Historic w.release := by
  unfold World.release
  cases w.handle with
  | none => exact hist
  | some handle =>
    dsimp only
    split
    · exact hist.unmoved ⟨rfl, rfl⟩
    · refine Historic.act ?_ _ _
      exact hist.unmoved ⟨rfl, rfl⟩

theorem Historic.rebuild (hist : Historic w) : Historic w.rebuild := by
  refine ⟨by simp [World.rebuild], fun live hmem => ?_⟩
  obtain ⟨s, hs, past⟩ := hist.runs live hmem
  obtain ⟨hlt, hget⟩ := List.getElem?_eq_some_iff.1 hs
  refine ⟨s, ?_, past⟩
  rw [← hs, subscriptions, subscriptions, World.rebuild, List.map_append]
  exact List.getElem?_append_left hlt

/-- A run that is started has done nothing yet. -/
theorem Historic.start (hist : Historic w) : Historic w.start := by
  let live : LiveRun := { subscriber := w.present }
  have begun : Historic { w with runs := w.runs ++ [live] } := by
    refine ⟨hist.built, fun live' hmem => ?_⟩
    rcases List.mem_append.1 hmem with hold | hnew
    · exact hist.runs live' hold
    · rw [List.mem_singleton.1 hnew]
      have hlt : w.present < w.subscriptions.length := by
        rw [subscriptions, List.length_map, present]
        exact Nat.sub_one_lt (mt List.eq_nil_of_length_eq_zero hist.built)
      exact ⟨_, List.getElem?_eq_getElem hlt, [], .begin⟩
  have lined : Historic (lineUp { w with runs := w.runs ++ [live] } w.runs.length [.poller]) :=
    begun.unmoved ⟨rfl, rfl⟩
  exact lined.release.unmoved ⟨rfl, rfl⟩

theorem Historic.join (hist : Historic w) : Historic w.join.2 := by
  unfold World.join
  cases w.handle with
  | none => exact hist
  | some handle =>
    dsimp only
    split
    · exact hist
    · have handled : Historic { w with handle := some { handle with joined := true } } :=
        hist.unmoved ⟨rfl, rfl⟩
      have awaited := handled.await longestWait fun w => (w.ended? handle.run).isSome
      split <;> exact awaited

theorem Historic.stop (hist : Historic w) : Historic w.stop.2 := by
  unfold World.stop
  cases w.handle with
  | none => exact hist
  | some handle => exact (hist.act handle.run .cancel).join.unmoved ⟨rfl, rfl⟩

theorem Historic.settleAck (hist : Historic w) (position : Nat) (answer : Acknowledgement) :
    Historic (w.settleAck position answer).2 := by
  unfold World.settleAck
  cases w.acks.find? _ with
  | none => exact hist.run 0
  | some ack =>
    have taken : Historic { w with acks := w.acks.eraseP (·.position == position) } :=
      hist.unmoved ⟨rfl, rfl⟩
    dsimp only
    split
    · exact (taken.act ack.run _).run 0
    · exact taken.run 0

/-- The worlds that somebody who watches can come to. -/
inductive Watched : World → Prop where
  | opening (feed : Feed) (checkpoints : LayeredCheckpoints FaultyCheckpoints) (outlet : Outlet)
    (design : Subscriber) : Watched (opening feed checkpoints outlet design)
  /-- Around the runs everything may be changed: the events, the faults and what was written
  down. -/
  | around {w : World} (before : Watched w) (feed : Feed)
    (checkpoints : LayeredCheckpoints FaultyCheckpoints) (journal : Journal) :
    Watched { w with feed, checkpoints, journal }
  | rebuild {w : World} (before : Watched w) : Watched w.rebuild
  | start {w : World} (before : Watched w) : Watched w.start
  | run {w : World} (before : Watched w) (duration : Nat) : Watched (w.run duration)
  | stop {w : World} (before : Watched w) : Watched w.stop.2
  | join {w : World} (before : Watched w) : Watched w.join.2
  | release {w : World} (before : Watched w) : Watched w.release
  | awaitStatus {w : World} (before : Watched w) (status : SubscriptionStatus) :
    Watched (w.awaitStatus status).2
  | settleAck {w : World} (before : Watched w) (position : Nat) (answer : Acknowledgement) :
    Watched (w.settleAck position answer).2
  | gap {w : World} (before : Watched w) : Watched w.gap.2
  | storedGap {w : World} (before : Watched w) (id : String) : Watched (w.storedGap id).2

theorem Watched.historic (watched : Watched w) : Historic w := by
  induction watched with
  | opening feed checkpoints outlet design => exact historic_opening feed checkpoints outlet design
  | around _ _ _ _ ih => exact ih.unmoved ⟨rfl, rfl⟩
  | rebuild _ ih => exact ih.rebuild
  | start _ ih => exact ih.start
  | run _ duration ih => exact ih.run duration
  | stop _ ih => exact ih.stop
  | join _ ih => exact ih.join
  | release _ ih => exact ih.release
  | awaitStatus _ status ih => exact ih.await longestWait _
  | settleAck _ position answer ih => exact ih.settleAck position answer
  | gap _ ih => exact ih.unmoved ⟨rfl, rfl⟩
  | storedGap _ id ih => exact ih.unmoved ⟨rfl, rfl⟩

/-- **What is watched is a history.**  However a session goes, what any of its runs has done is a
history of the subscription it was started for. -/
theorem history_of_watched (watched : Watched w) {live : LiveRun} (hmem : live ∈ w.runs) :
    ∃ s, w.subscribers[live.subscriber]? = some s ∧
      ∃ h, Run.History s.subscription h live.run := by
  obtain ⟨subscription, hs, past⟩ := watched.historic.runs live hmem
  rw [subscriptions, List.getElem?_map] at hs
  obtain ⟨s, hfound, rfl⟩ := Option.map_eq_some_iff.1 hs
  exact ⟨s, hfound, past⟩

end EventSourcing.Simulation.World

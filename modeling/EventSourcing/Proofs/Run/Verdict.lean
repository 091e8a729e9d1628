/-
# What a run ends with

An error drops the run it comes up in, and whatever comes up later is seen but not kept: a run that
ends at all ends on the first error, or well if there was none.  Only a run that could not load its
checkpoint ends before it keeps errors.

What the file settles:

* `errors`, `failure_eq`: the error of a run is the first one that came up;
* `Transition.failure_kept`: it stays the same from then on;
* `result_of_finished`: what a run that has ended ended with.
-/
import EventSourcing.Proofs.Run.Ending

namespace EventSourcing
namespace Run

variable {F : PayloadFamily} {s : Subscription F} {r r' : Run F} {a : Action}
  {effects : List (Effect F)} {h : List (Entry F)}

/-! ## 1. Errors -/

/-- The error an effect brings up. -/
def Effect.error? : Effect F → Option SubscriptionError
  | .dropped e => some e
  | _ => none

/-- The errors that came up, in order. -/
def errors (h : List (Entry F)) : List SubscriptionError := (trace h).filterMap Effect.error?

theorem errors_snoc (h : List (Entry F)) (e : Entry F) :
    errors (h ++ [e]) = errors h ++ e.effects.filterMap Effect.error? := by
  simp [errors, trace]

theorem Onward.no_error {t u : Task F} {handler : Nat} {status : HandlingStatus}
    (onward : Onward s t handler status u effects) : effects.filterMap Effect.error? = [] := by
  cases onward <;> rfl

theorem Advance.no_error {t u : Task F} (advance : Advance s r t a u effects) :
    effects.filterMap Effect.error? = [] := by
  cases advance with
  | started _ _ _ onward | returned _ onward => exact onward.no_error
  | _ => rfl

/-- A step brings up one error at most, and keeps it if it is the first. -/
theorem Transition.failure_eq (made : Transition s r a r' effects) :
    r'.failure = r.failure.or (effects.filterMap Effect.error?).head? := by
  cases made with
  | advanced task advance =>
    rw [advance.no_error]
    exact (Option.or_none).symm
  | ended => rfl
  | @broken t _ task reason =>
    obtain ⟨gone, lanes, hrun, -, -, hlost⟩ := loseWorker_spec r t
    have none : (loseWorker r t).2.filterMap Effect.error? = [] := by
      refine List.filterMap_eq_nil_iff.2 fun x hx => ?_
      obtain ⟨k, rfl⟩ := hlost x hx
      rfl
    rw [none, hrun]
    exact (Option.or_none).symm
  | letGo | confirmed | asked | stored | cancelled => exact (Option.or_none).symm
  | polled polls =>
    cases polls with
    | stopped | undelivered | flushFailed => rfl
    | delivered phase decoded place continues => cases continues <;> exact (Option.or_none).symm
    | _ => exact (Option.or_none).symm

/-- The error a run was dropped with is kept. -/
theorem Transition.failure_kept (made : Transition s r a r' effects) {e : SubscriptionError}
    (failed : r.failure = some e) : r'.failure = some e := by
  rw [made.failure_eq, failed]
  rfl

/-- **Only the first error is kept.** -/
theorem failure_eq (hist : History s h r) : r.failure = (errors h).head? := by
  induction hist with
  | begin => rfl
  | step past made ih =>
    rw [(transition_of_step made).failure_eq, errors_snoc, List.head?_append, ih]

/-- What comes later does not touch an error that was recorded. -/
theorem failure_kept {h' : List (Entry F)} (past : History s h r) (hist : History s (h ++ h') r')
    {e : SubscriptionError} (failed : r.failure = some e) : r'.failure = some e := by
  rw [failure_eq past] at failed
  rw [failure_eq hist, errors, trace_append, List.filterMap_append, List.head?_append]
  exact Option.or_eq_some_iff.2 (.inl failed)

/-! ## 2. Results -/

/-- The checkpoint could not be loaded, and the run ended on that. -/
def Unloaded (h : List (Entry F)) (e : SubscriptionError) : Prop :=
  ∃ x ∈ h, ∃ error, x.action = .checkpointLoaded (.failed error) ∧ x.before.phase = .loading ∧
    e = .checkpoint error

/-- Before polling begins nothing goes wrong that a run could keep. -/
theorem failure_of_early (hist : History s h r) (early : r.phase.IsEarly) : r.failure = none := by
  induction hist with
  | begin => rfl
  | @step h r r' a effects past made ih =>
    rcases (transition_of_step made).polls_or_aside with polls | aside
    · cases polls with
      | subscribed phase => exact ih (by rw [phase]; trivial)
      | delivered _ _ _ continues => exact (continues.not_isEarly early).elim
      | _ => exact early.elim
    · rw [aside.phase] at early
      have hempty : r.tasks = [] := by
        have hsub := (numbered past).tasks
        rw [(numbered past).early early] at hsub
        simpa using hsub
      rcases aside.about with rfl | ⟨n, about⟩
      · cases made
        exact ih early
      · simp [step, about, task?, hempty] at made

/-- A run that has ended ended on its first error, or well, unless it could not even begin. -/
theorem result_of_finished (hist : History s h r) {result : Except SubscriptionError Unit}
    (finished : r.phase = .finished result) :
    result = r.verdict ∨ r.failure = none ∧ ∃ e, result = .error e ∧ Unloaded h e := by
  induction hist with
  | begin => cases finished
  | @step h r r' a effects past made ih =>
    have last := List.mem_append_right h (List.mem_singleton_self (⟨r, a, r', effects⟩ : Entry F))
    rcases (transition_of_step made).polls_or_aside with polls | aside
    · cases polls with
      | unflushed | flushed | flushFailed =>
        cases finished
        exact .inl rfl
      | @unloaded error phase =>
        cases finished
        have unfailed : r.failure = none := failure_of_early past (by rw [phase]; trivial)
        exact .inr ⟨unfailed, _, rfl, _, last, error, rfl, phase, rfl⟩
      | delivered _ _ _ continues => cases continues <;> cases finished
      | _ => cases finished
    · have before := aside.phase.symm.trans finished
      rcases ih before with rfl | ⟨unfailed, e, rfl, x, hx, unloaded⟩
      · cases rests_of_finished past made before
        exact .inl rfl
      · cases rests_of_finished past made before
        exact .inr ⟨unfailed, e, rfl, x, List.mem_append_left _ hx, unloaded⟩

end Run
end EventSourcing

/-
# What a flush stores

Confirmations come in any order and the store may refuse any call.  The store is asked for every
growth of the gapless part, so the last position it was asked to take is always the greatest gapless
one; but a position it refused is not asked for again, not even by the flush, which asks for the
last one that was taken.

What the file settles:

* `Gapless`, `Greatest`: the greatest confirmed position with everything before it confirmed;
* `Saving.Tracks`: what the committer and the calls have to do with the confirmations, kept by every
  confirmation (`Tracks.confirm`) and so by all of them (`tracks_confirmAll`);
* `Saving.flush_complete_iff`: a flush stores the greatest gapless position exactly if the last call
  was not refused;
* `Run.committer_of_confirm`: the confirmation of a run is this one, cut where the store is asked.
-/
import EventSourcing.Subscription.Saving
import EventSourcing.Proofs.CommitSequence
import EventSourcing.Proofs.Checkpoint.Batching
import EventSourcing.Proofs.Run.Transition

namespace EventSourcing

/-! ## 1. Gapless positions -/

/-- The position was confirmed, and so was every number before its own. -/
def Gapless (confirmed : List CommitPosition) (p : CommitPosition) : Prop :=
  IsFirst confirmed p ∧ ∀ n ≤ p.sequence, ∃ q ∈ confirmed, q.sequence = n

/-- Positions grow with the numbers under which they were received. -/
def Ascending (confirmed : List CommitPosition) : Prop :=
  ∀ p ∈ confirmed, ∀ q ∈ confirmed, p.sequence < q.sequence → p.position < q.position

instance (confirmed : List CommitPosition) : Decidable (Ascending confirmed) :=
  inferInstanceAs (Decidable (∀ p ∈ confirmed, ∀ q ∈ confirmed, p.sequence < q.sequence →
    p.position < q.position))

/-- The greatest gapless position, if there is one. -/
def Greatest (confirmed : List CommitPosition) : Option CommitPosition → Prop
  | none => ∀ q ∈ confirmed, q.sequence ≠ 0
  | some p => Gapless confirmed p ∧ ∀ q, Gapless confirmed q → q.sequence ≤ p.sequence

variable {confirmed : List CommitPosition} {p q : CommitPosition}

/-! ## 2. New confirmations -/

namespace Committer

/-- What waits or is asked for after a confirmation waited before, unless it is the position
confirmed, for the first time. -/
theorem new_of_confirm {c c' : Committer} {asked : Option CommitPosition} (h : c.WellKept)
    (answer : c.confirm p = (asked, c')) (hq : q ∈ c'.sequence.waiting ∨ asked = some q) :
    q ∈ c.sequence.waiting ∨ q = p ∧ ¬ c.sequence.Covers p.sequence := by
  refine CommitSequence.mem_waiting_insert_new h.placed ?_
  have hs := h.placed.insert p
  unfold confirm at answer
  match ht : (c.sequence.insert p).2.takeCommittable with
  | (none, s') =>
    rw [ht] at answer
    cases answer
    obtain ⟨rfl, -⟩ := CommitSequence.takeCommittable_none ht
    exact hq.resolve_right nofun
  | (some last, s') =>
    rw [ht] at answer
    cases answer
    obtain ⟨hmem, -, -, hwaiting, -⟩ := CommitSequence.takeCommittable_some hs ht
    rcases hq with hq | hq
    · exact ((hwaiting q).1 hq).1
    · cases hq
      exact hmem

end Committer

/-! ## 3. Calls and confirmations -/

/-- What the sequence and the calls have to do with the confirmations. -/
structure Follows (sequence : CommitSequence) (asked : List Asked)
    (confirmed : List CommitPosition) : Prop where
  placed : sequence.WellPlaced
  gap : ∀ q ∈ sequence.waiting, q.sequence ≠ sequence.next
  covers : ∀ n, sequence.Covers n ↔ ∃ q ∈ confirmed, q.sequence = n
  firstWaiting : ∀ q ∈ sequence.waiting, IsFirst confirmed q
  firstAsked : ∀ a ∈ asked, IsFirst confirmed a.position
  below : ∀ a ∈ asked, a.position.sequence < sequence.next
  increasing : asked.Pairwise fun a b => a.position.sequence < b.position.sequence
  next : sequence.next = (asked.getLast?.map (·.position.sequence + 1)).getD 0

theorem follows_nil : Follows {} [] [] where
  placed := CommitSequence.wellPlaced_empty
  gap := nofun
  covers n := by simp [CommitSequence.not_covers_empty]
  firstWaiting := nofun
  firstAsked := nofun
  below := nofun
  increasing := .nil
  next := rfl

section Confirm

variable {c c' : Committer} {asked : List Asked}

theorem Follows.wellKept (h : Follows c.sequence asked confirmed) : c.WellKept := ⟨h.placed, h.gap⟩

theorem Follows.covers_confirm (h : Follows c.sequence asked confirmed)
    {answer : Option CommitPosition} (hconfirm : c.confirm p = (answer, c')) (n : Nat) :
    c'.sequence.Covers n ↔ ∃ q ∈ confirmed ++ [p], q.sequence = n := by
  rw [(Committer.confirms h.wellKept hconfirm).covers, h.covers]
  simp [or_and_right, exists_or, eq_comm]

/-- Whatever waits or is asked for was confirmed first under its number. -/
theorem Follows.isFirst_confirm (h : Follows c.sequence asked confirmed)
    {answer : Option CommitPosition} (hconfirm : c.confirm p = (answer, c'))
    (hq : q ∈ c'.sequence.waiting ∨ answer = some q) : IsFirst (confirmed ++ [p]) q := by
  rcases Committer.new_of_confirm h.wellKept hconfirm hq with hold | ⟨rfl, hnew⟩
  · exact (h.firstWaiting q hold).concat p
  · rw [h.covers] at hnew
    exact isFirst_concat_self fun x hx heq => hnew ⟨x, hx, heq⟩

theorem Follows.confirm_none (h : Follows c.sequence asked confirmed)
    (hconfirm : c.confirm p = (none, c')) : Follows c'.sequence asked (confirmed ++ [p]) := by
  have confirms := Committer.confirms h.wellKept hconfirm
  have hnext : c'.sequence.next = c.sequence.next := confirms.answer
  constructor
  case placed => exact confirms.kept.placed
  case gap => exact confirms.kept.gap
  case covers => exact h.covers_confirm hconfirm
  case firstWaiting => exact fun q hq => h.isFirst_confirm hconfirm (.inl hq)
  case firstAsked => exact fun a ha => (h.firstAsked a ha).concat p
  case below => exact fun a ha => hnext ▸ h.below a ha
  case increasing => exact h.increasing
  case next => rw [hnext, h.next]

theorem Follows.confirm_some (h : Follows c.sequence asked confirmed)
    (hconfirm : c.confirm p = (some q, c')) (taken : Bool) :
    Follows c'.sequence (asked ++ [⟨q, false, taken⟩]) (confirmed ++ [p]) := by
  have confirms := Committer.confirms h.wellKept hconfirm
  obtain ⟨-, hle, hnext⟩ : _ ∧ c.sequence.next ≤ q.sequence ∧ c'.sequence.next = q.sequence + 1 :=
    confirms.answer
  constructor
  case placed => exact confirms.kept.placed
  case gap => exact confirms.kept.gap
  case covers => exact h.covers_confirm hconfirm
  case firstWaiting => exact fun x hx => h.isFirst_confirm hconfirm (.inl hx)
  case firstAsked =>
    intro a ha
    rcases List.mem_append.1 ha with ha | ha
    · exact (h.firstAsked a ha).concat p
    · cases List.mem_singleton.1 ha
      exact h.isFirst_confirm hconfirm (.inr rfl)
  case below =>
    intro a ha
    rcases List.mem_append.1 ha with ha | ha
    · have := h.below a ha
      omega
    · cases List.mem_singleton.1 ha
      exact hnext ▸ Nat.lt_succ_self q.sequence
  case increasing =>
    refine List.pairwise_append.2 ⟨h.increasing, List.pairwise_singleton _ _, fun a ha b hb => ?_⟩
    cases List.mem_singleton.1 hb
    exact Nat.lt_of_lt_of_le (h.below a ha) hle
  case next => rw [hnext, List.getLast?_concat, Option.map_some, Option.getD_some]

end Confirm

/-- The last position asked for is the greatest gapless one. -/
theorem Follows.greatest {sequence : CommitSequence}
    {asked : List Asked} (h : Follows sequence asked confirmed) :
    Greatest confirmed (asked.getLast?.map (·.position)) := by
  -- The number that comes next is the first one that was not confirmed.
  have hmissing : ¬ ∃ q ∈ confirmed, q.sequence = sequence.next := by
    rw [← h.covers]
    rintro (hlt | ⟨q, hq, heq⟩)
    · exact Nat.lt_irrefl _ hlt
    · exact h.gap q hq heq
  have hnext := h.next
  cases hlast : asked.getLast? with
  | none =>
    rw [hlast] at hnext
    exact fun q hq hzero => hmissing ⟨q, hq, hzero.trans hnext.symm⟩
  | some a =>
    rw [hlast, Option.map_some, Option.getD_some] at hnext
    refine ⟨⟨h.firstAsked a (List.mem_of_getLast? hlast), fun n hn => (h.covers n).1 (.inl ?_)⟩,
      fun q hq => ?_⟩
    · exact hnext ▸ Nat.lt_succ_of_le hn
    · exact Nat.not_lt.1 fun hgreater => hmissing (hq.2 _ (hnext ▸ Nat.succ_le_of_lt hgreater))

namespace Saving

variable {σ : Type} {s s' : Saving σ}

/-- The last position the store took. -/
def lastTaken (s : Saving σ) : Option CommitPosition :=
  (s.asked.filter (·.taken)).getLast?.map (·.position)

/-- Whether the last call was refused. -/
def missed (s : Saving σ) : Bool := s.asked.getLast?.any (!·.taken)

/-- The committer follows the confirmations and notes the last position that was taken. -/
structure Tracks (s : Saving σ) (confirmed : List CommitPosition) : Prop where
  follows : Follows s.committer.sequence s.asked confirmed
  last : s.committer.last = s.lastTaken
  dirty : s.committer.dirty = s.lastTaken.isSome

theorem tracks_new (subscription : String) (store : σ) : Tracks { subscription, store } [] :=
  ⟨follows_nil, rfl, rfl⟩

theorem lastTaken_concat (asked : List Asked) (a : Asked) (committer : Committer) (store : σ)
    (subscription : String) :
    lastTaken ⟨subscription, committer, store, asked ++ [a]⟩ =
      if a.taken then some a.position else lastTaken ⟨subscription, committer, store, asked⟩ := by
  unfold lastTaken
  cases htaken : a.taken <;> simp [List.filter_append, htaken]

/-- The calls of the confirmations ask for ever greater positions. -/
theorem Tracks.increasing (h : Tracks s confirmed) (ascending : Ascending confirmed) :
    s.asked.Pairwise fun a b => a.position.position < b.position.position :=
  h.follows.increasing.imp_of_mem fun ha hb hlt =>
    ascending _ (h.follows.firstAsked _ ha).mem _ (h.follows.firstAsked _ hb).mem hlt

/-- What is asked for at the end: the last position that was taken, by force. -/
def forced (s : Saving σ) : List Asked := (s.lastTaken.map fun q => ⟨q, true, true⟩).toList

/-- The last position taken is the last one asked for, exactly if the last call was not refused. -/
theorem Tracks.complete_iff (h : Tracks s confirmed) (ascending : Ascending confirmed) :
    s.lastTaken.map (·.position) = (s.asked.getLast?.map (·.position)).map (·.position) ∧
        ((s.asked ++ s.forced).map (·.position.position)).Pairwise (· ≤ ·) ↔
      s.missed = false := by
  obtain ⟨subscription, committer, store, asked⟩ := s
  have hincreasing := h.increasing ascending
  rcases List.eq_nil_or_concat asked with rfl | ⟨init, a, heq⟩
  · exact iff_of_true ⟨rfl, .nil⟩ rfl
  · rw [List.concat_eq_append] at heq
    subst heq
    obtain ⟨-, -, hbelow⟩ := List.pairwise_append.1 hincreasing
    have hmissed : missed ⟨subscription, committer, store, init ++ [a]⟩ = !a.taken := by
      simp [missed]
    rw [hmissed, lastTaken_concat, List.getLast?_concat]
    cases htaken : a.taken with
    | true =>
      have hforced : forced ⟨subscription, committer, store, init ++ [a]⟩ =
          [⟨a.position, true, true⟩] := by
        rw [forced, lastTaken_concat, htaken]
        rfl
      refine iff_of_true ⟨rfl, ?_⟩ rfl
      rw [hforced, List.pairwise_map, List.pairwise_append]
      refine ⟨hincreasing.imp fun hlt => Nat.le_of_lt hlt, List.pairwise_singleton _ _,
        fun b hb x hx => ?_⟩
      cases List.mem_singleton.1 hx
      rcases List.mem_append.1 hb with hb | hb
      · exact Nat.le_of_lt (hbelow b hb a (List.mem_singleton_self a))
      · cases List.mem_singleton.1 hb
        exact Nat.le_refl _
    | false =>
      refine iff_of_false (fun ⟨hsame, _⟩ => ?_) nofun
      obtain ⟨q, hq, hposition⟩ := Option.map_eq_some_iff.1 hsame
      obtain ⟨b, hlast, rfl⟩ := Option.map_eq_some_iff.1 hq
      have hb := (List.mem_filter.1 (List.mem_of_getLast? hlast)).1
      exact Nat.lt_irrefl _ (hposition ▸ hbelow b hb a (List.mem_singleton_self a))

variable [CheckpointStore σ]

/-- Either the store takes the position or it refuses it. -/
theorem ask_cases (s : Saving σ) (p : CommitPosition) (force : Bool) :
    (∃ c store, CheckpointStore.save ⟨s.subscription, some p.position⟩ force s.store =
      (.ok c, store) ∧
      ask p force s = (.ok (), { s with store, asked := s.asked ++ [⟨p, force, true⟩] })) ∨
    ∃ error store, CheckpointStore.save ⟨s.subscription, some p.position⟩ force s.store =
      (.error error, store) ∧
      ask p force s =
        (.error error, { s with store, asked := s.asked ++ [⟨p, force, false⟩] }) := by
  unfold ask
  match CheckpointStore.save ⟨s.subscription, some p.position⟩ force s.store with
  | (.ok c, store) => exact .inl ⟨c, store, rfl, rfl⟩
  | (.error error, store) => exact .inr ⟨error, store, rfl, rfl⟩

theorem Tracks.confirm (h : Tracks s confirmed) (p : CommitPosition) :
    Tracks (s.confirm p).2 (confirmed ++ [p]) := by
  unfold Saving.confirm
  match hconfirm : s.committer.confirm p with
  | (none, c) =>
    have confirms := Committer.confirms h.follows.wellKept hconfirm
    exact ⟨h.follows.confirm_none hconfirm, confirms.last.trans h.last,
      confirms.dirty.trans h.dirty⟩
  | (some q, c) =>
    have confirms := Committer.confirms h.follows.wellKept hconfirm
    rcases ask_cases { s with committer := c } q false with ⟨_, store, -, hask⟩
      | ⟨_, store, -, hask⟩
    · simp only [hask]
      refine ⟨h.follows.confirm_some hconfirm true, ?_, ?_⟩ <;> rw [lastTaken_concat] <;> rfl
    · simp only [hask]
      refine ⟨h.follows.confirm_some hconfirm false, ?_, ?_⟩ <;> rw [lastTaken_concat]
      · exact confirms.last.trans h.last
      · exact confirms.dirty.trans h.dirty

theorem Tracks.confirmAll (h : Tracks s confirmed) (more : List CommitPosition) :
    Tracks (s.confirmAll more) (confirmed ++ more) := by
  induction more generalizing s confirmed with
  | nil => simpa [Saving.confirmAll] using h
  | cons p rest ih => simpa [Saving.confirmAll] using ih (h.confirm p)

/-! ## 4. Flushing -/

/-- What can be relied on of a store of checkpoints: a call that is refused leaves the position it
holds as it was, and a forced one that is not refused sets it. -/
structure Reliable (σ : Type) [CheckpointStore σ] (position? : σ → String → Option Nat) : Prop where
  refused : ∀ {c : Checkpoint} {force : Bool} {store store' : σ} {error : CheckpointError},
    CheckpointStore.save c force store = (.error error, store') →
      position? store' c.subscription = position? store c.subscription
  forced : ∀ {c c' : Checkpoint} {store store' : σ},
    CheckpointStore.save c true store = (.ok c', store') →
    position? store' c.subscription = c.position

variable {position? : σ → String → Option Nat}

/-- As long as the store takes nothing it holds what it held. -/
theorem store_confirm (reliable : Reliable σ position?) (s : Saving σ) (p : CommitPosition) :
    (s.confirm p).2.subscription = s.subscription ∧
      ((s.confirm p).2.lastTaken = none → s.lastTaken = none ∧
        position? (s.confirm p).2.store s.subscription = position? s.store s.subscription) := by
  unfold Saving.confirm
  match s.committer.confirm p with
  | (none, c) => exact ⟨rfl, fun hnone => ⟨hnone, rfl⟩⟩
  | (some q, c) =>
    rcases ask_cases { s with committer := c } q false with ⟨_, store, -, hask⟩
      | ⟨_, store, hsave, hask⟩
    · simp only [hask, lastTaken_concat]
      exact ⟨trivial, nofun⟩
    · simp only [hask, lastTaken_concat]
      exact ⟨trivial, fun hnone => ⟨hnone, reliable.refused hsave⟩⟩

theorem store_confirmAll (reliable : Reliable σ position?) (s : Saving σ)
    (confirmed : List CommitPosition) :
    (s.confirmAll confirmed).subscription = s.subscription ∧
      ((s.confirmAll confirmed).lastTaken = none → s.lastTaken = none ∧
        position? (s.confirmAll confirmed).store s.subscription =
          position? s.store s.subscription) := by
  induction confirmed generalizing s with
  | nil => exact ⟨rfl, fun hnone => ⟨hnone, rfl⟩⟩
  | cons p rest ih =>
    obtain ⟨hsame, hstore⟩ := store_confirm reliable s p
    obtain ⟨hsame', hstore'⟩ := ih (s.confirm p).2
    refine ⟨hsame'.trans hsame, fun hnone => ?_⟩
    obtain ⟨hnone', hkept'⟩ := hstore' hnone
    obtain ⟨hnone'', hkept⟩ := hstore hnone'
    rw [hsame] at hkept'
    exact ⟨hnone'', hkept'.trans hkept⟩

/-- A flush that succeeds answers the last position the store took, and has made the store hold
it. -/
theorem Tracks.flush (reliable : Reliable σ position?) (h : Tracks s confirmed)
    {answer : Option Nat} (hflush : s.flush = (.ok answer, s')) :
    answer = s.lastTaken.map (·.position) ∧
      s'.asked = s.asked ++ s.forced ∧
      position? s'.store s.subscription = answer.or (position? s.store s.subscription) := by
  unfold Saving.flush Committer.due at hflush
  rw [h.dirty, h.last] at hflush
  cases htaken : s.lastTaken with
  | none =>
    rw [htaken] at hflush
    cases hflush
    exact ⟨rfl, by rw [forced, htaken]; exact (List.append_nil _).symm, rfl⟩
  | some q =>
    rw [htaken] at hflush
    rcases ask_cases s q true with ⟨_, store, hsave, hask⟩ | ⟨_, store, -, hask⟩
    · simp only [Option.isSome_some, if_true, hask] at hflush
      cases hflush
      exact ⟨rfl, by rw [forced, htaken]; rfl, reliable.forced hsave⟩
    · simp only [Option.isSome_some, if_true, hask] at hflush
      cases hflush

/-- **What a flush stores.**  Confirmations come in any order, and the store may refuse any call.  A
flush that succeeds answers the last position the store took and makes the store hold it.  That is
the greatest gapless position, and no call asked for a smaller one than a call before it, exactly if
the last call of a confirmation was not refused. -/
theorem flush_complete_iff (reliable : Reliable σ position?) (subscription : String) (store : σ)
    (ascending : Ascending confirmed)
    {answer : Option Nat}
    (hflush : (confirmAll { subscription, store } confirmed).flush = (.ok answer, s')) :
    ∃ greatest, Greatest confirmed greatest ∧
      answer = (confirmAll { subscription, store } confirmed).lastTaken.map (·.position) ∧
      position? s'.store subscription = answer.or (position? store subscription) ∧
      ((answer = greatest.map (·.position) ∧
        position? s'.store subscription =
          (greatest.map (·.position)).or (position? store subscription) ∧
        (s'.asked.map (·.position.position)).Pairwise (· ≤ ·)) ↔
        (confirmAll { subscription, store } confirmed).missed = false) := by
  have htracks := (tracks_new subscription store).confirmAll confirmed
  rw [List.nil_append] at htracks
  obtain ⟨hsame, hkept⟩ := store_confirmAll reliable { subscription, store } confirmed
  obtain ⟨hanswer, hasked, hstored⟩ := htracks.flush reliable hflush
  have hcomplete := htracks.complete_iff ascending
  rw [← hasked, ← hanswer] at hcomplete
  have hheld : position? s'.store subscription = answer.or (position? store subscription) := by
    rw [hsame] at hstored
    rw [hstored]
    cases htaken : (confirmAll { subscription, store } confirmed).lastTaken with
    | none => rw [(hkept htaken).2]
    | some q => rw [hanswer, htaken]; rfl
  refine ⟨_, htracks.follows.greatest, hanswer, hheld, ?_⟩
  rw [← hcomplete]
  refine ⟨fun ⟨hsame, _, hpairwise⟩ => ⟨hsame, hpairwise⟩,
    fun ⟨hsame, hpairwise⟩ => ⟨hsame, ?_, hpairwise⟩⟩
  rw [hheld, hsame]

/-! ## 5. Refusals -/

/-- A store that keeps the last position it took can be relied on. -/
theorem reliable_of_remembers (h : Remembers σ position?) : Reliable σ position? where
  refused := by
    intro c force store store' error hcall
    rcases h.save store ⟨c, force⟩ with ⟨hok, -⟩ | ⟨-, hkept⟩
    · rw [SaveCall.run, hcall] at hok
      cases hok
    · rw [SaveCall.run, hcall] at hkept
      exact hkept c.subscription
  forced := by
    intro c c' store store' hcall
    rcases h.save store ⟨c, true⟩ with ⟨-, hset⟩ | ⟨⟨e, herror⟩, -⟩
    · rw [SaveCall.run, hcall] at hset
      exact (hset c.subscription).trans (if_pos rfl)
    · rw [SaveCall.run, hcall] at herror
      cases herror

/-- A store behind faults can be relied on: a fault comes before anything happens. -/
theorem reliable_faulty :
    Reliable FaultyCheckpoints fun store subscription => store.memory.position? subscription :=
  reliable_of_remembers remembers_faulty

/-- The `n`-th position of a sample. -/
def nth (n : Nat) : CommitPosition := ⟨100 + n, n, ⟨n⟩⟩

/-- A store that takes or refuses its first calls as it is told, and takes all others. -/
def refusing (refused : List Bool) : FaultyCheckpoints :=
  { faults := .ofList
      [("store", refused.map fun refuse =>
        if refuse then some (.backend "unavailable") else none)] }

/-- The first call is refused; the second one goes further, and the flush makes up for both. -/
theorem refusal_is_made_up_for :
    ∃ s', (confirmAll { subscription := "sub", store := refusing [true] }
        [nth 1, nth 0, nth 3, nth 0, nth 2]).flush = (.ok (some 103), s') ∧
      s'.store.memory.position? "sub" = some 103 ∧
      (s'.asked.map (·.position.position)).Pairwise (· ≤ ·) ∧
      ∃ p, Greatest [nth 1, nth 0, nth 3, nth 0, nth 2] (some p) ∧ p.position = 103 := by
  have hascending : Ascending [nth 1, nth 0, nth 3, nth 0, nth 2] := by decide
  have hflush : (confirmAll { subscription := "sub", store := refusing [true] }
      [nth 1, nth 0, nth 3, nth 0, nth 2]).flush = (.ok (some 103), _) := rfl
  obtain ⟨greatest, hgreatest, -, hheld, hcomplete⟩ :=
    flush_complete_iff reliable_faulty "sub" (refusing [true]) hascending hflush
  obtain ⟨hanswer, -, hpairwise⟩ := hcomplete.2 rfl
  refine ⟨_, rfl, hheld, hpairwise, ?_⟩
  cases greatest with
  | none => cases hanswer
  | some p => exact ⟨p, hgreatest, (Option.some.inj hanswer).symm⟩

/-- The only call is refused: the flush answers that nothing was stored, although a position was
confirmed with nothing before it.  Likewise a call behind one that was taken: the flush goes back
and answers the smaller position. -/
theorem refusal_is_forgotten :
    (∃ s', (confirmAll { subscription := "sub", store := refusing [true] } [nth 0]).flush =
        (.ok none, s') ∧ s'.store.memory.position? "sub" = none ∧ Gapless [nth 0] (nth 0)) ∧
    ∃ s', (confirmAll { subscription := "sub", store := refusing [false, true] }
        [nth 0, nth 1]).flush = (.ok (some 100), s') ∧
      s'.store.memory.position? "sub" = some 100 ∧ Gapless [nth 0, nth 1] (nth 1) ∧
      s'.asked.map (·.position.position) = [100, 101, 100] :=
  ⟨⟨_, rfl, rfl, rfl, by decide⟩, _, rfl, rfl, ⟨rfl, by decide⟩, rfl⟩

end Saving

/-! ## 6. The confirmations of a run -/

/-- The store's answer as a run gets it. -/
def Reply.of {ε α : Type} : Except ε α → Reply ε Unit
  | .ok _ => .ok ()
  | .error error => .failed error

namespace Run

variable {F : PayloadFamily} {σ : Type} [CheckpointStore σ]

/-- A run confirms a position in two steps, with the call to the store between them. -/
theorem committer_of_confirm (s : Subscription F) (r : Run F) (t : Task F) (saving : Saving σ)
    (hid : saving.subscription = s.options.id) (hsame : saving.committer = r.committer) :
    match (confirm s r t).2 with
    | [.storing c force] => ∃ p, c = s.checkpoint p.position ∧ force = false ∧
      (saving.confirm t.message.position).2.committer =
        ((confirm s r t).1.stored t p
          (.of (CheckpointStore.save c force saving.store).1)).1.committer
    | _ =>
      saving.confirm t.message.position =
        (.ok (), { saving with committer := (confirm s r t).1.committer }) := by
  unfold confirm Saving.confirm
  rw [hsame]
  match r.committer.confirm t.message.position with
  | (none, c) => rfl
  | (some p, c) =>
    refine ⟨p, rfl, rfl, ?_⟩
    rcases Saving.ask_cases { saving with committer := c } p false with ⟨_, store, hsave, hask⟩ |
      ⟨_, store, hsave, hask⟩ <;>
    · dsimp only at hsave
      rw [hid] at hsave
      simp only [hask, Subscription.checkpoint, hsave, Reply.of]
      rfl

/-- It flushes in two steps likewise. -/
theorem committer_of_flush (s : Subscription F) (r : Run F) (saving : Saving σ)
    (hid : saving.subscription = s.options.id) (hsame : saving.committer = r.committer) :
    match (flush s r).1.phase with
    | .flushing p =>
      (flush s r).2 = [.storing (s.checkpoint p.position) true] ∧
        saving.flush.2.committer = ((flush s r).1.flushed
          (.of (CheckpointStore.save (s.checkpoint p.position) true saving.store).1)).1.committer
    | _ => saving.flush = (.ok (r.committer.last.map (·.position)), saving) := by
  unfold flush Saving.flush
  rw [hsame]
  match r.committer.due with
  | none => rw [finish_eq]
  | some p =>
    refine ⟨rfl, ?_⟩
    rcases Saving.ask_cases saving p true with ⟨_, store, hsave, hask⟩ | ⟨_, store, hsave, hask⟩ <;>
    · rw [hid] at hsave
      simp only [hask, Subscription.checkpoint, hsave, Reply.of, flushed, finish_eq, hsame, drop]

end Run

end EventSourcing

/-
# The lifetime of a subscription

A subscription is run again and again under one identifier, over one store of events.  A run ends by
itself, well or with an error, or the process breaks off with it at any point; then nothing of it is
left but what its checkpoint store holds behind the batches.  Events are appended all the while.

What the file settles:

* `Lifetime.Step`, `Lifetime.Leads`: what can happen, and what it leads to;
* `Episode.Sound`: what holds of every run of a lifetime, the ones that broke off among them;
* `Lifetime.Stands`: where the stored checkpoint stands while a run is on.
-/
import EventSourcing.Proofs.Checkpoint
import EventSourcing.Proofs.Run.Committing
import EventSourcing.Proofs.Run.Sourcing
import EventSourcing.Proofs.Store.Log

namespace EventSourcing

open MemoryStore Run

variable {F : PayloadFamily}

/-! ## 1. Runs of a lifetime -/

/-- One run: how the subscription was configured for it, and what it went through. -/
structure Episode (F : PayloadFamily) where
  subscription : Subscription F
  history : List (Entry F)
  run : Run F

/-- The store of events, the checkpoints, and the runs so far. -/
structure Lifetime (F : PayloadFamily) where
  store : MemoryStore := {}
  checkpoints : LayeredCheckpoints MemoryCheckpoints
  /-- The runs that are over, in order. -/
  past : List (Episode F) := []
  /-- The run that is on. -/
  current : Option (Episode F) := none
  /-- Whether the checkpoint the run is asking for was taken. -/
  taken : Bool := false

namespace Episode

/-- The run before its first step. -/
def new (s : Subscription F) : Episode F := ⟨s, [], {}⟩

/-- The run after one more step. -/
def after (e : Episode F) (a : Run.Action) (r : Run F) (effects : List (Effect F)) : Episode F :=
  ⟨e.subscription, e.history ++ [⟨e.run, a, r, effects⟩], r⟩

/-- The run has ended well, and everything it handed out is confirmed. -/
def Clean (e : Episode F) : Prop :=
  e.run.phase = .finished (.ok ()) ∧
    ∀ m ∈ dispatched e.history, IsConfirmed e.subscription e.history m.sequence

/-- The position of the last message, or of the checkpoint the run began with. -/
def last (e : Episode F) : Option Nat := lastOf (origin e.history) (positions e.history)

end Episode

namespace Lifetime

/-- The position that is stored for the subscription, behind all batches. -/
def position? (l : Lifetime F) (id : String) : Option Nat := l.checkpoints.physical.position? id

/-- All runs, the one that is on as the last. -/
def runs (l : Lifetime F) : List (Episode F) := l.past ++ l.current.toList

/-- What the run may be answered: the checkpoint that is stored, a page of the log as it was at some
time, and that a checkpoint was stored only once it was taken. -/
def Answers (l : Lifetime F) (e : Episode F) : Run.Action → Prop
  | .checkpointLoaded reply =>
    ∃ c, (LayeredCheckpoints.load e.subscription.options.id l.checkpoints).1 = .ok c ∧ reply = .ok c
  | .pageRead reply => ∃ cursor s, e.run.phase = .reading cursor ∧ Grown s l.store ∧
    reply = .ok (s.readAll cursor.after e.subscription.options.pageSize)
  | .stored _ reply | .flushed reply => reply = .ok () ∧ l.taken = true
  | _ => True

/-- Whether the checkpoint asked for was taken; an answer ends the asking. -/
def takenAfter (taken : Bool) : Run.Action → Bool
  | .stored _ _ | .flushed _ => false
  | _ => taken

/-- What can happen in the lifetime of the subscription `id`. -/
inductive Step (id : String) : Lifetime F → Lifetime F → Prop where
  /-- Events are appended, or streams are truncated or deleted. -/
  | stored {l : Lifetime F} {store : MemoryStore} (does : Does l.store store) :
    Step id l { l with store }
  /-- Another subscription stores a checkpoint. -/
  | elsewhere {l : Lifetime F} (c : Checkpoint) (force : Bool) (other : c.subscription ≠ id) :
    Step id l { l with checkpoints := (LayeredCheckpoints.save c force l.checkpoints).2 }
  /-- A run over all events begins, as none is on. -/
  | begun {l : Lifetime F} (s : Subscription F) (own : s.options.id = id)
    (all : s.position = (·.globalPosition)) (idle : l.current = none) :
    Step id l { l with current := some (.new s), taken := false }
  | acted {l : Lifetime F} {e : Episode F} {a : Run.Action} {r : Run F} {effects : List (Effect F)}
    (on : l.current = some e) (made : Run.step e.subscription e.run a = some (r, effects))
    (answers : l.Answers e a) :
    Step id l { l with current := some (e.after a r effects), taken := takenAfter l.taken a }
  /-- The checkpoint the run asks for is taken. -/
  | took {l : Lifetime F} {e : Episode F} {c : Checkpoint} {force : Bool} (on : l.current = some e)
    (asks : Asks e.subscription e.run c force) (once : l.taken = false) :
    Step id l
      { l with checkpoints := (LayeredCheckpoints.save c force l.checkpoints).2, taken := true }
  /-- The run has ended by itself. -/
  | ended {l : Lifetime F} {e : Episode F} {result : Except SubscriptionError Unit}
    (on : l.current = some e) (finished : e.run.phase = .finished result) :
    Step id l { l with past := l.past ++ [e], current := none }
  /-- The process breaks off.  The batches are set up anew, over what is behind them. -/
  | crashed {l : Lifetime F} (checkpoints : LayeredCheckpoints MemoryCheckpoints)
    (kept : checkpoints.physical = l.checkpoints.physical) :
    Step id l { l with checkpoints, past := l.runs, current := none }

/-- Any number of steps. -/
inductive Leads (id : String) : Lifetime F → Lifetime F → Prop where
  | none {l : Lifetime F} : Leads id l l
  | step {l₁ l₂ l₃ : Lifetime F} (before : Leads id l₁ l₂) (step : Step id l₂ l₃) : Leads id l₁ l₃

/-- A lifetime before its first run, with batches of any sizes. -/
def start (sizes : List Nat) : Lifetime F := { checkpoints := .ofSizes {} sizes }

/-- What a lifetime can come to. -/
def Reachable (id : String) (l : Lifetime F) : Prop := ∃ sizes, Leads id (start sizes) l

end Lifetime

/-! ## 2. What holds of every run -/

/-- The run was one of the subscription over all events, and it was given events of the store
only. -/
structure Episode.Sound (id : String) (store : MemoryStore) (e : Episode F) : Prop where
  own : e.subscription.options.id = id
  all : e.subscription.position = (·.globalPosition)
  hist : History e.subscription e.history e.run
  reads : Reads Next e.subscription e.history
  served : Served e.history
  given : ∀ event, Given e.history event → event ∈ store.log.toList

namespace Episode

variable {id : String} {e : Episode F}

theorem Sound.mono {store store' : MemoryStore} (sound : e.Sound id store)
    (grown : Grown store store') : e.Sound id store' :=
  ⟨sound.own, sound.all, sound.hist, sound.reads, sound.served,
    fun event h => grown.mem (sound.given event h)⟩

theorem sound_new {s : Subscription F} (own : s.options.id = id)
    (all : s.position = (·.globalPosition)) (store : MemoryStore) : (new s).Sound id store := by
  refine ⟨own, all, .begin, fun entry hentry => ?_, fun entry hentry => ?_, ?_⟩
  · cases hentry
  · cases hentry
  · rintro event ⟨entry, hentry, -⟩
    cases hentry

theorem Sound.after {l : Lifetime F} (sound : e.Sound id l.store)
    (hn : l.store.Numbered) {a : Run.Action} {r : Run F} {effects : List (Effect F)}
    (made : Run.step e.subscription e.run a = some (r, effects))
    (answers : l.Answers e a) : (e.after a r effects).Sound id l.store := by
  constructor
  case own => exact sound.own
  case all => exact sound.all
  case hist => exact sound.hist.step made
  case reads =>
    intro entry hentry cursor page phase action
    rcases List.mem_append.1 hentry with hentry | hentry
    · exact sound.reads entry hentry cursor page phase action
    · cases List.mem_singleton.1 hentry
      dsimp only at phase action
      subst action
      obtain ⟨cursor', s, phase', grown, hpage⟩ := answers
      cases phase.symm.trans phase'
      cases hpage
      have hall : (e.after
          (.pageRead (.ok (s.readAll cursor.after e.subscription.options.pageSize)))
          r effects).subscription.position = (·.globalPosition) := sound.all
      rw [hall, chained_next_iff, List.length_map]
      exact globalPosition_readAll (grown.global hn) _ _
  case served =>
    intro entry hentry
    rcases List.mem_append.1 hentry with hentry | hentry
    · exact sound.served entry hentry
    · cases List.mem_singleton.1 hentry
      refine ⟨fun n reply action => ?_, fun reply action => ?_⟩
      · dsimp only at action
        subst action
        exact answers.1
      · dsimp only at action
        subst action
        exact answers.1
  case given =>
    rintro event ⟨entry, hentry, page, action, hevent⟩
    rcases List.mem_append.1 hentry with hentry | hentry
    · exact sound.given event ⟨entry, hentry, page, action, hevent⟩
    · cases List.mem_singleton.1 hentry
      dsimp only at action
      subst action
      obtain ⟨cursor, s, -, grown, hpage⟩ := answers
      cases hpage
      exact grown.mem (mem_of_readAll hevent)

/-- The message with a number stands that far behind the checkpoint of its run. -/
theorem Sound.position_eq {store : MemoryStore} (sound : e.Sound id store) {p : CommitPosition}
    (hp : p ∈ (dispatched e.history).map (·.position)) :
    p.position = nextOf (origin e.history) + p.sequence :=
  Run.position_eq sound.hist sound.reads hp

/-- What a run has handed out stands in a row. -/
theorem Sound.positions_eq {store : MemoryStore} (sound : e.Sound id store) :
    positions e.history = List.range' (nextOf (origin e.history)) (positions e.history).length :=
  chained_next_iff.1 (Run.followed sound.hist sound.reads).chained

theorem Sound.nextOf_last {store : MemoryStore} (sound : e.Sound id store) :
    nextOf e.last = nextOf (origin e.history) + (positions e.history).length :=
  nextOf_lastOf (Run.followed sound.hist sound.reads).chained

end Episode

/-! ## 3. Where the checkpoint stands -/

namespace Lifetime

variable {id : String} {store : MemoryStore} {e : Episode F} {stored : Option Nat} {taken : Bool}
  {a : Run.Action} {r : Run F} {effects : List (Effect F)}

/-- The stored position is that of a message of the run, and the number of the message has this
property. -/
def StoredAt (e : Episode F) (stored : Option Nat) (number : Nat → Prop) : Prop :=
  ∃ p ∈ (dispatched e.history).map (·.position), stored = some p.position ∧ number p.sequence

/-- Where the stored position stands while the run is on: at the checkpoint it began with, or at a
message it has taken out; and at its very end once it has ended well. -/
structure Stands (stored : Option Nat) (taken : Bool) (e : Episode F) : Prop where
  asking : taken = true → ∃ c force, Asks e.subscription e.run c force
  began : ¬e.run.phase.IsEarly →
    stored = origin e.history ∨ StoredAt e stored (· < e.run.committer.sequence.next)
  flushing : ∀ p, e.run.phase = .flushing p → taken = true → stored = some p.position
  finished : e.run.phase = .finished (.ok ()) →
    e.run.committer.sequence.next = 0 ∧ stored = origin e.history ∨
    StoredAt e stored (· + 1 = e.run.committer.sequence.next)

theorem stands_new (s : Subscription F) (stored : Option Nat) :
    Stands stored false (Episode.new s) :=
  ⟨nofun, fun late => (late trivial).elim, nofun, nofun⟩

theorem takenAfter_eq_true (h : takenAfter taken a = true) :
    taken = true ∧ (∀ n reply, a ≠ .stored n reply) ∧ ∀ reply, a ≠ .flushed reply := by
  cases a <;> simp_all [takenAfter]

theorem StoredAt.after {number number' : Nat → Prop} (h : StoredAt e stored number)
    (himp : ∀ n, number n → number' n) : StoredAt (e.after a r effects) stored number' := by
  obtain ⟨p, hp, hstored, hnumber⟩ := h
  exact ⟨p, mem_dispatched_mono hp _, hstored, himp _ hnumber⟩

/-- The poller leaves its beginning with the checkpoint it was given. -/
theorem origin_of_began (sound : e.Sound id store)
    (made : Run.step e.subscription e.run a = some (r, effects))
    (loaded : ∀ reply, a = .checkpointLoaded reply → ∃ c, reply = .ok c ∧ c.position = stored)
    (early : e.run.phase.IsEarly) (late : ¬r.phase.IsEarly) :
    stored = origin (e.after a r effects).history := by
  have of_loaded : ∀ c : Checkpoint, a = .checkpointLoaded (.ok c) →
      stored = origin (e.after a r effects).history := by
    rintro c rfl
    obtain ⟨c', heq, hposition⟩ := loaded _ rfl
    cases heq
    rw [Episode.after, Followed.origin_snoc, ((Run.followed sound.hist sound.reads).early early).1]
    exact hposition.symm
  rcases (transition_of_step made).polls_or_aside with polls | aside
  · cases polls with
    | subscribed => exact (late trivial).elim
    | loaded => exact of_loaded _ rfl
    | unloaded =>
      obtain ⟨c, heq, -⟩ := loaded _ rfl
      cases heq
    | aborted reason =>
      cases reason with
      | infeasible => exact of_loaded _ rfl
      | loading =>
        obtain ⟨c, heq, -⟩ := loaded _ rfl
        cases heq
      | reading phase | delivering phase | flushing phase => simp [phase, Phase.IsEarly] at early
    | stopped reason => cases reason <;> simp_all [Phase.IsEarly]
    | interrupted phase => rcases phase with phase | phase <;> simp [phase, Phase.IsEarly] at early
    | nothingNew phase | pageArrived phase | readAgain phase | woken phase | delivered phase
    | undelivered phase
    | halted phase | flushing phase | unflushed phase | flushed phase | flushFailed phase =>
      simp [phase, Phase.IsEarly] at early
  · rw [aside.phase] at late
    exact (late early).elim

/-- A run that ends well leaves its last position behind. -/
theorem Stands.finished_after (stands : Stands stored taken e) (sound : e.Sound id store)
    (made : Run.step e.subscription e.run a = some (r, effects))
    (answered : ∀ reply, a = .flushed reply → reply = .ok () ∧ taken = true)
    (ok : r.phase = .finished (.ok ())) :
    r.committer.sequence.next = 0 ∧ stored = origin (e.after a r effects).history ∨
      StoredAt (e.after a r effects) stored (· + 1 = r.committer.sequence.next) := by
  have hmove := transition_of_step made
  have hc := committing sound.hist sound.served
  have hlate : ∀ {phase : Phase}, e.run.phase = phase → ¬phase.IsEarly →
      origin (e.after a r effects).history = origin e.history := fun here late =>
    origin_stays hmove (here ▸ late)
  rcases hmove.polls_or_aside with polls | aside
  · cases polls with
    | unflushed phase empty due =>
      -- Nothing was due, so nothing was ever stored.
      rcases hc.last_of_free (by simp [empty]) with ⟨hnext, -⟩ | ⟨p, hlast, -⟩
      · refine .inl ⟨hnext, ?_⟩
        rw [hlate phase fun h => h]
        rcases stands.began (phase ▸ fun h => h) with heq | ⟨p, -, -, hlt⟩
        · exact heq
        · rw [hnext] at hlt
          exact (Nat.not_lt_zero _ hlt).elim
      · rcases hc.dirty p hlast with dirty | ⟨result, finished⟩
        · simp [Committer.due, dirty, hlast] at due
        · cases phase.symm.trans finished
    | @flushed p phase =>
      obtain ⟨-, htaken⟩ := answered _ rfl
      obtain ⟨q, -, hq, hnext, heq⟩ := (Asks.flushing phase).last sound.hist sound.served
      cases heq p phase
      exact .inr ⟨p, mem_dispatched_mono hq _, stands.flushing p phase htaken, hnext⟩
    | flushFailed =>
      obtain ⟨hreply, -⟩ := answered _ rfl
      cases hreply
    | delivered here decoded place continues =>
      dsimp only at ok
      subst ok
      cases continues
    | _ => cases ok
  · have here := aside.phase.symm.trans ok
    cases rests_of_finished sound.hist made here
    rw [hlate here fun h => h]
    exact (stands.finished here).imp_right fun h => h.after fun _ h => h

theorem Stands.after (stands : Stands stored taken e) (sound : e.Sound id store)
    (made : Run.step e.subscription e.run a = some (r, effects))
    (loaded : ∀ reply, a = .checkpointLoaded reply → ∃ c, reply = .ok c ∧ c.position = stored)
    (answered : ∀ reply, a = .flushed reply → reply = .ok () ∧ taken = true) :
    Stands stored (takenAfter taken a) (e.after a r effects) := by
  have hn := numbered sound.hist
  have hmove := transition_of_step made
  have hnext := hmove.next_le (gapless sound.hist)
  have hempty := (winding sound.hist).empty
  constructor
  case asking =>
    intro htaken
    obtain ⟨htaken, hstored, hflushed⟩ := takenAfter_eq_true htaken
    obtain ⟨c, force, asks⟩ := stands.asking htaken
    exact ⟨c, force, asks.stays hn hmove hstored hflushed⟩
  case began =>
    intro late
    by_cases early : e.run.phase.IsEarly
    · exact .inl (origin_of_began sound made loaded early late)
    · rw [Episode.after, origin_stays hmove early]
      exact (stands.began early).imp_right fun h => h.after fun n hlt =>
        Nat.lt_of_lt_of_le hlt hnext
  case flushing =>
    intro p phase htaken
    obtain ⟨htaken, -, -⟩ := takenAfter_eq_true htaken
    replace phase : r.phase = .flushing p := phase
    rcases hmove.polls_or_aside with polls | aside
    · -- The last checkpoint has just been asked for, so nothing can have been taken.
      obtain ⟨here, hnone, -⟩ := polls.due_of_flushing phase
      obtain ⟨c, force, asks⟩ := stands.asking htaken
      cases asks with
      | storing ht =>
        rw [hnone] at ht
        cases ht
      | flushing phase' => cases here.symm.trans phase'
    · exact stands.flushing p (aside.phase.symm.trans phase) htaken
  case finished =>
    intro ok
    replace ok : r.phase = .finished (.ok ()) := ok
    exact stands.finished_after sound made answered ok

/-! ## 4. Taking a checkpoint -/

/-- A run that asks for a checkpoint has left its beginning. -/
theorem late_of_asks (sound : e.Sound id store) {c : Checkpoint} {force : Bool}
    (asks : Asks e.subscription e.run c force) : ¬e.run.phase.IsEarly := by
  intro early
  obtain ⟨p, -, hp, -⟩ := asks.last sound.hist sound.served
  rw [(numbered sound.hist).early early] at hp
  cases hp

/-- The checkpoint is taken, or a batch holds it back. -/
theorem Stands.take (stands : Stands stored false e) (sound : e.Sound id store)
    {c : Checkpoint} {force : Bool} (asks : Asks e.subscription e.run c force)
    {stored' : Option Nat} (either : stored' = stored ∨ stored' = c.position)
    (forced : force = true → stored' = c.position) : Stands stored' true e := by
  have hempty := (winding sound.hist).empty
  obtain ⟨p, hc, hp, hnext, -⟩ := asks.last sound.hist sound.served
  constructor
  case asking => exact fun _ => ⟨c, force, asks⟩
  case began =>
    intro late
    rcases either with rfl | heq
    · exact stands.began late
    · exact .inr ⟨p, hp, by rw [heq, hc]; rfl, Nat.lt_of_succ_le (Nat.le_of_eq hnext)⟩
  case flushing =>
    intro q phase _
    cases asks with
    | storing ht =>
      rw [hempty (by rw [phase]; trivial)] at ht
      cases ht
    | flushing phase' =>
      cases phase.symm.trans phase'
      exact forced rfl
  case finished =>
    intro ok
    cases asks with
    | storing ht =>
      rw [hempty (by rw [ok]; trivial)] at ht
      cases ht
    | flushing phase' => cases ok.symm.trans phase'

/-- What a run asks for is not behind what is stored. -/
theorem Stands.le_of_asks (stands : Stands stored taken e) (sound : e.Sound id store)
    {c : Checkpoint} {force : Bool} (asks : Asks e.subscription e.run c force) {p : Nat}
    (hp : stored = some p) : ∃ q, c.position = some q ∧ p ≤ q := by
  obtain ⟨q, rfl, hq, hnext, -⟩ := asks.last sound.hist sound.served
  refine ⟨q.position, rfl, ?_⟩
  rw [sound.position_eq hq]
  rcases stands.began (late_of_asks sound asks) with heq | ⟨p', hp', heq, hlt⟩
  · rw [← heq, hp]
    show p ≤ p + 1 + q.sequence
    omega
  · have hposition := sound.position_eq hp'
    cases hp.symm.trans heq
    omega

/-- When a run ends well with everything confirmed, the position of its last message is stored. -/
theorem Stands.last_of_clean (stands : Stands stored taken e) (sound : e.Sound id store)
    (clean : e.Clean) : stored = e.last := by
  have hempty := (winding sound.hist).empty (by rw [clean.1]; trivial)
  have hlength := next_eq_length sound.hist sound.served hempty clean.2
  rcases stands.finished clean.1 with ⟨hnext, heq⟩ | ⟨p, hp, heq, hnext⟩
  · have hnone : positions e.history = [] := by
      rw [positions, List.eq_nil_of_length_eq_zero (hlength.symm.trans hnext), List.map_nil]
    rw [heq, Episode.last, hnone]
    rfl
  · have hlast := sound.nextOf_last
    rw [positions, List.length_map, ← hlength, ← hnext] at hlast
    rw [heq, sound.position_eq hp]
    cases hx : e.last with
    | none =>
      rw [hx] at hlast
      have hzero : nextOf none = 0 := rfl
      omega
    | some x =>
      rw [hx] at hlast
      have hsucc : nextOf (some x) = x + 1 := rfl
      congr 1
      omega

end Lifetime
end EventSourcing

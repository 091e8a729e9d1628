/-
# Publishing in chunks

What a publisher is sent when messages are published, and what a store holds afterwards.  To see
what a publisher is sent it is watched: a watched publisher notes every chunk with the answer, and
nothing else comes of it.

A store takes a chunk or leaves it.  So a call that fails has left the chunks before the failing
one, and a caller that repeats it until it succeeds has every message in the log, those of earlier
attempts more than once.  Between two attempts others may use the store, and the messages may be
written by another registry.

What the file settles:

* `Chunked`, `chunked_chunksOf`: chunks are full but for the last one;
* `Completes`: a message with the entries it lacks;
* `Watched`, `Account`: what a publisher is sent, and what comes of it; `sendAll_watched`;
* `Holds`, `Gains`, `Reaches`: what a store that is published to gains; `sendAll_reaches`;
* `Repeats`: the same call until it succeeds;
* `publishing_loses_and_moves_nothing`.
-/
import EventSourcing.Publishing.Recorder
import EventSourcing.Store.Faulty
import EventSourcing.Proofs.Store.Log
import EventSourcing.Sample.Ticks
import Mathlib.Data.List.Forall2

namespace EventSourcing
namespace Publishing

variable {F : PayloadFamily}

/-! ## 1. Chunks and messages -/

section Chunks

variable {α : Type} {size : Nat} {chunk : List α} {chunks : List (List α)}

/-- No chunk is empty, and only the last one may have less than `size` elements; a size of zero
counts as one. -/
structure Chunked (size : Nat) (chunks : List (List α)) : Prop where
  nonempty : ∀ chunk ∈ chunks, chunk ≠ []
  bounded : ∀ chunk ∈ chunks, chunk.length ≤ max size 1
  full : ∀ chunk ∈ chunks.dropLast, chunk.length = max size 1

theorem chunked_nil : Chunked size ([] : List (List α)) :=
  ⟨List.forall_mem_nil _, List.forall_mem_nil _, List.forall_mem_nil _⟩

theorem Chunked.cons (rest : Chunked size chunks) (nonempty : chunk ≠ [])
    (bounded : chunk.length ≤ max size 1) (full : chunks ≠ [] → chunk.length = max size 1) :
    Chunked size (chunk :: chunks) := by
  refine ⟨List.forall_mem_cons.2 ⟨nonempty, rest.nonempty⟩,
    List.forall_mem_cons.2 ⟨bounded, rest.bounded⟩, ?_⟩
  by_cases last : chunks = []
  · subst last
    exact List.forall_mem_nil _
  · rw [List.dropLast_cons_of_ne_nil last]
    exact List.forall_mem_cons.2 ⟨full last, rest.full⟩

theorem chunked_chunksOf (size : Nat) (l : List α) : Chunked size (chunksOf size l) := by
  fun_induction chunksOf size l with
  | case1 => exact chunked_nil
  | case2 l nonempty chunk ih =>
    have here : 0 < l.length := List.length_pos_iff.2 nonempty
    refine ih.cons ?_ (by rw [List.length_take]; exact Nat.min_le_left _ _) fun more => ?_
    · rw [← List.length_pos_iff, List.length_take]
      omega
    · rw [List.length_take, Nat.min_eq_left]
      -- A rest that makes chunks is not empty, so the first chunk is full.
      refine Nat.le_of_lt (Nat.lt_of_not_le fun short => more ?_)
      rw [List.drop_eq_nil_of_le short, chunksOf, if_pos rfl]

end Chunks

/-- The message as it was, with the entries of the call under the keys it does not have. -/
structure Completes (metadata : Metadata) (m m' : OutgoingMessage F) : Prop where
  id : m'.id = m.id
  payload : m'.payload = m.payload
  type : m'.type = m.type
  metadata : ∀ key, m'.metadata.get? key = (m.metadata.get? key).or (metadata.get? key)

/-! ## 2. What a publisher is sent -/

/-- A chunk as it was sent, and the answer. -/
structure SentChunk (F : PayloadFamily) where
  stream : StreamName
  messages : List (OutgoingMessage F)
  options : PublishOptions
  answer : Except PublishError Unit

/-- A publisher, and the chunks it was sent. -/
structure Watched (F : PayloadFamily) (π : Type) where
  publisher : π
  sent : List (SentChunk F)

section Watching

variable {π : Type} [Publisher F π]

/-- Sends a chunk and notes it. -/
def Watched.send (stream : StreamName) (messages : List (OutgoingMessage F))
    (options : PublishOptions) : Call (Watched F π) PublishError Unit := fun w =>
  let (answer, publisher) := Publisher.send stream messages options w.publisher
  (answer, ⟨publisher, w.sent ++ [⟨stream, messages, options, answer⟩]⟩)

instance : Publisher F (Watched F π) where
  latency w := Publisher.latency F w.publisher
  send := Watched.send

end Watching

/-- What came of sending chunks: the ones that were sent, and the result. -/
structure Account (stream : StreamName) (options : PublishOptions)
    (chunks : List (List (OutgoingMessage F))) (sent : List (SentChunk F))
    (result : Except PublishError Unit) : Prop where
  /-- The chunks are sent in order. -/
  inOrder : sent.map (·.messages) <+: chunks
  /-- Every chunk goes to the stream and has the options of the call. -/
  addressed : ∀ c ∈ sent, c.stream = stream ∧ c.options = options
  /-- The call succeeds if all chunks are accepted, and only then. -/
  succeeds : result = .ok () ↔ sent.map (·.messages) = chunks ∧ ∀ c ∈ sent, c.answer = .ok ()
  /-- A call that fails does so as the first chunk did that was not accepted, which is the last one
  sent, unless the time is over while the next one is under way. -/
  fails : ∀ error, result = .error error →
    (∃ accepted last, sent = accepted ++ [last] ∧ (∀ c ∈ accepted, c.answer = .ok ()) ∧
      last.answer = .error error) ∨
      ∃ limit chunk, options.deadline = some limit ∧ error = .timedOut limit ∧
        sent.map (·.messages) ++ [chunk] <+: chunks ∧ ∀ c ∈ sent, c.answer = .ok ()

section Account

variable {stream : StreamName} {options : PublishOptions} {chunk : List (OutgoingMessage F)}
  {rest : List (List (OutgoingMessage F))} {sent : List (SentChunk F)}
  {result : Except PublishError Unit}

theorem account_nil : Account (F := F) stream options [] [] (.ok ()) where
  inOrder := List.nil_prefix
  addressed := List.forall_mem_nil _
  succeeds := by simp
  fails error failed := by cases failed

/-- The first chunk was accepted. -/
theorem Account.accepted (account : Account stream options rest sent result) :
    Account stream options (chunk :: rest) (⟨stream, chunk, options, .ok ()⟩ :: sent) result where
  inOrder := List.cons_prefix_cons.2 ⟨rfl, account.inOrder⟩
  addressed := List.forall_mem_cons.2 ⟨⟨rfl, rfl⟩, account.addressed⟩
  succeeds := by simp [account.succeeds]
  fails error failed := by
    rcases account.fails error failed with
      ⟨before, last, rfl, accepted, answer⟩ | ⟨limit, next, hlimit, herror, more, accepted⟩
    · exact .inl ⟨_ :: before, last, rfl, List.forall_mem_cons.2 ⟨rfl, accepted⟩, answer⟩
    · exact .inr ⟨limit, next, hlimit, herror, List.cons_prefix_cons.2 ⟨rfl, more⟩,
        List.forall_mem_cons.2 ⟨rfl, accepted⟩⟩

/-- The first chunk failed. -/
theorem account_failed (error : PublishError) :
    Account stream options (chunk :: rest) [⟨stream, chunk, options, .error error⟩]
      (.error error) where
  inOrder := List.cons_prefix_cons.2 ⟨rfl, List.nil_prefix⟩
  addressed := by simp
  succeeds := by simp
  fails _ failed := by
    cases failed
    exact .inl ⟨[], _, rfl, List.forall_mem_nil _, rfl⟩

/-- The time was over before the first chunk had arrived. -/
theorem account_late {limit : Duration} (hlimit : options.deadline = some limit) :
    Account stream options (chunk :: rest) [] (.error (.timedOut limit)) where
  inOrder := List.nil_prefix
  addressed := List.forall_mem_nil _
  succeeds := by simp
  fails _ failed := by
    cases failed
    exact .inr ⟨limit, chunk, hlimit, rfl, List.cons_prefix_cons.2 ⟨rfl, List.nil_prefix⟩,
      List.forall_mem_nil _⟩

end Account

section Steps

variable {π : Type} [Publisher F π] {stream : StreamName} {options : PublishOptions}
  {chunk : List (OutgoingMessage F)} {rest : List (List (OutgoingMessage F))}
  {elapsed : Nat} {p p' : π}

/-- The deadline, if it is over before the next chunk has arrived. -/
def lateness (F : PayloadFamily) [Publisher F π] (options : PublishOptions) (elapsed : Nat)
    (p : π) : Option Duration :=
  options.deadline.filter (·.nanos < elapsed + (Publisher.latency F p).nanos)

theorem sendAll_late {limit : Duration} (late : lateness F options elapsed p = some limit) :
    sendAll stream options (chunk :: rest) elapsed p = (⟨.error (.timedOut limit), limit⟩, p) := by
  unfold lateness at late
  simp only [sendAll, late]

theorem sendAll_failed {error : PublishError} (inTime : lateness F options elapsed p = none)
    (failed : Publisher.send stream chunk options p = (.error error, p')) :
    sendAll stream options (chunk :: rest) elapsed p =
      (⟨.error error, .ofNanos (elapsed + (Publisher.latency F p).nanos)⟩, p') := by
  unfold lateness at inTime
  simp only [sendAll, inTime, failed]

theorem sendAll_accepted (inTime : lateness F options elapsed p = none)
    (accepted : Publisher.send stream chunk options p = (.ok (), p')) :
    sendAll stream options (chunk :: rest) elapsed p =
      sendAll stream options rest (elapsed + (Publisher.latency F p).nanos) p' := by
  unfold lateness at inTime
  simp only [sendAll, inTime, accepted]

/-- A watched publisher answers as it does unwatched. -/
theorem send_watched {answer : Except PublishError Unit}
    (h : Publisher.send stream chunk options p = (answer, p')) (before : List (SentChunk F)) :
    Publisher.send stream chunk options (⟨p, before⟩ : Watched F π) =
      (answer, ⟨p', before ++ [⟨stream, chunk, options, answer⟩]⟩) := by
  show Watched.send stream chunk options ⟨p, before⟩ = _
  simp only [Watched.send, h]

end Steps

/-- Watching a publisher changes nothing, and shows what it was sent. -/
theorem sendAll_watched {π : Type} [Publisher F π] (stream : StreamName) (options : PublishOptions)
    (chunks : List (List (OutgoingMessage F))) (elapsed : Nat) (p : π)
    (before : List (SentChunk F)) : ∃ sent,
      sendAll stream options chunks elapsed (⟨p, before⟩ : Watched F π) =
        ((sendAll stream options chunks elapsed p).1,
          ⟨(sendAll stream options chunks elapsed p).2, before ++ sent⟩) ∧
      Account stream options chunks sent (sendAll stream options chunks elapsed p).1.result := by
  induction chunks generalizing elapsed p before with
  | nil => exact ⟨[], by simp [sendAll], account_nil⟩
  | cons chunk rest ih =>
    -- The time a chunk takes is that of the publisher itself.
    match late : lateness F options elapsed p with
    | some limit =>
      have watched : lateness F options elapsed (⟨p, before⟩ : Watched F π) = some limit := late
      rw [sendAll_late late, sendAll_late watched]
      exact ⟨[], by simp, account_late (Option.eq_some_of_filter_eq_some late)⟩
    | none =>
      have watched : lateness F options elapsed (⟨p, before⟩ : Watched F π) = none := late
      match sent : Publisher.send stream chunk options p with
      | (.error error, p') =>
        rw [sendAll_failed late sent, sendAll_failed watched (send_watched sent before)]
        exact ⟨_, rfl, account_failed error⟩
      | (.ok (), p') =>
        rw [sendAll_accepted late sent, sendAll_accepted watched (send_watched sent before)]
        obtain ⟨more, same, account⟩ := ih (elapsed + (Publisher.latency F p).nanos) p'
          (before ++ [⟨stream, chunk, options, .ok ()⟩])
        rw [List.append_assoc] at same
        exact ⟨_, same, account.accepted⟩

/-! ## 3. What a store gains -/

/-- The event is the message, as the registry writes it. -/
structure Holds (r : TypeRegistry F) (stream : StreamName) (m : OutgoingMessage F)
    (e : StoredEvent) : Prop where
  id : e.id = m.id
  stream : e.stream = stream
  metadata : e.metadata = m.metadata
  payload : r.serialize m.payload m.type = .ok ⟨e.type, e.contentType, e.payload⟩

/-- The log has grown by the messages, in order, and nothing else has changed. -/
structure Gains (r : TypeRegistry F) (stream : StreamName) (messages : List (OutgoingMessage F))
    (s s' : MemoryStore) : Prop where
  log : ∃ added, s'.log.toList = s.log.toList ++ added ∧
    List.Forall₂ (Holds r stream) messages added
  marks : s'.marks = s.marks
  clock : s'.clock = s.clock

section Gains

variable {r : TypeRegistry F} {stream : StreamName}

theorem gains_nil (s : MemoryStore) : Gains r stream [] s s := ⟨⟨[], by simp, .nil⟩, rfl, rfl⟩

theorem Gains.trans {messages messages' : List (OutgoingMessage F)} {s₁ s₂ s₃ : MemoryStore}
    (first : Gains r stream messages s₁ s₂) (second : Gains r stream messages' s₂ s₃) :
    Gains r stream (messages ++ messages') s₁ s₃ := by
  obtain ⟨added, hlog, holds⟩ := first.log
  obtain ⟨added', hlog', holds'⟩ := second.log
  refine ⟨⟨added ++ added', ?_, List.rel_append holds holds'⟩, second.marks.trans first.marks,
    second.clock.trans first.clock⟩
  rw [hlog', hlog, List.append_assoc]

/-- The events of a chunk, kept in a row, are its messages. -/
theorem holds_block {messages : List (OutgoingMessage F)} {events : List NewEvent}
    (written : chunkEvents r messages = .ok events) (now : Instant)
    (position globalPosition : Nat) :
    List.Forall₂ (Holds r stream) messages
      (MemoryStore.block stream now position globalPosition events) := by
  induction messages generalizing events position globalPosition with
  | nil =>
    cases written
    exact .nil
  | cons m rest ih =>
    unfold chunkEvents at written
    split at written
    · cases written
    · rename_i stored serialized
      split at written
      · cases written
      · rename_i others hothers
        cases written
        exact .cons ⟨rfl, rfl, rfl, serialized⟩ (ih hothers _ _)

end Gains

section Stores

variable {σ : Type} [EventStore σ] {see : σ → MemoryStore}

/-- The store is the one in memory that is seen, though an append may fail on the way. -/
structure Behind (see : σ → MemoryStore) : Prop where
  refused : ∀ {stream expected events s error s'},
    EventStore.append stream expected events s = (.error error, s') → see s' = see s
  taken : ∀ {stream expected events s answer s'},
    EventStore.append stream expected events s = (.ok answer, s') →
    MemoryStore.append stream expected events (see s) = (.ok answer, see s')

theorem behind_memory : Behind (id : MemoryStore → MemoryStore) := ⟨MemoryStore.append_error, id⟩

/-- A call either meets a fault, or it is made. -/
theorem guarded_cases {α : Type} {kind : String} {stream : StreamName}
    {call : Call MemoryStore StoreError α} {s s' : FaultyStore} {answer : Except StoreError α}
    (h : FaultyStore.guarded kind stream call s = (answer, s')) :
    (∃ error, answer = .error error ∧ s'.store = s.store) ∨ call s.store = (answer, s'.store) := by
  unfold FaultyStore.guarded at h
  split at h
  · cases h
    exact .inl ⟨_, rfl, rfl⟩
  · cases h
    exact .inr rfl

theorem behind_faulty : Behind FaultyStore.store where
  refused failed := by
    rcases guarded_cases failed with ⟨-, -, same⟩ | called
    · exact same
    · exact MemoryStore.append_error called
  taken accepted := by
    rcases guarded_cases accepted with ⟨error, answer, -⟩ | called
    · cases answer
    · exact called

variable {stream : StreamName} {messages chunk : List (OutgoingMessage F)}
  {p p' : StorePublisher F σ}

/-- A chunk is appended as a whole, or the store stays as it is. -/
theorem take_spec {answer : Except PublishError Unit} (behind : Behind see)
    (taken : StorePublisher.take stream messages p = (answer, p')) : p'.registry = p.registry ∧
      (answer = .ok () → Gains p.registry stream messages (see p.store) (see p'.store)) ∧
      ∀ error, answer = .error error → see p'.store = see p.store := by
  unfold StorePublisher.take at taken
  split at taken
  · cases taken
    exact ⟨rfl, fun ok => (by cases ok), fun _ _ => rfl⟩
  · rename_i events written
    match happend : EventStore.append stream .any events p.store with
    | (.error error, s') =>
      rw [happend] at taken
      cases taken
      exact ⟨rfl, fun ok => (by cases ok), fun _ _ => behind.refused happend⟩
    | (.ok position, s') =>
      rw [happend] at taken
      cases taken
      refine ⟨rfl, fun _ => ?_, fun _ failed => (by cases failed)⟩
      obtain ⟨-, -, -, hs'⟩ := MemoryStore.append_ok (behind.taken happend)
      rw [hs']
      exact ⟨⟨_, MemoryStore.toList_pushAll _ _ _ _ _, holds_block written _ _ _⟩, rfl, rfl⟩

/-- Of the chunks the first `k` have reached the store and no other one; if these are not all, the
next one failed, and the call with it. -/
structure Reaches (see : σ → MemoryStore) (stream : StreamName)
    (chunks : List (List (OutgoingMessage F))) (p p' : StorePublisher F σ)
    (result : Except PublishError Unit) (k : Nat) : Prop where
  within : k ≤ chunks.length
  registry : p'.registry = p.registry
  gains : Gains p.registry stream (chunks.take k).flatten (see p.store) (see p'.store)
  succeeds : result = .ok () ↔ k = chunks.length
  fails : ∀ error, result = .error error → ∃ chunk q, chunks[k]? = some chunk ∧
      see q.store = see p'.store ∧ StorePublisher.take stream chunk q = (.error error, p')

theorem reaches_nil (p : StorePublisher F σ) : Reaches see stream [] p p (.ok ()) 0 where
  within := Nat.le_refl _
  registry := rfl
  gains := gains_nil _
  succeeds := by simp
  fails error failed := by cases failed

/-- The first chunk was accepted. -/
theorem Reaches.accepted {q : StorePublisher F σ} {rest : List (List (OutgoingMessage F))}
    {result : Except PublishError Unit} {k : Nat} (behind : Behind see)
    (accepted : StorePublisher.take stream chunk p = (.ok (), q))
    (reaches : Reaches see stream rest q p' result k) :
    Reaches see stream (chunk :: rest) p p' result (k + 1) := by
  obtain ⟨registry, gains, -⟩ := take_spec behind accepted
  have more := reaches.gains
  rw [registry] at more
  exact ⟨Nat.succ_le_succ reaches.within, reaches.registry.trans registry, (gains rfl).trans more,
    by simp [reaches.succeeds], reaches.fails⟩

/-- The first chunk failed. -/
theorem reaches_failed {rest : List (List (OutgoingMessage F))} {error : PublishError}
    (behind : Behind see) (failed : StorePublisher.take stream chunk p = (.error error, p')) :
    Reaches see stream (chunk :: rest) p p' (.error error) 0 := by
  obtain ⟨registry, -, stays⟩ := take_spec behind failed
  have same := stays error rfl
  refine ⟨Nat.zero_le _, registry, ?_, by simp, fun _ herror => ?_⟩
  · rw [same]
    exact gains_nil _
  · cases herror
    exact ⟨chunk, p, rfl, same.symm, failed⟩

/-- A chunk takes no time to reach a store, so the time is never over. -/
theorem lateness_store (options : PublishOptions) (p : StorePublisher F σ) :
    lateness F options 0 p = none := by
  unfold lateness
  simp [Publisher.latency, Duration.zero, Duration.ofNanos]

theorem sendAll_reaches (behind : Behind see) (options : PublishOptions)
    (chunks : List (List (OutgoingMessage F))) (p : StorePublisher F σ) :
    ∃ k, Reaches see stream chunks p (sendAll stream options chunks 0 p).2
      (sendAll stream options chunks 0 p).1.result k := by
  induction chunks generalizing p with
  | nil => exact ⟨0, reaches_nil p⟩
  | cons chunk rest ih =>
    have inTime := lateness_store options p
    match taken : StorePublisher.take stream chunk p with
    | (.error error, q) =>
      rw [sendAll_failed inTime taken]
      exact ⟨0, reaches_failed behind taken⟩
    | (.ok (), q) =>
      rw [sendAll_accepted inTime taken]
      obtain ⟨k, reaches⟩ := ih q
      exact ⟨k + 1, reaches.accepted behind taken⟩

end Stores

/-! ## 4. Publishing -/

section Publishing

variable {stream : StreamName} {messages : List (OutgoingMessage F)} {metadata : Metadata}
  {options : PublishOptions} {chunks : List (List (OutgoingMessage F))}

/-- The chunks of a call: the messages in order, each with the entries it lacks. -/
structure Chunks (messages : List (OutgoingMessage F)) (metadata : Metadata)
    (options : PublishOptions) (chunks : List (List (OutgoingMessage F))) : Prop where
  chunked : Chunked options.chunkSize chunks
  complete : List.Forall₂ (Completes metadata) messages chunks.flatten

/-- What publishing comes to: it is sending these chunks. -/
theorem publish_eq (messages : List (OutgoingMessage F)) (metadata : Metadata)
    (options : PublishOptions) :
    ∃ chunks, Chunks messages metadata options chunks ∧
        ∀ {π : Type} [Publisher F π] (stream : StreamName) (p : π),
        publish stream messages metadata options p = sendAll stream options chunks 0 p := by
  refine ⟨_, ⟨chunked_chunksOf _ _, ?_⟩, fun _ _ => rfl⟩
  rw [flatten_chunksOf, List.forall₂_map_right_iff]
  exact List.forall₂_same.2 fun m _ => ⟨rfl, rfl, rfl, Metadata.get?_mergeMissing _ _⟩

/-- Any publisher is sent the chunks of the call as far as the account says, whether it is watched
or not. -/
structure Sends {π : Type} [Publisher F π] (stream : StreamName)
    (messages : List (OutgoingMessage F)) (metadata : Metadata) (options : PublishOptions)
    (chunks : List (List (OutgoingMessage F))) (p : π) (sent : List (SentChunk F)) : Prop where
  watched : publish stream messages metadata options (⟨p, []⟩ : Watched F π) =
    ((publish stream messages metadata options p).1,
      ⟨(publish stream messages metadata options p).2, sent⟩)
  account : Account stream options chunks sent (publish stream messages metadata options p).1.result

variable {σ : Type} [EventStore σ] {see : σ → MemoryStore}

/-- The same call is made until it succeeds, and others use the store between two attempts. -/
inductive Repeats (see : σ → MemoryStore) (stream : StreamName)
    (messages : List (OutgoingMessage F)) (metadata : Metadata) (options : PublishOptions) :
    StorePublisher F σ → StorePublisher F σ → Prop where
  | succeeded {p p' : StorePublisher F σ} {took : Duration}
    (published : publish stream messages metadata options p = (⟨.ok (), took⟩, p')) :
    Repeats see stream messages metadata options p p'
  | failed {p p₁ p₂ p' : StorePublisher F σ} {error : PublishError} {took : Duration}
    (published : publish stream messages metadata options p = (⟨.error error, took⟩, p₁))
    (others : MemoryStore.Calls (see p₁.store) (see p₂.store))
    (again : Repeats see stream messages metadata options p₂ p') :
    Repeats see stream messages metadata options p p'

/-- The event is the message, completed. -/
def Arrived (r : TypeRegistry F) (stream : StreamName) (metadata : Metadata) (m : OutgoingMessage F)
    (e : StoredEvent) : Prop :=
  ∃ m', Completes metadata m m' ∧ Holds r stream m' e

/-- What publishing to a store comes to, once or again and again. -/
structure Reaching (see : σ → MemoryStore) (stream : StreamName)
    (messages : List (OutgoingMessage F)) (metadata : Metadata) (options : PublishOptions)
    (chunks : List (List (OutgoingMessage F))) : Prop where
  once : ∀ p, ∃ k, Reaches see stream chunks p (publish stream messages metadata options p).2
    (publish stream messages metadata options p).1.result k
  /-- In the end the messages stand in the log, behind what was there at first. -/
  repeated : ∀ p p', Repeats see stream messages metadata options p p' → ∃ between arrived,
    (see p'.store).log.toList = (see p.store).log.toList ++ between ++ arrived ∧
      List.Forall₂ (Arrived p'.registry stream metadata) messages arrived

theorem arrived_of_holds {r : TypeRegistry F} {complete : List (OutgoingMessage F)}
    {events : List StoredEvent} (completes : List.Forall₂ (Completes metadata) messages complete)
    (holds : List.Forall₂ (Holds r stream) complete events) :
    List.Forall₂ (Arrived r stream metadata) messages events := by
  induction completes generalizing events with
  | nil =>
    cases holds
    exact .nil
  | cons completed _ ih =>
    cases holds with
    | cons held rest => exact .cons ⟨_, completed, held⟩ (ih rest)

theorem reaching (behind : Behind see) (of : Chunks messages metadata options chunks)
    (publishes : ∀ p : StorePublisher F σ,
      publish stream messages metadata options p = sendAll stream options chunks 0 p) :
    Reaching (F := F) see stream messages metadata options chunks := by
  have once (p : StorePublisher F σ) : ∃ k, Reaches see stream chunks p
      (publish stream messages metadata options p).2
      (publish stream messages metadata options p).1.result k := by
    rw [publishes]
    exact sendAll_reaches behind options chunks p
  refine ⟨once, fun p p' repeats => ?_⟩
  induction repeats with
  | @succeeded p p' took published =>
    obtain ⟨k, reaches⟩ := once p
    rw [published] at reaches
    obtain ⟨arrived, hlog, holds⟩ := reaches.gains.log
    rw [reaches.succeeds.1 rfl, List.take_length, ← reaches.registry] at holds
    exact ⟨[], arrived, by rw [List.append_nil, hlog], arrived_of_holds of.complete holds⟩
  | @failed p p₁ p₂ p' error took published others again ih =>
    obtain ⟨k, reaches⟩ := once p
    rw [published] at reaches
    obtain ⟨gained, hgained, -⟩ := reaches.gains.log
    obtain ⟨written, hwritten⟩ := others.grown.log
    obtain ⟨between, arrived, hlog, holds⟩ := ih
    refine ⟨gained ++ written ++ between, arrived, ?_, holds⟩
    simp only [hlog, hwritten, hgained, List.append_assoc]

/-- **Publishing loses and moves nothing.**  The messages of a call, each with the entries it lacks,
are cut into chunks; any publisher is sent these one after the other until one fails; and a store,
which may refuse appends, gains exactly the chunks before the failing one, so that in the end a
caller who does not give up finds every message in it. -/
theorem publishing_loses_and_moves_nothing (stream : StreamName)
    (messages : List (OutgoingMessage F)) (metadata : Metadata) (options : PublishOptions) :
    ∃ chunks, Chunks messages metadata options chunks ∧
      (∀ (π : Type) [Publisher F π] (p : π), ∃ sent,
        Sends stream messages metadata options chunks p sent) ∧
      Reaching (id : MemoryStore → MemoryStore) stream messages metadata options chunks ∧
      Reaching FaultyStore.store stream messages metadata options chunks := by
  obtain ⟨chunks, of, publishes⟩ := publish_eq messages metadata options
  refine ⟨chunks, of, fun π _ p => ?_, reaching behind_memory of (publishes stream),
    reaching behind_faulty of (publishes stream)⟩
  obtain ⟨sent, watched, account⟩ := sendAll_watched stream options chunks 0 p []
  refine ⟨sent, ?_, ?_⟩
  · rw [publishes, publishes, watched, List.nil_append]
  · rw [publishes]
    exact account

end Publishing

section Runs

open Sample

/-- Two ticks, each of which makes a chunk. -/
def twoTicks : List (OutgoingMessage ticks) :=
  [⟨.ofNat 1, ⟨(), ()⟩, "Tick", .empty⟩, ⟨.ofNat 2, ⟨(), ()⟩, "Tick", .empty⟩]

/-- An empty store that is out of reach for the second append. -/
def unsteady : StorePublisher ticks FaultyStore :=
  ⟨tickRegistry, { faults := .ofList [("append", [none, some (.timedOut .zero)])] }⟩

theorem publish_twoTicks {π : Type} [Publisher ticks π] (p : π) :
    publish ⟨"clock"⟩ twoTicks .empty { chunkSize := 1 } p =
      sendAll ⟨"clock"⟩ { chunkSize := 1 } (twoTicks.map ([·])) 0 p := by
  rw [publish, show twoTicks.map _ = twoTicks from rfl]
  simp [chunksOf, twoTicks]

/-- The first attempt leaves the first tick in the log, and the second one adds both. -/
theorem first_tick_arrives_twice : ∃ p' : StorePublisher ticks FaultyStore,
    Repeats FaultyStore.store ⟨"clock"⟩ twoTicks .empty { chunkSize := 1 } unsteady p' ∧
      p'.store.store.log.toList.map (·.id) = [.ofNat 1, .ofNat 1, .ofNat 2] ∧
      ∃ between arrived, p'.store.store.log.toList = between ++ arrived ∧
        List.Forall₂ (Arrived p'.registry ⟨"clock"⟩ .empty) twoTicks arrived := by
  obtain ⟨p₁, p', failed, succeeded, ids⟩ : ∃ p₁ p' : StorePublisher ticks FaultyStore,
      sendAll ⟨"clock"⟩ { chunkSize := 1 } (twoTicks.map ([·])) 0 unsteady =
        (⟨.error (.store (.timedOut .zero)), .zero⟩, p₁) ∧
      sendAll ⟨"clock"⟩ { chunkSize := 1 } (twoTicks.map ([·])) 0 p₁ = (⟨.ok (), .zero⟩, p') ∧
      p'.store.store.log.toList.map (·.id) = [.ofNat 1, .ofNat 1, .ofNat 2] := ⟨_, _, rfl, rfl, rfl⟩
  have repeats : Repeats FaultyStore.store ⟨"clock"⟩ twoTicks .empty { chunkSize := 1 }
      unsteady p' :=
    .failed ((publish_twoTicks _).trans failed) (.none _)
      (.succeeded ((publish_twoTicks _).trans succeeded))
  obtain ⟨chunks, -, -, -, reached⟩ :=
    publishing_loses_and_moves_nothing ⟨"clock"⟩ twoTicks .empty { chunkSize := 1 }
  obtain ⟨between, arrived, hlog, holds⟩ := reached.repeated _ _ repeats
  exact ⟨p', repeats, ids, between, arrived, hlog, holds⟩

end Runs

end Publishing
end EventSourcing

/-
# Chains of messages

A gateway publishes a message because it consumed one, and so does a parking place; what they
published is consumed again, and so on.  Every message of such a chain names the one before it as
its cause, and all of them carry one identifier of the chain: the one the first message came with,
or the first message's own if it came with none.

The metadata of a published message comes from the message that was consumed, from the route or the
failure, and from the call that publishes.  What names the cause and the chain goes first, so
nothing that a route or a message brings along takes its place.

What the file settles:

* `Emits`: what is sent while a message is consumed; `emits_routed`, `emits_parked`: it is the one
  message there is;
* `Hop`, `Chain`: messages that led to one another;
* `Hop.Lawful`: what a message says about the one that led to it;
  `chains_keep_cause_and_correlation`.
-/
import EventSourcing.Proofs.Publishing
import EventSourcing.Proofs.Uuid
import EventSourcing.Publishing.Gateway

namespace EventSourcing
namespace Publishing

variable {F : PayloadFamily}

/-! ## 1. What is sent while a message is consumed -/

/-- What is done with a consumed message. -/
inductive Deed (F : PayloadFamily) where
  | routed (r : Routed F)
  | parked (error : HandlerError)

/-- All messages a publisher was sent. -/
def Watched.messages {π : Type} (w : Watched F π) : List (OutgoingMessage F) :=
  w.sent.flatMap (·.messages)

/-- While the message was consumed, this one was sent to a publisher. -/
inductive Emits (m : Message F) : Deed F → OutgoingMessage F → Prop where
  | gateway {π : Type} [Publisher F π] (p : π) (route : Route F)
    {r : Routed F} {out : OutgoingMessage F} (chosen : route m = some r)
    (sent : out ∈ (Gateway.handle route m (⟨p, []⟩ : Watched F π)).2.2.messages) :
    Emits m (.routed r) out
  | parking {π : Type} [Publisher F π] (p : π) (stream : StreamName)
    (id : Uuid) (error : HandlerError) {out : OutgoingMessage F}
    (sent : out ∈ (park stream id m error (⟨p, []⟩ : Watched F π)).2.2.messages) :
    Emits m (.parked error) out

theorem chunksOf_singleton {α : Type} (size : Nat) (x : α) : chunksOf size [x] = [[x]] := by
  have nothing : chunksOf size ([] : List α) = [] := by rw [chunksOf, if_pos rfl]
  have fits : [x].length ≤ max size 1 := Nat.le_max_right _ _
  rw [chunksOf, if_neg (List.cons_ne_nil _ _)]
  dsimp only
  rw [List.take_of_length_le fits, List.drop_eq_nil_of_le fits, nothing]

/-- A single message that nothing is added to is sent as it is, or not at all; without a deadline it
is sent. -/
theorem publish_watched {π : Type} [Publisher F π] (stream : StreamName) (m : OutgoingMessage F)
    (options : PublishOptions) (p : π) :
    let w := (publish stream [m] Metadata.empty options (⟨p, []⟩ : Watched F π)).2
    (∀ out ∈ w.messages, out = m) ∧ (options.deadline = none → m ∈ w.messages) := by
  have alone : publish stream [m] Metadata.empty options (⟨p, []⟩ : Watched F π) =
      sendAll stream options [[m]] 0 ⟨p, []⟩ := by
    rw [publish, List.map_singleton, chunksOf_singleton]
    rfl
  obtain ⟨sent, watched, account⟩ := sendAll_watched stream options [[m]] 0 p []
  have seen : (sendAll stream options [[m]] 0 (⟨p, []⟩ : Watched F π)).2.messages =
      (sent.map (·.messages)).flatten := by
    rw [watched, Watched.messages, List.nil_append, List.flatMap_def]
  dsimp only
  rw [alone, seen]
  constructor
  · intro out hout
    obtain ⟨chunk, hchunk, here⟩ := List.mem_flatten.1 hout
    cases List.mem_singleton.1 (account.inOrder.subset hchunk)
    exact List.mem_singleton.1 here
  · intro unlimited
    have some_sent : sent.map (·.messages) = [[m]] := by
      rcases List.prefix_cons_iff.1 account.inOrder with nothing | ⟨rest, all, hrest⟩
      · -- Nothing would be sent only if the time were over before.
        cases result : (sendAll stream options [[m]] 0 p).1.result with
        | ok => exact (account.succeeds.1 result).1
        | error error =>
          rcases account.fails error result with ⟨accepted, last, heq, -⟩ | ⟨limit, -, late, -⟩
          · rw [heq] at nothing
            simp at nothing
          · rw [unlimited] at late
            cases late
      · rw [all, List.prefix_nil.1 hrest]
    rw [some_sent]
    simp

theorem handle_watched {π : Type} [Publisher F π] {route : Route F} {m : Message F} {r : Routed F}
    (chosen : route m = some r) (p : π) : (Gateway.handle route m (⟨p, []⟩ : Watched F π)).2.2 =
      (publish r.target [Gateway.outgoing m r] Metadata.empty r.options
        (⟨p, []⟩ : Watched F π)).2 := by
  unfold Gateway.handle
  rw [chosen]

/-- A gateway sends what its route makes of the message, and nothing else. -/
theorem emits_routed {m : Message F} {r : Routed F} {out : OutgoingMessage F}
    (emits : Emits m (.routed r) out) : out = Gateway.outgoing m r := by
  cases emits with
  | gateway p route chosen sent =>
    rw [handle_watched chosen] at sent
    exact (publish_watched _ _ _ p).1 out sent

/-- A parking place sends the message as it is parked, and nothing else. -/
theorem emits_parked {m : Message F} {error : HandlerError} {out : OutgoingMessage F}
    (emits : Emits m (.parked error) out) : ∃ id, out = EventSourcing.parked id m error := by
  cases emits with
  | parking p stream id error sent => exact ⟨id, (publish_watched _ _ _ p).1 out sent⟩

/-- Whatever it is sent to, a routed message without a deadline is sent. -/
theorem emits_of_route {π : Type} [Publisher F π] (p : π) {route : Route F} {m : Message F}
    {r : Routed F} (chosen : route m = some r) (unlimited : r.options.deadline = none) :
    Emits m (.routed r) (Gateway.outgoing m r) := by
  refine .gateway p route chosen ?_
  rw [handle_watched chosen]
  exact (publish_watched _ _ _ p).2 unlimited

/-- Whatever it is sent to, a parked message is sent. -/
theorem emits_of_park {π : Type} [Publisher F π] (p : π)
    (stream : StreamName) (id : Uuid) (m : Message F) (error : HandlerError) :
    Emits m (.parked error) (EventSourcing.parked id m error) :=
  .parking p stream id error ((publish_watched stream _ {} p).2 rfl)

/-! ## 2. Metadata of what is sent -/

/-- The bag names the cause, and the chain that the cause belongs to. -/
structure Follows (m : Message F) (bag : Metadata) : Prop where
  cause : bag.get? causationIdKey = some m.id.text
  chain : bag.get? correlationIdKey = some (m.metadata.correlationId?.getD m.id).text

/-- What else is in the bag: what the route brings along, or the failure and what the message
carried itself. -/
def Deed.Fills (m : Message F) (bag : Metadata) : Deed F → Prop
  | .routed r =>
    ∀ key, key ∉ [causationIdKey, correlationIdKey] → bag.get? key = r.metadata.get? key
  | .parked error =>
    bag.get? errorKey = some error.message ∧ bag.get? originalStreamKey = some m.stream.text ∧
    bag.get? originalPositionKey = some (toString m.streamPosition) ∧
    ∀ key,
      key ∉ [causationIdKey, correlationIdKey, errorKey, originalStreamKey, originalPositionKey] →
      bag.get? key = m.metadata.get? key

theorem get?_causedBy (bag : Metadata) (id : Uuid) (key : String) : (bag.causedBy id).get? key =
    if key = correlationIdKey then some (bag.correlationId?.getD id).text
    else if key = causationIdKey then some id.text else none := by
  rw [Metadata.causedBy, Metadata.get?_insert, Metadata.get?_insert, Metadata.get?_empty]

theorem follows_outgoing (m : Message F) (r : Routed F) :
    Follows m (Gateway.outgoing m r).metadata ∧
      (Deed.routed r).Fills m (Gateway.outgoing m r).metadata := by
  have entry : ∀ key, (Gateway.outgoing m r).metadata.get? key =
      ((m.metadata.causedBy m.id).get? key).or (r.metadata.get? key) :=
        Metadata.get?_mergeMissing _ _
  refine ⟨⟨?_, ?_⟩, fun key other => ?_⟩
  · rw [entry, get?_causedBy, if_neg (by decide), if_pos rfl, Option.some_or]
  · rw [entry, get?_causedBy, if_pos rfl, Option.some_or]
  · simp only [List.mem_cons, List.not_mem_nil, or_false, not_or] at other
    rw [entry, get?_causedBy, if_neg other.2, if_neg other.1, Option.none_or]

/-- The entries of a parked message: the failure first, then the cause and the chain, then what it
carried. -/
theorem get?_parkedMetadata (m : Message F) (error : HandlerError) (key : String) :
    (parkedMetadata m error).get? key =
      (if key = originalPositionKey then some (toString m.streamPosition)
      else if key = originalStreamKey then some m.stream.text
      else if key = errorKey then some error.message
      else (m.metadata.causedBy m.id).get? key).or (m.metadata.get? key) := by
  rw [parkedMetadata, Metadata.get?_mergeMissing, Metadata.get?_insert, Metadata.get?_insert,
    Metadata.get?_insert]

theorem follows_parked (id : Uuid) (m : Message F) (error : HandlerError) :
    Follows m (EventSourcing.parked id m error).metadata ∧
      (Deed.parked error : Deed F).Fills m (EventSourcing.parked id m error).metadata := by
  have entry := get?_parkedMetadata m error
  have cause : (parkedMetadata m error).get? causationIdKey = some m.id.text := by
    rw [entry, if_neg (by decide), if_neg (by decide), if_neg (by decide), get?_causedBy,
      if_neg (by decide), if_pos rfl, Option.some_or]
  have chain : (parkedMetadata m error).get? correlationIdKey =
      some (m.metadata.correlationId?.getD m.id).text := by
    rw [entry, if_neg (by decide), if_neg (by decide), if_neg (by decide), get?_causedBy,
      if_pos rfl, Option.some_or]
  refine ⟨⟨cause, chain⟩, ?_, ?_, ?_, fun key other => ?_⟩
  · exact (entry errorKey).trans rfl
  · exact (entry originalStreamKey).trans rfl
  · exact (entry originalPositionKey).trans rfl
  · simp only [List.mem_cons, List.not_mem_nil, or_false, not_or] at other
    obtain ⟨notCause, notChain, notError, notStream, notPosition⟩ := other
    show (parkedMetadata m error).get? key = _
    rw [entry, if_neg notPosition, if_neg notStream, if_neg notError, get?_causedBy,
      if_neg notChain, if_neg notCause, Option.none_or]

theorem Emits.follows {m : Message F} {deed : Deed F} {out : OutgoingMessage F}
    (emits : Emits m deed out) : Follows m out.metadata ∧ deed.Fills m out.metadata := by
  cases deed with
  | routed r =>
    rw [emits_routed emits]
    exact follows_outgoing m r
  | parked error =>
    obtain ⟨id, rfl⟩ := emits_parked emits
    exact follows_parked id m error

theorem Follows.causationId? {m : Message F} {bag : Metadata} (follows : Follows m bag) :
    bag.causationId? = some m.id := by
  rw [Metadata.causationId?, Metadata.uuid?, follows.cause, Option.bind_some, Uuid.parse?_text]

theorem Follows.correlationId? {m : Message F} {bag : Metadata} (follows : Follows m bag) :
    bag.correlationId? = some (m.metadata.correlationId?.getD m.id) := by
  rw [Metadata.correlationId?, Metadata.uuid?, follows.chain, Option.bind_some, Uuid.parse?_text]

/-! ## 3. Chains -/

/-- The message that was sent, as it is consumed. -/
structure Carried (out : OutgoingMessage F) (m : Message F) : Prop where
  id : m.id = out.id
  metadata : m.metadata = out.metadata

/-- What a store holds of a message is consumed as that message. -/
theorem Holds.carried {registry : TypeRegistry F} {stream : StreamName} {out : OutgoingMessage F}
    {e : StoredEvent} (holds : Holds registry stream out e) {s : Subscription F} {n : Nat}
    {m : Message F} (decoded : s.decode e n = .ok m) : Carried out m := by
  obtain ⟨payload, -, rfl⟩ := Subscription.message_of_decode decoded
  exact ⟨holds.id, holds.metadata⟩

/-- A consumed message, what was done with it, and the message that came of it as it was consumed in
turn. -/
structure Hop (F : PayloadFamily) where
  consumed : Message F
  deed : Deed F
  next : Message F

/-- The one message led to the other. -/
def Hop.Happens (h : Hop F) : Prop := ∃ out, Emits h.consumed h.deed out ∧ Carried out h.next

/-- Both times a message with this identifier was routed to the same place. -/
def Hop.Repeats (h again : Hop F) : Prop :=
  ∃ r r', h.deed = .routed r ∧ again.deed = .routed r' ∧ r'.target = r.target ∧
    again.consumed.id = h.consumed.id

/-- Hops from a message on, each from the message that the one before led to. -/
inductive Chain (first : Message F) : List (Hop F) → (last : Message F) → Prop where
  | start : Chain first [] first
  | hop {hops : List (Hop F)} {hop : Hop F} (before : Chain first hops hop.consumed)
    (happens : hop.Happens) :
    Chain first (hops ++ [hop]) hop.next

/-- The route that sends every message to the same place. -/
def constantRoute (r : Routed F) : Route F := fun _ => some r

/-- A message leads to another wherever it is routed without a deadline, -/
theorem exists_routed (m : Message F) {r : Routed F} (unlimited : r.options.deadline = none) :
    ∃ next, Hop.Happens ⟨m, .routed r, next⟩ := by
  have chosen : constantRoute r m = some r := rfl
  have emits := emits_of_route ({} : Recorder F) chosen unlimited
  exact ⟨{ m with id := (Gateway.outgoing m r).id, metadata := (Gateway.outgoing m r).metadata }, _,
    emits, rfl, rfl⟩

/-- and whenever it is parked. -/
theorem exists_parked (m : Message F) (error : HandlerError) :
    ∃ next, Hop.Happens ⟨m, .parked error, next⟩ :=
  ⟨{ m with metadata := parkedMetadata m error }, _,
    emits_of_park ({} : Recorder F) ⟨""⟩ m.id m error, rfl, rfl⟩

/-- The identifier of the chain that begins with a message. -/
def chainId (first : Message F) : Uuid := first.metadata.correlationId?.getD first.id

/-- What a message of the chain says about the one that led to it. -/
structure Hop.Lawful (first : Message F) (h : Hop F) : Prop where
  /-- The message that was consumed is its cause. -/
  cause : h.next.metadata.causationId? = some h.consumed.id
  /-- The message belongs to the chain that began with the first one. -/
  chain : h.next.metadata.correlationId? = some (chainId first)
  /-- All else is as the route, or the failure and the message itself, have it. -/
  filled : h.deed.Fills h.consumed h.next.metadata
  /-- Routed to the same place again, the message would lead to one with the same identifier. -/
  repeated : ∀ again : Hop F, again.Happens → h.Repeats again → again.next.id = h.next.id

namespace Hop

variable {h : Hop F}

theorem Happens.follows (happens : h.Happens) :
    Follows h.consumed h.next.metadata ∧ h.deed.Fills h.consumed h.next.metadata := by
  obtain ⟨out, emits, carried⟩ := happens
  rw [carried.metadata]
  exact emits.follows

/-- The identifier of a routed message is made of that of the consumed one and the place it is
routed to. -/
theorem Happens.id (happens : h.Happens) {r : Routed F} (routed : h.deed = .routed r) :
    h.next.id = Gateway.outgoingId h.consumed.id r.target := by
  obtain ⟨out, emits, carried⟩ := happens
  rw [routed] at emits
  rw [carried.id, emits_routed emits]
  rfl

theorem Happens.repeated (happens : h.Happens) {again : Hop F} (happensAgain : again.Happens)
    (repeats : h.Repeats again) : again.next.id = h.next.id := by
  obtain ⟨r, r', routed, routedAgain, sameTarget, sameId⟩ := repeats
  rw [happens.id routed, happensAgain.id routedAgain, sameTarget, sameId]

end Hop

/-- Every message behind the first one carries the identifier of the chain. -/
theorem Chain.chainId_eq {first last : Message F} {hops : List (Hop F)}
    (chain : Chain first hops last) : chainId last = chainId first := by
  induction chain with
  | start => rfl
  | hop before happens ih =>
    rw [chainId, happens.follows.1.correlationId?, Option.getD_some]
    exact ih

/-- **Causes and chains.** Whatever messages led to one another through gateways and parking places,
each names the one before it as its cause and the identifier of the first one's chain, and keeps all
else it was given; and a message that is routed again is published under the same identifier. -/
theorem chains_keep_cause_and_correlation {first last : Message F} {hops : List (Hop F)}
    (chain : Chain first hops last) : ∀ h ∈ hops, h.Lawful first := by
  induction chain with
  | start => exact List.forall_mem_nil _
  | @hop hops hop before happens ih =>
    intro h hh
    rcases List.mem_append.1 hh with old | new
    · exact ih h old
    · cases List.mem_singleton.1 new
      obtain ⟨follows, filled⟩ := happens.follows
      refine ⟨follows.causationId?, ?_, filled, fun again => happens.repeated⟩
      rw [follows.correlationId?]
      exact congrArg some before.chainId_eq

section Sample

open Sample

/-- A tick whose chain has a name that is no identifier. -/
def strayTick : Message ticks :=
  { Message.ofEvent "feed" (tick 0) 0 0 ⟨(),
    ()⟩ with metadata := .ofList [("$correlationId", "nobody")] }

/-- A route that brings along a cause and an error of its own. -/
def boldRoute : Routed ticks where
  target := ⟨"out"⟩
  payload := ⟨(), ()⟩
  type := "Tick"
  metadata := .ofList [("$causationId", "somebody"), ("$error", "none yet"), ("channel", "email")]

/-- The tick is routed, and what came of it is parked. -/
theorem stray_tick_begins_a_chain : ∃ routed parked : Message ticks,
    Chain strayTick
        [⟨strayTick, .routed boldRoute, routed⟩, ⟨routed, .parked (.nacked "no"), parked⟩] parked ∧
      routed.metadata.causationId? = some strayTick.id ∧
      routed.metadata.get? "$error" = some "none yet" ∧
      parked.metadata.causationId? = some routed.id ∧
      parked.metadata.correlationId? = some strayTick.id ∧
      parked.metadata.get? "$error" = some (HandlerError.nacked "no").message ∧
      parked.metadata.get? "channel" = some "email" := by
  have nobody : strayTick.metadata.correlationId? = none := rfl
  obtain ⟨routed, first⟩ := exists_routed strayTick (r := boldRoute) rfl
  obtain ⟨parked, second⟩ := exists_parked routed (.nacked "no")
  have chain := Chain.hop (.hop .start first) second
  have lawful := chains_keep_cause_and_correlation chain
  have lawfulFirst : Hop.Lawful strayTick ⟨strayTick, .routed boldRoute, routed⟩ :=
    lawful _ (by simp)
  have lawfulSecond : Hop.Lawful strayTick ⟨routed, .parked (.nacked "no"), parked⟩ :=
    lawful _ (by simp)
  have began : chainId strayTick = strayTick.id := by rw [chainId, nobody, Option.getD_none]
  refine ⟨routed, parked, chain, lawfulFirst.cause, ?_, lawfulSecond.cause, ?_,
    lawfulSecond.filled.1, ?_⟩
  · exact (lawfulFirst.filled "$error" (by decide)).trans rfl
  · exact began ▸ lawfulSecond.chain
  · exact ((lawfulSecond.filled.2.2.2 "channel" (by decide)).trans
      (lawfulFirst.filled "channel" (by decide))).trans
      rfl

end Sample

end Publishing
end EventSourcing

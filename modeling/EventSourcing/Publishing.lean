/-
# Publishing messages

Messages are published to a stream in chunks.  A publisher sends one chunk at a time and answers
once all of it has arrived; the first chunk that fails ends the whole call, although the ones before
it were sent.  A caller repeats the whole call, under the same identifiers.

What the file settles:

* `chunksOf`: the chunks of a list; `flatten_chunksOf`: nothing is lost or moved;
* `publish`: sending all chunks within a deadline.
-/
import EventSourcing.Store

namespace EventSourcing

/-! ## 1. Messages and options -/

/-- A message to publish. -/
structure OutgoingMessage (F : PayloadFamily) where
  /-- Tells the message apart downstream, so that a repeated one can be recognised. -/
  id : Uuid
  payload : Payload F
  /-- Names the shape of the payload if it cannot be written. -/
  type : String
  metadata : Metadata

/-- The message as a record, without its payload. -/
def OutgoingMessage.display {F : PayloadFamily} (m : OutgoingMessage F) : String :=
  Display.record "ProducedMessage" [("message_id", m.id.text),
    ("message_type", Display.quoted m.type), ("metadata", m.metadata.display)]

/-- How messages are published. -/
structure PublishOptions where
  /-- Messages in a chunk; zero counts as one. -/
  chunkSize : Nat := 500
  /-- The time all chunks together may take. -/
  deadline : Option Duration := none
  /-- For destinations that are partitioned. -/
  partitionKey : Option String := none
  deriving DecidableEq, Inhabited

/-- Why messages were not published. -/
inductive PublishError where
  | serialization (error : SerializationError)
  | store (error : StoreError)
  | rejected (chunk : Nat) (reason : String)
  | timedOut (limit : Duration)
  | backend (text : String)
  deriving DecidableEq

/-- The text of the failure. -/
def PublishError.message : PublishError → String
  | .serialization error => error.message
  | .store error => error.message
  | .rejected chunk reason => "chunk " ++ toString chunk ++ " was rejected: " ++ reason
  | .timedOut limit => "produce did not complete within " ++ limit.text
  | .backend text => text

/-- What sends chunks. -/
class Publisher (F : PayloadFamily) (π : Type) where
  /-- How long a chunk is under way before it arrives or fails. -/
  latency : π → Duration
  /-- Sends one chunk. -/
  send : StreamName → List (OutgoingMessage F) → PublishOptions → Call π PublishError Unit

/-! ## 2. Chunks -/

/-- The list cut into pieces of `size` elements, the last one shorter if need be; a size of zero
counts as one. -/
def chunksOf {α : Type} (size : Nat) (l : List α) : List (List α) :=
  if l = [] then []
  else
    let chunk := max size 1
    l.take chunk :: chunksOf size (l.drop chunk)
  termination_by l.length
  decreasing_by grind [List.length_pos_iff]

theorem flatten_chunksOf {α : Type} (size : Nat) (l : List α) : (chunksOf size l).flatten = l := by
  fun_induction chunksOf size l with
  | case1 => rfl
  | case2 l _ chunk ih => rw [List.flatten_cons, ih, List.take_append_drop]

/-! ## 3. Publishing -/

variable {F : PayloadFamily} {π : Type} [Publisher F π]

/-- What publishing ended in, and how long it took. -/
structure Published where
  result : Except PublishError Unit
  took : Duration

/-- Sends the chunks one after the other, as long as the deadline has not passed before one has
arrived.  `elapsed` is the time used so far, in nanoseconds. -/
def sendAll (stream : StreamName) (options : PublishOptions) :
    List (List (OutgoingMessage F)) → (elapsed : Nat) → π → Published × π
  | [], elapsed, p => (⟨.ok (), .ofNanos elapsed⟩, p)
  | chunk :: rest, elapsed, p =>
    let arrival := elapsed + (Publisher.latency F p).nanos
    match options.deadline.filter (·.nanos < arrival) with
    | some limit => (⟨.error (.timedOut limit), limit⟩, p)
    | none =>
      match Publisher.send stream chunk options p with
      | (.error error, p) => (⟨.error error, .ofNanos arrival⟩, p)
      | (.ok (), p) => sendAll stream options rest arrival p

/-- Publishes messages, each with the entries of `metadata` that it does not carry itself. -/
def publish (stream : StreamName) (messages : List (OutgoingMessage F)) (metadata : Metadata)
    (options : PublishOptions) (p : π) : Published × π :=
  let complete := messages.map fun m => { m with metadata := m.metadata.mergeMissing metadata }
  sendAll stream options (chunksOf options.chunkSize complete) 0 p

end EventSourcing

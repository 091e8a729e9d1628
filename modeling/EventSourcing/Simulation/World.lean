/-
# The world of a simulation

A simulated world holds the runs of subscriptions and everything around them: a feed, a store of
checkpoints, an outlet, scripted handlers, and a clock that counts milliseconds.  Nothing takes time
but waiting; what waits stands in the agenda, in the order it is due, and what can go on stands in
line.

Sections: 1 subscribers; 2 the agenda and the line; 3 what is written down; 4 the world; 5 what
effects of a run lead to.
-/
import EventSourcing.Checkpoint.Batched
import EventSourcing.Publishing.Gateway
import EventSourcing.Sample.Outlet
import EventSourcing.Simulation.Feed
import EventSourcing.Simulation.Script
import EventSourcing.Simulation.Strand

namespace EventSourcing.Simulation

open Sample (family Outlet)

/-! ## 1. Subscribers -/

/-- What a handler does when it is called. -/
inductive Behaviour where
  | scripted (script : Script Conduct)
  | gateway (route : Route family)

/-- A handler: its name, its place among those that were asked for, and what it does. -/
structure Actor where
  name : String
  place : Nat
  behaviour : Behaviour

/-- Handlers that are set as a whole stand in place of those that are added one by one. -/
def Actor.chosen (whole single : List Actor) : List Actor := if whole.isEmpty then single else whole

/-- What happens to messages that failed. -/
inductive Recovery where
  | scripted (script : Script (Reply HandlerError Unit))
  | parking (stream : StreamName)

/-- A subscription together with its handlers and what can be seen of it. -/
structure Subscriber where
  subscription : Subscription family
  actors : List Actor
  recovery : Option Recovery
  status : SubscriptionStatus := .stopped
  /-- The position committed last. -/
  committed : Option CommitPosition := none

/-- The name of what happens to messages that failed. -/
def Recovery.name : Recovery → String
  | .scripted _ => "ScriptedFailureHandler"
  | .parking _ => parkingName

/-- A subscriber with these options and handlers. -/
def Subscriber.of (options : SubscriptionOptions family) (registry : TypeRegistry family)
    (feed : Feed) (actors : List Actor) (recovery : Option Recovery) : Subscriber where
  subscription := ⟨options, registry, feed.position, actors.map (·.name), recovery.map (·.name)⟩
  actors := actors
  recovery := recovery

/-- A run of one of the subscribers. -/
structure LiveRun where
  subscriber : Nat
  run : Run family := {}

/-- How the run ended, if it has. -/
def LiveRun.ended? (l : LiveRun) : Option (Except SubscriptionError Unit) := l.run.ended?

/-! ## 2. The agenda and the line -/

/-- What is to be done when its time has come. -/
inductive Deed where
  | act (action : Run.Action)
  /-- A scripted call comes to its end. -/
  | endCall (message : Message family) (attempt : Attempt) (conduct : Conduct)
  /-- A message has been passed on. -/
  | endPassing (message : Message family) (attempt : Attempt) (route : Route family)
  /-- A message has been parked. -/
  | endParking (message : Message family) (error : HandlerError) (stream : StreamName)

/-- The number of the message a deed is about, `none` if it is about the poller. -/
def Deed.sequence? : Deed → Option Nat
  | .act action => action.sequence?
  | .endCall m .. | .endPassing m .. | .endParking m .. => some m.sequence

/-- A deed of a run and the time it is due. -/
structure Appointment where
  due : Nat
  run : Nat
  deed : Deed

/-- Puts an appointment behind all that are not due later. -/
def enter (a : Appointment) : List Appointment → List Appointment
  | [] => [a]
  | b :: rest => if a.due < b.due then a :: b :: rest else b :: enter a rest

/-- A strand of a run that waits for its turn. -/
structure Turn where
  run : Nat
  strand : Strand
  deriving DecidableEq

/-! ## 3. What is written down -/

/-- A call of a scripted handler. -/
structure CallEntry where
  time : Nat
  position : Nat
  place : Nat
  retry : Nat
  type : String

/-- Calls are listed by time, position, place and retry. -/
def CallEntry.le (a b : CallEntry) : Bool :=
  let key (e : CallEntry) := [e.time, e.position, e.place, e.retry]
  !(key b).lex (key a) Nat.blt

/-- A call of the scripted handler of failed messages. -/
structure FailureEntry where
  position : Nat
  retry : Nat
  error : HandlerError

/-- A read of the feed. -/
structure ReadEntry where
  time : Nat
  read : FeedRead

/-- A write of a checkpoint that reached the memory. -/
structure WriteEntry where
  time : Nat
  write : CheckpointWrite

/-- What happened since somebody looked, the last entry first. -/
structure Journal where
  calls : List CallEntry := []
  failures : List FailureEntry := []
  reads : List ReadEntry := []
  writes : List WriteEntry := []

/-! ## 4. The world -/

/-- An acknowledgement that a handler keeps; one that was not the first of its message does
nothing. -/
structure KeptAck where
  position : Nat
  run : Nat
  sequence : Nat
  isLive : Bool

/-- What somebody who started a subscription holds on to. -/
structure Handle where
  subscriber : Nat
  run : Nat
  /-- Whether the end of the run was already waited for. -/
  joined : Bool := false

/-- Everything that takes part in a simulation. -/
structure World where
  now : Nat := 0
  feed : Feed
  checkpoints : LayeredCheckpoints FaultyCheckpoints
  outlet : Outlet
  ids : IdSupply := {}
  /-- The subscriber as it is built. -/
  design : Subscriber
  /-- The subscribers that were built, the present one last. -/
  subscribers : List Subscriber
  runs : List LiveRun := []
  handle : Option Handle := none
  agenda : List Appointment := []
  /-- Whose turn it is, and who comes next. -/
  line : List Turn := []
  acks : List KeptAck := []
  journal : Journal := {}

namespace World

/-- The present subscriber. -/
def present (w : World) : Nat := w.subscribers.length - 1

/-- The subscriber that can be seen: that of the handle, or the present one. -/
def visible (w : World) : Subscriber :=
  w.subscribers.getD ((w.handle.map (·.subscriber)).getD w.present) w.design

/-- Changes a subscriber. -/
def modifySubscriber (w : World) (i : Nat) (f : Subscriber → Subscriber) : World :=
  { w with subscribers := w.subscribers.modify i f }

/-- Writes something down. -/
def note (w : World) (f : Journal → Journal) : World := { w with journal := f w.journal }

/-- Writes down what the feed and the store of checkpoints have recorded. -/
def collect (w : World) : World :=
  let store := w.checkpoints.physical
  let reads := w.feed.record.map (ReadEntry.mk w.now)
  let writes := store.record.map (WriteEntry.mk w.now)
  let w := { w with
    feed := { w.feed with record := [] }
    checkpoints := w.checkpoints.withPhysical { store with record := [] } }
  w.note fun j => { j with reads := reads ++ j.reads, writes := writes ++ j.writes }

/-- Puts a deed of a run into the agenda. -/
def schedule (w : World) (run delay : Nat) (deed : Deed) : World :=
  { w with agenda := enter ⟨w.now + delay, run, deed⟩ w.agenda }

/-- Puts strands of a run at the end of the line, unless they stand in it. -/
def lineUp (w : World) (run : Nat) (strands : List Strand) : World :=
  { w with line := w.line ++ (strands.map (Turn.mk run)).filter (· ∉ w.line) }

/-- The milliseconds that a duration takes, a part of one counted in full. -/
def ticks (d : Duration) : Nat := (d.nanos + (Nat.pow 10 6 - 1)) / Nat.pow 10 6

/-! ## 5. What effects of a run lead to -/

/-- Lets a call take its time, at most as long as it may; one that never ends on its own takes no
time of its own. -/
def scheduleCall (w : World) (run : Nat) (limit : Option Duration) (m : Message family)
    (ends : Option (Nat × Deed)) : World :=
  let cut (limit : Duration) :=
    w.schedule run (ticks limit) (.act (.attemptEnded m.sequence .timedOut))
  match ends, limit with
  | none, none => w
  | none, some limit => cut limit
  | some (delay, deed), none => w.schedule run delay deed
  | some (delay, deed), some limit =>
    if delay ≤ ticks limit then w.schedule run delay deed else cut limit

/-- A handler is called; the calls of scripted ones are written down. -/
def onCall (w : World) (run subscriber : Nat) (s : Subscriber) (handler : Nat)
    (m : Message family) : World :=
  match s.actors[handler]? with
  | none => w
  | some actor =>
    let attempt : Attempt := ⟨handler, m.retryCount⟩
    let limit := s.subscription.options.handlerTimeout
    match actor.behaviour with
    | .gateway route =>
      let took := (Gateway.handle route m w.outlet).2.1
      w.scheduleCall run limit m (some (ticks took, .endPassing m attempt route))
    | .scripted script =>
      let w := w.note fun j =>
        { j with
          calls := ⟨w.now, m.position.position, actor.place, m.retryCount, m.type⟩ :: j.calls }
      let (rule, script) := script.pick m
      let actor := { actor with behaviour := .scripted script }
      let w :=
        w.modifySubscriber subscriber fun s => { s with actors := s.actors.set handler actor }
      let conduct := (rule.map (·.conduct)).getD .plain
      let delay := (rule.map (·.delay)).getD 0
      w.scheduleCall run limit m (conduct.outcome.map fun _ => (delay, .endCall m attempt conduct))

/-- The handler of failed messages is called. -/
def onFailure (w : World) (run subscriber : Nat) (s : Subscriber) (m : Message family)
    (error : HandlerError) :
    World :=
  match s.recovery with
  | none => w
  | some (.parking stream) =>
    let took := (park stream w.ids.next.1 m error w.outlet).2.1
    w.schedule run (ticks took) (.endParking m error stream)
  | some (.scripted script) =>
    let w := w.note fun j =>
      { j with failures := ⟨m.position.position, m.retryCount, error⟩ :: j.failures }
    let (rule, script) := script.pick m
    let w := w.modifySubscriber subscriber fun s => { s with recovery := some (.scripted script) }
    let reply := (rule.map (·.conduct)).getD (.ok ())
    w.schedule run ((rule.map (·.delay)).getD 0) (.act (.recovered m.sequence reply))

/-- What an effect leads to.  What a run asks of the stores is read off its state instead. -/
def observe (run subscriber : Nat) (w : World) (e : Run.Effect family) : World :=
  match w.subscribers[subscriber]? with
  | none => w
  | some s =>
    match e with
    | .status status => w.modifySubscriber subscriber fun s => { s with status }
    | .committed p => w.modifySubscriber subscriber fun s => { s with committed := some p }
    | .sleeping delay => w.schedule run (ticks delay) (.act .wake)
    | .backedOff sequence delay => w.schedule run (ticks delay) (.act (.retry sequence))
    | .called handler m => w.onCall run subscriber s handler m
    | .recovering m error => w.onFailure run subscriber s m error
    | _ => w

/-- The world after an action of a run, `none` if the action cannot happen.  What the action rouses
joins the line. -/
def act? (w : World) (i : Nat) (a : Run.Action) : Option World := do
  let live ← w.runs[i]?
  let s ← w.subscribers[live.subscriber]?
  let (run, effects) ← Run.step s.subscription live.run a
  let w := { w with runs := w.runs.set i { live with run } }
  return (effects.foldl (observe i live.subscriber) w).lineUp i
    (roused s.subscription live.run run a)

/-- The world after an action of a run, unchanged if the action cannot happen. -/
def act (w : World) (i : Nat) (a : Run.Action) : World := (w.act? i a).getD w

end World

end EventSourcing.Simulation

/-
# Time in a simulation

As long as anything stands in line, the clock stands still; when everything waits, it jumps to the
next appointment.  Turns are taken one after the other, and a turn ends when its strand has to wait.

What the file settles:

* `World.pollerJob?`, `World.taskJob?`: what a strand can do on its own;
* `World.keep`, `World.keepNext?`: keeping appointments;
* `World.goOn?`: the next thing in a turn;
* `World.proceed`: everything before a time, or until somebody has seen enough.
-/
import EventSourcing.Simulation.World

namespace EventSourcing.Simulation.World

open Sample (family Outlet)

/-! ## 1. What can go on -/

/-- Stores a checkpoint. -/
def save (w : World) (c : Checkpoint) (force : Bool) : Reply CheckpointError Unit × World :=
  let (answer, checkpoints) := CheckpointStore.save c force w.checkpoints
  let reply := match answer with
    | .ok _ => .ok ()
    | .error e => .failed e
  (reply, { w with checkpoints }.collect)

/-- Begins a run: its checkpoint is loaded at once. -/
def subscribe (w : World) (i : Nat) (s : Subscriber) : World :=
  let (answer, checkpoints) := CheckpointStore.load s.subscription.options.id w.checkpoints
  let w := { w with checkpoints }.act i .subscribe
  w.act i (.checkpointLoaded (match answer with
    | .ok c => .ok c
    | .error e => .failed e))

/-- Reads a page for a run. -/
def readPage (w : World) (i : Nat) (s : Subscriber) (cursor : Cursor) : World :=
  let (reply, feed) := w.feed.readAfter cursor.after s.subscription.options.pageSize
  { w with feed }.collect.act i (.pageRead reply)

/-- Whether handling has ended: no task is held, and no lane of the run stands in line. -/
def isDrained (w : World) (i : Nat) (run : Run family) : Bool :=
  run.heldCount = 0 && !w.line.any fun t => t.run = i && t.strand matches .lane _

/-- What the poller of a run can do. -/
def pollerJob? (w : World) (i : Nat) : Option World := do
  let live ← w.runs[i]?
  let s ← w.subscribers[live.subscriber]?
  match live.run.phase with
  | .created => return w.subscribe i s
  | .reading cursor =>
    if live.run.isInterrupted then w.act? i .interrupt else return w.readPage i s cursor
  | .sleeping _ => w.act? i .interrupt
  | .delivering .. => w.act? i .deliver
  | .draining => if w.isDrained i live.run then w.act? i .halt else none
  | .settling => w.act? i .flush
  | .flushing p =>
    let (reply, w) := w.save (s.subscription.checkpoint p.position) true
    return w.act i (.flushed reply)
  | _ => none

/-- What can be done for a task. -/
def taskJob? (w : World) (i : Nat) (s : Subscriber) (t : Task family) : Option World :=
  match t.stage with
  | .queued => w.act? i (.start t.sequence)
  | .backingOff .. => w.act? i (.giveUp t.sequence)
  | .awaitingAck => (w.act? i (.resume t.sequence)).or (w.act? i (.abandon t.sequence))
  | .confirming => w.act? i (.confirm t.sequence)
  | .storing p =>
    let (reply, w) := w.save (s.subscription.checkpoint p.position) false
    some (w.act i (.stored t.sequence reply))
  | _ => none

/-! ## 2. Appointments -/

/-- Whether an attempt is still going on. -/
def isGoingOn (w : World) (i : Nat) (m : Message family) (attempt : Attempt) : Bool :=
  match (w.runs[i]?).bind fun live => live.run.task? m.sequence with
  | some t => match t.stage with
    | .calling now _ => now == attempt
    | _ => false
  | none => false

/-- An attempt takes the acknowledgement over and keeps it. -/
def keepAck (w : World) (i : Nat) (m : Message family) (attempt : Attempt) : World :=
  let taken := w.act? i (.takeAck m.sequence attempt)
  let w := taken.getD w
  { w with acks := w.acks ++ [⟨m.position.position, i, m.sequence, taken.isSome⟩] }

/-- Does what an appointment is for. -/
def keep (w : World) (i : Nat) : Deed → World
  | .act a => w.act i a
  | .endCall m attempt conduct =>
    match conduct.outcome with
    | some outcome =>
      if w.isGoingOn i m attempt then
        let w := if conduct.takesAck then w.keepAck i m attempt else w
        w.act i (.attemptEnded m.sequence outcome)
      else w
    | none => w
  | .endPassing m attempt route =>
    if w.isGoingOn i m attempt then
      let (answer, _, outlet) := Gateway.handle route m w.outlet
      let outcome := match answer with
        | .ok status => .returned status
        | .error e => .failed e
      { w with outlet }.act i (.attemptEnded m.sequence outcome)
    else w
  | .endParking m error stream =>
    let (id, ids) := w.ids.next
    let (answer, _, outlet) := park stream id m error w.outlet
    let reply := match answer with
      | .ok () => .ok ()
      | .error e => .failed e
    { w with outlet, ids }.act i (.recovered m.sequence reply)

/-- The strand an appointment is for, `none` if it is for nothing any more. -/
def strandFor? (w : World) (a : Appointment) : Option Strand :=
  match a.deed.sequence? with
  | none => some .poller
  | some n => ((w.runs[a.run]?).bind (·.run.task? n)).map strandOf

/-- Keeps the first appointment that is due and about a message of a run, or about its poller. -/
def keepNext? (w : World) (i : Nat) (sequence : Option Nat) : Option World :=
  let isNext (a : Appointment) : Bool := a.run = i && a.deed.sequence? = sequence
  ((w.agenda.takeWhile (·.due ≤ w.now)).find? isNext).map fun a =>
    { w with agenda := w.agenda.eraseP isNext }.keep i a.deed

/-! ## 3. Turns -/

/-- The next thing in a turn: an appointment that is due, or what the strand can do on its own. -/
def goOn? (w : World) (t : Turn) : Option World := do
  let live ← w.runs[t.run]?
  let s ← w.subscribers[live.subscriber]?
  match t.strand with
  | .poller => w.keepNext? t.run none <|> w.pollerJob? t.run
  | strand =>
    let task ← strand.task? live.run
    w.keepNext? t.run (some task.sequence) <|> w.taskJob? t.run s task

/-- The end of a turn.  The last lane to end when no more messages come rouses the poller. -/
def endTurn (w : World) (t : Turn) : World :=
  let w := { w with line := w.line.drop 1 }
  match t.strand, w.runs[t.run]? with
  | .lane _, some live =>
    if live.run.phase matches .draining && w.isDrained t.run live.run then w.lineUp t.run [.poller]
    else w
  | _, _ => w

/-! ## 4. Letting time pass -/

/-- Moves the clock on to a time; the strands whose appointments are due then join the line. -/
def arrive (w : World) (time : Nat) : World :=
  let (due, later) := w.agenda.span (·.due ≤ time)
  let due := due.filterMap fun a => (w.strandFor? a).map fun strand => (a, strand)
  due.foldl (fun w (a, strand) => w.lineUp a.run [strand])
    { w with now := max w.now time, agenda := due.map (·.1) ++ later }

/-- The number of turns after which somebody who waits has a look, even if the line is not empty. -/
def turnsPerLook : Nat := 61

/-- Lets everything happen that is due before a time, at most `fuel` things.  It ends early if
somebody who waits sees `enough`: they look when the line is empty, and after a number of turns.
`turns` is the number still to be taken before that. -/
def proceed (bound : Nat) (enough : World → Bool) : (fuel turns : Nat) → World → World
  | 0, _, w => w
  | fuel + 1, turns, w =>
    match w.line with
    | t :: _ =>
      match w.goOn? t with
      | some w => proceed bound enough fuel turns w
      | none =>
        let w := w.endTurn t
        if 1 < turns then proceed bound enough fuel (turns - 1) w
        else if enough w then w
        else proceed bound enough fuel turnsPerLook w
    | [] =>
      if enough w then w
      else
        match w.agenda with
        | a :: _ =>
          if a.due < bound then proceed bound enough fuel turnsPerLook (w.arrive a.due) else w
        | [] => w

/-- More things than any simulation does between two looks at it. -/
def patience : Nat := Nat.pow 10 12

/-- Lets time pass, and everything happen that can happen at the end of it. -/
def run (w : World) (duration : Nat) : World :=
  let time := w.now + duration
  { w.proceed (time + 1) (fun _ => false) patience turnsPerLook with now := time }

/-- Lets everything happen that can happen now. -/
def settle (w : World) : World := w.run 0

/-- Waits until something holds, at most for a time.  What holds already is not waited for, and when
the time is up nothing more happens. -/
def await (w : World) (limit : Nat) (holds : World → Bool) : Bool × World :=
  if holds w then (true, w)
  else
    let time := w.now + limit
    let w := w.proceed time holds patience turnsPerLook
    if holds w then (true, w) else (false, w.arrive time)

end EventSourcing.Simulation.World

/-
# Scripts

A scripted handler follows rules.  For each call the first rule that fits and has calls left says
how long the call takes and how it ends.

What the file settles:

* `Condition.fits`: the messages a rule is for;
* `Script.pick`: the rule of a call, and the script after it.
-/
import EventSourcing.Subscription.Run.State

namespace EventSourcing.Simulation

variable {F : PayloadFamily} {γ : Type}

/-- What a message has to have for a rule to fit; what is missing fits everything. -/
structure Condition where
  type : Option String := none
  stream : Option String := none
  position : Option Nat := none
  retry : Option Nat := none

/-- Whether the message has it. -/
def Condition.fits (c : Condition) (m : Message F) : Bool :=
  c.type.all (· == m.type) && c.stream.all (· == m.stream.text) &&
    c.position.all (· == m.position.position)
    && c.retry.all (· == m.retryCount)

/-- A rule: when it applies, to how many calls it still does, how many milliseconds they take, and
what comes of them. -/
structure Rule (γ : Type) where
  condition : Condition := {}
  left : Option Nat := none
  delay : Nat := 0
  conduct : γ

/-- Whether the rule applies to a call. -/
def Rule.applies (r : Rule γ) (m : Message F) : Bool := r.left.all (0 < ·) && r.condition.fits m

/-- Rules in the order they are tried. -/
abbrev Script (γ : Type) := List (Rule γ)

/-- The first rule that applies, and the script with one call of it used up. -/
def Script.pick (m : Message F) : Script γ → Option (Rule γ) × Script γ
  | [] => (none, [])
  | r :: rest =>
    if r.applies m then (some r, { r with left := r.left.map (· - 1) } :: rest)
    else
      let (picked, rest) := Script.pick m rest
      (picked, r :: rest)

/-- How a scripted call goes: whether it takes the acknowledgement over at its end, and how it ends,
if it does. -/
structure Conduct where
  takesAck : Bool := false
  outcome : Option AttemptEnd

namespace Conduct

/-- The conduct of a call no rule applies to. -/
def plain : Conduct := { outcome := some (.returned .success) }

/-- The conduct with this name.  The text is that of the error it ends with, the limit that of a
call that took too long. -/
def ofName? (name text : String) (limit : Duration) : Option Conduct :=
  match name with
  | "ok" => some plain
  | "ignore" => some { outcome := some (.returned .ignored) }
  | "pending" => some { outcome := some (.returned .pending) }
  | "fail" => some { outcome := some (.failed (.failed text)) }
  | "timeout" => some { outcome := some (.failed (.timedOut limit)) }
  | "nack" => some { outcome := some (.failed (.nacked text)) }
  | "panic" => some { outcome := some (.panicked (some "static panic")) }
  | "panic_string" => some { outcome := some (.panicked (some text)) }
  | "panic_other" => some { outcome := some (.panicked none) }
  | "stuck" => some { outcome := none }
  | "defer" => some { takesAck := true, outcome := some (.returned .pending) }
  | "defer_ok" => some { takesAck := true, outcome := some (.returned .success) }
  | "defer_fail" => some { takesAck := true, outcome := some (.failed (.failed text)) }
  | _ => none

end Conduct

/-- The answer of the handler of failed messages with this name; all but two are errors. -/
def recoveryOfName (name text : String) : Reply HandlerError Unit :=
  match name with
  | "ok" => .ok ()
  | "panic" => .panicked
  | _ => .failed (.failed text)

end EventSourcing.Simulation

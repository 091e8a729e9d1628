/-
# The version a writer expects

A stream's version is the position of its last event, `none` while it has none.  A writer says with
an `ExpectedVersion` what it takes the version to be.

What the file settles:

* `ExpectedVersion.accepts`: when an expectation fits a version;
* `ExpectedVersion.advance`: the expectation of the next append, after some events;
* `ExpectedVersion.json`, `ExpectedVersion.ofJson?`: its stored form.
-/
import EventSourcing.Json.Read
import EventSourcing.Json.Write
import EventSourcing.Json.Record
import EventSourcing.Text.Display

namespace EventSourcing

/-- What a writer expects the version of a stream to be. -/
inductive ExpectedVersion where
  /-- The stream has no event yet. -/
  | noStream
  /-- Any version will do. -/
  | any
  /-- The last event has exactly this position. -/
  | exact (position : Nat)
  deriving DecidableEq, Inhabited

namespace ExpectedVersion

/-! ## 1. Expectations and versions -/

/-- Whether the expectation fits the version of a stream. -/
def accepts : ExpectedVersion → Option Nat → Bool
  | .any, _ => true
  | .noStream, none => true
  | .exact expected, some actual => expected == actual
  | _, _ => false

/-- The expectation that fits once `count` more events are there.  `any` has no base to count
from. -/
def advance (e : ExpectedVersion) (count : Nat) : ExpectedVersion :=
  match e, count with
  | e, 0 => e
  | .noStream, count => .exact (count - 1)
  | .exact position, count => .exact (position + count)
  | .any, _ => .any

/-- The expectation that fits exactly the given version. -/
def ofVersion : Option Nat → ExpectedVersion
  | none => .noStream
  | some position => .exact position

theorem accepts_ofVersion (v w : Option Nat) : (ofVersion v).accepts w = (v == w) := by
  cases v <;> cases w <;> simp [ofVersion, accepts]

/-- The expectation in words. -/
def text : ExpectedVersion → String
  | .noStream => "no stream"
  | .any => "any"
  | .exact position => toString position

/-- The expectation as a constructor and its argument. -/
def display : ExpectedVersion → String
  | .noStream => "NoStream"
  | .any => "Any"
  | .exact position => Display.wrapped "Exact" (toString position)

/-! ## 2. Stored form -/

/-- The stored form: a word, or an object with one member. -/
def json : ExpectedVersion → String
  | .noStream => Json.quote "NoStream"
  | .any => Json.quote "Any"
  | .exact position => Json.object [("Exact", toString position)]

/-- Reads what stands under the name of a case in an object with one member. -/
def caseReader : String → Json.Reader ExpectedVersion
  | "NoStream" => Json.Reader.map (fun _ => .noStream) Json.null
  | "Any" => Json.Reader.map (fun _ => .any) Json.null
  | "Exact" => Json.Reader.map (fun n => .exact n.toNat) (Json.integer 0 Json.greatestNatural)
  | _ => fun _ => none

/-- Reads the stored form. -/
def reader : Json.Reader ExpectedVersion := fun s =>
  match Json.text s with
  | some ("NoStream", rest) => some (.noStream, rest)
  | some ("Any", rest) => some (.any, rest)
  | some _ => none
  | none =>
    match Json.members caseReader s with
    | some ([(_, version)], rest) => some (version, rest)
    | _ => none

/-- The expectation a stored text stands for. -/
def ofJson? (stored : String) : Option ExpectedVersion :=
  Json.document reader stored.toUTF8.data.toList

end ExpectedVersion

end EventSourcing

/-
# Records as JSON

The layout of a record lists its fields in the order they are declared, each with the kind of value
it holds.  A record is written as an object with every field in that order.  It is read from an
object with the fields in any order, among others that are skipped, or from an array of exactly its
fields; a field may be left out of an object only if it is optional, and none may stand there twice.
-/
import EventSourcing.Json.Read
import EventSourcing.Json.Write

namespace EventSourcing.Json

/-! ## 1. Fields -/

/-- What a field may hold. -/
inductive Kind where
  | text
  | natural
  | integer
  | texts
  | optionalInteger
  deriving DecidableEq

/-- The value of a field. -/
inductive Datum where
  | text (s : String)
  | number (n : Int)
  | texts (ss : List String)
  | absent
  deriving DecidableEq

/-- Unsigned numbers have 64 bits. -/
def greatestNatural : Int := Int.pow 2 64 - 1

/-- The least signed number of 64 bits. -/
def leastInteger : Int := -Int.pow 2 63

/-- The greatest signed number of 64 bits. -/
def greatestInteger : Int := Int.pow 2 63 - 1

/-- Reads a signed number of 64 bits. -/
def signed : Reader Int := integer leastInteger greatestInteger

/-- Reads the value of a field of some kind. -/
def Kind.reader : Kind → Reader Datum
  | .text => Reader.map .text Json.text
  | .natural => Reader.map .number (Json.integer 0 greatestNatural)
  | .integer => Reader.map .number signed
  | .texts => Reader.map .texts (elements Json.text)
  | .optionalInteger => fun s =>
    match null s with
    | some (_, rest) => some (.absent, rest)
    | none => Reader.map .number signed s

/-- The written value of a field. -/
def Datum.write : Datum → String
  | .text s => quote s
  | .number n => toString n
  | .texts ss => array (ss.map quote)
  | .absent => "null"

/-! ## 2. Records -/

/-- The fields of a record, in the order they are declared. -/
abbrev Layout := List (String × Kind)

/-- The kind of a field, `none` for a name the layout does not have. -/
def Layout.kind? (layout : Layout) (name : String) : Option Kind := layout.lookup name

/-- Reads a member: a field by its kind, anything else is skipped. -/
def Layout.member (layout : Layout) (name : String) : Reader (Option Datum) :=
  match layout.kind? name with
  | some kind => Reader.map some kind.reader
  | none => Reader.map (fun _ => none) anything

/-- The value of one field among the members found. -/
def fieldValue? (members : List (String × Option Datum)) (field : String × Kind) : Option Datum :=
  match members.filterMap (fun m => if m.1 = field.1 then m.2 else none) with
  | [value] => some value
  | [] => if field.2 = .optionalInteger then some .absent else none
  | _ => none

/-- Reads a record; the values come in the order of the layout. -/
def Layout.reader (layout : Layout) : Reader (List Datum) := fun s =>
  match s with
  | 0x5b :: _ => tuple (layout.map (·.2.reader)) s
  | _ =>
    match members layout.member s with
    | some (found, rest) => (layout.mapM (fieldValue? found)).map (·, rest)
    | none => none

/-- The written record whose fields have these values. -/
def Layout.write (layout : Layout) (values : List Datum) : String :=
  object ((layout.zip values).map fun fv => (fv.1.1, fv.2.write))

end EventSourcing.Json

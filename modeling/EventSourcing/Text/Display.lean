/-
# Values shown to a developer

A value is shown as its name and its fields between braces; a text inside it stands between quotes,
with the quote, the backslash and control characters escaped.
-/
import EventSourcing.Text.Hex

namespace EventSourcing.Display

/-- One character as it stands inside a shown text. -/
def escape (c : Char) : String :=
  if c = '"' then "\\\""
  else if c = '\\' then "\\\\"
  else if c = '\n' then "\\n"
  else if c = '\r' then "\\r"
  else if c = '\t' then "\\t"
  else if c = '\x00' then "\\0"
  else if c.toNat < 0x20 ∨ c.toNat = 0x7f then
    "\\u\x7b" ++ String.ofList (Nat.toDigits 16 c.toNat) ++ "\x7d"
  else c.toString

/-- A text between quotes. -/
def quoted (s : String) : String := "\"" ++ String.join (s.toList.map escape) ++ "\""

/-- A named record of shown fields. -/
def record (name : String) (fields : List (String × String)) : String :=
  let shown := fields.map fun f => f.1 ++ ": " ++ f.2
  name ++ " \x7b " ++ String.intercalate ", " shown ++ " \x7d"

/-- Shown entries between braces. -/
def collection (entries : List String) : String :=
  "\x7b" ++ String.intercalate ", " entries ++ "\x7d"

/-- A value under the name of what wraps it. -/
def wrapped (name value : String) : String := name ++ "(" ++ value ++ ")"

/-- An optional value. -/
def optional : Option String → String
  | none => "None"
  | some value => wrapped "Some" value

end EventSourcing.Display

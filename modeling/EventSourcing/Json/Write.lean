/-
# Writing JSON

Compact text: no blanks, members in the order they are given.  A string escapes the quote, the
backslash and the characters below U+0020, the latter by their short name where there is one; every
other character stands for itself.
-/
import EventSourcing.Text.Hex

namespace EventSourcing.Json

/-- One character as it stands inside a written string. -/
def escape (c : Char) : String :=
  if c = '"' then "\\\""
  else if c = '\\' then "\\\\"
  else if c = '\n' then "\\n"
  else if c = '\r' then "\\r"
  else if c = '\t' then "\\t"
  else if c = '\x08' then "\\b"
  else if c = '\x0c' then "\\f"
  else if c.toNat < 0x20 then "\\u" ++ String.ofList (Hex.digits 4 c.toNat)
  else c.toString

/-- A string between quotes. -/
def quote (s : String) : String := "\"" ++ String.join (s.toList.map escape) ++ "\""

/-- Values between brackets. -/
def array (values : List String) : String := "[" ++ String.intercalate "," values ++ "]"

/-- Written members between braces. -/
def object (members : List (String × String)) : String :=
  let written := members.map fun m => quote m.1 ++ ":" ++ m.2
  "\x7b" ++ String.intercalate "," written ++ "\x7d"

end EventSourcing.Json

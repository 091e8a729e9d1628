/-
# Reading JSON from bytes

A `Reader` takes a value off the front of the bytes and hands back the rest.  What is read is strict
JSON: no number with a leading zero, no comma before a closing bracket, no control character in a
string, no half of a surrogate pair, nothing but blanks after the document.  A value nobody asked
for is skipped: it has to be well formed, to any depth, but what its strings spell is not looked at.

Sections: 1 readers; 2 strings; 3 numbers; 4 skipping; 5 arrays and objects.
-/
import EventSourcing.Text.Hex

namespace EventSourcing.Json

/-! ## 1. Readers -/

/-- Takes a value off the front of the bytes. -/
abbrev Reader (α : Type) := List UInt8 → Option (α × List UInt8)

/-- The bytes after leading blanks. -/
def skipBlank (s : List UInt8) : List UInt8 :=
  s.dropWhile fun b => b == 0x20 || b == 0x09 || b == 0x0a || b == 0x0d

/-- The bytes after the given ones, if they stand at the front. -/
def expect (token s : List UInt8) : Option (List UInt8) :=
  if token.isPrefixOf s then some (s.drop token.length) else none

/-- Applies a function to what a reader yields. -/
def Reader.map {α β : Type} (f : α → β) (r : Reader α) : Reader β := fun s =>
  (r s).map fun (a, rest) => (f a, rest)

/-- The one value of a document, with blanks around it and nothing else. -/
def document {α : Type} (r : Reader α) (bytes : List UInt8) : Option α :=
  match r (skipBlank bytes) with
  | some (a, rest) => if (skipBlank rest).isEmpty then some a else none
  | none => none

/-- The word `null`. -/
def null : Reader Unit := fun s => (expect [0x6e, 0x75, 0x6c, 0x6c] s).map ((), ·)

/-! ## 2. Strings -/

/-- The number four hexadecimal digits spell. -/
def codeUnit? (ds : List UInt8) : Option Nat := Hex.value? (ds.map fun b => Char.ofNat b.toNat)

/-- The byte that a one-letter escape stands for. -/
def letterEscape? (b : UInt8) : Option UInt8 :=
  match Char.ofNat b.toNat with
  | '"' => some 0x22
  | '\\' => some 0x5c
  | '/' => some 0x2f
  | 'b' => some 0x08
  | 'f' => some 0x0c
  | 'n' => some 0x0a
  | 'r' => some 0x0d
  | 't' => some 0x09
  | _ => none

/-- The first half of a surrogate pair. -/
def isLeading (unit : Nat) : Bool := 0xd800 ≤ unit && unit < 0xdc00

/-- The second half of a surrogate pair. -/
def isTrailing (unit : Nat) : Bool := 0xdc00 ≤ unit && unit < 0xe000

/-- The bytes of a code point. -/
def utf8 (code : Nat) : List UInt8 := (Char.ofNat code).toString.toUTF8.data.toList

/-- Puts bytes in front of what a reader yields. -/
def following (front : List UInt8) :
    Option (List UInt8 × List UInt8) → Option (List UInt8 × List UInt8)
  | some (bytes, rest) => some (front ++ bytes, rest)
  | none => none

/-- The bytes a string spells, read from behind its opening quote to behind its closing one. -/
def contents : Reader (List UInt8)
  | [] => none
  | 0x22 :: rest => some ([], rest)
  | 0x5c :: 0x75 :: a :: b :: c :: d :: rest =>
    match codeUnit? [a, b, c, d] with
    | none => none
    | some unit =>
      if isTrailing unit then none
      else if isLeading unit then
        match rest with
        | 0x5c :: 0x75 :: e :: f :: g :: h :: rest' =>
          match codeUnit? [e, f, g, h] with
          | none => none
          | some unit' =>
            if isTrailing unit' then
              following (utf8 (0x10000 + (unit - 0xd800) * 0x400 + (unit' - 0xdc00)))
                (contents rest')
            else none
        | _ => none
      else following (utf8 unit) (contents rest)
  | 0x5c :: e :: rest =>
    match letterEscape? e with
    | some b => following [b] (contents rest)
    | none => none
  | b :: rest => if b < 0x20 then none else following [b] (contents rest)

/-- A string; what it spells has to be a text. -/
def text : Reader String
  | 0x22 :: rest =>
    match contents rest with
    | some (bytes, rest') => (String.fromUTF8? ⟨bytes.toArray⟩).map (·, rest')
    | none => none
  | _ => none

/-! ## 3. Numbers -/

/-- A decimal digit. -/
def isDigit (b : UInt8) : Bool := 0x30 ≤ b && b ≤ 0x39

/-- The number that decimal digits spell. -/
def decimal (ds : List UInt8) : Nat := ds.foldl (fun n d => 10 * n + (d.toNat - 0x30)) 0

/-- The digits of a whole number: at least one, and no zero in front of another. -/
def wholeDigits : Reader (List UInt8) := fun s =>
  match s.takeWhile isDigit with
  | [] => none
  | 0x30 :: _ :: _ => none
  | ds => some (ds, s.dropWhile isDigit)

/-- Whether a fraction or an exponent goes on here. -/
def goesOn (s : List UInt8) : Bool :=
  match s.head? with
  | some b => b == 0x2e || b == 0x65 || b == 0x45
  | none => false

/-- A whole number between the bounds.  A number with a fraction or an exponent is none, nor is a
zero with a sign. -/
def integer (least greatest : Int) : Reader Int := fun s =>
  let (negative, body) := match s with
    | 0x2d :: rest => (true, rest)
    | _ => (false, s)
  match wholeDigits body with
  | none => none
  | some (ds, rest) =>
    let magnitude : Int := decimal ds
    let value := if negative then -magnitude else magnitude
    if goesOn rest || (negative && magnitude == 0) then none
    else if least ≤ value ∧ value ≤ greatest then some (value, rest) else none

/-! ## 4. Skipping -/

/-- The bytes behind the closing quote of a string that is not looked at. -/
def skipString : List UInt8 → Option (List UInt8)
  | [] => none
  | 0x22 :: rest => some rest
  | 0x5c :: 0x75 :: a :: b :: c :: d :: rest =>
    if (codeUnit? [a, b, c, d]).isSome then skipString rest else none
  | 0x5c :: e :: rest => if (letterEscape? e).isSome then skipString rest else none
  | b :: rest => if b < 0x20 then none else skipString rest

/-- At least one digit. -/
def skipDigits (s : List UInt8) : Option (List UInt8) :=
  if (s.head?.any isDigit) then some (s.dropWhile isDigit) else none

/-- A number of any form and size. -/
def skipNumber (s : List UInt8) : Option (List UInt8) := do
  let (_, s) ← wholeDigits (match s with | 0x2d :: rest => rest | _ => s)
  let s ← match s with
    | 0x2e :: rest => skipDigits rest
    | _ => some s
  match s with
  | 0x65 :: rest | 0x45 :: rest =>
    skipDigits (match rest with
      | 0x2b :: digits | 0x2d :: digits => digits
      | _ => rest)
  | _ => some s

mutual

/-- The bytes behind one value; every value costs one unit of fuel, so as many as there are bytes
suffice. -/
def skipValue : (fuel : Nat) → List UInt8 → Option (List UInt8)
  | 0, _ => none
  | fuel + 1, s =>
    match s with
    | 0x22 :: rest => skipString rest
    | 0x5b :: rest =>
      match skipBlank rest with
      | 0x5d :: rest => some rest
      | rest => skipElements fuel rest
    | 0x7b :: rest =>
      match skipBlank rest with
      | 0x7d :: rest => some rest
      | rest => skipMembers fuel rest
    | 0x6e :: _ => expect [0x6e, 0x75, 0x6c, 0x6c] s
    | 0x74 :: _ => expect [0x74, 0x72, 0x75, 0x65] s
    | 0x66 :: _ => expect [0x66, 0x61, 0x6c, 0x73, 0x65] s
    | _ => skipNumber s

/-- The elements of an array up to behind its closing bracket. -/
def skipElements : (fuel : Nat) → List UInt8 → Option (List UInt8)
  | 0, _ => none
  | fuel + 1, s =>
    match skipValue fuel s with
    | none => none
    | some rest =>
      match skipBlank rest with
      | 0x2c :: rest => skipElements fuel (skipBlank rest)
      | 0x5d :: rest => some rest
      | _ => none

/-- The members of an object up to behind its closing brace. -/
def skipMembers : (fuel : Nat) → List UInt8 → Option (List UInt8)
  | 0, _ => none
  | fuel + 1, s =>
    match s with
    | 0x22 :: rest =>
      match skipString rest with
      | none => none
      | some rest =>
        match skipBlank rest with
        | 0x3a :: rest =>
          match skipValue fuel (skipBlank rest) with
          | none => none
          | some rest =>
            match skipBlank rest with
            | 0x2c :: rest => skipMembers fuel (skipBlank rest)
            | 0x7d :: rest => some rest
            | _ => none
        | _ => none
    | _ => none

end

/-- A value of any kind, not looked at. -/
def anything : Reader Unit := fun s => (skipValue (s.length + 1) s).map ((), ·)

/-! ## 5. Arrays and objects -/

/-- The elements of an array up to behind its closing bracket, each read alike. -/
def elementsFrom {α : Type} (value : Reader α) : (fuel : Nat) → Reader (List α)
  | 0, _ => none
  | fuel + 1, s =>
    match value s with
    | none => none
    | some (a, rest) =>
      match skipBlank rest with
      | 0x2c :: rest => (elementsFrom value fuel).map (a :: ·) (skipBlank rest)
      | 0x5d :: rest => some ([a], rest)
      | _ => none

/-- An array whose elements are read alike. -/
def elements {α : Type} (value : Reader α) : Reader (List α)
  | 0x5b :: rest =>
    match skipBlank rest with
    | 0x5d :: rest => some ([], rest)
    | rest => elementsFrom value rest.length rest
  | _ => none

/-- Values one for each reader, with commas between them, up to behind the closing bracket. -/
def tupleFrom {α : Type} : List (Reader α) → Reader (List α)
  | [], _ => none
  | [last], s =>
    match last s with
    | some (a, rest) =>
      match skipBlank rest with
      | 0x5d :: rest => some ([a], rest)
      | _ => none
    | none => none
  | value :: values, s =>
    match value s with
    | some (a, rest) =>
      match skipBlank rest with
      | 0x2c :: rest => (tupleFrom values).map (a :: ·) (skipBlank rest)
      | _ => none
    | none => none

/-- An array with exactly one element for each reader. -/
def tuple {α : Type} (values : List (Reader α)) : Reader (List α)
  | 0x5b :: rest => tupleFrom values (skipBlank rest)
  | _ => none

/-- The members of an object up to behind its closing brace, each read as its key says. -/
def membersFrom {α : Type} (value : String → Reader α) : (fuel : Nat) → Reader (List (String × α))
  | 0, _ => none
  | fuel + 1, s =>
    match text s with
    | none => none
    | some (key, rest) =>
      match skipBlank rest with
      | 0x3a :: rest =>
        match value key (skipBlank rest) with
        | none => none
        | some (a, rest) =>
          match skipBlank rest with
          | 0x2c :: rest => (membersFrom value fuel).map ((key, a) :: ·) (skipBlank rest)
          | 0x7d :: rest => some ([(key, a)], rest)
          | _ => none
      | _ => none

/-- An object whose members are read as their keys say, in the order they stand. -/
def members {α : Type} (value : String → Reader α) : Reader (List (String × α))
  | 0x7b :: rest =>
    match skipBlank rest with
    | 0x7d :: rest => some ([], rest)
    | rest => membersFrom value rest.length rest
  | _ => none

end EventSourcing.Json

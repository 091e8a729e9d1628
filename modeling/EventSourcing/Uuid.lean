/-
# Identifiers of 128 bits

A `Uuid` is a number below 2^128 with a text of 32 digits in five groups.  Reading accepts the
digits in either case in four forms: bare, grouped, grouped in braces, and grouped after the
`urn:uuid:` mark, each letter of which may be small or capital.

`IdSupply` hands out identifiers of the random kind one after another, and `IdSupply.issued` tells
those it handed out from all others.
-/
import EventSourcing.Text.Hex
import EventSourcing.Digest.Sha1

namespace EventSourcing

/-! ## 1. Identifiers and their text -/

/-- A universally unique identifier. -/
structure Uuid where
  value : Fin (Nat.pow 2 128)
  deriving DecidableEq

namespace Uuid

instance : Inhabited Uuid := ⟨⟨0⟩⟩

/-- The identifier with this number, taken below 2^128. -/
def ofNat (n : Nat) : Uuid := ⟨Fin.ofNat (Nat.pow 2 128) n⟩

/-- Cuts 32 digits into groups of 8, 4, 4, 4 and 12. -/
def grouped (ds : List Char) : List Char :=
  ds.take 8 ++ '-' :: (ds.drop 8).take 4 ++ '-' :: (ds.drop 12).take 4 ++ '-' :: (ds.drop 16).take 4
    ++ '-' :: ds.drop 20

/-- The text of an identifier: small hexadecimal digits in five groups. -/
def text (u : Uuid) : String := String.ofList (grouped (Hex.digits 32 u.value.val))

/-- Reads 32 bare digits. -/
def ofDigits? (cs : List Char) : Option Uuid :=
  if cs.length = 32 then (Hex.value? cs).map ofNat else none

/-- Reads digits in five groups with hyphens between them. -/
def ofGrouped? (cs : List Char) : Option Uuid :=
  let bare :=
    cs.take 8 ++ (cs.drop 9).take 4 ++ (cs.drop 14).take 4 ++ (cs.drop 19).take 4 ++ cs.drop 24
  if cs.length = 36 ∧ grouped bare = cs then ofDigits? bare else none

/-- Reads an identifier in any of its four forms. -/
def parse? (s : String) : Option Uuid :=
  let cs := s.toList
  if cs.length = 32 then ofDigits? cs
  else if cs.length = 36 then ofGrouped? cs
  else if cs.length = 38 ∧ cs.head? = some '\x7b' ∧ cs.getLast? = some '\x7d' then
    ofGrouped? ((cs.drop 1).take 36)
  else if cs.length = 45 ∧ (cs.take 9).map Char.toLower = "urn:uuid:".toList then
    ofGrouped? (cs.drop 9)
  else none

/-! ## 2. Name-based identifiers -/

/-- The identifier whose bytes are given, most significant first. -/
def ofBytes (bytes : List UInt8) : Uuid := ofNat (bytes.foldl (fun n b => 256 * n + b.toNat) 0)

/-- The sixteen bytes of an identifier, most significant first. -/
def bytes (u : Uuid) : List UInt8 := Word.bigEndian 16 u.value.val

/-- Marks sixteen bytes as an identifier of the given version. -/
def stamped (version : UInt8) (bs : List UInt8) : List UInt8 :=
  let versioned := bs.modify 6 fun b : UInt8 => (b &&& (0x0f : UInt8)) ||| (version <<< (4 : UInt8))
  versioned.modify 8 fun b : UInt8 => (b &&& (0x3f : UInt8)) ||| (0x80 : UInt8)

/-- The identifier that a space and a name determine: the digest of both, marked as version five. -/
def nameBased (space : Uuid) (name : List UInt8) : Uuid :=
  ofBytes (stamped 5 ((Sha1.digest (space.bytes ++ name)).take 16))

end Uuid

/-! ## 3. A supply of identifiers -/

/-- A supply of identifiers nobody chose; it remembers how many it handed out. -/
structure IdSupply where
  count : Nat := 0
  deriving DecidableEq, Inhabited

namespace IdSupply

/-- The bits that all identifiers of the supply share, those of the random kind among them. -/
def family : Nat := 0xf3a95c0e71d24b86a0c9

/-- The identifier handed out next, and the supply after it. -/
def next (s : IdSupply) : Uuid × IdSupply :=
  (Uuid.ofNat (family * Nat.pow 2 48 + s.count % Nat.pow 2 48), ⟨s.count + 1⟩)

/-- Whether an identifier is one of the supply's. -/
def issued (u : Uuid) : Bool := u.value.val / Nat.pow 2 48 == family

end IdSupply

end EventSourcing

/-
# Metadata

Every event and command carries a bag of texts by key, in the order of the keys.  Some keys are
fixed: they name the message, the message that caused it, and the message at the head of the chain.

What the file settles:

* `Metadata.mergeMissing`: entries of another bag, where the key is free;
* `Metadata.causedBy`: the bag of a message caused by this one;
* `Metadata.json`, `Metadata.ofJson?`: the stored form.
-/
import EventSourcing.Table
import EventSourcing.Uuid
import EventSourcing.Json.Read
import EventSourcing.Json.Write
import EventSourcing.Text.Display

namespace EventSourcing

/-! ## 1. Keys with a fixed meaning -/

/-- The identifier of the message itself. -/
def messageIdKey : String := "$messageId"

/-- The identifier of the message that caused this one. -/
def causationIdKey : String := "$causationId"

/-- The identifier shared by a whole chain of messages. -/
def correlationIdKey : String := "$correlationId"

/-- Why a parked message could not be handled. -/
def errorKey : String := "$error"

/-- The stream a parked message came from. -/
def originalStreamKey : String := "$originalStream"

/-- The position a parked message had in its stream. -/
def originalPositionKey : String := "$originalPosition"

/-! ## 2. The bag -/

/-- Texts by key, in the order of the keys. -/
structure Metadata where
  table : Table String
  deriving DecidableEq, Inhabited

namespace Metadata

/-- The bag with nothing in it. -/
def empty : Metadata := ⟨Table.empty⟩

/-- The entries in the order of their keys. -/
def entries (m : Metadata) : List (String × String) := m.table.entries

/-- The text under a key. -/
def get? (m : Metadata) (key : String) : Option String := m.table.get? key

/-- The bag with the text under the key, in place of the one before. -/
def insert (m : Metadata) (key value : String) : Metadata := ⟨m.table.insert key value⟩

/-- The bag without the key. -/
def erase (m : Metadata) (key : String) : Metadata := ⟨m.table.erase key⟩

/-- Whether there is a text under the key. -/
def contains (m : Metadata) (key : String) : Bool := m.table.contains key

/-- The number of keys. -/
def size (m : Metadata) : Nat := m.table.size

/-- The bag of these entries; of two under one key the later one counts. -/
def ofList (entries : List (String × String)) : Metadata := ⟨Table.ofList entries⟩

/-- Adds the entry unless its key is taken. -/
def insertMissing (m : Metadata) (entry : String × String) : Metadata :=
  if m.contains entry.1 then m else m.insert entry.1 entry.2

/-- Adds the entries of `other` whose keys are free. -/
def mergeMissing (m other : Metadata) : Metadata := other.entries.foldl insertMissing m

@[simp] theorem get?_empty (key : String) : empty.get? key = none := rfl

theorem get?_insert (m : Metadata) (key other value : String) :
    (m.insert key value).get? other = if other = key then some value else m.get? other :=
  Table.get?_insert m.table key other value

theorem get?_erase (m : Metadata) (key other : String) :
    (m.erase key).get? other = if other = key then none else m.get? other :=
  Table.get?_erase m.table key other

theorem get?_insertMissing (m : Metadata) (e : String × String) (key : String) :
    (m.insertMissing e).get? key = (m.get? key).or (if key = e.1 then some e.2 else none) := by
  unfold insertMissing
  split
  · rename_i h
    by_cases hk : key = e.1
    · subst hk
      cases hg : m.get? e.1 with
      | none => simp [contains, Table.contains, get?] at h hg; simp [hg] at h
      | some v => simp
    · simp [hk]
  · rename_i h
    rw [get?_insert]
    by_cases hk : key = e.1
    · subst hk
      have : m.get? e.1 = none := by simpa [contains, Table.contains, get?] using h
      simp [this]
    · simp [hk]

theorem get?_mergeMissing (m other : Metadata) (key : String) :
    (m.mergeMissing other).get? key = (m.get? key).or (other.get? key) := by
  have fold : ∀ (es : List (String × String)) (m : Metadata),
      (es.foldl insertMissing m).get? key = (m.get? key).or (Table.find? key es) := by
    intro es
    induction es with
    | nil => simp [Table.find?]
    | cons e es ih =>
      intro m
      rw [List.foldl_cons, ih, get?_insertMissing, Option.or_assoc]
      congr 1
      by_cases h : key = e.1 <;> simp [Table.find?, h]
  exact fold other.entries m

/-! ## 3. Chains of messages -/

/-- The identifier under a key, if the text there is one. -/
def uuid? (m : Metadata) (key : String) : Option Uuid := (m.get? key).bind Uuid.parse?

/-- The identifier of the message, if the bag names one. -/
def messageId? (m : Metadata) : Option Uuid := m.uuid? messageIdKey

/-- The identifier of the causing message, if the bag names one. -/
def causationId? (m : Metadata) : Option Uuid := m.uuid? causationIdKey

/-- The identifier of the chain, if the bag names one. -/
def correlationId? (m : Metadata) : Option Uuid := m.uuid? correlationIdKey

/-- The bag of a message caused by the message `id` that carried this bag: the chain goes on under
its identifier, or starts here. -/
def causedBy (m : Metadata) (id : Uuid) : Metadata :=
  (empty.insert causationIdKey id.text).insert correlationIdKey (m.correlationId?.getD id).text

/-! ## 4. Stored form -/

/-- The stored form: an object of texts. -/
def json (m : Metadata) : String := Json.object (m.entries.map fun e => (e.1, Json.quote e.2))

/-- Reads an object of texts; of two under one key the later one counts. -/
def reader : Json.Reader Metadata := Json.Reader.map ofList (Json.members fun _ => Json.text)

/-- The bag a stored text stands for. -/
def ofJson? (stored : String) : Option Metadata := Json.document reader stored.toUTF8.data.toList

/-- The bag as a list of its entries. -/
def display (m : Metadata) : String :=
  let entry (e : String × String) := Display.quoted e.1 ++ ": " ++ Display.quoted e.2
  Display.wrapped "Metadata" (Display.collection (m.entries.map entry))

end Metadata

end EventSourcing

/-
# What was written is read back

A registry takes its pairs in one by one and refuses what contradicts them, so a name stands for one
shape and a shape for one name.  An event that was written under the name of its shape is read back
under it, as long as the codec of the shape reads what it wrote.

What the file settles:

* `TypeRegistry.Built`: the registries there can be; `Built.oneToOne`: their pairs are found from
  both sides;
* `TypeRegistry.Decodes`: what is taken for granted of the codecs;
* `TypeRegistry.deserializeEvent_of_serializeEvent`: an event that was written is read back.
-/
import EventSourcing.Registry.Codec

namespace EventSourcing
namespace TypeRegistry

variable {F : PayloadFamily} {r r' : TypeRegistry F}

/-! ## 1. Pairs -/

/-- A registry that has taken its pairs in one by one. -/
inductive Built : TypeRegistry F → Prop where
  | empty : Built empty
  | register {r r' : TypeRegistry F} {name : String} {shape : F.Shape} (before : Built r)
    (taken : r.register name shape = .ok r') : Built r'

/-- Every pair is the one with its name, and the one with its shape. -/
structure OneToOne (r : TypeRegistry F) : Prop where
  byName : ∀ t ∈ r.types, r.byName? t.name = some t
  byShape : ∀ t ∈ r.types, r.byShape? t.shape = some t

/-- A registry that takes a pair in has it already, or has neither its name nor its shape. -/
theorem register_ok {name : String} {shape : F.Shape} (taken : r.register name shape = .ok r') :
    r' = r ∧ ⟨name, shape⟩ ∈ r.types ∨
      r.byName? name = none ∧ r.byShape? shape = none ∧ r' = ⟨r.types ++ [⟨name, shape⟩]⟩ := by
  unfold register at taken
  split at taken
  · rename_i existing found
    split at taken
    · rename_i same
      cases taken
      subst same
      have named : existing.name = name := by simpa using List.find?_some found
      subst named
      exact .inl ⟨rfl, List.mem_of_find?_eq_some found⟩
    · cases taken
  · rename_i fresh
    split at taken
    · cases taken
    · rename_i unnamed
      cases taken
      exact .inr ⟨fresh, unnamed, rfl⟩

theorem OneToOne.register {name : String} {shape : F.Shape} (h : OneToOne r)
    (taken : r.register name shape = .ok r') : OneToOne r' := by
  rcases register_ok taken with ⟨rfl, -⟩ | ⟨fresh, unnamed, rfl⟩
  · exact h
  unfold byName? at fresh
  unfold byShape? at unnamed
  constructor
  case byName =>
    intro t ht
    unfold byName?
    rw [List.find?_append]
    rcases List.mem_append.1 ht with ht | ht
    · rw [show r.types.find? _ = some t from h.byName t ht, Option.some_or]
    · cases List.mem_singleton.1 ht
      rw [fresh, Option.none_or]
      simp
  case byShape =>
    intro t ht
    unfold byShape?
    rw [List.find?_append]
    rcases List.mem_append.1 ht with ht | ht
    · rw [show r.types.find? _ = some t from h.byShape t ht, Option.some_or]
    · cases List.mem_singleton.1 ht
      rw [unnamed, Option.none_or]
      simp

theorem Built.oneToOne (built : Built r) : OneToOne r := by
  induction built with
  | empty => exact ⟨by simp [TypeRegistry.empty], by simp [TypeRegistry.empty]⟩
  | register before taken ih => exact ih.register taken

/-! ## 2. Events -/

/-- The codecs of the registered shapes read what they wrote. -/
def Decodes (r : TypeRegistry F) : Prop :=
  ∀ t ∈ r.types, ∀ value bytes, F.encode t.shape value = .ok bytes →
    F.decode t.shape bytes = some value

theorem deserialize_of_serialize (one : OneToOne r) (codec : Decodes r)
    {p : Payload F} {shapeName : String} {stored : SerializedPayload}
    (written : r.serialize p shapeName = .ok stored) : r.deserialize stored = .ok p := by
  unfold serialize at written
  split at written
  · cases written
  · rename_i t found
    have ht : t ∈ r.types := List.mem_of_find?_eq_some found
    have hshape : t.shape = p.shape := by simpa using List.find?_some found
    split at written
    · cases written
    · rename_i bytes encoded
      cases written
      obtain ⟨shape, value⟩ := p
      cases hshape
      have named : r.resolve t.name = .ok t := by
        unfold resolve
        rw [one.byName t ht]
      unfold deserialize
      rw [if_neg (by simp), named]
      dsimp only
      rw [codec t ht value bytes encoded]

/-- **An event that was written is read back.** -/
theorem deserializeEvent_of_serializeEvent (built : Built r) (codec : Decodes r) {E : EventSet F}
    {e : E.Event} {stored : SerializedPayload} (written : r.serializeEvent e = .ok stored) :
    r.deserializeEvent E stored = .ok e := by
  unfold deserializeEvent
  rw [deserialize_of_serialize built.oneToOne codec written]
  dsimp only
  rw [EventSet.ofPayload?_payload]

end TypeRegistry
end EventSourcing

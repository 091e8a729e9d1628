/-
# What a registry binds

A registration that succeeds binds a name to a shape and the shape to the name; any other leaves
everything as it was.  So after any registrations, refused and repeated ones among them, what stands
under the names and what the shapes are called are inverse to each other, and what was bound once
stays bound.

What the file settles:

* `RegistryView`: what can be asked of a registry; `TwoWay`: its two directions fit each other;
* `RegistryView.Answers`: the four answers to a registration, each with its reason;
* `IndexedRegistry.Mirrors`: a registry with two indexes is one with a list of pairs;
* `pairs_are_bound_both_ways`: both registries after any registrations.
-/
import EventSourcing.Proofs.Registry
import EventSourcing.Registry.Indexed
import Mathlib.Data.List.Induction

namespace EventSourcing

/-! ## 1. What can be asked of a registry -/

/-- The readings of a registry. -/
structure RegistryView (F : PayloadFamily) where
  resolve : String → Except RegistryError (RegisteredType F)
  nameOf : F.Shape → Except RegistryError String
  /-- The pair a value of the shape is written by. -/
  byShape? : F.Shape → Option (RegisteredType F)

namespace RegistryView

variable {F : PayloadFamily} {v v' : RegistryView F} {name : String} {shape : F.Shape}

/-- The name stands for the shape. -/
def Binds (v : RegistryView F) (name : String) (shape : F.Shape) : Prop :=
  ∃ t, v.resolve name = .ok t ∧ t.shape = shape

/-- The name stands for no shape. -/
def IsFree (v : RegistryView F) (name : String) : Prop := ∀ shape, ¬ v.Binds name shape

/-- The shape has no name. -/
def IsUnnamed (v : RegistryView F) (shape : F.Shape) : Prop := ∀ name, v.nameOf shape ≠ .ok name

/-- The two directions fit each other. -/
structure TwoWay (v : RegistryView F) : Prop where
  /-- A name stands for a shape exactly if the shape is called by it. -/
  inverse : ∀ name shape, v.Binds name shape ↔ v.nameOf shape = .ok name
  /-- A value is written by the pair by which it is read again. -/
  samePair : ∀ shape t, v.byShape? shape = some t ↔ t.shape = shape ∧ v.resolve t.name = .ok t

theorem Binds.unique {other : F.Shape} (bound : v.Binds name shape) (bound' : v.Binds name other) :
    other = shape := by
  obtain ⟨t, ht, rfl⟩ := bound
  obtain ⟨t', ht', rfl⟩ := bound'
  cases ht.symm.trans ht'
  rfl

/-- The answers to a registration. -/
inductive Answers (v : RegistryView F) (name : String) (shape : F.Shape) :
    Except RegistryError Unit → Prop where
  | repeated (bound : v.Binds name shape) : Answers v name shape (.ok ())
  | fresh (free : v.IsFree name) (unnamed : v.IsUnnamed shape) : Answers v name shape (.ok ())
  | nameTaken {other : F.Shape} (bound : v.Binds name other) (ne : other ≠ shape) :
    Answers v name shape (.error (.duplicateName name (F.name other) (F.name shape)))
  | shapeTaken {other : String} (free : v.IsFree name) (bound : v.nameOf shape = .ok other) :
    Answers v name shape (.error (.duplicateShape (F.name shape) other name))

/-- When a registration is answered in which way, and what it leaves. -/
structure Registers (v : RegistryView F) (name : String) (shape : F.Shape)
    (answer : Except RegistryError Unit) (v' : RegistryView F) : Prop where
  /-- It succeeds exactly if the pair is there, or neither its name nor its shape is. -/
  succeeds : answer = .ok () ↔ v.Binds name shape ∨ v.IsFree name ∧ v.IsUnnamed shape
  /-- It is refused for the name exactly if that stands for another shape. -/
  nameTaken : ∀ text existing attempted, answer = .error (.duplicateName text existing attempted) ↔
    ∃ other, v.Binds name other ∧ other ≠ shape ∧
      text = name ∧ existing = F.name other ∧ attempted = F.name shape
  /-- It is refused for the shape exactly if the name stands for no other one, and the shape is
  called by another name. -/
  shapeTaken : ∀ text existing attempted,
    answer = .error (.duplicateShape text existing attempted) ↔
      (∀ other, v.Binds name other → other = shape) ∧
      v.nameOf shape = .ok existing ∧ existing ≠ name ∧
      text = F.name shape ∧ attempted = name
  /-- Once it succeeded the name stands for the shape, and other names for what they did. -/
  resolve : answer = .ok () →
    ∀ n, v'.resolve n = if n = name then .ok ⟨name, shape⟩ else v.resolve n
  /-- Once it succeeded the shape is called by the name, and other shapes by what they were. -/
  nameOf : answer = .ok () → ∀ s, v'.nameOf s = if s = shape then .ok name else v.nameOf s

theorem Answers.succeeds_iff {answer : Except RegistryError Unit}
    (answers : v.Answers name shape answer) :
    answer = .ok () ↔ v.Binds name shape ∨ v.IsFree name ∧ v.IsUnnamed shape := by
  cases answers with
  | repeated bound => exact iff_of_true rfl (.inl bound)
  | fresh free unnamed => exact iff_of_true rfl (.inr ⟨free, unnamed⟩)
  | nameTaken bound ne =>
    refine iff_of_false nofun ?_
    rintro (here | ⟨free, -⟩)
    · exact ne (here.unique bound)
    · exact free _ bound
  | shapeTaken free bound =>
    refine iff_of_false nofun ?_
    rintro (here | ⟨-, unnamed⟩)
    · exact free _ here
    · exact unnamed _ bound

theorem Answers.nameTaken_iff {answer : Except RegistryError Unit}
    (answers : v.Answers name shape answer) (text existing attempted : String) :
    answer = .error (.duplicateName text existing attempted) ↔
      ∃ other, v.Binds name other ∧ other ≠ shape ∧
        text = name ∧ existing = F.name other ∧ attempted = F.name shape := by
  cases answers with
  | repeated bound =>
    refine iff_of_false nofun ?_
    rintro ⟨other, there, ne, -⟩
    exact ne (bound.unique there)
  | fresh free =>
    refine iff_of_false nofun ?_
    rintro ⟨other, there, -⟩
    exact free other there
  | @nameTaken other bound ne =>
    constructor
    · intro h
      cases h
      exact ⟨other, bound, ne, rfl, rfl, rfl⟩
    · rintro ⟨other', there, -, rfl, rfl, rfl⟩
      rw [bound.unique there]
  | shapeTaken free =>
    refine iff_of_false nofun ?_
    rintro ⟨other, there, -⟩
    exact free other there

theorem Answers.shapeTaken_iff {answer : Except RegistryError Unit} (two : v.TwoWay)
    (answers : v.Answers name shape answer) (text existing attempted : String) :
    answer = .error (.duplicateShape text existing attempted) ↔
      (∀ other, v.Binds name other → other = shape) ∧ v.nameOf shape = .ok existing ∧
        existing ≠ name ∧
        text = F.name shape ∧ attempted = name := by
  cases answers with
  | repeated bound =>
    refine iff_of_false nofun ?_
    rintro ⟨-, called, ne, -⟩
    have called' := (two.inverse name shape).1 bound
    rw [called] at called'
    exact ne (Except.ok.inj called')
  | fresh free unnamed =>
    refine iff_of_false nofun ?_
    rintro ⟨-, called, -⟩
    exact unnamed _ called
  | nameTaken bound ne =>
    refine iff_of_false nofun ?_
    rintro ⟨only, -⟩
    exact ne (only _ bound)
  | @shapeTaken other free bound =>
    constructor
    · intro h
      cases h
      refine ⟨fun other' there => absurd there (free other'), bound, ?_, rfl, rfl⟩
      rintro rfl
      exact free shape ((two.inverse _ shape).2 bound)
    · rintro ⟨-, called, -, rfl, rfl⟩
      cases bound.symm.trans called
      rfl

/-- What was bound before a registration is bound after it. -/
theorem Registers.kept {answer : Except RegistryError Unit}
    (registers : v.Registers name shape answer v') (refused : answer ≠ .ok () → v' = v) {n : String}
    {s : F.Shape} (bound : v.Binds n s) : v'.Binds n s := by
  by_cases ok : answer = .ok ()
  · have resolve := registers.resolve ok n
    split at resolve
    · rename_i same
      subst same
      rcases registers.succeeds.1 ok with here | ⟨free, -⟩
      · exact ⟨_, resolve, bound.unique here⟩
      · exact absurd bound (free s)
    · obtain ⟨t, ht, hs⟩ := bound
      exact ⟨t, resolve.trans ht, hs⟩
  · exact refused ok ▸ bound

end RegistryView

/-- A registry that takes pairs in one by one and stays as it is when it refuses one. -/
class Registering (ρ : Type) (F : outParam PayloadFamily) where
  empty : ρ
  register : ρ → String → F.Shape → Except RegistryError Unit × ρ
  view : ρ → RegistryView F

namespace Registering

variable {F : PayloadFamily}

/-- The registry after these registrations. -/
def reached (ρ : Type) [Registering ρ F] (calls : List (String × F.Shape)) : ρ :=
  calls.foldl (fun r call => (register r call.1 call.2).2) empty

theorem reached_concat (ρ : Type) [Registering ρ F]
    (calls : List (String × F.Shape)) (name : String) (shape : F.Shape) :
    reached ρ (calls ++ [(name, shape)]) = (register (reached ρ calls) name shape).2 := by
  rw [reached, List.foldl_append]
  rfl

/-- The registrations bind names and shapes to each other, for good. -/
structure Bijective (ρ : Type) [Registering ρ F] (calls : List (String × F.Shape)) : Prop where
  /-- Names and shapes are inverse to each other. -/
  twoWay : (view (reached ρ calls)).TwoWay
  /-- One more registration is answered for what it is. -/
  registers : ∀ name shape, (view (reached ρ calls)).Registers name shape
    (register (reached ρ calls) name shape).1 (view (reached ρ (calls ++ [(name, shape)])))
  /-- A registration that is refused, or made again, changes nothing. -/
  idle : ∀ name shape, (register (reached ρ calls) name shape).1 ≠ .ok () ∨
      (view (reached ρ calls)).Binds name shape →
    reached ρ (calls ++ [(name, shape)]) = reached ρ calls
  /-- What is bound stays bound. -/
  kept : ∀ more name shape, (view (reached ρ calls)).Binds name shape →
    (view (reached ρ (calls ++ more))).Binds name shape

/-- What each registration keeps is kept by all of them. -/
theorem binds_append {ρ : Type} [Registering ρ F]
    (keeps : ∀ calls name shape other bound, (view (reached ρ calls)).Binds other bound →
      (view (reached ρ (calls ++ [(name, shape)]))).Binds other bound)
    (calls more : List (String × F.Shape)) {name : String} {shape : F.Shape}
    (bound : (view (reached ρ calls)).Binds name shape) :
    (view (reached ρ (calls ++ more))).Binds name shape := by
  induction more generalizing calls with
  | nil => rwa [List.append_nil]
  | cons call rest ih =>
    rw [List.append_cons]
    exact ih _ (keeps calls call.1 call.2 name shape bound)

end Registering

/-! ## 2. A list of pairs -/

namespace TypeRegistry

variable {F : PayloadFamily} {r r' : TypeRegistry F} {name : String} {shape : F.Shape}
  {t : RegisteredType F}

instance : Registering (TypeRegistry F) F where
  empty := empty
  register r name shape :=
    ((r.register name shape).map fun _ => (), (r.register name shape).toOption.getD r)
  view r := ⟨r.resolve, r.nameOf, r.byShape?⟩

open Registering

theorem resolve_ok_iff : r.resolve name = .ok t ↔ r.byName? name = some t := by
  unfold resolve
  split <;> simp_all

theorem nameOf_ok_iff :
    r.nameOf shape = .ok name ↔ ∃ t, r.byShape? shape = some t ∧ t.name = name := by
  unfold nameOf
  split <;> simp_all

theorem byName?_concat (name : String) :
    (⟨r.types ++ [t]⟩ : TypeRegistry F).byName? name =
      (r.byName? name).or (if t.name = name then some t else none) := by
  unfold byName?
  rw [List.find?_append]
  by_cases same : t.name = name <;> simp [same]

theorem byShape?_concat (shape : F.Shape) :
    (⟨r.types ++ [t]⟩ : TypeRegistry F).byShape? shape =
      (r.byShape? shape).or (if t.shape = shape then some t else none) := by
  unfold byShape?
  rw [List.find?_append]
  by_cases same : t.shape = shape <;> simp [same]

/-- What a registration answers, and the registry it leaves. -/
theorem register_eq (r : TypeRegistry F) (name : String) (shape : F.Shape) :
    (∃ r', r.register name shape = .ok r' ∧ Registering.register r name shape = (.ok (), r')) ∨
      ∃ error, r.register name shape = .error error ∧
        Registering.register r name shape = (.error error, r) := by
  simp only [Registering.register]
  cases r.register name shape with
  | ok r' => exact .inl ⟨r', rfl, rfl⟩
  | error error => exact .inr ⟨error, rfl, rfl⟩

namespace OneToOne

theorem byName?_iff (one : OneToOne r) : r.byName? name = some t ↔ t ∈ r.types ∧ t.name = name := by
  constructor
  · intro found
    exact ⟨List.mem_of_find?_eq_some found, by simpa using List.find?_some found⟩
  · rintro ⟨ht, rfl⟩
    exact one.byName t ht

theorem byShape?_iff (one : OneToOne r) :
    r.byShape? shape = some t ↔ t ∈ r.types ∧ t.shape = shape := by
  constructor
  · intro found
    exact ⟨List.mem_of_find?_eq_some found, by simpa using List.find?_some found⟩
  · rintro ⟨ht, rfl⟩
    exact one.byShape t ht

/-- A name stands for a shape if they are a pair of the registry. -/
theorem binds_iff (one : OneToOne r) : (view r).Binds name shape ↔ ⟨name, shape⟩ ∈ r.types := by
  constructor
  · rintro ⟨t, ht, rfl⟩
    obtain ⟨mem, rfl⟩ := one.byName?_iff.1 (resolve_ok_iff.1 ht)
    exact mem
  · intro mem
    exact ⟨_, resolve_ok_iff.2 (one.byName _ mem), rfl⟩

theorem nameOf_iff (one : OneToOne r) : r.nameOf shape = .ok name ↔ ⟨name, shape⟩ ∈ r.types := by
  rw [nameOf_ok_iff]
  constructor
  · rintro ⟨t, ht, rfl⟩
    obtain ⟨mem, rfl⟩ := one.byShape?_iff.1 ht
    exact mem
  · intro mem
    exact ⟨_, one.byShape _ mem, rfl⟩

theorem twoWay (one : OneToOne r) : (view r).TwoWay where
  inverse name shape := one.binds_iff.trans one.nameOf_iff.symm
  samePair shape t := by
    show r.byShape? shape = some t ↔ t.shape = shape ∧ r.resolve t.name = .ok t
    rw [one.byShape?_iff, resolve_ok_iff, one.byName?_iff]
    exact ⟨fun ⟨mem, same⟩ => ⟨same, mem, rfl⟩, fun ⟨same, mem, _⟩ => ⟨mem, same⟩⟩

theorem answers (one : OneToOne r) (name : String) (shape : F.Shape) :
    (view r).Answers name shape (Registering.register r name shape).1 := by
  show (view r).Answers name shape ((r.register name shape).map fun _ => ())
  unfold TypeRegistry.register
  cases found : r.byName? name with
  | some existing =>
    obtain ⟨mem, rfl⟩ := one.byName?_iff.1 found
    dsimp only
    split
    · rename_i same
      subst same
      exact .repeated (one.binds_iff.2 mem)
    · rename_i ne
      exact .nameTaken (one.binds_iff.2 mem) ne
  | none =>
    have free : (view r).IsFree name := by
      intro other bound
      rw [one.byName _ (one.binds_iff.1 bound)] at found
      cases found
    cases named : r.byShape? shape with
    | some existing => exact .shapeTaken free (nameOf_ok_iff.2 ⟨existing, named, rfl⟩)
    | none =>
      refine .fresh free fun other called => ?_
      rw [one.byShape _ (one.nameOf_iff.1 called)] at named
      cases named

/-- A registration that succeeds leaves the pair, and all others. -/
theorem views_of_register (one : OneToOne r) (taken : r.register name shape = .ok r') :
    (∀ n, r'.resolve n = if n = name then .ok ⟨name, shape⟩ else r.resolve n) ∧
      ∀ s, r'.nameOf s = if s = shape then .ok name else r.nameOf s := by
  rcases register_ok taken with ⟨rfl, mem⟩ | ⟨free, unnamed, rfl⟩
  · constructor
    · intro n
      split
      · rename_i same
        exact resolve_ok_iff.2 (same ▸ one.byName _ mem)
      · rfl
    · intro s
      split
      · rename_i same
        exact same ▸ one.nameOf_iff.2 mem
      · rfl
  · constructor
    · intro n
      unfold resolve
      rw [byName?_concat]
      by_cases same : n = name
      · rw [if_pos same, if_pos same.symm, same, free]
        rfl
      · rw [if_neg same, if_neg (Ne.symm same), Option.or_none]
    · intro s
      unfold nameOf
      rw [byShape?_concat]
      by_cases same : s = shape
      · rw [if_pos same, if_pos same.symm, same, unnamed]
        rfl
      · rw [if_neg same, if_neg (Ne.symm same), Option.or_none]

theorem registers (one : OneToOne r) (name : String) (shape : F.Shape) :
    (view r).Registers name shape (Registering.register r name shape).1
      (view (Registering.register r name shape).2) := by
  have answers := one.answers name shape
  constructor
  case succeeds => exact answers.succeeds_iff
  case nameTaken => exact answers.nameTaken_iff
  case shapeTaken => exact answers.shapeTaken_iff one.twoWay
  case resolve =>
    intro ok
    rcases register_eq r name shape with ⟨r', taken, heq⟩ | ⟨error, -, heq⟩ <;> rw [heq] at ok ⊢
    · exact (one.views_of_register taken).1
    · cases ok
  case nameOf =>
    intro ok
    rcases register_eq r name shape with ⟨r', taken, heq⟩ | ⟨error, -, heq⟩ <;> rw [heq] at ok ⊢
    · exact (one.views_of_register taken).2
    · cases ok

/-- A registration that is refused, or made again, leaves the registry as it is. -/
theorem idle (one : OneToOne r) {name : String} {shape : F.Shape}
    (why : (Registering.register r name shape).1 ≠ .ok () ∨ (view r).Binds name shape) :
    (Registering.register r name shape).2 = r := by
  rcases register_eq r name shape with ⟨r', taken, heq⟩ | ⟨error, -, heq⟩ <;> rw [heq] at why ⊢
  rcases register_ok taken with ⟨rfl, -⟩ | ⟨free, -⟩
  · rfl
  · rcases why with refused | bound
    · exact absurd rfl refused
    · rw [one.byName _ (one.binds_iff.1 bound)] at free
      cases free

end OneToOne

theorem OneToOne.registered (one : OneToOne r) (name : String) (shape : F.Shape) :
    OneToOne (Registering.register r name shape).2 := by
  rcases register_eq r name shape with ⟨r', taken, heq⟩ | ⟨error, -, heq⟩ <;> rw [heq]
  · exact one.register taken
  · exact one

/-- Registrations keep the pairs one to one, whatever becomes of each. -/
theorem oneToOne_reached (calls : List (String × F.Shape)) :
    OneToOne (reached (TypeRegistry F) calls) := by
  induction calls using List.reverseRecOn with
  | nil => exact Built.empty.oneToOne
  | append_singleton calls call ih =>
    rw [reached_concat]
    exact ih.registered call.1 call.2

theorem bijective (calls : List (String × F.Shape)) : Bijective (TypeRegistry F) calls := by
  have one := oneToOne_reached (F := F)
  constructor
  case twoWay => exact (one calls).twoWay
  case registers =>
    intro name shape
    rw [reached_concat]
    exact (one calls).registers name shape
  case idle =>
    intro name shape why
    rw [reached_concat]
    exact (one calls).idle why
  case kept =>
    intro more name shape bound
    refine binds_append (fun calls name shape other bound => ?_) calls more bound
    rw [reached_concat]
    exact ((one calls).registers name shape).kept fun refused =>
      congrArg view ((one calls).idle (.inl refused))

end TypeRegistry

/-! ## 3. Two indexes -/

namespace IndexedRegistry

variable {F : PayloadFamily} {i : IndexedRegistry F} {r : TypeRegistry F} {name : String}
  {shape : F.Shape}

instance : Registering (IndexedRegistry F) F where
  empty := {}
  register := register
  view i := ⟨i.resolve, i.nameOf, i.byShape?⟩

open Registering

/-- Each index is one direction of the list of pairs. -/
structure Mirrors (i : IndexedRegistry F) (r : TypeRegistry F) : Prop where
  byName : ∀ name, i.byName? name = r.byName? name
  name : ∀ shape, i.name? shape = (r.byShape? shape).map (·.name)

theorem mirrors_empty : Mirrors ({} : IndexedRegistry F) TypeRegistry.empty :=
  ⟨fun _ => rfl, fun _ => rfl⟩

namespace Mirrors

/-- Through both indexes one comes to the pair of the shape. -/
theorem byShape (h : Mirrors i r) (one : r.OneToOne) (shape : F.Shape) :
    i.byShape? shape = r.byShape? shape := by
  unfold byShape?
  rw [h.name]
  cases found : r.byShape? shape with
  | none => rfl
  | some t => exact (h.byName t.name).trans (one.byName t (one.byShape?_iff.1 found).1)

theorem view (h : Mirrors i r) (one : r.OneToOne) : view i = view r := by
  have resolve : i.resolve = r.resolve := by
    funext name
    cases found : r.byName? name
      <;> simp [IndexedRegistry.resolve, TypeRegistry.resolve, h.byName, found]
  have nameOf : i.nameOf = r.nameOf := by
    funext shape
    cases found : r.byShape? shape
      <;> simp [IndexedRegistry.nameOf, TypeRegistry.nameOf, h.name, found]
  show RegistryView.mk i.resolve i.nameOf i.byShape? = RegistryView.mk r.resolve r.nameOf r.byShape?
  rw [resolve, nameOf, funext (h.byShape one)]

/-- A pair that goes into both indexes goes to the end of the list. -/
theorem insert (h : Mirrors i r) (free : r.byName? name = none)
    (unnamed : r.byShape? shape = none) :
    Mirrors ⟨i.types.insert name ⟨name, shape⟩, (shape, name) :: i.names⟩
      ⟨r.types ++ [⟨name, shape⟩]⟩ := by
  constructor
  case byName =>
    intro other
    rw [TypeRegistry.byName?_concat, ← h.byName]
    show (i.types.insert name ⟨name, shape⟩).get? other = (i.types.get? other).or _
    rw [Table.get?_insert]
    by_cases same : other = name
    · rw [if_pos same, if_pos same.symm, same,
        show i.types.get? name = none from (h.byName name).trans free]
      rfl
    · rw [if_neg same, if_neg (Ne.symm same), Option.or_none]
  case name =>
    intro other
    rw [TypeRegistry.byShape?_concat]
    show List.lookup other ((shape, name) :: i.names) = _
    rw [List.lookup_cons]
    by_cases same : other = shape
    · subst same
      rw [unnamed]
      simp
    · rw [if_neg (Ne.symm same), Option.or_none, beq_false_of_ne same]
      exact h.name other

theorem register (h : Mirrors i r) (name : String) (shape : F.Shape) :
    (Registering.register i name shape).1 = (Registering.register r name shape).1 ∧
      Mirrors (Registering.register i name shape).2 (Registering.register r name shape).2 := by
  show (i.register name shape).1 = (r.register name shape).map (fun _ => ()) ∧
    Mirrors (i.register name shape).2 ((r.register name shape).toOption.getD r)
  unfold IndexedRegistry.register TypeRegistry.register
  rw [h.byName, h.name]
  cases found : r.byName? name with
  | some existing =>
    dsimp only
    split
    · exact ⟨rfl, h⟩
    · exact ⟨rfl, h⟩
  | none =>
    cases named : r.byShape? shape with
    | some existing => exact ⟨rfl, h⟩
    | none => exact ⟨rfl, h.insert found named⟩

end Mirrors

theorem mirrors_reached (calls : List (String × F.Shape)) :
    Mirrors (reached (IndexedRegistry F) calls) (reached (TypeRegistry F) calls) := by
  induction calls using List.reverseRecOn with
  | nil => exact mirrors_empty
  | append_singleton calls call ih =>
    rw [reached_concat, reached_concat]
    exact (ih.register call.1 call.2).2

theorem view_reached (calls : List (String × F.Shape)) :
    view (reached (IndexedRegistry F) calls) = view (reached (TypeRegistry F) calls) :=
  (mirrors_reached calls).view (TypeRegistry.oneToOne_reached calls)

theorem answer_reached (calls : List (String × F.Shape)) (name : String) (shape : F.Shape) :
    (Registering.register (reached (IndexedRegistry F) calls) name shape).1 =
      (Registering.register (reached (TypeRegistry F) calls) name shape).1 :=
  ((mirrors_reached calls).register name shape).1

/-- A registration that is refused, or made again, writes into neither index. -/
theorem idle (i : IndexedRegistry F) {name : String} {shape : F.Shape}
    (why : (i.register name shape).1 ≠ .ok () ∨ ∃ t, i.resolve name = .ok t ∧ t.shape = shape) :
    (i.register name shape).2 = i := by
  unfold register at why ⊢
  split
  · split <;> rfl
  · rename_i free
    split
    · rfl
    · rename_i unnamed
      rcases why with refused | ⟨t, found, -⟩
      · rw [free, unnamed] at refused
        exact absurd rfl refused
      · rw [resolve, free] at found
        cases found

theorem bijective (calls : List (String × F.Shape)) (h : Bijective (TypeRegistry F) calls) :
    Bijective (IndexedRegistry F) calls := by
  constructor
  case twoWay => exact view_reached calls ▸ h.twoWay
  case registers =>
    intro name shape
    rw [view_reached, view_reached, answer_reached]
    exact h.registers name shape
  case idle =>
    intro name shape why
    rw [reached_concat]
    exact idle _ why
  case kept =>
    intro more name shape
    rw [view_reached, view_reached]
    exact h.kept more name shape

end IndexedRegistry

/-! ## 4. Values and their pairs -/

namespace TypeRegistry

variable {F : PayloadFamily} {r : TypeRegistry F}

open Registering

/-- Values are written and read by the pairs of the registry. -/
structure WritesPairs (r : TypeRegistry F) : Prop where
  /-- A value is written under the name its shape is bound to. -/
  written : ∀ p shapeName stored, r.serialize p shapeName = .ok stored →
    (view r).Binds stored.eventType p.shape
  /-- A value that was read has the shape the name is bound to. -/
  read : ∀ stored p, r.deserialize stored = .ok p → (view r).Binds stored.eventType p.shape

theorem writesPairs (two : (view r).TwoWay) : WritesPairs r := by
  constructor
  case written =>
    intro p shapeName stored written
    unfold serialize at written
    split at written
    · cases written
    · rename_i t found
      split at written
      · cases written
      · cases written
        obtain ⟨same, named⟩ := (two.samePair _ _).1 found
        exact ⟨t, named, same⟩
  case read =>
    intro stored p read
    unfold deserialize at read
    split at read
    · cases read
    · split at read
      · cases read
      · rename_i t found
        split at read
        · cases read
        · cases read
          exact ⟨t, found, rfl⟩

end TypeRegistry

open Registering in
/-- **Names and shapes are bound to each other, for good.**  Whatever registrations were made, in a
list of pairs or in two indexes, the names and the shapes are inverse to each other, one more
registration is answered for what it is, what is bound stays bound, and values are written and read
by the same pairs. -/
theorem pairs_are_bound_both_ways {F : PayloadFamily} (calls : List (String × F.Shape)) :
    Bijective (TypeRegistry F) calls ∧ Bijective (IndexedRegistry F) calls ∧
      view (reached (IndexedRegistry F) calls) = view (reached (TypeRegistry F) calls) ∧
      (reached (TypeRegistry F) calls).WritesPairs := by
  have both := TypeRegistry.bijective (F := F) calls
  exact ⟨both, IndexedRegistry.bijective calls both, IndexedRegistry.view_reached calls,
    TypeRegistry.writesPairs both.twoWay⟩

end EventSourcing

/-
# Which instances the name of a stream tells apart

The stream of an instance is named after its aggregate, a hyphen, and the text of its identifier,
and what follows the first hyphen is taken for the identifier.  An identifier may hold any hyphens.
A name of an aggregate may not: nothing keeps it from having one, but then the identifier is no
longer read back, and an aggregate whose name goes on after a hyphen where another one's ends has
streams that are the other one's as well.

What the file settles:

* `Plain`: the names without a hyphen;
* `idPart_ofInstance`: what is taken for the identifier, whatever the name; `idPart_ofInstance_iff`:
  when it is;
* `ofInstance_eq_iff`: when two instances have the same stream;
* `instances_are_told_apart_iff`: both for any two instances of any two aggregates.
-/
import EventSourcing.Aggregate
import EventSourcing.Sample.Booking
import EventSourcing.Sample.Counter
import EventSourcing.Sample.Tally
import Mathlib.Data.List.TakeWhile

namespace EventSourcing

namespace StreamName

/-! ## 1. Names with a hyphen -/

/-- The name has no hyphen. -/
def Plain (name : String) : Prop := '-' ∉ name.toList

instance (name : String) : Decidable (Plain name) := inferInstanceAs (Decidable ('-' ∉ name.toList))

/-- The second name goes on after a hyphen where the first one ends, and the identifier that goes
with the first begins with what the second has more. -/
def RunsInto (name₁ id₁ name₂ id₂ : String) : Prop :=
  ∃ more, name₂ = name₁ ++ "-" ++ more ∧ id₁ = more ++ "-" ++ id₂

theorem toList_hyphened (a b : String) : (a ++ "-" ++ b).toList = a.toList ++ '-' :: b.toList := by
  rw [String.toList_append, String.toList_append, List.append_assoc]
  rfl

theorem not_plain_hyphened (a b : String) : ¬ Plain (a ++ "-" ++ b) := by simp [Plain]

/-- A name is plain, or it is split at its first hyphen. -/
theorem plain_or_split (name : String) :
    Plain name ∨ ∃ front back, name = front ++ "-" ++ back ∧ Plain front := by
  by_cases h : '-' ∈ name.toList
  · obtain ⟨front, back, split, plain⟩ := List.eq_append_cons_of_mem h
    refine .inr ⟨String.ofList front, String.ofList back, ?_, by rwa [Plain, String.toList_ofList]⟩
    rw [← String.toList_inj, toList_hyphened, String.toList_ofList, String.toList_ofList, split]
  · exact .inl h

/-! ## 2. Reading the identifier back -/

theorem idPart_plain {name : String} (plain : Plain name) : (StreamName.mk name).idPart = none := by
  have none : name.toList.dropWhile (· ≠ '-') = [] :=
    List.dropWhile_eq_nil_iff.2 fun c hc => decide_eq_true (ne_of_mem_of_not_mem hc plain)
  rw [idPart, none]

theorem idPart_split {front : String} (plain : Plain front) (back : String) :
    (StreamName.mk (front ++ "-" ++ back)).idPart = some back := by
  have split : (front ++ "-" ++ back).toList.dropWhile (· ≠ '-') = '-' :: back.toList := by
    rw [toList_hyphened, List.dropWhile_append_of_pos fun c hc =>
      decide_eq_true (ne_of_mem_of_not_mem hc plain), List.dropWhile_cons_of_neg (by simp)]
  rw [idPart, split]
  exact congrArg some String.ofList_toList

/-- What is taken for the identifier begins with what the name of the aggregate has after its own
first hyphen. -/
theorem idPart_ofInstance (name id : String) :
    (ofInstance name id).idPart = some ((StreamName.mk name).idPart.elim id (· ++ "-" ++ id)) := by
  obtain plain | ⟨front, back, rfl, plain⟩ := plain_or_split name
  · rw [idPart_plain plain]
    exact idPart_split plain id
  · have regrouped : ofInstance (front ++ "-" ++ back) id =
        ⟨front ++ "-" ++ (back ++ "-" ++ id)⟩ := by
      simp only [ofInstance, String.append_assoc]
    rw [idPart_split plain, regrouped]
    exact idPart_split plain (back ++ "-" ++ id)

/-- The identifier is read back exactly from the streams of aggregates with plain names. -/
theorem idPart_ofInstance_iff (name id : String) :
    (ofInstance name id).idPart = some id ↔ Plain name := by
  rw [idPart_ofInstance, Option.some_inj]
  obtain plain | ⟨front, back, rfl, plain⟩ := plain_or_split name
  · simp [idPart_plain plain, plain]
  · rw [idPart_split plain]
    refine iff_of_false (fun same => ?_) (not_plain_hyphened front back)
    have longer := congrArg (·.toList.length) same
    simp at longer
    omega

/-! ## 3. Two instances -/

theorem ofInstance_eq_of_runsInto {name₁ id₁ name₂ id₂ : String}
    (runs : RunsInto name₁ id₁ name₂ id₂) : ofInstance name₁ id₁ = ofInstance name₂ id₂ := by
  obtain ⟨more, rfl, rfl⟩ := runs
  simp only [ofInstance, String.append_assoc]

/-- Where a name is the front of another text with a hyphen, it is that text's own name or runs into
it. -/
theorem eq_or_runsInto {name₁ id₁ name₂ id₂ : String} {more : List Char}
    (name : name₂.toList = name₁.toList ++ more)
    (rest : '-' :: id₁.toList = more ++ '-' :: id₂.toList) :
    name₁ = name₂ ∧ id₁ = id₂ ∨ RunsInto name₁ id₁ name₂ id₂ := by
  cases more with
  | nil =>
    rw [List.append_nil] at name
    exact .inl ⟨String.toList_inj.1 name.symm, String.toList_inj.1 (List.cons.inj rest).2⟩
  | cons c more =>
    obtain ⟨rfl, hid⟩ := List.cons.inj rest
    refine .inr ⟨String.ofList more, ?_, ?_⟩
    · rw [← String.toList_inj, toList_hyphened, String.toList_ofList, name]
    · rw [← String.toList_inj, toList_hyphened, String.toList_ofList]
      exact hid

theorem ofInstance_eq_iff (name₁ id₁ name₂ id₂ : String) :
    ofInstance name₁ id₁ = ofInstance name₂ id₂ ↔
      name₁ = name₂ ∧ id₁ = id₂ ∨ RunsInto name₁ id₁ name₂ id₂ ∨ RunsInto name₂ id₂ name₁ id₁ := by
  constructor
  · intro same
    have texts : name₁.toList ++ '-' :: id₁.toList = name₂.toList ++ '-' :: id₂.toList := by
      rw [← toList_hyphened, ← toList_hyphened]
      exact congrArg (·.text.toList) same
    obtain ⟨more, name, rest⟩ | ⟨more, name, rest⟩ := List.append_eq_append_iff.1 texts
    · exact (eq_or_runsInto name rest).imp_right .inl
    · obtain ⟨rfl, rfl⟩ | runs := eq_or_runsInto name rest
      · exact .inl ⟨rfl, rfl⟩
      · exact .inr (.inr runs)
  · rintro (⟨rfl, rfl⟩ | runs | runs)
    · rfl
    · exact ofInstance_eq_of_runsInto runs
    · exact (ofInstance_eq_of_runsInto runs).symm

theorem RunsInto.not_plain {name₁ id₁ name₂ id₂ : String} (runs : RunsInto name₁ id₁ name₂ id₂) :
    ¬ Plain name₂ := by
  obtain ⟨more, rfl, -⟩ := runs
  exact not_plain_hyphened name₁ more

end StreamName

/-! ## 4. Instances of aggregates -/

open StreamName

/-- **When instances are told apart.**  The identifier of an instance is read back from its stream
exactly if the name of its aggregate has no hyphen.  Two instances have one stream exactly if they
are the same, by name and text of the identifier, or the name of one aggregate goes on after a
hyphen where the other's ends and the identifier makes up for it.  So among aggregates with plain
names every instance has a stream of its own. -/
theorem instances_are_told_apart_iff {F G : PayloadFamily} (A : Aggregate F) (B : Aggregate G)
    (a : A.Id) (b : B.Id) :
    ((A.streamOf a).idPart = some (A.idText a) ↔ Plain A.name) ∧
    (A.streamOf a = B.streamOf b ↔ A.name = B.name ∧ A.idText a = B.idText b ∨
      RunsInto A.name (A.idText a) B.name (B.idText b) ∨
      RunsInto B.name (B.idText b) A.name (A.idText a)) ∧
    (Plain A.name → Plain B.name → A.streamOf a = B.streamOf b →
      A.name = B.name ∧ A.idText a = B.idText b) := by
  have same := ofInstance_eq_iff A.name (A.idText a) B.name (B.idText b)
  refine ⟨idPart_ofInstance_iff A.name (A.idText a), same, fun plain plain' streams => ?_⟩
  obtain equal | runs | runs := same.1 streams
  · exact equal
  · exact absurd plain' runs.not_plain
  · exact absurd plain runs.not_plain

namespace Sample

/-- A tally under a name of its own, its instances told apart by a text. -/
def tallyNamed (name : String) : Aggregate ticks := { tally with name, Id := String, idText := id }

/-- An identifier with hyphens is read back from the stream of a booking, which no counter has. -/
theorem hyphened_booking_is_told_apart : Plain booking.name ∧ Plain counter.name ∧
    (booking.streamOf "7-a-").idPart = some "7-a-" ∧
    ∀ n : Nat, booking.streamOf "7-a-" ≠ counter.streamOf n := by
  have plain : Plain booking.name := by decide
  have plain' : Plain counter.name := by decide
  have apart := instances_are_told_apart_iff booking counter "7-a-"
  refine ⟨plain, plain', (apart (0 : Nat)).1.2 plain, fun n streams => ?_⟩
  exact absurd ((apart n).2.2 plain plain' streams).1 (by decide)

/-- The first daily tally is in the stream of the tally of that name, and is taken for it. -/
theorem daily_tally_is_taken_for_another :
    (tallyNamed "tally-daily").streamOf "1" = (tallyNamed "tally").streamOf "daily-1" ∧
    (tallyNamed "tally-daily").name ≠ (tallyNamed "tally").name ∧
    ((tallyNamed "tally-daily").streamOf "1").idPart = some "daily-1" := by
  exact ⟨by decide, by decide, by decide⟩

end Sample

end EventSourcing

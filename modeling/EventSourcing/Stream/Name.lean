/-
# Names of streams

A stream is an append-only list of events under a name.  The stream of an aggregate instance is
named after the aggregate and the identifier of the instance, with a hyphen between them;
`StreamName.idPart` is what follows the first hyphen of a name.
-/
namespace EventSourcing

/-- The name of a stream. -/
structure StreamName where
  text : String
  deriving DecidableEq, Inhabited

namespace StreamName

/-- The stream of the instance `id` of the aggregate `aggregate`. -/
def ofInstance (aggregate id : String) : StreamName := ⟨aggregate ++ "-" ++ id⟩

/-- The part of the name after its first hyphen, `none` if it has no hyphen. -/
def idPart (s : StreamName) : Option String :=
  match s.text.toList.dropWhile (· ≠ '-') with
  | [] => none
  | _ :: rest => some (String.ofList rest)

/-- Streams are ordered as their texts, by code points. -/
def order (a b : StreamName) : Ordering := compare a.text b.text

end StreamName

end EventSourcing

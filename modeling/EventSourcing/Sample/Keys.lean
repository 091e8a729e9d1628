/-
# Sample keys

By what messages may be spread over lanes.
-/
import EventSourcing.Subscription.Options

namespace EventSourcing.Sample

variable {F : PayloadFamily}

/-- The key with this name: the stream, its identifying part, the type, or the position.  Any other
breaks down. -/
def keyNamed (name : String) (m : Message F) : Option String :=
  match name with
  | "stream" => some m.stream.text
  | "type" => some m.type
  | "id" => some (m.stream.idPart.getD "")
  | "position" => some (toString m.position.position)
  | _ => none

end EventSourcing.Sample

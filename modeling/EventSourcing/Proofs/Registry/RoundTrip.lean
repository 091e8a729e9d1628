/-
# Events are read as they were written

An event is written under the name its shape is bound to, and what stands under a name is read by
the codec of the shape the name is bound to.  So an event that was written comes back as itself, in
its variant, if the codec of its shape reads what it wrote; and nothing is ever read as an event of
another shape, even if the bytes would spell one.

The statements are about any kind of events whose payloads make up the event and leave nothing else
open.  A mere choice of shapes is such a kind, and so is a sum whose variants are tried one after
the other.

What the file settles:

* `EventKind.Lawful`: an event is what its payload makes it; `EventSet.lawful`, `EventSum.lawful`;
* `TypeRegistry.serialize_ok_iff`, `TypeRegistry.deserialize_ok_iff`: what is written, and what is
  read;
* `RoundTrips`: writing and reading events; `events_are_read_as_written`: after any registrations.
-/
import EventSourcing.Proofs.Registry.Binding
import EventSourcing.Registry.Variants
import EventSourcing.Sample.Shapes
import Mathlib.Data.List.Nodup

namespace EventSourcing

variable {F : PayloadFamily}

/-! ## 1. Kinds of events -/

/-- Events of one kind: what each carries, and which event a payload is. -/
structure EventKind (F : PayloadFamily) (ε : Type) where
  name : String
  shapes : List F.Shape
  payload : ε → Payload F
  ofPayload? : Payload F → Option ε

/-- An event is made of its payload and of no other, and there is one for each payload that has one
of the shapes. -/
structure EventKind.Lawful {ε : Type} (k : EventKind F ε) : Prop where
  made : ∀ p e, k.ofPayload? p = some e ↔ k.payload e = p
  foreign : ∀ p, k.ofPayload? p = none ↔ p.shape ∉ k.shapes

theorem Payload.as?_eq_some_iff {p : Payload F} {shape : F.Shape} {value : F.Value shape} :
    p.as? shape = some value ↔ p = ⟨shape, value⟩ := by
  obtain ⟨own, held⟩ := p
  unfold Payload.as?
  by_cases same : own = shape
  · subst same
    simp
  · rw [dif_neg same]
    refine iff_of_false (by simp) fun heq => same (congrArg Payload.shape heq)

theorem Payload.as?_eq_none_iff {p : Payload F} {shape : F.Shape} :
    p.as? shape = none ↔ p.shape ≠ shape := by
  unfold Payload.as?
  split <;> simp_all

namespace EventSet

/-- The payloads of the chosen shapes. -/
def kind (E : EventSet F) : EventKind F E.Event := ⟨E.name, E.shapes, (·.payload), E.ofPayload?⟩

theorem lawful (E : EventSet F) : E.kind.Lawful where
  made p e := by
    constructor
    · exact payload_of_ofPayload?
    · rintro rfl
      exact ofPayload?_payload e
  foreign p := ofPayload?_eq_none_iff

end EventSet

namespace EventSum

variable {S : EventSum F} {p : Payload F}

/-- The values of the sum in their variants. -/
def kind (S : EventSum F) : EventKind F S.Event := ⟨S.name, S.shapes, Event.payload, S.ofPayload?⟩

/-- As a shape has one variant only, the payload tells the variant too. -/
theorem payload_injective {e e' : S.Event} (same : e.payload = e'.payload) : e = e' := by
  obtain ⟨v, hv, value⟩ := e
  obtain ⟨v', hv', value'⟩ := e'
  have hvariant : v = v' := List.inj_on_of_nodup_map S.distinct hv hv' (congrArg Payload.shape same)
  subst hvariant
  cases same
  rfl

theorem fill?_eq_some_iff {v : { v : Variant F // v ∈ S.variants }} {e : S.Event} :
    S.fill? p v = some e ↔ e.variant = v.val ∧ e.payload = p := by
  obtain ⟨v, hv⟩ := v
  unfold fill?
  rw [Option.map_eq_some_iff]
  constructor
  · rintro ⟨value, fits, rfl⟩
    exact ⟨rfl, (Payload.as?_eq_some_iff.1 fits).symm⟩
  · obtain ⟨w, hw, value⟩ := e
    rintro ⟨here, rfl⟩
    dsimp only at here
    subst here
    exact ⟨value, Payload.as?_eq_some_iff.2 rfl, rfl⟩

/-- Of all variants only the event's own takes its payload, so it does not matter which ones are
tried before. -/
theorem ofPayload?_eq_some_iff {e : S.Event} : S.ofPayload? p = some e ↔ e.payload = p := by
  constructor
  · intro found
    obtain ⟨v, -, fits⟩ := List.exists_of_findSome?_eq_some found
    exact (fill?_eq_some_iff.1 fits).2
  · intro here
    have own : S.fill? p ⟨e.variant, e.variant_mem⟩ = some e := fill?_eq_some_iff.2 ⟨rfl, here⟩
    have some_fits : (S.ofPayload? p).isSome := by
      unfold ofPayload?
      rw [List.findSome?_isSome_iff]
      exact ⟨_, List.mem_attach _ _, by rw [own]; rfl⟩
    obtain ⟨e', found⟩ := Option.isSome_iff_exists.1 some_fits
    obtain ⟨v, -, fits⟩ := List.exists_of_findSome?_eq_some found
    rw [found, payload_injective ((fill?_eq_some_iff.1 fits).2.trans here.symm)]

theorem ofPayload?_eq_none_iff : S.ofPayload? p = none ↔ p.shape ∉ S.shapes := by
  constructor
  · intro nothing member
    obtain ⟨v, hv, same⟩ := List.mem_map.1 member
    obtain ⟨own, value⟩ := p
    dsimp only at same
    subst same
    have found : S.ofPayload? ⟨v.shape, value⟩ = some ⟨v, hv, value⟩ := ofPayload?_eq_some_iff.2 rfl
    rw [nothing] at found
    cases found
  · intro foreign
    cases found : S.ofPayload? p with
    | none => rfl
    | some e => exact absurd (ofPayload?_eq_some_iff.1 found ▸ e.shape_mem) foreign

theorem lawful (S : EventSum F) : S.kind.Lawful where
  made _ _ := ofPayload?_eq_some_iff
  foreign _ := ofPayload?_eq_none_iff

/-- Without the variants, the sum is the choice of its shapes. -/
theorem ofPayload?_inSet (S : EventSum F) (p : Payload F) :
    (S.ofPayload? p).map Event.inSet = S.toSet.ofPayload? p := by
  cases found : S.ofPayload? p with
  | none => exact (EventSet.ofPayload?_eq_none_iff.2 (ofPayload?_eq_none_iff.1 found)).symm
  | some e =>
    cases ofPayload?_eq_some_iff.1 found
    exact (EventSet.ofPayload?_payload e.inSet).symm

end EventSum

/-! ## 2. Payloads -/

namespace TypeRegistry

variable {r : TypeRegistry F} {p : Payload F} {stored : SerializedPayload}

open Registering

theorem unnamed_iff {shape : F.Shape} : (view r).IsUnnamed shape ↔ r.byShape? shape = none := by
  constructor
  · intro unnamed
    cases found : r.byShape? shape with
    | none => rfl
    | some t => exact absurd (nameOf_ok_iff.2 ⟨t, found, rfl⟩) (unnamed t.name)
  · intro nothing name called
    obtain ⟨t, found, -⟩ := nameOf_ok_iff.1 called
    rw [nothing] at found
    cases found

theorem resolve_of_free {name : String} (free : (view r).IsFree name) :
    r.resolve name = .error (.unknownName name) := by
  unfold resolve
  cases found : r.byName? name with
  | none => rfl
  | some t => exact absurd ⟨t, resolve_ok_iff.2 found, rfl⟩ (free t.shape)

/-- A payload is written under the name of its shape, by the codec of its shape. -/
theorem serialize_ok_iff (one : OneToOne r) (shapeName : String) :
    r.serialize p shapeName = .ok stored ↔
      (view r).Binds stored.eventType p.shape ∧ stored.contentType = jsonContentType ∧
        F.encode p.shape p.value = .ok stored.bytes := by
  unfold serialize
  rw [one.binds_iff]
  cases found : r.byShape? p.shape with
  | none =>
    refine iff_of_false (by simp) fun h => ?_
    rw [one.byShape _ h.1] at found
    cases found
  | some t =>
    obtain ⟨mem, same⟩ := one.byShape?_iff.1 found
    dsimp only
    cases encoded : F.encode p.shape p.value with
    | error text => simp
    | ok bytes =>
      constructor
      · intro written
        cases written
        exact ⟨same ▸ mem, rfl, rfl⟩
      · obtain ⟨type, contentType, stored⟩ := stored
        rintro ⟨bound, rfl, heq⟩
        cases heq
        have named := one.byShape _ bound
        rw [found] at named
        cases named
        rfl

theorem serialize_unregistered_iff (shapeName text : String) :
    r.serialize p shapeName = .error (.registry (.unregisteredShape text)) ↔
      (view r).IsUnnamed p.shape ∧ text = shapeName := by
  unfold serialize
  rw [unnamed_iff]
  cases found : r.byShape? p.shape with
  | none => simp [eq_comm]
  | some t =>
    dsimp only
    split <;> simp

/-- What stands under a name is read by the codec of the shape that the name is bound to. -/
theorem deserialize_ok_iff : r.deserialize stored = .ok p ↔ stored.contentType = jsonContentType ∧
    (view r).Binds stored.eventType p.shape ∧ F.decode p.shape stored.bytes = some p.value := by
  unfold deserialize
  by_cases json : stored.contentType = jsonContentType
  · rw [if_neg (not_not_intro json)]
    cases found : r.resolve stored.eventType with
    | error e =>
      refine iff_of_false (by simp) ?_
      rintro ⟨-, ⟨t, known, -⟩, -⟩
      rw [show r.resolve stored.eventType = .ok t from known] at found
      cases found
    | ok t =>
      dsimp only
      constructor
      · intro read
        split at read
        · cases read
        · rename_i value decoded
          cases read
          exact ⟨json, ⟨t, found, rfl⟩, decoded⟩
      · rintro ⟨-, ⟨t', known, same⟩, decoded⟩
        cases known.symm.trans found
        obtain ⟨shape, value⟩ := p
        dsimp only at same decoded
        subst same
        rw [decoded]
  · rw [if_pos json]
    exact iff_of_false (by simp) fun h => json h.1

/-- What cannot be read as a payload is refused for a reason of its own. -/
theorem deserialize_ne_unexpectedShape (type target : String) :
    r.deserialize stored ≠ .error (.unexpectedShape type target) := by
  unfold deserialize
  split
  · simp
  · split
    · simp
    · split <;> simp

theorem deserialize_of_free (json : stored.contentType = jsonContentType)
    (free : (view r).IsFree stored.eventType) :
    r.deserialize stored = .error (.registry (.unknownName stored.eventType)) := by
  unfold deserialize
  rw [if_neg (not_not_intro json), resolve_of_free free]

theorem deserialize_of_foreign (foreign : stored.contentType ≠ jsonContentType) :
    r.deserialize stored = .error (.unsupportedContentType stored.contentType) := by
  unfold deserialize
  rw [if_pos foreign]

end TypeRegistry

/-! ## 3. Events -/

/-- The codecs of the registered shapes read what they wrote. -/
def RegistryView.Decodes (v : RegistryView F) : Prop :=
  ∀ name shape, v.Binds name shape → ∀ value bytes, F.encode shape value = .ok bytes →
    F.decode shape bytes = some value

/-- Events are written, and read again, by the shapes that the names are bound to. -/
structure RoundTrips {ε : Type} (v : RegistryView F) (k : EventKind F ε)
    (write : ε → Except SerializationError SerializedPayload)
    (read : SerializedPayload → Except SerializationError ε) : Prop where
  /-- An event is written under the name its shape is bound to. -/
  written : ∀ e stored, write e = .ok stored ↔ v.Binds stored.eventType (k.payload e).shape ∧
    stored.contentType = jsonContentType ∧
    F.encode (k.payload e).shape (k.payload e).value = .ok stored.bytes
  /-- An event is refused as unregistered exactly if its shape is bound to no name. -/
  unregistered : ∀ e text, write e = .error (.registry (.unregisteredShape text)) ↔
    v.IsUnnamed (k.payload e).shape ∧ text = (k.payload e).shapeName
  /-- What was written is read as the event it was. -/
  readBack : v.Decodes → ∀ e stored, write e = .ok stored → read stored = .ok e
  /-- An event that is read has the shape that the name is bound to, and the value that the bytes
  spell in it. -/
  reads : ∀ stored e, read stored = .ok e ↔ stored.contentType = jsonContentType ∧
    v.Binds stored.eventType (k.payload e).shape ∧
      F.decode (k.payload e).shape stored.bytes = some (k.payload e).value
  /-- A value of another shape is told from all that cannot be read at all. -/
  unexpected : ∀ stored type target, read stored = .error (.unexpectedShape type target) ↔
    stored.contentType = jsonContentType ∧ (∃ shape, v.Binds stored.eventType shape ∧
      (F.decode shape stored.bytes).isSome ∧ shape ∉ k.shapes) ∧ type = stored.eventType ∧
      target = k.name
  /-- An unknown name is never passed over. -/
  unknown : ∀ stored, stored.contentType = jsonContentType → v.IsFree stored.eventType →
    read stored = .error (.registry (.unknownName stored.eventType))
  /-- Another content type is never passed over. -/
  foreign : ∀ stored, stored.contentType ≠ jsonContentType →
    read stored = .error (.unsupportedContentType stored.contentType)

namespace TypeRegistry

variable {r : TypeRegistry F} {ε : Type} {k : EventKind F ε}

open Registering

/-- The stored form of an event of the kind. -/
def write (r : TypeRegistry F) (k : EventKind F ε) (e : ε) :
    Except SerializationError SerializedPayload :=
  r.serialize (k.payload e) (k.payload e).shapeName

/-- The event of the kind that a stored form spells. -/
def read (r : TypeRegistry F) (k : EventKind F ε) (stored : SerializedPayload) :
    Except SerializationError ε :=
  match r.deserialize stored with
  | .error error => .error error
  | .ok payload =>
    match k.ofPayload? payload with
    | none => .error (.unexpectedShape stored.eventType k.name)
    | some event => .ok event

theorem read_ok_iff (lawful : k.Lawful) {stored : SerializedPayload} {e : ε} :
    r.read k stored = .ok e ↔ r.deserialize stored = .ok (k.payload e) := by
  unfold read
  cases found : r.deserialize stored with
  | error error => simp
  | ok p =>
    dsimp only
    cases made : k.ofPayload? p with
    | none =>
      refine iff_of_false (by simp) fun heq => ?_
      cases heq
      rw [(lawful.made _ e).2 rfl] at made
      cases made
    | some e' =>
      cases (lawful.made _ _).1 made
      constructor
      · intro heq
        cases heq
        rfl
      · intro heq
        have same := (lawful.made _ e).2 (Except.ok.inj heq).symm
        rw [made] at same
        cases same
        rfl

theorem read_unexpected_iff (lawful : k.Lawful) {stored : SerializedPayload}
    {type target : String} :
    r.read k stored = .error (.unexpectedShape type target) ↔
      (∃ p, r.deserialize stored = .ok p ∧ p.shape ∉ k.shapes) ∧ type = stored.eventType ∧
        target = k.name := by
  unfold read
  cases found : r.deserialize stored with
  | error error =>
    refine iff_of_false (fun heq => ?_) (by simp)
    cases heq
    exact deserialize_ne_unexpectedShape _ _ found
  | ok p =>
    dsimp only
    cases made : k.ofPayload? p with
    | none =>
      have foreign := (lawful.foreign p).1 made
      simp [foreign, eq_comm]
    | some e =>
      refine iff_of_false (by simp) ?_
      rintro ⟨⟨p', heq, foreign⟩, -⟩
      cases heq
      rw [(lawful.foreign p).2 foreign] at made
      cases made

theorem read_of_refused {stored : SerializedPayload} {error : SerializationError}
    (refused : r.deserialize stored = .error error) : r.read k stored = .error error := by
  unfold read
  rw [refused]

theorem roundTrips (one : OneToOne r) (lawful : k.Lawful) :
    RoundTrips (view r) k (r.write k) (r.read k) := by
  constructor
  case written => exact fun e stored => serialize_ok_iff one _
  case unregistered => exact fun e text => serialize_unregistered_iff _ text
  case readBack =>
    intro decodes e stored written
    obtain ⟨bound, json, encoded⟩ := (serialize_ok_iff one _).1 written
    rw [read_ok_iff lawful, deserialize_ok_iff]
    exact ⟨json, bound, decodes _ _ bound _ _ encoded⟩
  case reads => exact fun stored e => (read_ok_iff lawful).trans deserialize_ok_iff
  case unexpected =>
    intro stored type target
    rw [read_unexpected_iff lawful, ← and_assoc (a := _ = jsonContentType)]
    refine and_congr_left' ?_
    constructor
    · rintro ⟨p, read, foreign⟩
      obtain ⟨json, bound, decoded⟩ := deserialize_ok_iff.1 read
      exact ⟨json, p.shape, bound, by rw [decoded]; rfl, foreign⟩
    · rintro ⟨json, shape, bound, decoded, foreign⟩
      obtain ⟨value, decoded⟩ := Option.isSome_iff_exists.1 decoded
      exact ⟨⟨shape, value⟩, deserialize_ok_iff.2 ⟨json, bound, decoded⟩, foreign⟩
  case unknown => exact fun stored json free => read_of_refused (deserialize_of_free json free)
  case foreign => exact fun stored foreign => read_of_refused (deserialize_of_foreign foreign)

end TypeRegistry

/-! ## 4. Two indexes -/

namespace IndexedRegistry

variable {i : IndexedRegistry F} {r : TypeRegistry F}

/-- The pair of a shape takes every payload of the shape. -/
theorem encode_eq {t : RegisteredType F} {p : Payload F} (same : t.shape = p.shape) :
    t.encode p = (F.encode p.shape p.value).mapError .refused := by
  obtain ⟨shape, value⟩ := p
  dsimp only at same
  subst same
  have own : (⟨t.shape, value⟩ : Payload F).as? t.shape = some value :=
    Payload.as?_eq_some_iff.2 rfl
  simp only [RegisteredType.encode, own]
  cases F.encode t.shape value <;> rfl

namespace Mirrors

theorem serialize (h : Mirrors i r) (one : r.OneToOne) (p : Payload F) (shapeName : String) :
    i.serialize p shapeName = r.serialize p shapeName := by
  unfold IndexedRegistry.serialize TypeRegistry.serialize
  rw [h.byShape one]
  cases found : r.byShape? p.shape with
  | none => rfl
  | some t =>
    dsimp only
    rw [encode_eq (one.byShape?_iff.1 found).2]
    cases F.encode p.shape p.value <;> rfl

theorem deserialize (h : Mirrors i r) (one : r.OneToOne) (stored : SerializedPayload) :
    i.deserialize stored = r.deserialize stored := by
  have resolve : i.resolve = r.resolve := congrArg RegistryView.resolve (h.view one)
  unfold IndexedRegistry.deserialize TypeRegistry.deserialize
  rw [resolve]
  split
  · rfl
  · cases r.resolve stored.eventType with
    | error error => rfl
    | ok t =>
      dsimp only
      unfold RegisteredType.decode
      cases F.decode t.shape stored.bytes <;> rfl

theorem serializeEvent (h : Mirrors i r) (one : r.OneToOne) {S : EventSum F} (e : S.Event) :
    i.serializeEvent e = r.write S.kind e :=
  h.serialize one e.payload e.payload.shapeName

theorem deserializeEvent (h : Mirrors i r) (one : r.OneToOne) (S : EventSum F)
    (stored : SerializedPayload) : i.deserializeEvent S stored = r.read S.kind stored := by
  unfold IndexedRegistry.deserializeEvent TypeRegistry.read
  rw [h.deserialize one]
  cases r.deserialize stored with
  | error error => rfl
  | ok p =>
    dsimp only [EventSum.kind]
    cases S.ofPayload? p <;> rfl

end Mirrors
end IndexedRegistry

namespace TypeRegistry

theorem deserializeEvent_eq (r : TypeRegistry F) (E : EventSet F) :
    r.deserializeEvent E = r.read E.kind := by
  funext stored
  unfold deserializeEvent read
  cases r.deserialize stored with
  | error error => rfl
  | ok p =>
    dsimp only [EventSet.kind]
    cases E.ofPayload? p <;> rfl

/-- Events of a sum are read like events of the choice of its shapes. -/
theorem read_inSet (r : TypeRegistry F) (S : EventSum F) (stored : SerializedPayload) :
    (r.read S.kind stored).map EventSum.Event.inSet = r.deserializeEvent S.toSet stored := by
  unfold read deserializeEvent
  cases r.deserialize stored with
  | error error => rfl
  | ok p =>
    dsimp only [EventSum.kind]
    rw [← S.ofPayload?_inSet p]
    cases S.ofPayload? p <;> rfl

end TypeRegistry

open Registering in
/-- **Events are read as they were written.**  Whatever registrations were made, an event that was
written is read back as itself, and nothing is read as an event of a shape that its name is not
bound to.  This holds of a list of pairs and events of chosen shapes, and of two indexes and events
of a sum; and both write and read the same. -/
theorem events_are_read_as_written (calls : List (String × F.Shape)) (E : EventSet F)
    (S : EventSum F) :
    RoundTrips (view (reached (TypeRegistry F) calls)) E.kind
        (reached (TypeRegistry F) calls).serializeEvent
        ((reached (TypeRegistry F) calls).deserializeEvent E) ∧
      RoundTrips (view (reached (IndexedRegistry F) calls)) S.kind
          (reached (IndexedRegistry F) calls).serializeEvent
          ((reached (IndexedRegistry F) calls).deserializeEvent S) ∧
      (∀ e : S.Event, (reached (IndexedRegistry F) calls).serializeEvent e =
        (reached (TypeRegistry F) calls).serializeEvent e.inSet) ∧
      ∀ stored,
          ((reached (IndexedRegistry F) calls).deserializeEvent S stored).map EventSum.Event.inSet =
          (reached (TypeRegistry F) calls).deserializeEvent S.toSet stored := by
  have one := TypeRegistry.oneToOne_reached (F := F) calls
  have mirrors := IndexedRegistry.mirrors_reached (F := F) calls
  have writes : (reached (IndexedRegistry F) calls).serializeEvent =
      (reached (TypeRegistry F) calls).write S.kind :=
    funext fun e => mirrors.serializeEvent one e
  have reads : (reached (IndexedRegistry F) calls).deserializeEvent S =
      (reached (TypeRegistry F) calls).read S.kind :=
    funext fun stored => mirrors.deserializeEvent one S stored
  refine ⟨?_, ?_, fun e => mirrors.serializeEvent one e, fun stored => ?_⟩
  · rw [TypeRegistry.deserializeEvent_eq]
    exact TypeRegistry.roundTrips one E.lawful
  · rw [IndexedRegistry.view_reached, writes, reads]
    exact TypeRegistry.roundTrips one S.lawful
  · rw [reads]
    exact TypeRegistry.read_inSet _ S stored

section Sample

open Sample Registering

/-- A sum of two shapes whose values are stored as the same bytes. -/
def lookAlikes : EventSum family :=
  ⟨"LookAlikes", [⟨"Marked", .marker⟩, ⟨"Doubled", .doubled⟩], by decide⟩

/-- The registrations of the two, and one that is refused. -/
def lookAlikeCalls : List (String × family.Shape) :=
  [("marked", .marker), ("doubled", .doubled), ("marked", .doubled)]

/-- The event of the second variant. -/
def doubling : lookAlikes.Event := ⟨⟨"Doubled", .doubled⟩, by simp [lookAlikes], ()⟩

/-- What both shapes are stored as. -/
theorem document_null : Json.document Json.null "null".toUTF8.data.toList = some () := rfl

theorem decodes_lookAlikes : (view (reached (IndexedRegistry family) lookAlikeCalls)).Decodes := by
  rw [IndexedRegistry.view_reached]
  intro name shape bound value bytes encoded
  have pairs : (reached (TypeRegistry family) lookAlikeCalls).types =
    [⟨"marked", .marker⟩, ⟨"doubled", .doubled⟩] := rfl
  rw [(TypeRegistry.oneToOne_reached lookAlikeCalls).binds_iff, pairs] at bound
  rcases List.mem_pair.1 bound with here | here <;> cases here <;> cases encoded
    <;> exact document_null

/-- The first variant would spell the bytes as well, but the event is read in the second. -/
theorem look_alikes_are_told_apart : ∃ stored,
    (reached (IndexedRegistry family) lookAlikeCalls).serializeEvent doubling = .ok stored ∧
      (family.decode .marker stored.bytes).isSome ∧
      (reached (IndexedRegistry family) lookAlikeCalls).deserializeEvent lookAlikes stored =
        .ok doubling := by
  have roundTrips := (events_are_read_as_written lookAlikeCalls lookAlikes.toSet lookAlikes).2.1
  refine ⟨⟨"doubled", jsonContentType, "null".toUTF8.data.toList⟩, rfl, ?_, ?_⟩
  · exact Option.isSome_iff_exists.2 ⟨(), document_null⟩
  · exact roundTrips.readBack decodes_lookAlikes doubling _ rfl

end Sample

end EventSourcing

import ProviderKit.Proofs.Value.Conformance

/-!
# Documents that a type accepts

A document is accepted by a type when it can be decoded against it.  The place a document stands
at only occurs in errors, so acceptance of a container is acceptance of its parts, with one more
demand for a set: what its items mean has no repetition.  Since null is accepted by every type,
an object may leave out attributes, and a document with fewer members than a value of the type
has is accepted all the same.
-/

namespace ProviderKit

namespace Value

variable {decode : Path → Json → Except ValueError Value} {path : Path}
  {R : Json → Value → Prop}

/-! ## Decoding the parts of a container -/

theorem decodeElements_eq_ok_iff {items : List Json} {elements : List Value}
    (each : ∀ place item value, decode place item = .ok value ↔ R item value) :
    decodeElements decode path items = .ok elements ↔ List.Forall₂ R items elements := by
  unfold decodeElements
  rw [mapM_eq_ok_iff]
  simp only [each]
  generalize 0 = start
  induction items generalizing elements start with
  | nil => simp
  | cons item rest inductionHypothesis =>
      simp only [List.zipIdx_cons, List.forall₂_cons_left_iff, inductionHypothesis]

theorem decodeEntries_eq_ok_iff {members : List (String × Json)}
    {entries : List (String × Value)}
    (each : ∀ place item value, decode place item = .ok value ↔ R item value) :
    decodeEntries decode path members = .ok entries ↔
      List.Forall₂ (fun member entry => member.1 = entry.1 ∧ R member.2 entry.2)
        members entries := by
  have entry (member : String × Json) (entry : String × Value) :
      (decode (path.atKey member.1) member.2 >>= fun value => .ok (member.1, value)) = .ok entry ↔
        member.1 = entry.1 ∧ R member.2 entry.2 := by
    constructor
    · intro success
      rcases bind_eq_ok success with ⟨value, found, same⟩
      cases same
      exact ⟨rfl, (each _ _ _).mp found⟩
    · rintro ⟨key, related⟩
      rw [(each _ _ _).mpr related, key]
      rfl
  unfold decodeEntries
  rw [mapM_eq_ok_iff]
  simp only [entry]

theorem decodeAttributes_eq_ok_iff {types : List (String × AttributeType)}
    {members : List (String × Json)} {attributes : List (String × Value)}
    {S : AttributeType → Json → Value → Prop}
    (each : ∀ entry ∈ types, ∀ place item value,
      decodeAt .strict entry.2 place item = .ok value ↔ S entry.2 item value) :
    decodeAttributes .strict types path members = .ok attributes ↔
      List.Forall₂ (fun entry attr => entry.1 = attr.1 ∧
        S entry.2 ((Entries.find? entry.1 members).getD .null) attr.2) types attributes := by
  induction types generalizing attributes with
  | nil =>
      rw [decodeAttributes, List.forall₂_nil_left_iff]
      exact ⟨fun success => (Except.ok.inj success).symm, fun empty => empty ▸ rfl⟩
  | cons entry rest inductionHypothesis =>
      rcases entry with ⟨name, type⟩
      rcases List.forall_mem_cons.mp each with ⟨first, later⟩
      rw [decodeAttributes, List.forall₂_cons_left_iff]
      constructor
      · intro success
        rcases bind_eq_ok success with ⟨value, head, success⟩
        rcases bind_eq_ok success with ⟨values, tail, same⟩
        cases same
        exact ⟨(name, value), values, ⟨rfl, (first _ _ _).mp head⟩,
          (inductionHypothesis later).mp tail, rfl⟩
      · rintro ⟨⟨_, value⟩, values, ⟨rfl, head⟩, tail, rfl⟩
        rw [(first _ _ _).mpr head, (inductionHypothesis later).mpr tail]
        rfl

/-! ## Parts that are decoded alike -/

section Congruence

variable {decode' : Path → Json → Except ValueError Value}

theorem decodeElements_congr {items others : List Json}
    (each : List.Forall₂ (fun item other => ∀ place, decode place item = decode' place other)
      items others) :
    decodeElements decode path items = decodeElements decode' path others := by
  unfold decodeElements
  generalize 0 = start
  induction each generalizing start with
  | nil => rfl
  | cons head _ inductionHypothesis =>
      simp only [List.zipIdx_cons, List.mapM_cons, head, inductionHypothesis]

theorem decodeEntries_congr {members others : List (String × Json)}
    (each : Entries.Paired (fun item other => ∀ place, decode place item = decode' place other)
      members others) :
    decodeEntries decode path members = decodeEntries decode' path others := by
  unfold decodeEntries
  induction members generalizing others with
  | nil =>
      rw [List.map_eq_nil_iff.mp each.1.symm]
      rfl
  | cons member rest inductionHypothesis =>
      cases others with
      | nil => cases each.1
      | cons other rest' =>
          rcases Entries.paired_cons_iff.mp each with ⟨sameKey, head, tail⟩
          simp only [List.mapM_cons, sameKey, head, inductionHypothesis tail]

/-- The decoded attributes depend on what is found under the declared names. -/
theorem decodeAttributes_congr {strictness strictness' : Strictness}
    {types : List (String × AttributeType)} {members others : List (String × Json)}
    (each : ∀ entry ∈ types, ∀ place,
      decodeAt strictness entry.2 place ((Entries.find? entry.1 members).getD .null) =
        decodeAt strictness' entry.2 place ((Entries.find? entry.1 others).getD .null)) :
    decodeAttributes strictness types path members =
      decodeAttributes strictness' types path others := by
  induction types with
  | nil => rfl
  | cons entry rest inductionHypothesis =>
      rcases List.forall_mem_cons.mp each with ⟨head, tail⟩
      simp only [decodeAttributes, head, inductionHypothesis tail]

end Congruence

/-! ## Decoding a container -/

theorem decodeAt_list_array (element : AttributeType) (items : List Json) :
    decodeAt .strict (.list element) path (.array items) =
      (decodeElements (decodeAt .strict element) path items >>= fun elements =>
        .ok (list elements)) :=
  rfl

theorem decodeAt_set_array (element : AttributeType) (items : List Json) :
    decodeAt .strict (.set element) path (.array items) =
      (decodeElements (decodeAt .strict element) path items >>= fun elements =>
        match firstDuplicate? [] 0 elements with
        | some index => .error (.duplicateSetElement (path.atIndex index))
        | none => .ok (set elements)) :=
  rfl

theorem decodeAt_map_object (element : AttributeType) (members : List (String × Json)) :
    decodeAt .strict (.map element) path (.object members) =
      (decodeEntries (decodeAt .strict element) path members >>= fun entries =>
        .ok (map entries)) :=
  rfl

theorem decodeAt_object_object (types : List (String × AttributeType))
    (members : List (String × Json)) :
    decodeAt .strict (.object types) path (.object members) =
      match firstUndeclared? types members with
      | some name => .error (.unsupportedAttribute path name)
      | none => decodeAttributes .strict types path members >>= fun attributes =>
          .ok (object attributes) := by
  unfold decodeAt
  simp only [isMarker, Json.isNull]
  cases firstUndeclared? types members <;> rfl

/-! ## The place of a document -/

private theorem place_iff_of_ordinary {type : AttributeType} {place other : Path} {json : Json}
    {value : Value}
    (otherwise : isMarker json = false → json.isNull = false →
      (decodeAt .strict type place json = .ok value ↔
        decodeAt .strict type other json = .ok value)) :
    decodeAt .strict type place json = .ok value ↔
      decodeAt .strict type other json = .ok value := by
  cases marker : isMarker json with
  | true => rw [decodeAt_marker _ _ _ marker, decodeAt_marker _ _ _ marker]
  | false =>
      cases json with
      | null => rw [decodeAt_null, decodeAt_null]
      | _ => exact otherwise marker rfl

private theorem refused_iff {value : Value} {error other : ValueError} :
    Except.error error = Except.ok value ↔ Except.error other = Except.ok value := by
  simp

/-- What a document is decoded to does not depend on where it stands. -/
theorem decodeAt_place_iff (type : AttributeType) (place other : Path) (json : Json)
    (value : Value) :
    decodeAt .strict type place json = .ok value ↔
      decodeAt .strict type other json = .ok value := by
  induction type using AttributeType.induct generalizing place other json value with
  | string | float64 | bool =>
      refine place_iff_of_ordinary fun marker absent => ?_
      unfold decodeAt
      rw [marker, absent]
      cases json <;> first | exact Iff.rfl | exact refused_iff
  | int64 =>
      refine place_iff_of_ordinary fun marker absent => ?_
      unfold decodeAt
      rw [marker, absent]
      cases json with
      | number n => cases whole : n.toInt64? <;> simp [whole]
      | _ => exact refused_iff
  | list type inductionHypothesis =>
      refine place_iff_of_ordinary fun marker absent => ?_
      cases json with
      | array items =>
          have one := fun place item value => inductionHypothesis place [] item value
          rw [decodeAt_list_array, decodeAt_list_array]
          simp only [bind_eq_ok_iff, decodeElements_eq_ok_iff one]
      | _ =>
          unfold decodeAt
          rw [marker, absent]
          exact refused_iff
  | set type inductionHypothesis =>
      refine place_iff_of_ordinary fun marker absent => ?_
      cases json with
      | array items =>
          have one := fun place item value => inductionHypothesis place [] item value
          rw [decodeAt_set_array, decodeAt_set_array]
          simp only [bind_eq_ok_iff, decodeElements_eq_ok_iff one]
          refine exists_congr fun elements => and_congr_right fun _ => ?_
          cases firstDuplicate? [] 0 elements with
          | some index => exact refused_iff
          | none => exact Iff.rfl
      | _ =>
          unfold decodeAt
          rw [marker, absent]
          exact refused_iff
  | map type inductionHypothesis =>
      refine place_iff_of_ordinary fun marker absent => ?_
      cases json with
      | object members =>
          have one := fun place item value => inductionHypothesis place [] item value
          rw [decodeAt_map_object, decodeAt_map_object]
          simp only [bind_eq_ok_iff, decodeEntries_eq_ok_iff one]
      | _ =>
          unfold decodeAt
          rw [marker, absent]
          exact refused_iff
  | object types inductionHypothesis =>
      refine place_iff_of_ordinary fun marker absent => ?_
      cases json with
      | object members =>
          have one : ∀ entry ∈ types, ∀ place item value,
              decodeAt .strict entry.2 place item = .ok value ↔
                ofJson entry.2 item = .ok value :=
            fun entry member place => inductionHypothesis entry member place []
          rw [decodeAt_object_object, decodeAt_object_object]
          cases firstUndeclared? types members with
          | some name => exact refused_iff
          | none =>
              simp only [bind_eq_ok_iff, decodeAttributes_eq_ok_iff
                (S := fun type item value => ofJson type item = .ok value) one]
      | _ =>
          unfold decodeAt
          rw [marker, absent]
          exact refused_iff
  | dynamic => rw [decodeAt_dynamic, decodeAt_dynamic]

private theorem decodeAt_eq_ok_iff (type : AttributeType) (place : Path) (json : Json)
    (value : Value) : decodeAt .strict type place json = .ok value ↔ ofJson type json = .ok value :=
  decodeAt_place_iff type place [] json value

/-! ## What a container is decoded to -/

variable {element : AttributeType} {items : List Json} {members : List (String × Json)}
  {value : Value}

theorem ofJson_list_array_iff :
    ofJson (.list element) (.array items) = .ok value ↔
      ∃ elements, List.Forall₂ (fun item part => ofJson element item = .ok part) items elements ∧
        value = list elements := by
  unfold ofJson
  rw [decodeAt_list_array, bind_eq_ok_iff]
  simp only [decodeElements_eq_ok_iff (decodeAt_eq_ok_iff element), Except.ok.injEq,
    eq_comm (a := value)]
  exact Iff.rfl

theorem ofJson_set_array_iff :
    ofJson (.set element) (.array items) = .ok value ↔
      ∃ elements, List.Forall₂ (fun item part => ofJson element item = .ok part) items elements ∧
        NoRepeats elements ∧ value = set elements := by
  have checked (elements : List Value) :
      (match firstDuplicate? [] 0 elements with
        | some index => .error (ValueError.duplicateSetElement (Path.atIndex [] index))
        | none => .ok (set elements)) = Except.ok value ↔
      NoRepeats elements ∧ value = set elements := by
    have unique : NoRepeats elements ↔ firstDuplicate? [] 0 elements = none := by
      simp [firstDuplicate?_eq_none_iff]
    rw [unique]
    cases firstDuplicate? [] 0 elements with
    | some index => simp
    | none => simp [eq_comm]
  unfold ofJson
  rw [decodeAt_set_array, bind_eq_ok_iff]
  simp only [decodeElements_eq_ok_iff (decodeAt_eq_ok_iff element), checked]
  exact Iff.rfl

theorem ofJson_map_object_iff :
    ofJson (.map element) (.object members) = .ok value ↔
      ∃ entries, List.Forall₂ (fun member entry => member.1 = entry.1 ∧
        ofJson element member.2 = .ok entry.2) members entries ∧ value = map entries := by
  unfold ofJson
  rw [decodeAt_map_object, bind_eq_ok_iff]
  simp only [decodeEntries_eq_ok_iff (decodeAt_eq_ok_iff element), Except.ok.injEq,
    eq_comm (a := value)]
  exact Iff.rfl

theorem ofJson_object_object_iff {types : List (String × AttributeType)} :
    ofJson (.object types) (.object members) = .ok value ↔
      (∀ name ∈ Entries.keys members, name ∈ Entries.keys types) ∧
        ∃ attributes, List.Forall₂ (fun entry attr => entry.1 = attr.1 ∧
          ofJson entry.2 ((Entries.find? entry.1 members).getD .null) = .ok attr.2)
            types attributes ∧ value = object attributes := by
  have declared : firstUndeclared? types members = none ↔
      ∀ name ∈ Entries.keys members, name ∈ Entries.keys types := by
    simp [firstUndeclared?, List.find?_eq_none, Entries.contains, ← Entries.find?_isSome_iff,
      Option.isSome_iff_ne_none]
  unfold ofJson
  rw [decodeAt_object_object, ← declared]
  cases firstUndeclared? types members with
  | some name => simp
  | none =>
      simp only [bind_eq_ok_iff, decodeAttributes_eq_ok_iff
        (S := fun type item value => ofJson type item = .ok value)
        fun entry _ => decodeAt_eq_ok_iff entry.2, Except.ok.injEq, eq_comm (a := value),
        true_and]
      exact Iff.rfl

/-- What has been decoded is decoded again from its own document. -/
theorem ofJson_toJson_of_ofJson {type : AttributeType} {json : Json} (wellFormed : type.WellFormed)
    (decoded : ofJson type json = .ok value) : ofJson type value.toJson = .ok value := by
  rcases conforms_of_decodeAt decoded with ⟨typed, distinct⟩
  exact (decodeAt_toJson_iff typed wellFormed [] value).mpr ⟨distinct, rfl⟩

end Value

/-! ## Acceptance -/

namespace AttributeType

/-- Whether a document can be decoded against a type. -/
def Accepts (type : AttributeType) (json : Json) : Prop :=
  ∃ value, Value.ofJson type json = .ok value

/-- What the items of an array mean for a type has no fully known repetition. -/
def MeansApart (element : AttributeType) (items : List Json) : Prop :=
  ∀ elements, List.Forall₂ (fun item value => Value.ofJson element item = .ok value)
    items elements → Value.NoRepeats elements

variable {type element : AttributeType} {items : List Json} {members : List (String × Json)}

theorem accepts_null (type : AttributeType) : type.Accepts .null :=
  ⟨.null, Value.decodeAt_null ..⟩

theorem accepts_dynamic (json : Json) : dynamic.Accepts json :=
  ⟨_, Value.decodeAt_dynamic ..⟩

theorem accepts_list_iff :
    (list element).Accepts (.array items) ↔ ∀ item ∈ items, element.Accepts item := by
  unfold Accepts
  rw [← exists_forall₂_iff]
  simp only [Value.ofJson_list_array_iff]
  constructor
  · rintro ⟨_, elements, each, _⟩
    exact ⟨elements, each⟩
  · rintro ⟨elements, each⟩
    exact ⟨_, elements, each, rfl⟩

private theorem meaning_unique {items : List Json} {first second : List Value}
    (left : List.Forall₂ (fun item value => Value.ofJson element item = .ok value) items first)
    (right : List.Forall₂ (fun item value => Value.ofJson element item = .ok value) items second) :
    first = second := by
  have unique : Relator.RightUnique fun item value => Value.ofJson element item = .ok value :=
    fun _ _ _ one other => Except.ok.inj (one.symm.trans other)
  exact unique.forall₂ left right

theorem accepts_set_iff :
    (set element).Accepts (.array items) ↔
      (∀ item ∈ items, element.Accepts item) ∧ element.MeansApart items := by
  unfold Accepts
  rw [← exists_forall₂_iff]
  simp only [Value.ofJson_set_array_iff]
  constructor
  · rintro ⟨_, elements, each, apart, _⟩
    exact ⟨⟨elements, each⟩, fun others same => meaning_unique each same ▸ apart⟩
  · rintro ⟨⟨elements, each⟩, apart⟩
    exact ⟨_, elements, each, apart elements each, rfl⟩

theorem accepts_map_iff :
    (map element).Accepts (.object members) ↔ ∀ member ∈ members, element.Accepts member.2 := by
  have member (member : String × Json) :
      (∃ entry : String × Value, member.1 = entry.1 ∧
        Value.ofJson element member.2 = .ok entry.2) ↔ element.Accepts member.2 :=
    ⟨fun ⟨entry, _, decoded⟩ => ⟨entry.2, decoded⟩,
      fun ⟨value, decoded⟩ => ⟨(member.1, value), rfl, decoded⟩⟩
  simp only [← member, ← exists_forall₂_iff]
  unfold Accepts
  simp only [Value.ofJson_map_object_iff]
  constructor
  · rintro ⟨_, entries, each, _⟩
    exact ⟨entries, each⟩
  · rintro ⟨entries, each⟩
    exact ⟨_, entries, each, rfl⟩

theorem accepts_object_iff {types : List (String × AttributeType)} :
    (object types).Accepts (.object members) ↔
      (∀ name ∈ Entries.keys members, name ∈ Entries.keys types) ∧
        ∀ entry ∈ types, entry.2.Accepts ((Entries.find? entry.1 members).getD .null) := by
  have attr (entry : String × AttributeType) (json : Json) :
      (∃ attr : String × Value, entry.1 = attr.1 ∧ Value.ofJson entry.2 json = .ok attr.2) ↔
        entry.2.Accepts json :=
    ⟨fun ⟨attr, _, decoded⟩ => ⟨attr.2, decoded⟩,
      fun ⟨value, decoded⟩ => ⟨(entry.1, value), rfl, decoded⟩⟩
  simp only [← attr, ← exists_forall₂_iff]
  unfold Accepts
  simp only [Value.ofJson_object_object_iff]
  constructor
  · rintro ⟨_, declared, attributes, each, _⟩
    exact ⟨declared, attributes, each⟩
  · rintro ⟨declared, attributes, each⟩
    exact ⟨_, declared, attributes, each, rfl⟩

end AttributeType
end ProviderKit

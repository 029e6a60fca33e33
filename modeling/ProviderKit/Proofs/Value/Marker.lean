import ProviderKit.Proofs.Value.KeyOrder
import ProviderKit.Proofs.Value.Meaning

/-!
# Strings that stand for unknown

On the wire an unknown value is an ordinary string, and nothing tells the marker from a string of
the same text.  Decoding takes every string with this text for unknown, at any place of any type, so
a value that is decoded has no such string.  A value that was put together in another way may have
one, and it is taken for unknown by whoever reads its document.

Strict decoding drops nothing of a document.  What it returns is therefore fully known exactly when
the marker does not occur in the document, be it written for an unknown value or for a string.
-/

namespace ProviderKit

/-- No string inside the document is the marker of an unknown value. -/
inductive Json.Unmarked : Json → Prop
  | null : Unmarked .null
  | bool (b : Bool) : Unmarked (.bool b)
  | number (n : Json.Number) : Unmarked (.number n)
  | string {s : String} (ordinary : s ≠ Value.unknownMarker) : Unmarked (.string s)
  | array {items : List Json} (inner : ∀ item ∈ items, Unmarked item) : Unmarked (.array items)
  | object {members : List (String × Json)} (inner : ∀ member ∈ members, Unmarked member.2) :
      Unmarked (.object members)

/-- No string inside the value is the marker of an unknown value. -/
inductive Value.Unmarked : Value → Prop
  | null : Unmarked .null
  | unknown : Unmarked .unknown
  | bool (b : Bool) : Unmarked (.bool b)
  | number (n : Json.Number) : Unmarked (.number n)
  | string {s : String} (ordinary : s ≠ unknownMarker) : Unmarked (.string s)
  | list {elements : List Value} (inner : ∀ element ∈ elements, Unmarked element) :
      Unmarked (.list elements)
  | set {elements : List Value} (inner : ∀ element ∈ elements, Unmarked element) :
      Unmarked (.set elements)
  | map {entries : List (String × Value)} (inner : ∀ entry ∈ entries, Unmarked entry.2) :
      Unmarked (.map entries)
  | object {attributes : List (String × Value)} (inner : ∀ entry ∈ attributes, Unmarked entry.2) :
      Unmarked (.object attributes)

namespace Json

theorem unmarked_array_iff {items : List Json} :
    Unmarked (.array items) ↔ ∀ item ∈ items, Unmarked item := by
  refine ⟨?_, .array⟩
  rintro ⟨⟩
  assumption

theorem unmarked_object_iff {members : List (String × Json)} :
    Unmarked (.object members) ↔ ∀ member ∈ members, Unmarked member.2 := by
  refine ⟨?_, .object⟩
  rintro ⟨⟩
  assumption

end Json

namespace Value

theorem unmarked_list_iff {elements : List Value} :
    Unmarked (.list elements) ↔ ∀ element ∈ elements, Unmarked element := by
  refine ⟨?_, .list⟩
  rintro ⟨⟩
  assumption

theorem unmarked_set_iff {elements : List Value} :
    Unmarked (.set elements) ↔ ∀ element ∈ elements, Unmarked element := by
  refine ⟨?_, .set⟩
  rintro ⟨⟩
  assumption

theorem unmarked_map_iff {entries : List (String × Value)} :
    Unmarked (.map entries) ↔ ∀ entry ∈ entries, Unmarked entry.2 := by
  refine ⟨?_, .map⟩
  rintro ⟨⟩
  assumption

theorem unmarked_object_iff {attributes : List (String × Value)} :
    Unmarked (.object attributes) ↔ ∀ entry ∈ attributes, Unmarked entry.2 := by
  refine ⟨?_, .object⟩
  rintro ⟨⟩
  assumption

/-! ## The document of a value -/

private theorem toJsonItems_unmarked_iff {elements : List Value}
    (each : ∀ element ∈ elements,
      (element.toJson.Unmarked ↔ element.isFullyKnown = true ∧ element.Unmarked)) :
    (∀ item ∈ toJsonItems elements, item.Unmarked) ↔
      (∀ element ∈ elements, element.isFullyKnown = true) ∧
        ∀ element ∈ elements, element.Unmarked := by
  rw [toJsonItems_eq_map, List.forall_mem_map, ← forall₂_and]
  exact forall₂_congr each

private theorem toJsonMembers_unmarked_iff {entries : List (String × Value)}
    (each : ∀ entry ∈ entries,
      (entry.2.toJson.Unmarked ↔ entry.2.isFullyKnown = true ∧ entry.2.Unmarked)) :
    (∀ member ∈ toJsonMembers entries, member.2.Unmarked) ↔
      (∀ entry ∈ entries, entry.2.isFullyKnown = true) ∧
        ∀ entry ∈ entries, entry.2.Unmarked := by
  rw [toJsonMembers_eq_map, Entries.mapValues, List.forall_mem_map, ← forall₂_and]
  exact forall₂_congr each

/-- The marker gets into the document of a value from an unknown part or from a string. -/
theorem toJson_unmarked_iff (value : Value) :
    value.toJson.Unmarked ↔ value.isFullyKnown = true ∧ value.Unmarked := by
  induction value using Value.induct with
  | null => exact iff_of_true .null ⟨rfl, .null⟩
  | unknown =>
      refine iff_of_false (fun unmarked => ?_) nofun
      cases unmarked with
      | string ordinary => exact ordinary rfl
  | bool b => exact iff_of_true (.bool b) ⟨rfl, .bool b⟩
  | number n => exact iff_of_true (.number n) ⟨rfl, .number n⟩
  | string s =>
      refine ⟨fun unmarked => ?_, fun both => ?_⟩
      · cases unmarked with
        | string ordinary => exact ⟨rfl, .string ordinary⟩
      · cases both.2 with
        | string ordinary => exact .string ordinary
  | list elements inductionHypothesis =>
      rw [toJson, Json.unmarked_array_iff, isFullyKnown_list_iff, unmarked_list_iff]
      exact toJsonItems_unmarked_iff inductionHypothesis
  | set elements inductionHypothesis =>
      rw [toJson, Json.unmarked_array_iff, isFullyKnown_set_iff, unmarked_set_iff]
      exact toJsonItems_unmarked_iff inductionHypothesis
  | map entries inductionHypothesis =>
      rw [toJson, Json.unmarked_object_iff, isFullyKnown_map_iff, unmarked_map_iff]
      exact toJsonMembers_unmarked_iff inductionHypothesis
  | object attributes inductionHypothesis =>
      rw [toJson, Json.unmarked_object_iff, isFullyKnown_object_iff, unmarked_object_iff]
      exact toJsonMembers_unmarked_iff inductionHypothesis

/-! ## What is decoded from a document -/

theorem isFullyKnown_ofUntyped_iff (json : Json) :
    (ofUntyped json).isFullyKnown = true ↔ json.Unmarked := by
  induction json using Json.induct with
  | null => exact iff_of_true rfl .null
  | bool b => exact iff_of_true rfl (.bool b)
  | number n => exact iff_of_true rfl (.number n)
  | string s =>
      unfold ofUntyped
      split
      · next marked =>
        refine iff_of_false Bool.false_ne_true fun unmarked => ?_
        cases unmarked with
        | string ordinary => exact ordinary marked
      · next ordinary => exact iff_of_true rfl (.string ordinary)
  | array items inductionHypothesis =>
      rw [ofUntyped, ofUntypedItems_eq_map, isFullyKnown_list_iff, Json.unmarked_array_iff,
        List.forall_mem_map]
      exact forall₂_congr inductionHypothesis
  | object members inductionHypothesis =>
      rw [ofUntyped, ofUntypedMembers_eq_mapValues, isFullyKnown_object_iff,
        Json.unmarked_object_iff, Entries.mapValues, List.forall_mem_map]
      exact forall₂_congr inductionHypothesis

section Parts

variable {items : List Json} {members : List (String × Json)} {elements : List Value}
  {entries : List (String × Value)}

/-- What a part of a document means is known exactly where the part is unmarked. -/
private def Faithful (json : Json) (value : Value) : Prop :=
  json.KeyOrdered → (value.isFullyKnown = true ↔ json.Unmarked)

private theorem elements_known_iff (each : List.Forall₂ Faithful items elements)
    (ordered : ∀ item ∈ items, item.KeyOrdered) :
    (∀ element ∈ elements, element.isFullyKnown = true) ↔ ∀ item ∈ items, item.Unmarked := by
  induction each with
  | nil => simp
  | cons head _ inductionHypothesis =>
      rcases List.forall_mem_cons.mp ordered with ⟨first, later⟩
      rw [List.forall_mem_cons, List.forall_mem_cons, head first, inductionHypothesis later]

private theorem entries_known_iff
    (each : List.Forall₂ (fun member entry => member.1 = entry.1 ∧ Faithful member.2 entry.2)
      members entries) (ordered : ∀ member ∈ members, member.2.KeyOrdered) :
    (∀ entry ∈ entries, entry.2.isFullyKnown = true) ↔
      ∀ member ∈ members, member.2.Unmarked := by
  induction each with
  | nil => simp
  | cons head _ inductionHypothesis =>
      rcases List.forall_mem_cons.mp ordered with ⟨first, later⟩
      rw [List.forall_mem_cons, List.forall_mem_cons, head.2 first, inductionHypothesis later]

/-- Attributes may be left out of an object, but no member may be undeclared, so that every member
is read as some attribute. -/
private theorem attributes_known_iff {types : List (String × AttributeType)}
    (declared : ∀ name ∈ Entries.keys members, name ∈ Entries.keys types)
    (each : List.Forall₂ (fun entry attr => entry.1 = attr.1 ∧
      Faithful ((Entries.find? entry.1 members).getD .null) attr.2) types entries)
    (sorted : Entries.Sorted members) (ordered : ∀ member ∈ members, member.2.KeyOrdered) :
    (∀ entry ∈ entries, entry.2.isFullyKnown = true) ↔
      ∀ member ∈ members, member.2.Unmarked := by
  constructor
  · intro known member present
    have isDeclared := declared member.1 (Entries.mem_keys_of_mem present)
    rcases List.mem_map.mp isDeclared with ⟨entry, inTypes, sameName⟩
    rcases exists_mem_of_forall₂ each.flip inTypes with ⟨attr, inEntries, _, faithful⟩
    rw [sameName, Entries.find?_of_mem sorted.nodup present] at faithful
    exact (faithful (ordered member present)).mp (known attr inEntries)
  · intro unmarked attr inEntries
    rcases exists_mem_of_forall₂ each inEntries with ⟨entry, _, _, faithful⟩
    cases found : Entries.find? entry.1 members with
    | none =>
        rw [found] at faithful
        exact (faithful .null).mpr .null
    | some item =>
        rw [found] at faithful
        have present := Entries.mem_of_find? found
        exact (faithful (ordered _ present)).mpr (unmarked _ present)

end Parts

variable {type : AttributeType} {json : Json} {v w : Value}

/-- What is decoded is fully known exactly when the marker does not occur in the document. -/
theorem isFullyKnown_iff_unmarked (ordered : json.KeyOrdered) (decoded : ofJson type json = .ok w) :
    w.isFullyKnown = true ↔ json.Unmarked := by
  refine ofJson_induct (motive := fun _ => Faithful) ?null ?unknown ?string ?int64 ?float64 ?bool
    ?list ?set ?map ?object ?dynamic decoded ordered
  case null => exact fun _ _ => iff_of_true rfl .null
  case unknown =>
    refine fun _ _ => iff_of_false Bool.false_ne_true fun unmarked => ?_
    cases unmarked with
    | string ordinary => exact ordinary rfl
  case string => exact fun s ordinary _ => iff_of_true rfl (.string ordinary)
  case int64 => exact fun n _ _ _ => iff_of_true rfl (.number n)
  case float64 => exact fun n _ => iff_of_true rfl (.number n)
  case bool => exact fun b _ => iff_of_true rfl (.bool b)
  case list =>
    rintro _ items elements each ⟨⟩
    rw [isFullyKnown_list_iff, Json.unmarked_array_iff]
    exact elements_known_iff each ‹_›
  case set =>
    rintro _ items elements each _ ⟨⟩
    rw [isFullyKnown_set_iff, Json.unmarked_array_iff]
    exact elements_known_iff each ‹_›
  case map =>
    rintro _ members entries each ⟨⟩
    rw [isFullyKnown_map_iff, Json.unmarked_object_iff]
    exact entries_known_iff each ‹_›
  case object =>
    rintro types members attributes declared each ⟨⟩
    rw [isFullyKnown_object_iff, Json.unmarked_object_iff]
    exact attributes_known_iff declared each ‹_› ‹_›
  case dynamic => exact fun json _ => isFullyKnown_ofUntyped_iff json

theorem Untyped.unmarked (untyped : Untyped v) : v.Unmarked := by
  induction untyped with
  | null => exact .null
  | unknown => exact .unknown
  | bool b => exact .bool b
  | number n => exact .number n
  | string ordinary => exact .string ordinary
  | list _ inductionHypothesis => exact .list inductionHypothesis
  | object _ inductionHypothesis => exact .object inductionHypothesis

/-- Decoding takes every marker for unknown, so no string of a decoded value is one. -/
theorem unmarked_of_ofJson (decoded : ofJson type json = .ok v) : v.Unmarked := by
  refine ofJson_induct (motive := fun _ _ value => value.Unmarked) ?null ?unknown ?string ?int64
    ?float64 ?bool ?list ?set ?map ?object ?dynamic decoded
  case null => exact fun _ => .null
  case unknown => exact fun _ => .unknown
  case string => exact fun s => .string
  case int64 => exact fun _ i _ => .number (.int i)
  case float64 => exact .number
  case bool => exact .bool
  case list =>
    refine fun _ _ elements each => .list fun element member => ?_
    rcases exists_mem_of_forall₂ each member with ⟨_, _, unmarked⟩
    exact unmarked
  case set =>
    refine fun _ _ elements each _ => .set fun element member => ?_
    rcases exists_mem_of_forall₂ each member with ⟨_, _, unmarked⟩
    exact unmarked
  case map =>
    refine fun _ _ entries each => .map fun entry member => ?_
    rcases exists_mem_of_forall₂ each member with ⟨_, _, _, unmarked⟩
    exact unmarked
  case object =>
    refine fun _ _ attributes _ each => .object fun attr member => ?_
    rcases exists_mem_of_forall₂ each member with ⟨_, _, _, unmarked⟩
    exact unmarked
  case dynamic => exact fun json => (untyped_ofUntyped json).unmarked

/-! ## What becomes of a known value -/

/-- What is decoded from the document of a value is fully known exactly when the value is and no
string inside it is the marker.  A value that has been decoded itself has no such string. -/
theorem decoded_again_is_known_iff (ordered : v.KeyOrdered)
    (decoded : ofJson type v.toJson = .ok w) :
    (w.isFullyKnown = true ↔ v.isFullyKnown = true ∧ v.Unmarked) ∧
      ∀ source json, ofJson source json = .ok v → v.Unmarked := by
  refine ⟨?_, fun source json => unmarked_of_ofJson⟩
  rw [isFullyKnown_iff_unmarked ordered.toJson decoded, toJson_unmarked_iff]

/-- A known name stays known next to an attribute that the document leaves out. -/
theorem known_name_is_known_again :
    let type := AttributeType.object [("name", .string), ("note", .dynamic)]
    let given := object [("name", .string "web")]
    let decoded := object [("name", .string "web"), ("note", .null)]
    given.KeyOrdered ∧ ofJson type given.toJson = .ok decoded ∧ given.Unmarked ∧
      decoded.isFullyKnown = true := by
  intro type given decoded
  have ordered : given.KeyOrdered :=
    .object (List.pairwise_singleton _ _) (List.forall_mem_singleton.mpr (.string _))
  have success : ofJson type given.toJson = .ok decoded := rfl
  have unmarked : given.Unmarked :=
    .object (List.forall_mem_singleton.mpr (.string (by decide)))
  have stays := (decoded_again_is_known_iff ordered success).1
  exact ⟨ordered, success, unmarked, stays.mpr ⟨rfl, unmarked⟩⟩

/-- A tag of the text of the marker is a known string, and unknown once its document is read. -/
theorem marked_tag_becomes_unknown :
    let tags := map [("env", .string unknownMarker)]
    let decoded := map [("env", .unknown)]
    tags.isFullyKnown = true ∧ ofJson (.map .string) tags.toJson = .ok decoded ∧
      decoded.isFullyKnown = false :=
  ⟨rfl, rfl, rfl⟩

end Value
end ProviderKit

import ProviderKit.Proofs.Value.KnownEquality

/-!
# The codec is exact

The values that decoding gives for a type are exactly those that conform to it, and each of
them is decoded from its own document again.  `Conforms` says what a type demands in one
recursion, with the elements of a set compared as a reader of the type would do it: a fully
known element with the elements before it.  `HasType` and `DistinctSets` split the same demand
in two and compare the other way around, which for known elements makes no difference.
-/

namespace ProviderKit
namespace Value

/-- What a type demands of its values. -/
inductive Conforms : AttributeType → Value → Prop
  | null (type : AttributeType) : Conforms type .null
  | unknown (type : AttributeType) : Conforms type .unknown
  | string {s : String} (ordinary : s ≠ unknownMarker) : Conforms .string (.string s)
  | int64 {n : Int} (lower : Json.Number.minInt64 ≤ n) (upper : n ≤ Json.Number.maxInt64) :
      Conforms .int64 (.number (.int n))
  | float64 (n : Json.Number) : Conforms .float64 (.number n)
  | bool (b : Bool) : Conforms .bool (.bool b)
  | list {type : AttributeType} {elements : List Value}
      (each : ∀ element ∈ elements, Conforms type element) : Conforms (.list type) (.list elements)
  | set {type : AttributeType} {elements : List Value}
      (each : ∀ element ∈ elements, Conforms type element)
      (fresh : elements.Pairwise fun earlier element =>
        element.isFullyKnown = true → (element == earlier) = false) :
      Conforms (.set type) (.set elements)
  | map {type : AttributeType} {entries : List (String × Value)}
      (each : ∀ entry ∈ entries, Conforms type entry.2) : Conforms (.map type) (.map entries)
  | object {types : List (String × AttributeType)} {attributes : List (String × Value)}
      (names : Entries.keys attributes = Entries.keys types)
      (each : ∀ name type value, Entries.find? name types = some type →
        Entries.find? name attributes = some value → Conforms type value) :
      Conforms (.object types) (.object attributes)
  | dynamic {value : Value} (untyped : Untyped value) : Conforms .dynamic value

variable {type : AttributeType} {value : Value}

theorem Conforms.hasType (conforms : Conforms type value) : HasType type value := by
  induction conforms with
  | null type => exact .null type
  | unknown type => exact .unknown type
  | string ordinary => exact .string ordinary
  | int64 lower upper => exact .int64 (Json.Number.inInt64?_eq_some_iff.mpr ⟨⟨lower, upper⟩, rfl⟩)
  | float64 n => exact .float64 n
  | bool b => exact .bool b
  | list _ inductionHypothesis => exact .list inductionHypothesis
  | set _ _ inductionHypothesis => exact .set inductionHypothesis
  | map _ inductionHypothesis => exact .map inductionHypothesis
  | object names _ inductionHypothesis => exact .object names inductionHypothesis
  | dynamic untyped => exact .dynamic untyped

theorem Conforms.distinctSets (conforms : Conforms type value) (wellFormed : type.WellFormed) :
    DistinctSets value := by
  induction conforms with
  | null => exact .null
  | unknown => exact .unknown
  | string => exact .string _
  | int64 => exact .number _
  | float64 n => exact .number n
  | bool b => exact .bool b
  | list _ inductionHypothesis =>
      cases wellFormed with
      | list inner => exact .list fun element member => inductionHypothesis element member inner
  | set _ fresh inductionHypothesis =>
      cases wellFormed with
      | set inner =>
          have distinct := fun element member => inductionHypothesis element member inner
          exact .set distinct ((noRepeats_iff distinct).mpr fresh)
  | map _ inductionHypothesis =>
      cases wellFormed with
      | map inner => exact .map fun entry member => inductionHypothesis entry member inner
  | @object types attributes names _ inductionHypothesis =>
      cases wellFormed with
      | object sorted inner =>
          refine .object fun entry member => ?_
          have declared : entry.1 ∈ Entries.keys types := names ▸ Entries.mem_keys_of_mem member
          rcases Entries.exists_find? declared with ⟨type, found⟩
          have nodup : (Entries.keys attributes).Nodup := names ▸ sorted.nodup
          exact inductionHypothesis entry.1 type entry.2 found (Entries.find?_of_mem nodup member)
            (inner _ (Entries.mem_of_find? found))
  | dynamic untyped => exact untyped.distinctSets

theorem HasType.conforms (typed : HasType type value) (distinct : DistinctSets value) :
    Conforms type value := by
  induction typed with
  | null type => exact .null type
  | unknown type => exact .unknown type
  | string ordinary => exact .string ordinary
  | int64 inRange =>
      rcases Json.Number.inInt64?_eq_some_iff.mp inRange with ⟨⟨lower, upper⟩, _⟩
      exact .int64 lower upper
  | float64 n => exact .float64 n
  | bool b => exact .bool b
  | list _ inductionHypothesis =>
      have inner := distinctSets_list_iff.mp distinct
      exact .list fun element member => inductionHypothesis element member (inner element member)
  | set _ inductionHypothesis =>
      rcases distinctSets_set_iff.mp distinct with ⟨inner, fresh⟩
      exact .set (fun element member => inductionHypothesis element member (inner element member))
        ((noRepeats_iff inner).mp fresh)
  | map _ inductionHypothesis =>
      have inner := distinctSets_map_iff.mp distinct
      exact .map fun entry member => inductionHypothesis entry member (inner entry member)
  | object keys _ inductionHypothesis =>
      have inner := distinctSets_object_iff.mp distinct
      exact .object keys fun name type value declared found =>
        inductionHypothesis name type value declared found (inner _ (Entries.mem_of_find? found))
  | dynamic untyped => exact .dynamic untyped

/-- Decoding gives values that conform to the type, each of them is what its own document is
decoded to, and so decoding a decoded value again changes nothing. -/
theorem codec_exact (wellFormed : type.WellFormed) :
    (∀ json value, ofJson type json = .ok value → Conforms type value) ∧
      (∀ value, Conforms type value → ofJson type value.toJson = .ok value) ∧
      ∀ json value, ofJson type json = .ok value → ofJson type value.toJson = .ok value := by
  have sound : ∀ json value, ofJson type json = .ok value → Conforms type value := by
    intro json value decoded
    rcases conforms_of_decodeAt decoded with ⟨typed, distinct⟩
    exact typed.conforms distinct
  have complete : ∀ value, Conforms type value → ofJson type value.toJson = .ok value := by
    intro value conforms
    have typed := conforms.hasType
    exact (decodeAt_toJson_iff typed wellFormed [] value).mpr
      ⟨conforms.distinctSets wellFormed, rfl⟩
  exact ⟨sound, complete, fun json value decoded => complete value (sound json value decoded)⟩

/-- Sets in a set next to a tree without a type. -/
def groupsType : AttributeType :=
  .object [("groups", .set (.set .int64)), ("note", .dynamic)]

theorem groupsType_wellFormed : groupsType.WellFormed := by
  have sorted : "groups" < "note" := String.lt_iff_toList_lt.mpr (by decide)
  refine .object (List.pairwise_pair.mpr sorted) ?_
  simp only [List.forall_mem_cons, List.not_mem_nil, false_imp_iff, implies_true, and_true]
  exact ⟨.set (.set .int64), .dynamic⟩

/-- Two reorderings of one set with an unknown element may stand in a set together. -/
theorem codec_exact_groups :
    let json := Json.object [
      ("groups", .array [.array [.string unknownMarker, .number (.int 1)],
        .array [.number (.int 1), .string unknownMarker]]),
      ("note", .array [.null])]
    groupsType.WellFormed ∧ ∃ value, ofJson groupsType json = .ok value ∧
      Conforms groupsType value ∧ ofJson groupsType value.toJson = .ok value := by
  intro json
  let value := object [("groups", .set [.set [.unknown, .int 1], .set [.int 1, .unknown]]),
    ("note", .list [.null])]
  have decoded : ofJson groupsType json = .ok value := by rfl
  rcases codec_exact groupsType_wellFormed with ⟨sound, _, again⟩
  exact ⟨groupsType_wellFormed, value, decoded, sound json value decoded,
    again json value decoded⟩

end Value
end ProviderKit

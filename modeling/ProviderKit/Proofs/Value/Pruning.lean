import ProviderKit.Proofs.Value.Leniency

/-!
# Lenient decoding as strict decoding of less

A document is pruned for a type by taking away the members that an object type does not declare, at
every depth that lists, sets, maps and objects lead to.  What is left is as the type wants it but
for mistakes that both ways of decoding find, so decoding a document leniently and decoding the
pruned document strictly give the same result: the same value, or the same error at the same place.
The elements of a set are compared after that, and two of them that only differ in undeclared
members repeat each other.
-/

namespace ProviderKit

namespace AttributeType

mutual

/-- The document without the members that object types do not declare.  Nothing is taken away where
a document has no type of its own. -/
def prune : AttributeType → Json → Json
  | list element, .array items => .array (items.map (prune element))
  | set element, .array items => .array (items.map (prune element))
  | map element, .object members => .object (Entries.mapValues (prune element) members)
  | object types, .object members =>
    .object (members.filterMap fun (name, item) =>
      (pruneDeclared types name item).map fun pruned => (name, pruned))
  | _, json => json

/-- The pruned document of a member, when its name is declared. -/
def pruneDeclared : List (String × AttributeType) → String → Json → Option Json
  | [], _, _ => none
  | (declared, type) :: rest, name, item =>
    if declared = name then some (prune type item) else pruneDeclared rest name item

end

variable {type : AttributeType} {types : List (String × AttributeType)}

theorem pruneDeclared_eq_map (types : List (String × AttributeType)) (name : String)
    (item : Json) :
    pruneDeclared types name item = (Entries.find? name types).map fun type => type.prune item := by
  induction types with
  | nil => rfl
  | cons entry rest inductionHypothesis =>
      rcases entry with ⟨declared, type⟩
      rw [pruneDeclared, Entries.find?]
      split
      · rfl
      · exact inductionHypothesis

theorem prune_null (type : AttributeType) : type.prune .null = .null := by
  cases type <;> rfl

/-- The members of a pruned object are those that are declared, each pruned for its type. -/
theorem prune_object_object (types : List (String × AttributeType))
    (members : List (String × Json)) :
    ∃ pruned, (object types).prune (.object members) = .object pruned ∧
      ∀ name, Entries.find? name pruned =
        (Entries.find? name types).bind fun type =>
          (Entries.find? name members).map type.prune := by
  refine ⟨_, rfl, fun name => ?_⟩
  simp only [pruneDeclared_eq_map]
  induction members with
  | nil => simp
  | cons member rest inductionHypothesis =>
      rcases member with ⟨word, item⟩
      by_cases same : word = name
      · subst same
        cases declared : Entries.find? word types with
        | none => simpa [declared] using inductionHypothesis
        | some type => simp [declared, Entries.find?_cons_self]
      · rw [Entries.find?_cons_of_ne same, ← inductionHypothesis]
        cases declared : Entries.find? word types with
        | none => simp [declared]
        | some type => simp [declared, Entries.find?_cons_of_ne same]

end AttributeType

namespace Value

variable {type element : AttributeType} {path : Path}

section Parts

variable (each : ∀ place item,
  decodeAt .strict element place (element.prune item) = decodeAt .lenient element place item)

include each

theorem decodeElements_prune (items : List Json) :
    decodeElements (decodeAt .strict element) path (items.map element.prune) =
      decodeElements (decodeAt .lenient element) path items := by
  refine decodeElements_congr (List.forall₂_map_left_iff.mpr (List.forall₂_same.mpr ?_))
  exact fun item _ place => each place item

theorem decodeEntries_prune (members : List (String × Json)) :
    decodeEntries (decodeAt .strict element) path (Entries.mapValues element.prune members) =
      decodeEntries (decodeAt .lenient element) path members := by
  refine decodeEntries_congr (Entries.paired_mapValues_left ?_ members)
  exact fun item place => each place item

end Parts

/-- Strict decoding of the pruned document is lenient decoding of the document itself, wherever it
stands. -/
theorem decodeAt_strict_prune (wellFormed : type.WellFormed) (path : Path) (json : Json) :
    decodeAt .strict type path (type.prune json) = decodeAt .lenient type path json := by
  induction type using AttributeType.induct generalizing path json with
  | string | int64 | float64 | bool | dynamic => cases json <;> rfl
  | list element inductionHypothesis =>
      cases wellFormed with
      | list inner =>
          cases json with
          | array items =>
              rw [AttributeType.prune, decodeAt_list_array,
                decodeElements_prune (inductionHypothesis inner)]
              rfl
          | _ => rfl
  | set element inductionHypothesis =>
      cases wellFormed with
      | set inner =>
          cases json with
          | array items =>
              rw [AttributeType.prune, decodeAt_set_array,
                decodeElements_prune (inductionHypothesis inner)]
              rfl
          | _ => rfl
  | map element inductionHypothesis =>
      cases wellFormed with
      | map inner =>
          cases json with
          | object members =>
              rw [AttributeType.prune, decodeAt_map_object,
                decodeEntries_prune (inductionHypothesis inner)]
              rfl
          | _ => rfl
  | object types inductionHypothesis =>
      cases wellFormed with
      | object sorted inner =>
          cases json with
          | object members =>
              rcases AttributeType.prune_object_object types members with ⟨pruned, same, find⟩
              have declared : firstUndeclared? types pruned = none := by
                refine List.find?_eq_none.mpr fun name present => ?_
                rcases Entries.exists_find? present with ⟨item, found⟩
                rw [find] at found
                rcases Option.bind_eq_some_iff.mp found with ⟨type, isDeclared, _⟩
                simp [Entries.contains, isDeclared]
              rw [same, decodeAt_object_object, declared, decodeAt_lenient_object]
              refine congrArg (· >>= _) (decodeAttributes_congr fun entry member place => ?_)
              have found := Entries.find?_of_mem sorted.nodup member
              rw [find, found, Option.bind_some,
                ← inductionHypothesis entry member (inner entry member)]
              cases Entries.find? entry.1 members with
              | none => exact congrArg _ entry.2.prune_null.symm
              | some item => rfl
          | _ => rfl

/-- Lenient decoding gives what strict decoding gives for the pruned document, value or error.  A
document that is accepted strictly means the same for both. -/
theorem lenient_is_strict_after_pruning (wellFormed : type.WellFormed) (json : Json) :
    ofJsonLenient type json = ofJson type (type.prune json) ∧
      ∀ value, ofJson type json = .ok value → ofJsonLenient type json = .ok value :=
  ⟨(decodeAt_strict_prune wellFormed [] json).symm, fun _ => decodeAt_lenient_of_strict⟩

/-- Rules by their port, and data of any kind. -/
def rulesType : AttributeType :=
  .object [("data", .dynamic), ("rules", .set (.object [("port", .int64)]))]

theorem rulesType_wellFormed : rulesType.WellFormed := by
  have sorted : "data" < "rules" := String.lt_iff_toList_lt.mpr (by decide)
  have rule : (AttributeType.object [("port", .int64)]).WellFormed :=
    .object (List.pairwise_singleton _ _) (List.forall_mem_singleton.mpr .int64)
  refine .object (List.pairwise_pair.mpr sorted) ?_
  exact List.forall_mem_cons.mpr ⟨.dynamic, List.forall_mem_singleton.mpr (.set rule)⟩

/-- Two rules that only differ in their undeclared notes repeat each other for the lenient decoder.
The strict one already refuses the undeclared owner.  The data keeps its members. -/
theorem repeated_rule_after_pruning :
    let rule := fun notes => Json.object (notes ++ [("port", .int 443)])
    let data := Json.object [("old", .bool true)]
    let json := Json.object [("data", data), ("owner", .string "ops"),
      ("rules", .array [rule [("note", .string "a")], rule [("note", .string "b")]])]
    let pruned := Json.object [("data", data), ("rules", .array [rule [], rule []])]
    rulesType.WellFormed ∧ rulesType.prune json = pruned ∧
      ofJson rulesType json = .error (.unsupportedAttribute [] "owner") ∧
      ofJson rulesType pruned = .error (.duplicateSetElement [.name "rules", .index 1]) ∧
      ofJsonLenient rulesType json = .error (.duplicateSetElement [.name "rules", .index 1]) := by
  intro rule data json pruned
  have same : rulesType.prune json = pruned := rfl
  have repeated : ofJson rulesType pruned =
      .error (.duplicateSetElement [.name "rules", .index 1]) := rfl
  have lenient := (lenient_is_strict_after_pruning rulesType_wellFormed json).1
  rw [same, repeated] at lenient
  exact ⟨rulesType_wellFormed, same, rfl, repeated, lenient⟩

end Value
end ProviderKit

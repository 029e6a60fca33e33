import ProviderKit.Planning.Counterpart
import ProviderKit.Proofs.Value.Conformance
import ProviderKit.Value.Access

/-!
# Parts of values

Planning reads values by name, by position and by key, and reads null where there is
nothing.  A property that null has and that a container hands on to its members therefore
holds of everything that is read: the type, the distinctness of sets, and the absence of
unknown parts.

What treats all containers alike, such as the search for unknown parts, is stated over `parts`,
the list of what stands directly inside a value.
-/

namespace ProviderKit
namespace Value

/-- What stands directly inside a value, with the steps that lead there. -/
def parts : Value → List (PathStep × Value)
  | list elements | set elements =>
    elements.zipIdx.map fun (element, index) => (.index index, element)
  | map entries => entries.map fun (key, entry) => (.key key, entry)
  | object attributes => attributes.map fun (name, attr) => (.name name, attr)
  | _ => []

variable {value : Value} {P : Value → Prop}

private theorem forall_mem_zipIdx_iff {elements : List Value} :
    (∀ part ∈ elements.zipIdx, P part.1) ↔ ∀ element ∈ elements, P element := by
  conv_rhs => rw [← List.zipIdx_map_fst 0 elements]
  exact List.forall_mem_map.symm

/-- Induction over a value, in which every part is an induction hypothesis. -/
@[elab_as_elim]
theorem parts_induct {motive : Value → Prop}
    (step : ∀ value, (∀ part ∈ value.parts, motive part.2) → motive value) (value : Value) :
    motive value := by
  induction value using Value.induct with
  | null | unknown | bool | number | string => exact step _ nofun
  | list elements inductionHypothesis | set elements inductionHypothesis =>
      exact step _ (List.forall_mem_map.mpr (forall_mem_zipIdx_iff.mpr inductionHypothesis))
  | map entries inductionHypothesis | object entries inductionHypothesis =>
      exact step _ (List.forall_mem_map.mpr inductionHypothesis)

/-! ## What is read -/

theorem attributeNamed_object (name : String) (attributes : List (String × Value)) :
    (object attributes).attributeNamed name = (Entries.find? name attributes).getD null :=
  rfl

/-- What an attribute is, is null or an entry of the object. -/
theorem of_attributeNamed (atNull : P null)
    (members : ∀ attributes, value = .object attributes → ∀ entry ∈ attributes, P entry.2)
    (name : String) : P (value.attributeNamed name) := by
  cases value with
  | object attributes =>
      cases found : Entries.find? name attributes with
      | none =>
          rw [attributeNamed, found]
          exact atNull
      | some attr =>
          rw [attributeNamed, found]
          exact members attributes rfl (name, attr) (Entries.mem_of_find? found)
  | _ => exact atNull

theorem of_elementOrNull (atNull : P null) (members : ∀ element ∈ value.elements, P element)
    (index : Nat) : P (value.elementOrNull index) := by
  unfold elementOrNull
  cases found : value.elements[index]? with
  | none => exact atNull
  | some element => exact members element (List.mem_of_getElem? found)

theorem of_entryOrNull (atNull : P null)
    (members : ∀ entries, value = .map entries → ∀ entry ∈ entries, P entry.2) (key : String) :
    P (value.entryOrNull key) := by
  cases value with
  | map entries =>
      cases found : Entries.find? key entries with
      | none =>
          rw [entryOrNull, found]
          exact atNull
      | some entry =>
          rw [entryOrNull, found]
          exact members entries rfl (key, entry) (Entries.mem_of_find? found)
  | _ => exact atNull

/-! ## Types of parts -/

theorem HasType.elementOrNull_list {type : AttributeType} (typed : HasType (.list type) value)
    (index : Nat) : HasType type (value.elementOrNull index) := by
  refine of_elementOrNull (.null type) ?_ index
  cases typed with
  | list typed => exact typed
  | _ => simp [elements]

theorem HasType.elementOrNull_set {type : AttributeType} (typed : HasType (.set type) value)
    (index : Nat) : HasType type (value.elementOrNull index) := by
  refine of_elementOrNull (.null type) ?_ index
  cases typed with
  | set typed => exact typed
  | _ => simp [elements]

theorem HasType.entryOrNull {type : AttributeType} (typed : HasType (.map type) value)
    (key : String) : HasType type (value.entryOrNull key) := by
  refine of_entryOrNull (.null type) ?_ key
  rintro entries rfl
  cases typed with
  | map typed => exact typed

/-! ## Distinct sets in parts -/

theorem DistinctSets.attributeNamed (distinct : DistinctSets value) (name : String) :
    DistinctSets (value.attributeNamed name) :=
  of_attributeNamed .null (fun _ same => distinctSets_object_iff.mp (same ▸ distinct)) name

/-! ## Known parts -/

theorem isFullyKnown_list_iff {elements : List Value} :
    (list elements).isFullyKnown = true ↔ ∀ element ∈ elements, element.isFullyKnown = true := by
  have known : (list elements).isFullyKnown = elements.all isFullyKnown :=
    allFullyKnown_eq_all elements
  rw [known, List.all_eq_true]

theorem isFullyKnown_set_iff {elements : List Value} :
    (set elements).isFullyKnown = true ↔ ∀ element ∈ elements, element.isFullyKnown = true := by
  have known : (set elements).isFullyKnown = elements.all isFullyKnown :=
    allFullyKnown_eq_all elements
  rw [known, List.all_eq_true]

theorem isFullyKnown_map_iff {entries : List (String × Value)} :
    (map entries).isFullyKnown = true ↔ ∀ entry ∈ entries, entry.2.isFullyKnown = true := by
  have known : (map entries).isFullyKnown = entries.all fun entry => entry.2.isFullyKnown :=
    entriesFullyKnown_eq_all entries
  rw [known, List.all_eq_true]

theorem isFullyKnown_object_iff {attributes : List (String × Value)} :
    (object attributes).isFullyKnown = true ↔
      ∀ entry ∈ attributes, entry.2.isFullyKnown = true := by
  have known : (object attributes).isFullyKnown =
      attributes.all fun entry => entry.2.isFullyKnown := entriesFullyKnown_eq_all attributes
  rw [known, List.all_eq_true]

/-- What is not unknown itself is fully known when everything directly inside it is. -/
theorem isFullyKnown_iff_parts (known : value ≠ unknown) :
    value.isFullyKnown = true ↔ ∀ part ∈ value.parts, part.2.isFullyKnown = true := by
  cases value with
  | unknown => exact absurd rfl known
  | null | bool | number | string => exact iff_of_true rfl nofun
  | list elements =>
      rw [isFullyKnown_list_iff, parts, List.forall_mem_map]
      exact forall_mem_zipIdx_iff.symm
  | set elements =>
      rw [isFullyKnown_set_iff, parts, List.forall_mem_map]
      exact forall_mem_zipIdx_iff.symm
  | map entries => rw [isFullyKnown_map_iff, parts, List.forall_mem_map]
  | object attributes => rw [isFullyKnown_object_iff, parts, List.forall_mem_map]

theorem isFullyKnown_attributeNamed (known : value.isFullyKnown = true) (name : String) :
    (value.attributeNamed name).isFullyKnown = true := by
  refine of_attributeNamed (P := fun part => part.isFullyKnown = true) rfl ?_ name
  exact fun _ same => isFullyKnown_object_iff.mp (same ▸ known)

/-! ## Paths to unknown parts -/

private theorem unknownPathsInElements_eq_flatMap (path : Path) (start : Nat)
    (elements : List Value) :
    unknownPathsInElements path start elements =
      (elements.zipIdx start).flatMap fun x => x.1.unknownPathsFrom (path.atIndex x.2) := by
  induction elements generalizing start with
  | nil => rfl
  | cons element rest inductionHypothesis =>
      rw [unknownPathsInElements, inductionHypothesis, List.zipIdx_cons, List.flatMap_cons]

private theorem unknownPathsInEntries_eq_flatMap (path : Path) (entries : List (String × Value)) :
    unknownPathsInEntries path entries =
      entries.flatMap fun entry => entry.2.unknownPathsFrom (path.atKey entry.1) := by
  induction entries with
  | nil => rfl
  | cons entry rest inductionHypothesis =>
      rw [unknownPathsInEntries, inductionHypothesis, List.flatMap_cons]

private theorem unknownPathsInAttributes_eq_flatMap (path : Path)
    (attributes : List (String × Value)) :
    unknownPathsInAttributes path attributes =
      attributes.flatMap fun attr => attr.2.unknownPathsFrom (path.atName attr.1) := by
  induction attributes with
  | nil => rfl
  | cons attr rest inductionHypothesis =>
      rw [unknownPathsInAttributes, inductionHypothesis, List.flatMap_cons]

/-- Inside a value that is not unknown itself the paths come from its parts, one after the other. -/
theorem unknownPathsFrom_eq_flatMap (known : value ≠ unknown) (path : Path) :
    value.unknownPathsFrom path =
      value.parts.flatMap fun part => part.2.unknownPathsFrom (path ++ [part.1]) := by
  cases value with
  | unknown => exact absurd rfl known
  | null | bool | number | string => rfl
  | list elements | set elements =>
      rw [unknownPathsFrom, unknownPathsInElements_eq_flatMap, parts, List.flatMap_map]
      rfl
  | map entries =>
      rw [unknownPathsFrom, unknownPathsInEntries_eq_flatMap, parts, List.flatMap_map]
      rfl
  | object attributes =>
      rw [unknownPathsFrom, unknownPathsInAttributes_eq_flatMap, parts, List.flatMap_map]
      rfl

/-- There is a path to something unknown unless all is known. -/
theorem unknownPathsFrom_eq_nil_iff (value : Value) (path : Path) :
    value.unknownPathsFrom path = [] ↔ value.isFullyKnown = true := by
  induction value using parts_induct generalizing path with
  | step value inductionHypothesis =>
      by_cases known : value = unknown
      · subst known
        exact iff_of_false (List.cons_ne_nil _ _) nofun
      rw [unknownPathsFrom_eq_flatMap known, isFullyKnown_iff_parts known, List.flatMap_eq_nil_iff]
      exact forall₂_congr fun part member => inductionHypothesis part member _

end Value
end ProviderKit

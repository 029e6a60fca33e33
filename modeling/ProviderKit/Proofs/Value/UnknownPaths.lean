import ProviderKit.Proofs.Planning.Collection
import ProviderKit.Proofs.Value.Places

/-!
# The paths of unknown values

The paths that are collected from a value are the places where something unknown stands, each of
them once.  A read gives unknown exactly when its path comes to one of these places or goes on below
one, and a value without such a place is fully known.

The parts of a value are what its single steps find, and no two of them stand at the same step.  So
what is collected from the parts, one after the other, is collected from different places.
-/

namespace ProviderKit
namespace Value

variable {value part : Value} {step : PathStep}

/-! ## Parts -/

private theorem mem_indexed_iff {elements : List Value} :
    (step, part) ∈ elements.zipIdx.map (fun x => (PathStep.index x.2, x.1)) ↔
      ∃ i : Nat, step = .index i ∧ elements[i]? = some part := by
  simp only [List.mem_map, Prod.exists, Prod.mk.injEq, List.mem_zipIdx_iff_getElem?]
  constructor
  · rintro ⟨element, i, found, rfl, rfl⟩
    exact ⟨i, rfl, found⟩
  · rintro ⟨i, rfl, found⟩
    exact ⟨part, i, found, rfl, rfl⟩

private theorem mem_entries_iff {entries : List (String × Value)}
    (nodup : (Entries.keys entries).Nodup) (make : String → PathStep) :
    (step, part) ∈ entries.map (fun entry => (make entry.1, entry.2)) ↔
      ∃ word, step = make word ∧ Entries.find? word entries = some part := by
  simp only [List.mem_map, Prod.exists, Prod.mk.injEq]
  constructor
  · rintro ⟨word, entry, member, rfl, rfl⟩
    exact ⟨word, rfl, Entries.find?_of_mem nodup member⟩
  · rintro ⟨word, rfl, found⟩
    exact ⟨word, part, Entries.mem_of_find? found, rfl, rfl⟩

/-- The parts are what single steps find. -/
theorem mem_parts_iff (ordered : value.KeyOrdered) :
    (step, part) ∈ value.parts ↔ value.part? step = some part := by
  cases ordered with
  | null | unknown | bool | number | string => cases step <;> simp [parts, part?]
  | list | set =>
      refine mem_indexed_iff.trans ?_
      cases step with
      | index index => simp [part?, elementAt?_eq_some_iff]
      | name | key => simp [part?]
  | map sorted =>
      refine (mem_entries_iff sorted.nodup .key).trans ?_
      cases step <;> simp [part?]
  | object sorted =>
      refine (mem_entries_iff sorted.nodup .name).trans ?_
      cases step <;> simp [part?]

/-- Different parts stand at different steps. -/
theorem parts_apart (ordered : value.KeyOrdered) :
    value.parts.Pairwise fun x y => Path.Apart [x.1] [y.1] := by
  cases ordered with
  | null | unknown | bool | number | string => exact .nil
  | list | set => exact List.pairwise_map.mpr (Path.indexes_apart _)
  | map sorted => exact List.pairwise_map.mpr (Path.keys_apart sorted.nodup)
  | object sorted => exact List.pairwise_map.mpr (Path.names_apart sorted.nodup)

/-! ## The collected paths -/

/-- The paths below a value are those of the places where something unknown stands. -/
theorem unknownPathsFrom_collects (ordered : value.KeyOrdered) (path : Path) :
    Collects (fun place (_ : Unit) => place) path
      (fun place _ => value.partAt? place = some unknown) (value.unknownPathsFrom path) := by
  induction value using parts_induct generalizing path with
  | step value inductionHypothesis =>
      by_cases known : value = unknown
      · subst known
        refine (Collects.here ()).congr fun place _ => ?_
        cases place with
        | nil => exact iff_of_true ⟨rfl, rfl⟩ rfl
        | cons step rest => simp [partAt?, part?]
      rw [unknownPathsFrom_eq_flatMap known]
      have each : ∀ part ∈ value.parts, Collects (fun place (_ : Unit) => place)
          (path ++ [part.1]) (fun place _ => part.2.partAt? place = some unknown)
          (part.2.unknownPathsFrom (path ++ [part.1])) := by
        intro part member
        exact inductionHypothesis part member (ordered.part? ((mem_parts_iff ordered).mp member)) _
      refine (Collects.flatMap (parts_apart ordered) each).congr fun place _ => ?_
      cases place with
      | nil => simp [partAt?, known]
      | cons step rest =>
          simp only [partAt?_cons_eq_some_iff, ← mem_parts_iff ordered, Prod.exists,
            List.singleton_append, List.cons.injEq]
          constructor
          · rintro ⟨_, part, member, _, ⟨rfl, rfl⟩, isUnknown⟩
            exact ⟨part, member, isUnknown⟩
          · rintro ⟨part, member, isUnknown⟩
            exact ⟨step, part, member, rest, ⟨rfl, rfl⟩, isUnknown⟩

theorem mem_unknownPaths_iff (ordered : value.KeyOrdered) {path : Path} :
    path ∈ value.unknownPaths ↔ value.partAt? path = some unknown :=
  (unknownPathsFrom_collects ordered []).mem_iff.trans (by simp)

theorem unknownPaths_nodup (ordered : value.KeyOrdered) : value.unknownPaths.Nodup :=
  (unknownPathsFrom_collects ordered []).nodup fun _ _ _ _ same => same

/-- No path is collected twice, a read gives unknown exactly when it comes to a collected path or
goes on below one, and there is nothing to collect exactly when all is known. -/
theorem unknownPaths_mark_unknown_reads (ordered : value.KeyOrdered) :
    value.unknownPaths.Nodup ∧
    (∀ path, value.getAt path = .ok unknown ↔
      ∃ front, front <+: path ∧ front ∈ value.unknownPaths) ∧
    (value.unknownPaths = [] ↔ value.isFullyKnown = true) := by
  refine ⟨unknownPaths_nodup ordered, fun path => ?_, unknownPathsFrom_eq_nil_iff value []⟩
  simp only [getAt_eq_ok_iff, follow?_eq_unknown_iff, mem_unknownPaths_iff ordered]

/-- A network of which the host does not know everything yet. -/
def plannedNetwork : Value :=
  .object [("groups", .set [.list [.int 1, .unknown], .unknown]), ("name", .string "edge"),
    ("zones", .map [("a", .null), ("b", .unknown)])]

/-- Three reads give unknown, and so do those that go on below them. -/
theorem unknown_reads_of_plannedNetwork :
    plannedNetwork.KeyOrdered ∧ plannedNetwork.unknownPaths.Nodup ∧
      (∀ path, plannedNetwork.getAt path = .ok unknown ↔
        ∃ front, front <+: path ∧ front ∈ ([[.name "groups", .index 0, .index 1],
          [.name "groups", .index 1], [.name "zones", .key "b"]] : List Path)) ∧
      plannedNetwork.isFullyKnown ≠ true := by
  have ordered : plannedNetwork.KeyOrdered := keyOrdered_of_toJson (Json.keyOrdered_iff.mpr rfl)
  have collected : plannedNetwork.unknownPaths = [[.name "groups", .index 0, .index 1],
      [.name "groups", .index 1], [.name "zones", .key "b"]] := rfl
  rcases unknownPaths_mark_unknown_reads ordered with ⟨nodup, reads, known⟩
  refine ⟨ordered, nodup, fun path => collected ▸ reads path, fun all => ?_⟩
  cases collected.symm.trans (known.mpr all)

end Value
end ProviderKit

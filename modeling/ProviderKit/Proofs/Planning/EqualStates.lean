import ProviderKit.Proofs.Planning.Replacements

/-!
# Equal states replace nothing

A planned state that equals the prior one is not looked through for replacements.  The equality is
asked of the planned state as a whole, while replacements are looked for by asking the prior state,
attribute by attribute, and by pairing what is left over of two sets.  For decoded states the one
decides the other: the comparison of a fully known value may be turned around, each part of the
planned state equals the part of the prior one that it is compared with, and of equal sets nothing
is left over.
-/

namespace ProviderKit

/-- A planned value that is fully known and equals the prior one, as both are when decoded: no set
in them repeats an element, and the keys of maps are in order. -/
structure Value.Unchanged (prior planned : Value) : Prop where
  equal : planned.same prior = true
  known : planned.isFullyKnown = true
  distinct : planned.DistinctSets
  priorDistinct : prior.DistinctSets
  ordered : planned.KeyOrdered

namespace Value

variable {prior planned : Value}

/-- Every planned element of equal sets has been there before, so none is paired. -/
theorem changedPairs_eq_nil {xs ys : List Value} (equal : (set ys).same (set xs) = true) :
    changedPairs xs ys = [] := by
  have added : (ys.zipIdx.filter fun added => !xs.any fun b => b == added.1) = [] := by
    refine List.filter_eq_nil_iff.mpr ?_
    rintro ⟨a, index⟩ member
    have present : a ∈ ys := List.mem_of_getElem? (List.mem_zipIdx_iff_getElem?.mp member)
    rcases (same_set_iff.mp equal).2 a present with ⟨b, before, found⟩
    have seen : (xs.any fun b => b == a) = true := List.any_eq_true.mpr ⟨b, before, found⟩
    simp [seen]
  rw [changedPairs, added, List.zip_nil_left, List.map_nil]

namespace Unchanged

/-- The prior value equals the planned one as well. -/
theorem turned (unchanged : Unchanged prior planned) : prior.same planned = true := by
  rw [← unchanged.distinct.same_comm unchanged.known unchanged.priorDistinct]
  exact unchanged.equal

theorem attributeNamed (unchanged : Unchanged prior planned) (name : String) :
    Unchanged (prior.attributeNamed name) (planned.attributeNamed name) where
  equal := attributeNamed_same unchanged.equal name
  known := isFullyKnown_attributeNamed unchanged.known name
  distinct := unchanged.distinct.attributeNamed name
  priorDistinct := unchanged.priorDistinct.attributeNamed name
  ordered := unchanged.ordered.attributeNamed name

/-- Elements at the same place of lists are unchanged. -/
theorem of_mem_zip {xs ys : List Value} (unchanged : Unchanged (list xs) (list ys))
    {pair : Value × Value} (member : pair ∈ xs.zip ys) : Unchanged pair.1 pair.2 := by
  have both := List.of_mem_zip member
  cases unchanged.ordered with
  | list inner =>
      exact {
        equal := (List.forall₂_iff_zip.mp (same_list_iff.mp unchanged.equal).flip).2 member
        known := isFullyKnown_list_iff.mp unchanged.known _ both.2
        distinct := distinctSets_list_iff.mp unchanged.distinct _ both.2
        priorDistinct := distinctSets_list_iff.mp unchanged.priorDistinct _ both.1
        ordered := inner _ both.2 }

/-- An entry of a map is unchanged from the one that is found under its key. -/
theorem of_find? {xs ys : List (String × Value)} (unchanged : Unchanged (map xs) (map ys))
    {entry : String × Value} (member : entry ∈ ys) {before : Value}
    (found : Entries.find? entry.1 xs = some before) : Unchanged before entry.2 := by
  cases unchanged.ordered with
  | map sorted inner =>
      have related := (same_map_iff.mp unchanged.equal).find? entry.1
      rw [Entries.find?_of_mem sorted.nodup member, found] at related
      cases related with
      | some equal =>
          exact {
            equal
            known := isFullyKnown_map_iff.mp unchanged.known _ member
            distinct := distinctSets_map_iff.mp unchanged.distinct _ member
            priorDistinct :=
              distinctSets_map_iff.mp unchanged.priorDistinct _ (Entries.mem_of_find? found)
            ordered := inner _ member }

end Unchanged
end Value

/-- Of unchanged occurrences only unchanged ones are compared. -/
theorem NestedBlock.unchanged_of_mem_compared {nested : NestedBlock} {before after : Value}
    (unchanged : Value.Unchanged before after) {comparison : Comparison}
    (member : comparison ∈ nested.compared before after) :
    Value.Unchanged comparison.prior comparison.planned := by
  by_cases mode : nested.mode = .single
  · rw [compared_single mode] at member
    rcases List.mem_singleton.mp member with rfl
    exact unchanged
  · rw [compared_of_repeated mode] at member
    split at member
    · rw [Value.changedPairs_eq_nil unchanged.equal] at member
      cases member
    · rcases List.mem_map.mp member with ⟨⟨pair, place⟩, isPair, rfl⟩
      exact unchanged.of_mem_zip (List.mem_of_getElem? (List.mem_zipIdx_iff_getElem?.mp isPair))
    · rcases List.mem_filterMap.mp member with ⟨entry, isEntry, found⟩
      rcases Option.map_eq_some_iff.mp found with ⟨b, foundPrior, rfl⟩
      exact unchanged.of_find? isEntry foundPrior
    · cases member

/-- An unchanged value replaces nothing. -/
theorem Block.replacements_eq_nil_of_unchanged {block : Block} {prior planned : Value}
    (unchanged : Value.Unchanged prior planned) (path : Path) :
    block.replacements path prior planned = [] := by
  induction block using Block.induct generalizing path prior planned with
  | step attributes blocks description inductionHypothesis =>
      refine replacements_eq_nil_iff.mpr ⟨fun entry _ _ => ?_, ?_⟩
      · exact (unchanged.attributeNamed entry.1).turned
      · intro entry member comparison compared
        exact inductionHypothesis entry member
          (NestedBlock.unchanged_of_mem_compared (unchanged.attributeNamed entry.1) compared) _

/-- Between decoded states that are equal no replacement is found below any path, so nothing is
missed where the search is left out. -/
theorem Schema.equal_states_replace_nothing {schema : Schema} {prior planned : Value}
    (priorDecoded : Value.Decoded schema.valueType prior)
    (decoded : Value.Decoded schema.valueType planned) (ordered : planned.KeyOrdered)
    (known : planned.isFullyKnown = true) (equal : (planned == prior) = true) :
    (∀ path, schema.block.replacements path prior planned = []) ∧
      schema.replacements prior planned = .empty := by
  have unchanged : Value.Unchanged prior planned :=
    ⟨equal, known, decoded.conforms.2, priorDecoded.conforms.2, ordered⟩
  have nothing : ∀ path, schema.block.replacements path prior planned = [] :=
    Block.replacements_eq_nil_of_unchanged unchanged
  exact ⟨nothing, congrArg Paths.ofList (nothing [])⟩

/-- A fleet with a marked set in a block of each kind. -/
def fleetSchema : Schema where
  version := 0
  block :=
    { markedBlock "regions" (.set .string) with
      blocks := [("disk", .ofMode .set (markedBlock "sizes" (.set .int64))),
        ("network", .ofMode .single (markedBlock "zones" (.set .string))),
        ("node", .ofMode .list (markedBlock "roles" (.set .string))),
        ("volume", .ofMode .map (markedBlock "sizes" (.set .int64)))] }

/-- A fleet from its disks, the zones of its network, the roles of its nodes, its regions and its
volumes. -/
def fleet (disks : List (List Int)) (zones : List String) (nodes : List (List String))
    (regions : List String) (volumes : List (String × List Int)) : Value :=
  let sizes (elements : List Int) := Value.object [("sizes", .set (elements.map .int))]
  .object [("disk", .set (disks.map sizes)),
    ("network", .object [("zones", .set (zones.map .string))]),
    ("node", .list (nodes.map fun roles => .object [("roles", .set (roles.map .string))])),
    ("regions", .set (regions.map .string)),
    ("volume", .map (volumes.map fun (name, elements) => (name, sizes elements)))]

/-- The order of all sets of a fleet is changed, and with it the place of its disks. -/
theorem turned_fleet_replaces_nothing :
    let prior := fleet [[1, 2], [3, 4]] ["a", "b"] [["read", "write"]] ["north", "south"]
      [("data", [5, 6])]
    let planned := fleet [[4, 3], [2, 1]] ["b", "a"] [["write", "read"]] ["south", "north"]
      [("data", [6, 5])]
    Value.Decoded fleetSchema.valueType prior ∧ Value.Decoded fleetSchema.valueType planned ∧
      planned.KeyOrdered ∧ planned.isFullyKnown = true ∧ (planned == prior) = true ∧
      prior ≠ planned ∧ (∀ path, fleetSchema.block.replacements path prior planned = []) ∧
      fleetSchema.replacements prior planned = .empty := by
  intro prior planned
  have priorDecoded : Value.Decoded fleetSchema.valueType prior := ⟨prior.toJson, rfl⟩
  have decoded : Value.Decoded fleetSchema.valueType planned := ⟨planned.toJson, rfl⟩
  have ordered : planned.KeyOrdered := Value.keyOrdered_of_toJson (Json.keyOrdered_iff.mpr rfl)
  have known : planned.isFullyKnown = true := rfl
  have equal : (planned == prior) = true := rfl
  exact ⟨priorDecoded, decoded, ordered, known, equal, by simp [prior, planned, fleet],
    fleetSchema.equal_states_replace_nothing priorDecoded decoded ordered known equal⟩

end ProviderKit

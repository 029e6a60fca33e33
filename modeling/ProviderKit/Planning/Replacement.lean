import ProviderKit.Path.Distinct
import ProviderKit.Schema.Basic
import ProviderKit.Value.Equality

/-!
# Which changes replace a resource

An attribute may be marked so that a change of its value replaces the resource.  The
prior and the planned value are compared at each such attribute.  Occurrences of a
list are compared by position and those of a map by key.  Of two sets the elements
that occur in both are left out, and the remaining ones are compared in order, under
the index of the planned one.
-/

namespace ProviderKit

namespace Value

/-- Pairs of elements of a prior and a planned set to compare, with the index of the
planned one: elements that have no equal in the other set, matched in order. -/
def changedPairs (before after : List Value) : List (Nat × Value × Value) :=
  let removed := before.filter fun b => !after.any fun a => a == b
  let added := after.zipIdx.filter fun (a, _) => !before.any fun b => b == a
  (added.zip removed).map fun ((a, i), b) => (i, b, a)

end Value

namespace Block

mutual

/-- The paths of changed attributes of a block that replace the resource. -/
def replacements : Block → Path → Value → Value → List Path
  | ⟨attributes, blocks, _⟩, path, prior, planned =>
    (attributes.flatMap fun (name, attr) =>
      if attr.requiresReplace &&
          !(prior.attributeNamed name == planned.attributeNamed name) then
        [path.atName name]
      else [])
    ++ replacementsInBlocks blocks path prior planned

/-- The paths of changed attributes of nested blocks that replace the resource. -/
def replacementsInBlocks :
    List (String × NestedBlock) → Path → Value → Value → List Path
  | [], _, _, _ => []
  | (name, ⟨block, mode, _, _⟩) :: rest, path, prior, planned =>
    let blockPath := path.atName name
    let found :=
      match mode, prior.attributeNamed name, planned.attributeNamed name with
      | .single, before, after => replacements block blockPath before after
      | _, .set before, .set after =>
        (Value.changedPairs before after).flatMap fun (i, b, a) =>
          replacements block (blockPath.atIndex i) b a
      | _, .list before, .list after =>
        (before.zip after).zipIdx.flatMap fun ((b, a), i) =>
          replacements block (blockPath.atIndex i) b a
      | _, .map before, .map after =>
        after.flatMap fun (key, a) =>
          match Entries.find? key before with
          | some b => replacements block (blockPath.atKey key) b a
          | none => []
      | _, _, _ => []
    found ++ replacementsInBlocks rest path prior planned

end

end Block

namespace Schema

/-- The attributes whose planned change replaces the resource. -/
def replacements (schema : Schema) (prior planned : Value) : Paths :=
  .ofList (schema.block.replacements [] prior planned)

end Schema
end ProviderKit

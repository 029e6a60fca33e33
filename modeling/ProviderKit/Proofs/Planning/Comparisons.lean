import ProviderKit.Planning.Replacement
import ProviderKit.Proofs.Entries

/-!
# Comparisons of prior and planned occurrences

Marked attributes are compared between a prior and a planned value, occurrence by occurrence.  The
replacements of a block are those of its own attributes and those of the occurrences of its nested
blocks that are compared, each of them under the place of the planned occurrence.
-/

namespace ProviderKit

/-- A prior and a planned occurrence that are compared, with the place of the planned one among
the occurrences. -/
structure Comparison where
  place : Path
  prior : Value
  planned : Value

def NestedBlock.compared (nested : NestedBlock) (before after : Value) : List Comparison :=
  match nested.mode, before, after with
  | .single, before, after => [⟨[], before, after⟩]
  | _, .set before, .set after =>
    (Value.changedPairs before after).map fun (i, b, a) => ⟨[.index i], b, a⟩
  | _, .list before, .list after =>
    (before.zip after).zipIdx.map fun ((b, a), i) => ⟨[.index i], b, a⟩
  | _, .map before, .map after =>
    after.flatMap fun (key, a) =>
      match Entries.find? key before with
      | some b => [⟨[.key key], b, a⟩]
      | none => []
  | _, _, _ => []

namespace NestedBlock

variable {nested : NestedBlock}

theorem compared_single (mode : nested.mode = .single) (before after : Value) :
    nested.compared before after = [⟨[], before, after⟩] := by
  unfold compared
  rw [mode]

/-- Occurrences of a block that repeats are compared in containers of the same kind only. -/
theorem compared_of_repeated (repeated : nested.mode ≠ .single) (before after : Value) :
    nested.compared before after =
      match before, after with
      | .set before, .set after =>
        (Value.changedPairs before after).map fun (i, b, a) => ⟨[.index i], b, a⟩
      | .list before, .list after =>
        (before.zip after).zipIdx.map fun ((b, a), i) => ⟨[.index i], b, a⟩
      | .map before, .map after =>
        after.filterMap fun (key, a) =>
          (Entries.find? key before).map fun b => ⟨[.key key], b, a⟩
      | _, _ => [] := by
  rcases nested with ⟨block, mode, _, _⟩
  cases mode with
  | single => exact absurd rfl repeated
  | _ =>
      cases before <;> cases after <;> try rfl
      case map.map before after =>
        refine (List.flatMap_congr fun entry _ => ?_).trans
          (List.filterMap_eq_flatMap_toList ..).symm
        cases found : Entries.find? entry.1 before <;> simp [found]

end NestedBlock

/-- The changes of a nested block that replace the resource. -/
def NestedBlock.replacements (nested : NestedBlock) (path : Path) (before after : Value) :
    List Path :=
  (nested.compared before after).flatMap fun comparison =>
    nested.block.replacements (path ++ comparison.place) comparison.prior comparison.planned

namespace Block

/-- The paths of changed attributes of the block itself that replace the resource. -/
def replacedAttributes (block : Block) (path : Path) (prior planned : Value) : List Path :=
  block.attributes.flatMap fun (name, attr) =>
    if attr.requiresReplace && !(prior.attributeNamed name == planned.attributeNamed name) then
      [path.atName name]
    else []

theorem replacementsInBlocks_cons (name : String) (nested : NestedBlock)
    (rest : List (String × NestedBlock)) (path : Path) (prior planned : Value) :
    replacementsInBlocks ((name, nested) :: rest) path prior planned =
      nested.replacements (path.atName name) (prior.attributeNamed name)
        (planned.attributeNamed name) ++ replacementsInBlocks rest path prior planned := by
  rcases nested with ⟨block, mode, _, _⟩
  conv_lhs => unfold replacementsInBlocks
  apply congrArg (· ++ _)
  unfold NestedBlock.replacements NestedBlock.compared
  generalize prior.attributeNamed name = before
  generalize planned.attributeNamed name = after
  cases mode with
  | single => simp
  | _ =>
      cases before <;> cases after <;> try rfl
      case list.list => simp [List.flatMap_map, Path.atIndex]
      case set.set => simp [List.flatMap_map, Path.atIndex]
      case map.map before after =>
          rw [List.flatMap_assoc]
          refine List.flatMap_congr fun entry _ => ?_
          simp only
          cases Entries.find? entry.1 before <;> simp [Path.atKey]

/-- The replacements of a block are those of its attributes and those of its nested blocks. -/
theorem replacements_eq (block : Block) (path : Path) (prior planned : Value) :
    block.replacements path prior planned =
      block.replacedAttributes path prior planned ++
        block.blocks.flatMap fun entry => entry.2.replacements (path.atName entry.1)
          (prior.attributeNamed entry.1) (planned.attributeNamed entry.1) := by
  rcases block with ⟨attributes, blocks, description⟩
  have nested : replacementsInBlocks blocks path prior planned =
      blocks.flatMap fun entry => entry.2.replacements (path.atName entry.1)
        (prior.attributeNamed entry.1) (planned.attributeNamed entry.1) := by
    induction blocks with
    | nil => rfl
    | cons entry rest inductionHypothesis =>
        rw [replacementsInBlocks_cons, inductionHypothesis, List.flatMap_cons]
  exact congrArg (replacedAttributes ⟨attributes, blocks, description⟩ path prior planned ++ ·)
    nested

/-- Nothing is replaced when no marked attribute differs, and nothing is replaced in the
occurrences that are compared. -/
theorem replacements_eq_nil_iff {block : Block} {path : Path} {prior planned : Value} :
    block.replacements path prior planned = [] ↔
      (∀ entry ∈ block.attributes, entry.2.requiresReplace = true →
        (prior.attributeNamed entry.1 == planned.attributeNamed entry.1) = true) ∧
      ∀ entry ∈ block.blocks, ∀ comparison ∈
        entry.2.compared (prior.attributeNamed entry.1) (planned.attributeNamed entry.1),
          entry.2.block.replacements (path.atName entry.1 ++ comparison.place) comparison.prior
            comparison.planned = [] := by
  rw [replacements_eq, List.append_eq_nil_iff]
  refine and_congr (List.flatMap_eq_nil_iff.trans ?_) (List.flatMap_eq_nil_iff.trans ?_)
  · refine forall_congr' fun entry => imp_congr_right fun _ => ?_
    cases marked : entry.2.requiresReplace <;> simp [marked]
  · exact forall_congr' fun entry => imp_congr_right fun _ => List.flatMap_eq_nil_iff

end Block
end ProviderKit

import ProviderKit.Schema.Basic

/-!
# Paths that end at an attribute

A path finds an attribute also when it goes on inside its value.  That it ends at the attribute can
be said in two ways: the path finds the attribute and would not without its last step, or the path
has the steps that a block asks for and nothing more.  The second way, `Names`, is the one to argue
with, since it follows the nested blocks.
-/

namespace ProviderKit

/-- The path leads to the attribute and has no step behind it, since without its last step it leads
to none. -/
def Schema.EndsAt (schema : Schema) (path : Path) (attr : Attribute) : Prop :=
  schema.attributeAt? path = some attr ∧ schema.attributeAt? path.dropLast = none

namespace Block

/-- The steps of the path name an attribute of the block or of a block nested in it: the names of
the nested blocks, each followed by the index or key of an occurrence where the block repeats, and
the name of the attribute. -/
inductive Names : Block → Path → Attribute → Prop
  | own {block : Block} {name : String} {attr : Attribute}
      (found : Entries.find? name block.attributes = some attr) : Names block [.name name] attr
  | single {block : Block} {name : String} {nested : NestedBlock} {rest : Path} {attr : Attribute}
      (absent : Entries.find? name block.attributes = none)
      (found : Entries.find? name block.blocks = some nested) (mode : nested.mode = .single)
      (inside : Names nested.block rest attr) : Names block (.name name :: rest) attr
  | repeated {block : Block} {name : String} {nested : NestedBlock} {step : PathStep} {rest : Path}
      {attr : Attribute} (absent : Entries.find? name block.attributes = none)
      (found : Entries.find? name block.blocks = some nested) (mode : nested.mode ≠ .single)
      (chooses : ∀ word, step ≠ .name word) (inside : Names nested.block rest attr) :
      Names block (.name name :: step :: rest) attr

variable {block : Block} {path : Path} {attr : Attribute}

theorem Names.ne_nil (names : block.Names path attr) : path ≠ [] := by
  cases names <;> exact List.cons_ne_nil _ _

private theorem ne_nil_of_attributeAt? (found : block.attributeAt? path = some attr) :
    path ≠ [] := by
  rintro rfl
  cases found

theorem Names.attributeAt? (names : block.Names path attr) :
    block.attributeAt? path = some attr ∧ block.attributeAt? path.dropLast = none := by
  induction names with
  | own found => exact ⟨by simp [Block.attributeAt?, found], rfl⟩
  | single absent found mode inside inductionHypothesis =>
      rw [List.dropLast_cons_of_ne_nil inside.ne_nil]
      simpa [Block.attributeAt?, absent, found, mode] using inductionHypothesis
  | @repeated block name nested step rest attr absent found mode chooses inside
      inductionHypothesis =>
      rw [List.dropLast_cons_of_ne_nil (List.cons_ne_nil _ _),
        List.dropLast_cons_of_ne_nil inside.ne_nil]
      cases step with
      | name word => exact absurd rfl (chooses word)
      | index | key => simpa [Block.attributeAt?, absent, found, mode] using inductionHypothesis

theorem names_of_attributeAt? (found : block.attributeAt? path = some attr)
    (shorter : block.attributeAt? path.dropLast = none) : block.Names path attr := by
  fun_induction Block.attributeAt? path block with
  | case1 name rest block other named =>
      cases rest with
      | nil => exact Option.some.inj found ▸ .own named
      | cons step rest =>
          -- The attribute has been found already, so the last step is not needed for it.
          simp [Block.attributeAt?, named] at shorter
  | case3 name rest block unnamed nested blockNamed single inductionHypothesis =>
      have more := ne_nil_of_attributeAt? found
      rw [List.dropLast_cons_of_ne_nil more] at shorter
      simp only [Block.attributeAt?, unnamed, blockNamed, if_pos single] at shorter
      exact .single unnamed blockNamed single (inductionHypothesis found shorter)
  | case4 name block unnamed nested blockNamed repeated index inner inductionHypothesis
  | case5 name block unnamed nested blockNamed repeated key inner inductionHypothesis =>
      have more := ne_nil_of_attributeAt? found
      rw [List.dropLast_cons_of_ne_nil (List.cons_ne_nil _ _),
        List.dropLast_cons_of_ne_nil more] at shorter
      simp only [Block.attributeAt?, unnamed, blockNamed, if_neg repeated] at shorter
      exact .repeated unnamed blockNamed repeated nofun (inductionHypothesis found shorter)
  | _ => cases found

end Block

theorem Schema.endsAt_iff {schema : Schema} {path : Path} {attr : Attribute} :
    schema.EndsAt path attr ↔ schema.block.Names path attr :=
  ⟨fun ends => Block.names_of_attributeAt? ends.1 ends.2, Block.Names.attributeAt?⟩

end ProviderKit

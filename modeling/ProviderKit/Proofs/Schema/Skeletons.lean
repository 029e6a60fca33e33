import ProviderKit.Proofs.Schema.Violations

/-!
# What validation looks at

Validation looks at the skeleton of a configuration: where its blocks occur, how often and under
which keys, and which attributes of an occurrence are set.  What an attribute is set to plays no
part.  Two configurations with the same skeleton are reported on alike, down to the texts, so that
no report tells anything about the content of an attribute, whether the schema calls it a secret
or not.

Nothing is asked of the schema, and the values need not have its type.
-/

namespace ProviderKit

def Value.elements? : Value → Option (List Value)
  | .list elements => some elements
  | .set elements => some elements
  | _ => none

mutual

/-- Two values of a block are laid out alike.  If one is an object the other one is, the same
attributes of both are null, and so on in the nested blocks. -/
inductive Block.SameSkeleton : Block → Value → Value → Prop
  | nothing {block : Block} {v w : Value} (noObject : v.isObject = false)
      (noObjectEither : w.isObject = false) : Block.SameSkeleton block v w
  | object {block : Block} {v w : Value} (isObject : v.isObject = true)
      (isObjectToo : w.isObject = true)
      (attributes : ∀ entry ∈ block.attributes,
        (v.attributeNamed entry.1).isNull = (w.attributeNamed entry.1).isNull)
      (blocks : ∀ entry ∈ block.blocks,
        NestedBlock.SameSkeleton entry.2 (v.attributeNamed entry.1) (w.attributeNamed entry.1)) :
      Block.SameSkeleton block v w

/-- Two values of a nested block hold as many occurrences, under the same keys, which are laid out
alike one by one.  An unknown value has no number of occurrences, nor has one that is misplaced. -/
inductive NestedBlock.SameSkeleton : NestedBlock → Value → Value → Prop
  | single {nested : NestedBlock} {v w : Value} (mode : nested.mode = .single)
      (nulls : v.isNull = w.isNull) (occurrence : Block.SameSkeleton nested.block v w) :
      NestedBlock.SameSkeleton nested v w
  | null {nested : NestedBlock} (repeated : nested.mode ≠ .single) :
      NestedBlock.SameSkeleton nested .null .null
  | elements {nested : NestedBlock} {v w : Value} {xs ys : List Value}
      (repeated : nested.mode ≠ .single) (listed : v.elements? = some xs)
      (listedToo : w.elements? = some ys) (lengths : xs.length = ys.length)
      (occurrences : ∀ pair ∈ xs.zip ys, Block.SameSkeleton nested.block pair.1 pair.2) :
      NestedBlock.SameSkeleton nested v w
  | entries {nested : NestedBlock} {xs ys : List (String × Value)}
      (repeated : nested.mode ≠ .single) (keys : Entries.keys xs = Entries.keys ys)
      (occurrences : ∀ pair ∈ (Entries.values xs).zip (Entries.values ys),
        Block.SameSkeleton nested.block pair.1 pair.2) :
      NestedBlock.SameSkeleton nested (.map xs) (.map ys)
  | uncounted {nested : NestedBlock} {v w : Value} (repeated : nested.mode ≠ .single)
      (uncounted : v.count? = none) (uncountedToo : w.count? = none) :
      NestedBlock.SameSkeleton nested v w

end

variable {v w : Value} {path : Path}

theorem NestedBlock.SameSkeleton.refl {nested : NestedBlock}
    (inner : ∀ x, nested.block.SameSkeleton x x) (v : Value) : nested.SameSkeleton v v := by
  have each (xs : List Value) : ∀ pair ∈ xs.zip xs, nested.block.SameSkeleton pair.1 pair.2 :=
    fun _ => (List.forall₂_iff_zip.mp (List.forall₂_same.mpr fun x _ => inner x)).2
  by_cases mode : nested.mode = .single
  · exact .single mode rfl (inner v)
  · cases v with
    | null => exact .null mode
    | list xs | set xs => exact .elements mode rfl rfl rfl (each xs)
    | map entries => exact .entries mode rfl (each _)
    | _ => exact .uncounted mode rfl rfl

/-- Every value has a skeleton, whether or not it suits the block. -/
theorem Block.SameSkeleton.refl (block : Block) (v : Value) : block.SameSkeleton v v := by
  induction block using Block.induct generalizing v with
  | step attributes blocks description inductionHypothesis =>
      cases isObject : v.isObject with
      | false => exact .nothing isObject isObject
      | true =>
          exact .object isObject isObject (fun _ _ => rfl) fun entry member =>
            .refl (inductionHypothesis entry member) _

theorem Attribute.problems_congr (attr : Attribute) (nulls : v.isNull = w.isNull) :
    attr.problems path v = attr.problems path w := by
  rw [problems, problems, nulls]

theorem Block.problems_of_noObject {block : Block} (noObject : v.isObject = false) :
    block.problems path v = [] := by
  rw [problems_eq, noObject]
  rfl

/-! ## Nested blocks -/

private theorem flatMap_eq_of_forall₂ {α β γ : Type} {f : α → List γ} {g : β → List γ}
    {xs : List α} {ys : List β} (alike : List.Forall₂ (fun x y => f x = g y) xs ys) :
    xs.flatMap f = ys.flatMap g := by
  rw [← List.forall₂_eq_eq_eq]
  refine List.rel_flatMap alike fun x y same => ?_
  rw [List.forall₂_eq_eq_eq, same]

/-- Related elements keep their places. -/
private theorem forall₂_zipIdx {α β : Type} {R : α → β → Prop} {xs : List α} {ys : List β}
    (related : List.Forall₂ R xs ys) (start : Nat) :
    List.Forall₂ (fun x y => x.2 = y.2 ∧ R x.1 y.1) (xs.zipIdx start) (ys.zipIdx start) := by
  induction related generalizing start with
  | nil => exact .nil
  | cons first _ inductionHypothesis => exact .cons ⟨rfl, first⟩ (inductionHypothesis _)

namespace NestedBlock

variable {nested : NestedBlock}

/-- A block that occurs at most once is missing or reported on where it occurs. -/
theorem problems_of_single (mode : nested.mode = .single) (path : Path) (value : Value) :
    nested.problems path value =
      if value.isNull then nested.limits.problemsOfMissing path
      else nested.block.problems path value := by
  rw [problems, occurrences_of_single mode, mode]
  cases value with
  | null => exact List.append_nil _
  | unknown => exact (Block.problems_of_noObject rfl).symm
  | _ => exact List.append_nil _

/-- Where a block repeats, its elements are counted and then reported on one by one. -/
theorem problems_of_elements (repeated : nested.mode ≠ .single) {elements : List Value}
    (listed : v.elements? = some elements) :
    nested.problems path v = nested.limits.problems path elements.length ++
      elements.zipIdx.flatMap fun element =>
        nested.block.problems (path.atIndex element.2) element.1 := by
  rcases nested with ⟨block, mode, least, greatest⟩
  cases v with
  | list | set =>
      cases listed
      cases mode with
      | single => exact absurd rfl repeated
      | _ => simp [problems, NestingMode.occurrences, ItemLimits.problemsOfValue, List.flatMap_map]
  | _ => cases listed

/-- Where a block repeats, its entries are counted and then reported on one by one. -/
theorem problems_of_entries (repeated : nested.mode ≠ .single) (entries : List (String × Value)) :
    nested.problems path (.map entries) = nested.limits.problems path entries.length ++
      entries.flatMap fun entry => nested.block.problems (path.atKey entry.1) entry.2 := by
  rcases nested with ⟨block, mode, least, greatest⟩
  cases mode with
  | single => exact absurd rfl repeated
  | _ => simp [problems, NestingMode.occurrences, ItemLimits.problemsOfValue, List.flatMap_map]

/-- Where a block repeats, nothing is reported on what has no number of occurrences. -/
theorem problems_of_uncounted (repeated : nested.mode ≠ .single) (uncounted : v.count? = none) :
    nested.problems path v = [] := by
  rcases nested with ⟨block, mode, least, greatest⟩
  cases v with
  | null | list | set | map => cases uncounted
  | _ =>
      cases mode with
      | single => exact absurd rfl repeated
      | _ => rfl

/-- Nested blocks with the same skeleton are reported on alike, if their occurrences are. -/
theorem problems_congr
    (inner : ∀ {x y : Value}, nested.block.SameSkeleton x y → ∀ place,
      nested.block.problems place x = nested.block.problems place y)
    (same : nested.SameSkeleton v w) : nested.problems path v = nested.problems path w := by
  cases same with
  | single mode nulls occurrence =>
      rw [problems_of_single mode, problems_of_single mode, nulls, inner occurrence]
  | null => rfl
  | elements repeated listed listedToo lengths occurrences =>
      rw [problems_of_elements repeated listed, problems_of_elements repeated listedToo, lengths]
      refine congrArg (_ ++ ·) (flatMap_eq_of_forall₂ ?_)
      -- An element's path is its index, so it is the same in both lists.
      have related := List.forall₂_iff_zip.mpr ⟨lengths, occurrences _⟩
      refine (forall₂_zipIdx related 0).imp fun x y alike => ?_
      rw [alike.1, inner alike.2]
  | entries repeated keys occurrences =>
      have paired := Entries.paired_iff_forall₂.mp (Entries.paired_of_zip keys occurrences)
      rw [problems_of_entries repeated, problems_of_entries repeated, paired.length_eq]
      refine congrArg (_ ++ ·) (flatMap_eq_of_forall₂ (paired.imp fun x y alike => ?_))
      rw [alike.1, inner alike.2]
  | uncounted repeated uncounted uncountedToo =>
      rw [problems_of_uncounted repeated uncounted, problems_of_uncounted repeated uncountedToo]

end NestedBlock

/-! ## Blocks -/

/-- Values of a block with the same skeleton are reported on alike. -/
theorem Block.problems_congr {block : Block} (same : block.SameSkeleton v w) (path : Path) :
    block.problems path v = block.problems path w := by
  induction block using Block.induct generalizing path v w with
  | step attributes blocks description inductionHypothesis =>
      cases same with
      | nothing noObject noObjectEither =>
          rw [problems_of_noObject noObject, problems_of_noObject noObjectEither]
      | object isObject isObjectToo nulls inside =>
          rw [problems_eq, problems_eq, if_pos isObject, if_pos isObjectToo]
          refine congrArg₂ (· ++ ·) (List.flatMap_congr fun entry member => ?_)
            (List.flatMap_congr fun entry member => ?_)
          · exact entry.2.problems_congr (nulls entry member)
          · exact entry.2.problems_congr (inductionHypothesis entry member) (inside entry member)

namespace Schema

/-- The report on a configuration does not depend on the contents of its attributes. -/
theorem validation_ignores_contents {schema : Schema} (same : schema.block.SameSkeleton v w) :
    schema.validate v = schema.validate w :=
  Block.problems_congr same []

/-- A vault with a secret token and at most one key, whose secret the provider makes. -/
def vaultSchema : Schema :=
  let token : Attribute :=
    { type := .string, flags := { optional := true }, deprecationMessage := some "Use keys." }
  let secret : Attribute := { type := .string, flags := { computed := true } }
  ⟨0, ⟨[("name", { type := .string, flags := { required := true } }), ("token", token.secret)],
    [("key", (NestedBlock.ofMode .list ⟨[("secret", secret.secret)], [], none⟩).withMaxItems 1)],
    none⟩⟩

/-- The reports on two vaults are the same, and not empty, whatever their secrets are. -/
theorem vaults_are_reported_alike :
    let vault (token first second : Value) : Value := .object [
      ("key", .list [.object [("secret", first)], .object [("secret", second)]]),
      ("name", .null), ("token", token)]
    let vault₁ := vault (.string "swordfish") (.string "k1") (.string "k2")
    let vault₂ := vault (.string "opensesame") .unknown (.string "k3")
    vaultSchema.block.SameSkeleton vault₁ vault₂ ∧
      vaultSchema.validate vault₁ = [Breach.missingAttribute.report [.name "name"],
        (Breach.deprecatedAttribute "Use keys.").report [.name "token"],
        (Breach.tooManyBlocks 1 2).report [.name "key"],
        Breach.readOnlyAttribute.report [.name "key", .index 0, .name "secret"],
        Breach.readOnlyAttribute.report [.name "key", .index 1, .name "secret"]] ∧
      vaultSchema.validate vault₁ = vaultSchema.validate vault₂ := by
  intro vault vault₁ vault₂
  have key {attr : Attribute} {first second : Value} (set : first.isNull = second.isNull) :
      Block.SameSkeleton ⟨[("secret", attr)], [], none⟩ (.object [("secret", first)])
        (.object [("secret", second)]) :=
    .object rfl rfl (List.forall_mem_singleton.mpr set) (List.forall_mem_nil _)
  have same : vaultSchema.block.SameSkeleton vault₁ vault₂ :=
    .object rfl rfl (List.forall_mem_cons.mpr ⟨rfl, List.forall_mem_singleton.mpr rfl⟩)
      (List.forall_mem_singleton.mpr (.elements (by decide) rfl rfl rfl
        (List.forall_mem_cons.mpr ⟨key rfl, List.forall_mem_singleton.mpr (key rfl)⟩)))
  exact ⟨same, rfl, validation_ignores_contents same⟩

end Schema
end ProviderKit

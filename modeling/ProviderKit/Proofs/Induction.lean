import ProviderKit.Schema.Basic
import ProviderKit.Value.Basic

/-!
# Induction over nested data

Values, documents, types and blocks nest inside lists and entries.  The principles here say
what a proof needs: a statement about a container may assume the statement for every member
of the container, and nothing has to be said about the lists in between.
-/

namespace ProviderKit

/-- Induction over a value, in which every element and every entry is an induction
hypothesis. -/
@[elab_as_elim]
theorem Value.induct {motive : Value → Prop} (null : motive .null) (unknown : motive .unknown)
    (bool : ∀ b, motive (.bool b)) (number : ∀ n, motive (.number n))
    (string : ∀ s, motive (.string s))
    (list : ∀ elements, (∀ element ∈ elements, motive element) → motive (.list elements))
    (set : ∀ elements, (∀ element ∈ elements, motive element) → motive (.set elements))
    (map : ∀ entries : List (String × Value),
      (∀ entry ∈ entries, motive entry.2) → motive (.map entries))
    (object : ∀ attributes : List (String × Value),
      (∀ entry ∈ attributes, motive entry.2) → motive (.object attributes))
    (value : Value) : motive value := by
  refine @Value.rec motive (fun elements => ∀ element ∈ elements, motive element)
    (fun entries => ∀ entry ∈ entries, motive entry.2) (fun entry => motive entry.2)
    null unknown bool number string list set map object (by simp) ?_ (by simp) ?_
    (fun _ _ inner => inner) value
  · exact fun _ _ first later => List.forall_mem_cons.mpr ⟨first, later⟩
  · exact fun _ _ first later => List.forall_mem_cons.mpr ⟨first, later⟩

/-- Induction over a document, in which every item and every member is an induction
hypothesis. -/
@[elab_as_elim]
theorem Json.induct {motive : Json → Prop} (null : motive .null) (bool : ∀ b, motive (.bool b))
    (number : ∀ n, motive (.number n)) (string : ∀ s, motive (.string s))
    (array : ∀ items, (∀ item ∈ items, motive item) → motive (.array items))
    (object : ∀ members : List (String × Json),
      (∀ member ∈ members, motive member.2) → motive (.object members))
    (document : Json) : motive document := by
  refine @Json.rec motive (fun items => ∀ item ∈ items, motive item)
    (fun members => ∀ member ∈ members, motive member.2) (fun member => motive member.2)
    null bool number string array object (by simp) ?_ (by simp) ?_
    (fun _ _ inner => inner) document
  · exact fun _ _ first later => List.forall_mem_cons.mpr ⟨first, later⟩
  · exact fun _ _ first later => List.forall_mem_cons.mpr ⟨first, later⟩

/-- Induction over a type, in which the type of every attribute is an induction
hypothesis. -/
@[elab_as_elim]
theorem AttributeType.induct {motive : AttributeType → Prop} (string : motive .string)
    (int64 : motive .int64) (float64 : motive .float64) (bool : motive .bool)
    (list : ∀ element, motive element → motive (.list element))
    (set : ∀ element, motive element → motive (.set element))
    (map : ∀ element, motive element → motive (.map element))
    (object : ∀ attributes : List (String × AttributeType),
      (∀ entry ∈ attributes, motive entry.2) → motive (.object attributes))
    (dynamic : motive .dynamic) (type : AttributeType) : motive type := by
  refine @AttributeType.rec motive (fun attributes => ∀ entry ∈ attributes, motive entry.2)
    (fun entry => motive entry.2) string int64 float64 bool list set map object dynamic
    (by simp) ?_ (fun _ _ inner => inner) type
  exact fun _ _ first later => List.forall_mem_cons.mpr ⟨first, later⟩

/-- Induction over a block, in which every nested block is an induction hypothesis. -/
@[elab_as_elim]
theorem Block.induct {motive : Block → Prop}
    (step : ∀ (attributes : List (String × Attribute)) (blocks : List (String × NestedBlock))
      (description : Option String), (∀ entry ∈ blocks, motive entry.2.block) →
        motive ⟨attributes, blocks, description⟩)
    (block : Block) : motive block := by
  refine @Block.rec motive (fun nested => motive nested.block)
    (fun blocks => ∀ entry ∈ blocks, motive entry.2.block) (fun entry => motive entry.2.block)
    step (fun _ _ _ _ inner => inner) (by simp) ?_ (fun _ _ inner => inner) block
  exact fun _ _ first later => List.forall_mem_cons.mpr ⟨first, later⟩

end ProviderKit

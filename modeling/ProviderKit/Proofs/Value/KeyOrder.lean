import ProviderKit.Proofs.Json.RoundTrip
import ProviderKit.Proofs.Value.Parts

/-!
# Values in key order

A value is in key order exactly when its document is, and then so is every part of it that planning
reads.
-/

namespace ProviderKit

/-- The entries of every map and of every object inside are in strictly increasing key
order. -/
inductive Value.KeyOrdered : Value → Prop
  | null : KeyOrdered .null
  | unknown : KeyOrdered .unknown
  | bool (b : Bool) : KeyOrdered (.bool b)
  | number (n : Json.Number) : KeyOrdered (.number n)
  | string (s : String) : KeyOrdered (.string s)
  | list {elements : List Value} (inner : ∀ element ∈ elements, KeyOrdered element) :
      KeyOrdered (.list elements)
  | set {elements : List Value} (inner : ∀ element ∈ elements, KeyOrdered element) :
      KeyOrdered (.set elements)
  | map {entries : List (String × Value)} (sorted : Entries.Sorted entries)
      (inner : ∀ entry ∈ entries, KeyOrdered entry.2) : KeyOrdered (.map entries)
  | object {attributes : List (String × Value)} (sorted : Entries.Sorted attributes)
      (inner : ∀ entry ∈ attributes, KeyOrdered entry.2) : KeyOrdered (.object attributes)

namespace Value

theorem keyOrdered_of_toJson {value : Value} (ordered : value.toJson.KeyOrdered) :
    value.KeyOrdered := by
  induction value using Value.induct with
  | null => exact .null
  | unknown => exact .unknown
  | bool b => exact .bool b
  | number n => exact .number n
  | string s => exact .string s
  | list elements inductionHypothesis =>
      rw [toJson, toJsonItems_eq_map] at ordered
      cases ordered with
      | array inner =>
          have inner := List.forall_mem_map.mp inner
          exact .list fun element member =>
            inductionHypothesis element member (inner element member)
  | set elements inductionHypothesis =>
      rw [toJson, toJsonItems_eq_map] at ordered
      cases ordered with
      | array inner =>
          have inner := List.forall_mem_map.mp inner
          exact .set fun element member => inductionHypothesis element member (inner element member)
  | map entries inductionHypothesis =>
      rw [toJson, toJsonMembers_eq_map] at ordered
      cases ordered with
      | object sorted inner =>
          have inner := List.forall_mem_map.mp inner
          exact .map ((Entries.sorted_congr (Entries.keys_mapValues _ _)).mp sorted)
            fun entry member => inductionHypothesis entry member (inner entry member)
  | object attributes inductionHypothesis =>
      rw [toJson, toJsonMembers_eq_map] at ordered
      cases ordered with
      | object sorted inner =>
          have inner := List.forall_mem_map.mp inner
          exact .object ((Entries.sorted_congr (Entries.keys_mapValues _ _)).mp sorted)
            fun entry member => inductionHypothesis entry member (inner entry member)

variable {value : Value}

theorem KeyOrdered.toJson (ordered : value.KeyOrdered) : value.toJson.KeyOrdered := by
  induction ordered with
  | null => exact .null
  | unknown => exact .string _
  | bool b => exact .bool b
  | number n => exact .number n
  | string s => exact .string s
  | list _ inductionHypothesis | set _ inductionHypothesis =>
      rw [Value.toJson, toJsonItems_eq_map]
      exact .array (List.forall_mem_map.mpr inductionHypothesis)
  | map sorted _ inductionHypothesis | object sorted _ inductionHypothesis =>
      rw [Value.toJson, toJsonMembers_eq_map]
      exact .object ((Entries.sorted_congr (Entries.keys_mapValues _ _)).mpr sorted)
        (List.forall_mem_map.mpr inductionHypothesis)

theorem KeyOrdered.attributeNamed (ordered : value.KeyOrdered) (name : String) :
    (value.attributeNamed name).KeyOrdered := by
  refine of_attributeNamed .null (fun attributes same => ?_) name
  subst same
  cases ordered with
  | object _ inner => exact inner

end Value
end ProviderKit

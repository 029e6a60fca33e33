import Mathlib.Data.List.Perm.Basic
import ProviderKit.Planning.Counterpart
import ProviderKit.Proofs.Entries
import ProviderKit.Proofs.Induction
import ProviderKit.Value.Equality

/-!
# Laws of the equality of values

The equality of values compares containers member by member, except that a set is searched.
It does not see the order of the elements of a set: a value may be replaced by any reordering
of it, on either side of a comparison and at any depth.  This holds without any assumption on
the sets, even for sets with repeated elements, where the comparison is not symmetric.
-/

namespace ProviderKit
namespace Value

/-! ## The comparison of each kind of value -/

theorem beq_eq_same (v w : Value) : (v == w) = v.same w :=
  rfl

theorem same_list_iff {xs ys : List Value} :
    (list xs).same (list ys) = true ↔ List.Forall₂ (fun x y => x.same y = true) xs ys := by
  simp only [same, sameFrom]
  induction xs generalizing ys with
  | nil => cases ys <;> simp [sameItems]
  | cons x xs inductionHypothesis =>
      cases ys with
      | nil => simp [sameItems]
      | cons y ys => simp [sameItems, inductionHypothesis]

theorem same_set_iff {xs ys : List Value} :
    (set xs).same (set ys) = true ↔
      xs.length = ys.length ∧ ∀ x ∈ xs, ∃ y ∈ ys, y.same x = true := by
  simp [same_set]

private theorem sameEntries_iff {xs ys : List (String × Value)} :
    sameEntries false xs ys = true ↔ Entries.Paired (fun x y => x.same y = true) xs ys := by
  induction xs generalizing ys with
  | nil =>
      cases ys with
      | nil => simp [sameEntries, Entries.Paired, Entries.values]
      | cons entry ys => simp [sameEntries, Entries.Paired, Entries.keys]
  | cons entry xs inductionHypothesis =>
      cases ys with
      | nil => simp [sameEntries, Entries.Paired, Entries.keys]
      | cons other ys =>
          rcases entry with ⟨key, x⟩
          rcases other with ⟨otherKey, y⟩
          simp [sameEntries, Entries.paired_cons_iff, inductionHypothesis, same, and_assoc]

theorem same_map_iff {xs ys : List (String × Value)} :
    (map xs).same (map ys) = true ↔ Entries.Paired (fun x y => x.same y = true) xs ys := by
  simp only [same, sameFrom]
  exact sameEntries_iff

theorem same_object_iff {xs ys : List (String × Value)} :
    (object xs).same (object ys) = true ↔ Entries.Paired (fun x y => x.same y = true) xs ys := by
  simp only [same, sameFrom]
  exact sameEntries_iff

theorem same_refl (v : Value) : v.same v = true := by
  induction v using Value.induct with
  | null => rfl
  | unknown => rfl
  | bool b => simp [same, sameFrom]
  | number n => cases n <;> simp [same, sameFrom, Json.Number.same, Binary64.sameValue]
  | string s => simp [same, sameFrom]
  | list elements inductionHypothesis =>
      exact same_list_iff.mpr (List.forall₂_same.mpr inductionHypothesis)
  | set elements inductionHypothesis =>
      exact same_set_iff.mpr ⟨rfl, fun x member => ⟨x, member, inductionHypothesis x member⟩⟩
  | map entries inductionHypothesis =>
      refine same_map_iff.mpr ⟨rfl, List.forall₂_same.mpr ?_⟩
      simpa [Entries.values] using fun v k => inductionHypothesis (k, v)
  | object attributes inductionHypothesis =>
      refine same_object_iff.mpr ⟨rfl, List.forall₂_same.mpr ?_⟩
      simpa [Entries.values] using fun v k => inductionHypothesis (k, v)

/-- Only null equals null. -/
theorem same_null (v : Value) : v.same null = v.isNull := by
  cases v <;> rfl

theorem null_same (v : Value) : null.same v = v.isNull := by
  cases v <;> rfl

/-- Equal objects have equal attributes. -/
theorem attributeNamed_same {v w : Value} (equal : v.same w = true) (name : String) :
    (v.attributeNamed name).same (w.attributeNamed name) = true := by
  cases v <;> cases w <;> try exact same_refl null
  case object.object xs ys =>
      exact (same_object_iff.mp equal).find?_getD name (same_refl null)
  all_goals cases equal

end Value
end ProviderKit

import ProviderKit.Proofs.Value.Equivalence

/-!
# Equality up to the order of sets

The order in which a set lists its elements carries no meaning, at no depth.  `UpToOrder` says what
is left when it is disregarded: the elements of one set are matched one to one with those of the
other, lists are compared in order, maps and objects under each key, and leaves by what they stand
for.  The comparison of values only looks for the elements of one set in the other.  On decoded
values without unknown parts this is the same, because no element occurs twice, so that no two
elements are found at one place and every place is taken.
-/

namespace ProviderKit
namespace Value

/-- The second value is the first one with the elements of sets permuted at any depth.  Two doubles
are equal when they have the same value, and an integer never equals a double. -/
inductive UpToOrder : Value → Value → Prop
  | null : UpToOrder .null .null
  | unknown : UpToOrder .unknown .unknown
  | bool (b : Bool) : UpToOrder (.bool b) (.bool b)
  | integer (n : Int) : UpToOrder (.number (.int n)) (.number (.int n))
  | double {x y : Binary64} (equal : x.scaled = y.scaled) :
      UpToOrder (.number (.float x)) (.number (.float y))
  | string (s : String) : UpToOrder (.string s) (.string s)
  | list {xs ys : List Value} (elements : List.Forall₂ UpToOrder xs ys) :
      UpToOrder (.list xs) (.list ys)
  | set {xs zs ys : List Value} (elements : List.Forall₂ UpToOrder xs zs)
      (permutation : zs.Perm ys) : UpToOrder (.set xs) (.set ys)
  | map {xs ys : List (String × Value)} (keys : Entries.keys xs = Entries.keys ys)
      (values : List.Forall₂ UpToOrder (Entries.values xs) (Entries.values ys)) :
      UpToOrder (.map xs) (.map ys)
  | object {xs ys : List (String × Value)} (keys : Entries.keys xs = Entries.keys ys)
      (values : List.Forall₂ UpToOrder (Entries.values xs) (Entries.values ys)) :
      UpToOrder (.object xs) (.object ys)

/-! ## What is equal up to order is found equal -/

/-- Equality holds in both directions, since a set turns the comparison of its elements around. -/
private def BothWays (v w : Value) : Prop :=
  v.same w = true ∧ w.same v = true

private theorem bothWays_elements {xs ys : List Value}
    (each : ∀ x ∈ xs, ∀ y, UpToOrder x y → BothWays x y)
    (elements : List.Forall₂ UpToOrder xs ys) :
    List.Forall₂ (fun x y => x.same y = true) xs ys ∧
      List.Forall₂ (fun y x => y.same x = true) ys xs := by
  have both : List.Forall₂ BothWays xs ys :=
    (forall₂_with_mem elements).imp fun x y found => each x found.1 y found.2
  exact ⟨both.imp fun _ _ found => found.1, (both.imp fun _ _ found => found.2).flip⟩

private theorem bothWays_entries {xs ys : List (String × Value)}
    (each : ∀ entry ∈ xs, ∀ y, UpToOrder entry.2 y → BothWays entry.2 y)
    (keys : Entries.keys xs = Entries.keys ys)
    (values : List.Forall₂ UpToOrder (Entries.values xs) (Entries.values ys)) :
    Entries.Paired (fun x y => x.same y = true) xs ys ∧
      Entries.Paired (fun y x => y.same x = true) ys xs := by
  have elements := bothWays_elements (List.forall_mem_map.mpr each) values
  exact ⟨⟨keys, elements.1⟩, ⟨keys.symm, elements.2⟩⟩

private theorem UpToOrder.bothWays {v w : Value} (related : UpToOrder v w) : BothWays v w := by
  induction v using Value.induct generalizing w with
  | null | unknown | bool | string =>
      cases related
      exact ⟨same_refl _, same_refl _⟩
  | number n =>
      cases related with
      | integer => exact ⟨same_refl _, same_refl _⟩
      | double equal =>
          exact ⟨Binary64.sameValue_iff.mpr equal, Binary64.sameValue_iff.mpr equal.symm⟩
  | list xs inductionHypothesis =>
      cases related with
      | list elements =>
          have both := bothWays_elements (fun x member y => inductionHypothesis x member) elements
          exact ⟨same_list_iff.mpr both.1, same_list_iff.mpr both.2⟩
  | set xs inductionHypothesis =>
      cases related with
      | @set _ zs ys elements permutation =>
          have lengths : xs.length = ys.length := elements.length_eq.trans permutation.length_eq
          have both := bothWays_elements (fun x member y => inductionHypothesis x member) elements
          constructor
          · refine same_set_iff.mpr ⟨lengths, fun x member => ?_⟩
            rcases exists_mem_of_forall₂ both.2 member with ⟨z, present, found⟩
            exact ⟨z, permutation.mem_iff.mp present, found⟩
          · refine same_set_iff.mpr ⟨lengths.symm, fun y member => ?_⟩
            exact exists_mem_of_forall₂ both.1 (permutation.mem_iff.mpr member)
  | map xs inductionHypothesis =>
      cases related with
      | map keys values =>
          have both := bothWays_entries (fun x member y => inductionHypothesis x member) keys values
          exact ⟨same_map_iff.mpr both.1, same_map_iff.mpr both.2⟩
  | object xs inductionHypothesis =>
      cases related with
      | object keys values =>
          have both := bothWays_entries (fun x member y => inductionHypothesis x member) keys values
          exact ⟨same_object_iff.mpr both.1, same_object_iff.mpr both.2⟩

/-! ## What is found equal is equal up to order -/

private theorem upToOrder_elements {xs ys : List Value}
    (each : ∀ x ∈ xs, ∀ y ∈ ys, x.same y = true → UpToOrder x y)
    (equal : List.Forall₂ (fun x y => x.same y = true) xs ys) :
    List.Forall₂ UpToOrder xs ys := by
  induction equal with
  | nil => exact .nil
  | cons head _ inductionHypothesis =>
      refine .cons (each _ List.mem_cons_self _ List.mem_cons_self head) (inductionHypothesis ?_)
      exact fun x left y right => each x (List.mem_cons_of_mem _ left) y
        (List.mem_cons_of_mem _ right)

private theorem upToOrder_entries {xs ys : List (String × Value)}
    (each : ∀ x ∈ xs, ∀ y ∈ ys, x.2.same y.2 = true → UpToOrder x.2 y.2)
    (equal : Entries.Paired (fun x y => x.same y = true) xs ys) :
    List.Forall₂ UpToOrder (Entries.values xs) (Entries.values ys) :=
  upToOrder_elements (List.forall_mem_map.mpr fun x left =>
    List.forall_mem_map.mpr (each x left)) equal.2

/-- Known elements of a set without repetitions are matched one to one. -/
private theorem upToOrder_sets {xs ys : List Value}
    (each : ∀ x ∈ xs, ∀ y ∈ ys, x.same y = true → UpToOrder x y)
    (comm : ∀ x ∈ xs, ∀ y ∈ ys, x.same y = y.same x)
    (known : ∀ x ∈ xs, x.isFullyKnown = true) (distinct : NoRepeats xs)
    (equal : (set xs).same (set ys) = true) : UpToOrder (.set xs) (.set ys) := by
  rcases same_set_iff.mp equal with ⟨lengths, found⟩
  have places : ∀ x ∈ xs, ∃ y ∈ ys, y ∈ ys ∧ x.same y = true := by
    intro x left
    rcases found x left with ⟨y, right, related⟩
    exact ⟨y, right, right, (comm x left y right).trans related⟩
  -- Two elements that are found at one place equal each other by way of it.
  have apart : xs.Pairwise fun x other =>
      ∀ y ∈ ys, y ∈ ys ∧ x.same y = true → ¬ (y ∈ ys ∧ other.same y = true) := by
    refine distinct.imp_of_mem fun {x other} _ also differ y right first again => ?_
    have back : y.same other = true := (comm other also y right).symm.trans again.2
    exact Bool.false_ne_true ((differ (known other also)).symm.trans (same_trans first.2 back))
  rcases exists_perm_of_apart lengths places apart with ⟨zs, matched, permutation⟩
  refine .set ((forall₂_with_mem matched).imp fun x z both => ?_) permutation
  exact each x both.1 z both.2.1 both.2.2

private theorem upToOrder_numbers {m n : Json.Number}
    (equal : (number m).same (number n) = true) : UpToOrder (.number m) (.number n) := by
  cases m with
  | int m =>
      cases n with
      | int n => exact beq_iff_eq.mp equal ▸ .integer m
      | float y => cases equal
  | float x =>
      cases n with
      | int n => cases equal
      | float y => exact .double (Binary64.sameValue_iff.mp equal)

private theorem upToOrder_of_same {v w : Value} (distinct : DistinctSets v)
    (known : v.isFullyKnown = true) (other : DistinctSets w) (equal : v.same w = true) :
    UpToOrder v w := by
  induction distinct generalizing w with
  | null =>
      cases w with
      | null => exact .null
      | _ => cases equal
  | unknown => cases known
  | bool b =>
      cases w with
      | bool c => exact beq_iff_eq.mp equal ▸ .bool b
      | _ => cases equal
  | number m =>
      cases w with
      | number n => exact upToOrder_numbers equal
      | _ => cases equal
  | string s =>
      cases w with
      | string t => exact beq_iff_eq.mp equal ▸ .string s
      | _ => cases equal
  | @list xs _ inductionHypothesis =>
      have known := isFullyKnown_list_iff.mp known
      cases w with
      | list ys =>
          have others := distinctSets_list_iff.mp other
          refine .list (upToOrder_elements (fun x left y right => ?_) (same_list_iff.mp equal))
          exact inductionHypothesis x left (known x left) (others y right)
      | _ => cases equal
  | @set xs inner distinct inductionHypothesis =>
      have known := isFullyKnown_set_iff.mp known
      cases w with
      | set ys =>
          have others := (distinctSets_set_iff.mp other).1
          refine upToOrder_sets (fun x left y right => ?_) (fun x left y right => ?_) known
            distinct equal
          · exact inductionHypothesis x left (known x left) (others y right)
          · exact (inner x left).same_comm (known x left) (others y right)
      | _ => cases equal
  | @map xs _ inductionHypothesis =>
      have known := isFullyKnown_map_iff.mp known
      cases w with
      | map ys =>
          have others := distinctSets_map_iff.mp other
          have paired := same_map_iff.mp equal
          refine .map paired.1 (upToOrder_entries (fun x left y right => ?_) paired)
          exact inductionHypothesis x left (known x left) (others y right)
      | _ => cases equal
  | @object xs _ inductionHypothesis =>
      have known := isFullyKnown_object_iff.mp known
      cases w with
      | object ys =>
          have others := distinctSets_object_iff.mp other
          have paired := same_object_iff.mp equal
          refine .object paired.1 (upToOrder_entries (fun x left y right => ?_) paired)
          exact inductionHypothesis x left (known x left) (others y right)
      | _ => cases equal

/-- A decoded value without unknown parts equals exactly the decoded values that are obtained from
it by permuting the elements of sets. -/
theorem known_values_equal_iff_upToOrder {type : AttributeType} {v w : Value}
    (left : Decoded type v) (right : Decoded type w) (known : v.isFullyKnown = true) :
    (v == w) = true ↔ UpToOrder v w :=
  ⟨upToOrder_of_same left.conforms.2 known right.conforms.2, fun related => related.bothWays.1⟩

/-- Two groups of numbers in another order, each of them in another order. -/
theorem groups_equal_upToOrder :
    let v := object [("groups", .set [.set [.int 1, .int 2], .set [.int 3]]), ("note", .null)]
    let w := object [("groups", .set [.set [.int 3], .set [.int 2, .int 1]]), ("note", .null)]
    Decoded groupsType v ∧ Decoded groupsType w ∧ v.isFullyKnown = true ∧
      ((v == w) = true ↔ UpToOrder v w) ∧ UpToOrder v w := by
  intro v w
  have left : Decoded groupsType v := ⟨v.toJson, rfl⟩
  have right : Decoded groupsType w := ⟨w.toJson, rfl⟩
  have equal := known_values_equal_iff_upToOrder left right rfl
  exact ⟨left, right, rfl, equal, equal.mp rfl⟩

end Value
end ProviderKit

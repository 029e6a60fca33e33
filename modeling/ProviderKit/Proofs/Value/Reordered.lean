import ProviderKit.Proofs.Value.Equality

/-!
# Reordering the elements of sets

A reordering of a value permutes the elements of the sets inside it, at any depth, and changes
nothing else.  The equality of values cannot tell a value from a reordering of it, whichever
side of the comparison the value stands on.
-/

namespace ProviderKit
namespace Value

/-- The second value is the first one with the elements of sets permuted at any depth. -/
inductive Reordered : Value → Value → Prop
  | refl (v : Value) : Reordered v v
  | list {xs ys : List Value} (elements : List.Forall₂ Reordered xs ys) :
      Reordered (.list xs) (.list ys)
  | set {xs zs ys : List Value} (elements : List.Forall₂ Reordered xs zs)
      (permutation : zs.Perm ys) : Reordered (.set xs) (.set ys)
  | map {xs ys : List (String × Value)} (keys : Entries.keys xs = Entries.keys ys)
      (values : List.Forall₂ Reordered (Entries.values xs) (Entries.values ys)) :
      Reordered (.map xs) (.map ys)
  | object {xs ys : List (String × Value)} (keys : Entries.keys xs = Entries.keys ys)
      (values : List.Forall₂ Reordered (Entries.values xs) (Entries.values ys)) :
      Reordered (.object xs) (.object ys)

namespace Reordered

variable {v w : Value}

theorem isNull_eq (reordered : Reordered v w) : v.isNull = w.isNull := by
  cases reordered <;> rfl

private theorem forall₂_refl (elements : List Value) : List.Forall₂ Reordered elements elements :=
  List.forall₂_same.mpr fun element _ => .refl element

theorem of_list {xs : List Value} (reordered : Reordered (.list xs) w) :
    ∃ ys, w = .list ys ∧ List.Forall₂ Reordered xs ys := by
  cases reordered with
  | refl => exact ⟨xs, rfl, forall₂_refl xs⟩
  | list elements => exact ⟨_, rfl, elements⟩

theorem of_set {xs : List Value} (reordered : Reordered (.set xs) w) :
    ∃ zs ys, w = .set ys ∧ List.Forall₂ Reordered xs zs ∧ zs.Perm ys := by
  cases reordered with
  | refl => exact ⟨xs, xs, rfl, forall₂_refl xs, .refl xs⟩
  | set elements permutation => exact ⟨_, _, rfl, elements, permutation⟩

theorem of_map {xs : List (String × Value)} (reordered : Reordered (.map xs) w) :
    ∃ ys, w = .map ys ∧ Entries.Paired Reordered xs ys := by
  cases reordered with
  | refl => exact ⟨xs, rfl, rfl, forall₂_refl _⟩
  | map keys values => exact ⟨_, rfl, keys, values⟩

theorem of_object {xs : List (String × Value)} (reordered : Reordered (.object xs) w) :
    ∃ ys, w = .object ys ∧ Entries.Paired Reordered xs ys := by
  cases reordered with
  | refl => exact ⟨xs, rfl, rfl, forall₂_refl _⟩
  | object keys values => exact ⟨_, rfl, keys, values⟩

theorem attributeNamed (reordered : Reordered v w) (name : String) :
    Reordered (v.attributeNamed name) (w.attributeNamed name) := by
  cases reordered with
  | object keys values => exact Entries.Paired.find?_getD ⟨keys, values⟩ name (.refl null)
  | _ => exact .refl _

/-! ## Reorderings and equality -/

/-- A quantified comparison with the elements of a set does not see a reordering of it. -/
private theorem exists_mem_congr {xs zs ys : List Value} {p : Value → Prop}
    (elements : List.Forall₂ Reordered xs zs) (permutation : zs.Perm ys)
    (congr : ∀ x ∈ xs, ∀ z, Reordered x z → (p x ↔ p z)) :
    (∃ x ∈ xs, p x) ↔ ∃ y ∈ ys, p y := by
  have same : (∃ x ∈ xs, p x) ↔ ∃ z ∈ zs, p z := by
    clear permutation
    induction elements with
    | nil => simp
    | cons related _ inductionHypothesis =>
        simp only [List.exists_mem_cons_iff]
        exact or_congr (congr _ List.mem_cons_self _ related)
          (inductionHypothesis fun x member => congr x (List.mem_cons_of_mem _ member))
  rw [same]
  exact exists_congr fun y => and_congr_left fun _ => permutation.mem_iff

theorem forall_mem_congr {xs zs ys : List Value} {p : Value → Prop}
    (elements : List.Forall₂ Reordered xs zs) (permutation : zs.Perm ys)
    (congr : ∀ x ∈ xs, ∀ z, Reordered x z → (p x ↔ p z)) :
    (∀ x ∈ xs, p x) ↔ ∀ y ∈ ys, p y := by
  have negated := exists_mem_congr (p := fun v => ¬ p v) elements permutation
    fun x member z related => not_congr (congr x member z related)
  simpa using not_congr negated

private theorem forall₂_congr {xs zs : List Value} {R : Value → Value → Prop}
    (elements : List.Forall₂ Reordered xs zs)
    (congr : ∀ x ∈ xs, ∀ z, Reordered x z → ∀ u, (R u x ↔ R u z)) (us : List Value) :
    List.Forall₂ R us xs ↔ List.Forall₂ R us zs := by
  induction elements generalizing us with
  | nil => rfl
  | cons related _ inductionHypothesis =>
      cases us with
      | nil => simp
      | cons u us =>
          simp only [List.forall₂_cons]
          exact and_congr (congr _ List.mem_cons_self _ related u)
            (inductionHypothesis (fun x member => congr x (List.mem_cons_of_mem _ member)) us)

private theorem forall₂_congr_left {xs zs : List Value} {R : Value → Value → Prop}
    (elements : List.Forall₂ Reordered xs zs)
    (congr : ∀ x ∈ xs, ∀ z, Reordered x z → ∀ u, (R x u ↔ R z u)) (us : List Value) :
    List.Forall₂ R xs us ↔ List.Forall₂ R zs us := by
  have turned := forall₂_congr (R := fun u x => R x u) elements congr us
  exact ⟨fun related => (turned.mp related.flip).flip,
    fun related => (turned.mpr related.flip).flip⟩

private theorem paired_congr {xs ys : List (String × Value)} {R : Value → Value → Prop}
    (paired : Entries.Paired Reordered xs ys)
    (congr : ∀ entry ∈ xs, ∀ z, Reordered entry.2 z → ∀ u,
      (R u entry.2 ↔ R u z) ∧ (R entry.2 u ↔ R z u)) (us : List (String × Value)) :
    (Entries.Paired R us xs ↔ Entries.Paired R us ys) ∧
      (Entries.Paired R xs us ↔ Entries.Paired R ys us) := by
  have values : ∀ x ∈ Entries.values xs, ∀ z, Reordered x z → ∀ u,
      (R u x ↔ R u z) ∧ (R x u ↔ R z u) := by
    intro x member
    rcases List.mem_map.mp member with ⟨entry, entryMember, rfl⟩
    exact congr entry entryMember
  unfold Entries.Paired
  rw [paired.1, forall₂_congr paired.2 fun x member z related u => (values x member z related u).1,
    forall₂_congr_left paired.2 fun x member z related u => (values x member z related u).2]
  exact ⟨Iff.rfl, Iff.rfl⟩

/-- Both sides of a comparison in one statement, since a set turns the comparison around. -/
private theorem same_iff (reordered : Reordered v w) (u : Value) :
    (u.same v = true ↔ u.same w = true) ∧ (v.same u = true ↔ w.same u = true) := by
  induction v using Value.induct generalizing w u with
  | list xs inductionHypothesis =>
      rcases reordered.of_list with ⟨ys, rfl, elements⟩
      cases u with
      | list us =>
          rw [same_list_iff, same_list_iff, same_list_iff, same_list_iff]
          exact ⟨forall₂_congr elements
              (fun x member z related u => (inductionHypothesis x member related u).1) us,
            forall₂_congr_left elements
              (fun x member z related u => (inductionHypothesis x member related u).2) us⟩
      | _ => exact ⟨Iff.rfl, Iff.rfl⟩
  | set xs inductionHypothesis =>
      rcases reordered.of_set with ⟨zs, ys, rfl, elements, permutation⟩
      have lengths : xs.length = ys.length := elements.length_eq.trans permutation.length_eq
      cases u with
      | set us =>
          rw [same_set_iff, same_set_iff, same_set_iff, same_set_iff, lengths]
          constructor
          · refine and_congr_right fun _ => forall_congr' fun u => imp_congr_right fun _ => ?_
            exact exists_mem_congr elements permutation
              fun x member z related => (inductionHypothesis x member related u).2
          · refine and_congr_right fun _ => forall_mem_congr elements permutation ?_
            exact fun x member z related => exists_congr fun u => and_congr_right fun _ =>
              (inductionHypothesis x member related u).1
      | _ => exact ⟨Iff.rfl, Iff.rfl⟩
  | map xs inductionHypothesis =>
      rcases reordered.of_map with ⟨ys, rfl, paired⟩
      cases u with
      | map us =>
          rw [same_map_iff, same_map_iff, same_map_iff, same_map_iff]
          exact paired_congr paired
            (fun entry member z related u => inductionHypothesis entry member related u) us
      | _ => exact ⟨Iff.rfl, Iff.rfl⟩
  | object xs inductionHypothesis =>
      rcases reordered.of_object with ⟨ys, rfl, paired⟩
      cases u with
      | object us =>
          rw [same_object_iff, same_object_iff, same_object_iff, same_object_iff]
          exact paired_congr paired
            (fun entry member z related u => inductionHypothesis entry member related u) us
      | _ => exact ⟨Iff.rfl, Iff.rfl⟩
  | _ => cases reordered; exact ⟨Iff.rfl, Iff.rfl⟩

/-- A value may be replaced by a reordering on the right of a comparison. -/
theorem same_right (reordered : Reordered v w) (u : Value) : u.same v = u.same w :=
  Bool.eq_iff_iff.mpr (same_iff reordered u).1

/-- A value may be replaced by a reordering on the left of a comparison. -/
theorem same_left (reordered : Reordered v w) (u : Value) : v.same u = w.same u :=
  Bool.eq_iff_iff.mpr (same_iff reordered u).2

end Reordered
end Value
end ProviderKit

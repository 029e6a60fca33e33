import ProviderKit.Proofs.Value.Parts

/-!
# Replacing what is unknown

After an apply the host holds a state in which each unknown part of the plan has become
some known value.  `Refines` relates a value to what it may become.  The known parts stay as
they are, so a value that is fully known has only itself to become.
-/

namespace ProviderKit
namespace Value

/-- The second value is the first one with a fully known value in each unknown place. -/
inductive Refines : Value → Value → Prop
  | unknown {w : Value} (known : w.isFullyKnown = true) : Refines .unknown w
  | null : Refines .null .null
  | bool (b : Bool) : Refines (.bool b) (.bool b)
  | number (n : Json.Number) : Refines (.number n) (.number n)
  | string (s : String) : Refines (.string s) (.string s)
  | list {xs ys : List Value} (elements : List.Forall₂ Refines xs ys) :
      Refines (.list xs) (.list ys)
  | set {xs ys : List Value} (elements : List.Forall₂ Refines xs ys) :
      Refines (.set xs) (.set ys)
  | map {xs ys : List (String × Value)} (keys : Entries.keys xs = Entries.keys ys)
      (values : List.Forall₂ Refines (Entries.values xs) (Entries.values ys)) :
      Refines (.map xs) (.map ys)
  | object {xs ys : List (String × Value)} (keys : Entries.keys xs = Entries.keys ys)
      (values : List.Forall₂ Refines (Entries.values xs) (Entries.values ys)) :
      Refines (.object xs) (.object ys)

namespace Refines

variable {v w : Value}

private theorem elements_eq {xs ys : List Value}
    (each : ∀ x ∈ xs, ∀ y, Refines x y → y = x) (elements : List.Forall₂ Refines xs ys) :
    ys = xs := by
  induction elements with
  | nil => rfl
  | cons first _ inductionHypothesis =>
      rcases List.forall_mem_cons.mp each with ⟨here, further⟩
      rw [here _ first, inductionHypothesis further]

private theorem entries_eq {xs ys : List (String × Value)}
    (each : ∀ entry ∈ xs, ∀ y, Refines entry.2 y → y = entry.2)
    (entries : Entries.Paired Refines xs ys) : ys = xs := by
  refine (Entries.Paired.eq ⟨entries.1, ?_⟩).symm
  have values := elements_eq (List.forall_mem_map.mpr each) entries.2
  rw [show Entries.values ys = Entries.values xs from values]
  exact List.forall₂_same.mpr fun _ _ => rfl

/-- Where nothing is unknown there is nothing to replace. -/
theorem eq_of_isFullyKnown (refines : Refines v w) (known : v.isFullyKnown = true) : w = v := by
  induction v using Value.induct generalizing w with
  | unknown => cases known
  | list xs inductionHypothesis =>
      cases refines with
      | list elements =>
          refine congrArg Value.list (elements_eq (fun x member y related => ?_) elements)
          exact inductionHypothesis x member related (isFullyKnown_list_iff.mp known x member)
  | set xs inductionHypothesis =>
      cases refines with
      | set elements =>
          refine congrArg Value.set (elements_eq (fun x member y related => ?_) elements)
          exact inductionHypothesis x member related (isFullyKnown_set_iff.mp known x member)
  | map xs inductionHypothesis =>
      cases refines with
      | map keys values =>
          refine congrArg Value.map (entries_eq (fun entry member y related => ?_) ⟨keys, values⟩)
          exact inductionHypothesis entry member related
            (isFullyKnown_map_iff.mp known entry member)
  | object xs inductionHypothesis =>
      cases refines with
      | object keys values =>
          refine congrArg Value.object
            (entries_eq (fun entry member y related => ?_) ⟨keys, values⟩)
          exact inductionHypothesis entry member related
            (isFullyKnown_object_iff.mp known entry member)
  | _ =>
      cases refines
      rfl

theorem of_null (refines : Refines .null w) : w = .null := by
  cases refines
  rfl

theorem of_list {xs : List Value} (refines : Refines (.list xs) w) :
    ∃ ys, w = .list ys ∧ List.Forall₂ Refines xs ys := by
  cases refines with
  | list elements => exact ⟨_, rfl, elements⟩

theorem of_set {xs : List Value} (refines : Refines (.set xs) w) :
    ∃ ys, w = .set ys ∧ List.Forall₂ Refines xs ys := by
  cases refines with
  | set elements => exact ⟨_, rfl, elements⟩

theorem of_map {xs : List (String × Value)} (refines : Refines (.map xs) w) :
    ∃ ys, w = .map ys ∧ Entries.Paired Refines xs ys := by
  cases refines with
  | map keys values => exact ⟨_, rfl, keys, values⟩

theorem of_object {xs : List (String × Value)} (refines : Refines (.object xs) w) :
    ∃ ys, w = .object ys ∧ Entries.Paired Refines xs ys := by
  cases refines with
  | object keys values => exact ⟨_, rfl, keys, values⟩

/-- The attributes of an object are replaced one by one. -/
theorem attributeNamed_object {xs ys : List (String × Value)}
    (entries : Entries.Paired Refines xs ys) (name : String) :
    Refines ((Value.object xs).attributeNamed name) ((Value.object ys).attributeNamed name) :=
  entries.find?_getD name .null

end Refines
end Value
end ProviderKit

import Mathlib.Data.List.Forall2

/-!
# Computations that succeed

A reader gives a result or a problem.  Where the whole of a reading has succeeded, so has every
part of it, and the results of the parts are what the whole is made of.
-/

namespace ProviderKit

/-- A computation that succeeds has succeeded in its first part. -/
theorem bind_eq_ok {α β ε : Type} {first : Except ε α} {next : α → Except ε β} {result : β}
    (success : (first >>= next) = .ok result) :
    ∃ value, first = .ok value ∧ next value = .ok result := by
  cases first with
  | error problem => cases success
  | ok value => exact ⟨value, rfl, success⟩

theorem bind_eq_ok_iff {α β ε : Type} {first : Except ε α} {next : α → Except ε β} {result : β} :
    (first >>= next) = .ok result ↔ ∃ value, first = .ok value ∧ next value = .ok result := by
  refine ⟨bind_eq_ok, ?_⟩
  rintro ⟨value, found, success⟩
  rw [found]
  exact success

/-- A result that has been changed comes from a result. -/
theorem map_eq_ok {α β ε : Type} {f : α → β} {first : Except ε α} {result : β}
    (success : first.map f = .ok result) : ∃ value, first = .ok value ∧ f value = result := by
  cases first with
  | error problem => cases success
  | ok value => exact ⟨value, rfl, Except.ok.inj success⟩

theorem map_eq_error {α β ε : Type} {f : α → β} {first : Except ε α} {problem : ε}
    (failure : first.map f = .error problem) : first = .error problem := by
  cases first with
  | error other =>
      cases failure
      rfl
  | ok value => cases failure

/-- A computation that fails has failed in its first part, or in the second one after it. -/
theorem bind_eq_error {α β ε : Type} {first : Except ε α} {next : α → Except ε β} {problem : ε}
    (failure : (first >>= next) = .error problem) :
    first = .error problem ∨ ∃ value, first = .ok value ∧ next value = .error problem := by
  cases first with
  | error other =>
      cases failure
      exact .inl rfl
  | ok value => exact .inr ⟨value, rfl, failure⟩

theorem mapM_eq_ok_iff {α β ε : Type} {f : α → Except ε β} {xs : List α} {ys : List β} :
    xs.mapM f = .ok ys ↔ List.Forall₂ (fun x y => f x = .ok y) xs ys := by
  induction xs generalizing ys with
  | nil =>
      rw [List.mapM_nil, List.forall₂_nil_left_iff]
      exact ⟨fun success => (Except.ok.inj success).symm, fun empty => empty ▸ rfl⟩
  | cons x xs inductionHypothesis =>
      rw [List.mapM_cons, List.forall₂_cons_left_iff]
      constructor
      · intro success
        rcases bind_eq_ok success with ⟨y, head, success⟩
        rcases bind_eq_ok success with ⟨rest, tail, success⟩
        exact ⟨y, rest, head, inductionHypothesis.mp tail, (Except.ok.inj success).symm⟩
      · rintro ⟨y, rest, head, tail, rfl⟩
        rw [head, inductionHypothesis.mpr tail]
        rfl

/-- Where a traversal fails, it fails for one of the inputs. -/
theorem exists_mem_of_mapM_eq_error {α β ε : Type} {f : α → Except ε β} {xs : List α}
    {problem : ε} (failure : xs.mapM f = .error problem) : ∃ x ∈ xs, f x = .error problem := by
  induction xs with
  | nil =>
      rw [List.mapM_nil] at failure
      cases failure
  | cons x xs inductionHypothesis =>
      rw [List.mapM_cons] at failure
      rcases bind_eq_error failure with here | ⟨y, _, failure⟩
      · exact ⟨x, List.mem_cons_self, here⟩
      · rcases bind_eq_error failure with later | ⟨ys, _, failure⟩
        · rcases inductionHypothesis later with ⟨other, member, found⟩
          exact ⟨other, List.mem_cons_of_mem _ member, found⟩
        · cases failure

theorem exists_mem_of_forall₂ {α β : Type} {R : α → β → Prop} {xs : List α} {ys : List β}
    (related : List.Forall₂ R xs ys) {y : β} (member : y ∈ ys) : ∃ x ∈ xs, R x y := by
  induction related with
  | nil => cases member
  | cons head _ inductionHypothesis =>
      rcases List.mem_cons.mp member with rfl | later
      · exact ⟨_, List.mem_cons_self, head⟩
      · rcases inductionHypothesis later with ⟨x, xMember, found⟩
        exact ⟨x, List.mem_cons_of_mem _ xMember, found⟩

theorem forall₂_with_mem {α β : Type} {R : α → β → Prop} {xs : List α} {ys : List β}
    (related : List.Forall₂ R xs ys) : List.Forall₂ (fun x y => x ∈ xs ∧ R x y) xs ys :=
  (List.forall₂_and_left xs ys).mpr ⟨fun _ member => member, related⟩

/-- What stands at a place of the second list has a counterpart at the same place of the first. -/
theorem exists_getElem?_of_forall₂ {α β : Type} {R : α → β → Prop} {xs : List α} {ys : List β}
    (related : List.Forall₂ R xs ys) {place : Nat} {y : β} (found : ys[place]? = some y) :
    ∃ x, xs[place]? = some x ∧ R x y := by
  induction related generalizing place with
  | nil => cases found
  | @cons x _ _ _ head _ inductionHypothesis =>
      cases place with
      | zero =>
          cases found
          exact ⟨x, rfl, head⟩
      | succ place => exact inductionHypothesis found

/-- Where one of two related inputs has results, the other one has results as well when this can be
said of their parts. -/
theorem exists_forall₂_of_forall₂ {α β γ δ : Type} {R : α → β → Prop} {first : α → γ → Prop}
    {second : β → δ → Prop} {S : γ → δ → Prop} {xs : List α} {ys : List β} {zs : List γ}
    (each : ∀ x ∈ xs, ∀ y z, R x y → first x z → ∃ w, second y w ∧ S z w)
    (related : List.Forall₂ R xs ys) (results : List.Forall₂ first xs zs) :
    ∃ ws, List.Forall₂ second ys ws ∧ List.Forall₂ S zs ws := by
  induction related generalizing zs with
  | nil =>
      cases results
      exact ⟨[], .nil, .nil⟩
  | cons head _ inductionHypothesis =>
      cases results with
      | cons result further =>
          rcases List.forall_mem_cons.mp each with ⟨here, later⟩
          rcases here _ _ head result with ⟨w, found, matching⟩
          rcases inductionHypothesis later further with ⟨ws, others, othersMatching⟩
          exact ⟨w :: ws, .cons found others, .cons matching othersMatching⟩

/-- Results for all inputs together exist when there is one for each. -/
theorem exists_forall₂_iff {α β : Type} {R : α → β → Prop} {xs : List α} :
    (∃ ys, List.Forall₂ R xs ys) ↔ ∀ x ∈ xs, ∃ y, R x y := by
  induction xs with
  | nil => simp
  | cons x xs inductionHypothesis =>
      simp only [List.forall₂_cons_left_iff, List.forall_mem_cons, ← inductionHypothesis]
      constructor
      · rintro ⟨_, y, ys, first, later, rfl⟩
        exact ⟨⟨y, first⟩, ys, later⟩
      · rintro ⟨⟨y, first⟩, ys, later⟩
        exact ⟨_, y, ys, first, later, rfl⟩

end ProviderKit

import ProviderKit.Proofs.Value.Parts

/-!
# The equality of known values

The equality of values is reflexive and transitive for all values.  It is not symmetric: a set
is searched for each element of another one of the same length, and a set that repeats an
element leaves room for one that is not found.  Decoding keeps out repetitions of fully known
elements only, so two decoded sets with unknown parts may still compare differently from either
side.

A fully known value with distinct sets leaves no such room.  Whatever it equals is fully known
as well, and the comparison may be turned around.  What decoding demands of a set is therefore
the same whether an element is compared with the earlier ones or the earlier ones with it.
-/

namespace ProviderKit
namespace Value

/-! ## Transitivity -/

/-- Transitivity with a value first and with it last.  Both are needed at once, since a set
turns the comparison of its elements around. -/
private def Transitive (u : Value) : Prop :=
  ∀ v w : Value, (u.same v = true → v.same w = true → u.same w = true) ∧
    (w.same v = true → v.same u = true → w.same u = true)

private theorem transitive_of_alone {u : Value}
    (alone : ∀ v : Value, (u.same v = true → v = u) ∧ (v.same u = true → v = u)) :
    Transitive u := by
  intro v w
  refine ⟨fun first second => ?_, fun first second => ?_⟩
  · rwa [(alone v).1 first] at second
  · rwa [(alone v).2 second] at first

private theorem transitive_number (m : Json.Number) : Transitive (number m) := by
  intro v w
  cases v with
  | number n =>
      cases w with
      | number k =>
          have numbers : ∀ a b c : Json.Number, a.same b = true → b.same c = true →
              a.same c = true := by
            intro a b c first second
            cases a <;> cases b <;> cases c <;>
              simp_all [Json.Number.same, Binary64.sameValue_iff]
          exact ⟨numbers m n k, numbers k n m⟩
      | _ => exact ⟨fun _ => Bool.false_ne_true.elim, Bool.false_ne_true.elim⟩
  | _ => exact ⟨Bool.false_ne_true.elim, fun _ => Bool.false_ne_true.elim⟩

private theorem forall₂_trans {R S T : Value → Value → Prop} {xs ys zs : List Value}
    (first : List.Forall₂ R xs ys) (second : List.Forall₂ S ys zs)
    (each : ∀ x ∈ xs, ∀ y z, R x y → S y z → T x z) : List.Forall₂ T xs zs := by
  induction first generalizing zs with
  | nil =>
      cases second
      exact .nil
  | cons head _ inductionHypothesis =>
      cases second with
      | cons next rest =>
          refine .cons (each _ List.mem_cons_self _ _ head next) (inductionHypothesis rest ?_)
          exact fun x member => each x (List.mem_cons_of_mem _ member)

private theorem transitive_lists {us vs ws : List Value} (each : ∀ u ∈ us, Transitive u) :
    let related := List.Forall₂ fun x y : Value => x.same y = true
    (related us vs → related vs ws → related us ws) ∧
      (related ws vs → related vs us → related ws us) := by
  intro related
  refine ⟨fun first second => ?_, fun first second => ?_⟩
  · exact forall₂_trans first second fun u member v w => (each u member v w).1
  · refine (forall₂_trans second.flip first.flip ?_).flip
    exact fun u member v w second first => (each u member v w).2 first second

private theorem transitive_entries {us vs ws : List (String × Value)}
    (each : ∀ entry ∈ us, Transitive entry.2) :
    let related := Entries.Paired fun x y : Value => x.same y = true
    (related us vs → related vs ws → related us ws) ∧
      (related ws vs → related vs us → related ws us) := by
  intro related
  have values : ∀ u ∈ Entries.values us, Transitive u := List.forall_mem_map.mpr each
  refine ⟨fun first second => ⟨first.1.trans second.1, ?_⟩,
    fun first second => ⟨first.1.trans second.1, ?_⟩⟩
  · exact (transitive_lists values).1 first.2 second.2
  · exact (transitive_lists values).2 first.2 second.2

private theorem transitive (u : Value) : Transitive u := by
  induction u using Value.induct with
  | null =>
      refine transitive_of_alone fun v => ?_
      cases v with
      | null => exact ⟨fun _ => rfl, fun _ => rfl⟩
      | _ => exact ⟨Bool.false_ne_true.elim, Bool.false_ne_true.elim⟩
  | unknown =>
      refine transitive_of_alone fun v => ?_
      cases v with
      | unknown => exact ⟨fun _ => rfl, fun _ => rfl⟩
      | _ => exact ⟨Bool.false_ne_true.elim, Bool.false_ne_true.elim⟩
  | bool b =>
      refine transitive_of_alone fun v => ?_
      cases v with
      | bool c => exact ⟨fun equal => congrArg bool (beq_iff_eq.mp equal).symm,
          fun equal => congrArg bool (beq_iff_eq.mp equal)⟩
      | _ => exact ⟨Bool.false_ne_true.elim, Bool.false_ne_true.elim⟩
  | number n => exact transitive_number n
  | string s =>
      refine transitive_of_alone fun v => ?_
      cases v with
      | string t => exact ⟨fun equal => congrArg string (beq_iff_eq.mp equal).symm,
          fun equal => congrArg string (beq_iff_eq.mp equal)⟩
      | _ => exact ⟨Bool.false_ne_true.elim, Bool.false_ne_true.elim⟩
  | list us inductionHypothesis =>
      intro v w
      cases v with
      | list vs =>
          cases w with
          | list ws =>
              simp only [same_list_iff]
              exact transitive_lists inductionHypothesis
          | _ => exact ⟨fun _ => Bool.false_ne_true.elim, Bool.false_ne_true.elim⟩
      | _ => exact ⟨Bool.false_ne_true.elim, fun _ => Bool.false_ne_true.elim⟩
  | set us inductionHypothesis =>
      intro v w
      cases v with
      | set vs =>
          cases w with
          | set ws =>
              simp only [same_set_iff]
              refine ⟨fun first second => ⟨first.1.trans second.1, fun u member => ?_⟩,
                fun first second => ⟨first.1.trans second.1, fun w member => ?_⟩⟩
              · rcases first.2 u member with ⟨v, inMiddle, vu⟩
                rcases second.2 v inMiddle with ⟨w, inLast, wv⟩
                exact ⟨w, inLast, (inductionHypothesis u member v w).2 wv vu⟩
              · rcases first.2 w member with ⟨v, inMiddle, vw⟩
                rcases second.2 v inMiddle with ⟨u, inLast, uv⟩
                exact ⟨u, inLast, (inductionHypothesis u inLast v w).1 uv vw⟩
          | _ => exact ⟨fun _ => Bool.false_ne_true.elim, Bool.false_ne_true.elim⟩
      | _ => exact ⟨Bool.false_ne_true.elim, fun _ => Bool.false_ne_true.elim⟩
  | map us inductionHypothesis =>
      intro v w
      cases v with
      | map vs =>
          cases w with
          | map ws =>
              simp only [same_map_iff]
              exact transitive_entries inductionHypothesis
          | _ => exact ⟨fun _ => Bool.false_ne_true.elim, Bool.false_ne_true.elim⟩
      | _ => exact ⟨Bool.false_ne_true.elim, fun _ => Bool.false_ne_true.elim⟩
  | object us inductionHypothesis =>
      intro v w
      cases v with
      | object vs =>
          cases w with
          | object ws =>
              simp only [same_object_iff]
              exact transitive_entries inductionHypothesis
          | _ => exact ⟨fun _ => Bool.false_ne_true.elim, Bool.false_ne_true.elim⟩
      | _ => exact ⟨Bool.false_ne_true.elim, fun _ => Bool.false_ne_true.elim⟩

theorem same_trans {u v w : Value} (first : u.same v = true) (second : v.same w = true) :
    u.same w = true :=
  (transitive u v w).1 first second

/-! ## Turning a comparison around -/

/-- Where the elements of one list are all found in another one of the same length, and no two of
them at one place, the other list is made of the elements that were found. -/
theorem exists_perm_of_apart {α β : Type} {R : α → β → Prop} {xs : List α} {ys : List β}
    (lengths : xs.length = ys.length) (each : ∀ x ∈ xs, ∃ y ∈ ys, R x y)
    (apart : xs.Pairwise fun x other => ∀ y ∈ ys, R x y → ¬ R other y) :
    ∃ zs, List.Forall₂ R xs zs ∧ zs.Perm ys := by
  induction xs generalizing ys with
  | nil => exact ⟨[], .nil, (List.length_eq_zero_iff.mp lengths.symm) ▸ .refl _⟩
  | cons x xs inductionHypothesis =>
      rcases List.forall_mem_cons.mp each with ⟨⟨y, member, related⟩, others⟩
      rcases List.pairwise_cons.mp apart with ⟨fresh, apart⟩
      rcases List.append_of_mem member with ⟨front, back, rfl⟩
      have moved : (front ++ y :: back).Perm (y :: (front ++ back)) := List.perm_middle
      -- The place of the first element is free of the others, so they are found without it.
      have elsewhere : ∀ other ∈ xs, ∃ z ∈ front ++ back, R other z := by
        intro other later
        rcases others other later with ⟨z, present, found⟩
        rcases List.mem_cons.mp (moved.mem_iff.mp present) with rfl | present
        · exact absurd found (fresh other later z member related)
        · exact ⟨z, present, found⟩
      have within : ∀ z ∈ front ++ back, z ∈ front ++ y :: back := fun z present =>
        moved.mem_iff.mpr (List.mem_cons_of_mem _ present)
      have shorter : xs.length = (front ++ back).length := by
        simpa using lengths.trans moved.length_eq
      rcases inductionHypothesis shorter elsewhere
        (apart.imp fun differ z present => differ z (within z present)) with ⟨zs, found, all⟩
      exact ⟨y :: zs, .cons related found, (all.cons y).trans moved.symm⟩

/-- In particular everything in the other list has been found. -/
theorem exists_mem_of_apart {α β : Type} {R : α → β → Prop} {xs : List α} {ys : List β}
    (lengths : xs.length = ys.length) (each : ∀ x ∈ xs, ∃ y ∈ ys, R x y)
    (apart : xs.Pairwise fun x other => ∀ y ∈ ys, R x y → ¬ R other y) :
    ∀ y ∈ ys, ∃ x ∈ xs, R x y := by
  rcases exists_perm_of_apart lengths each apart with ⟨zs, found, all⟩
  exact fun y member => exists_mem_of_forall₂ found (all.mem_iff.mpr member)

/-- What the value equals is fully known, and equals the value. -/
private def TurnsAround (v : Value) : Prop :=
  ∀ w, DistinctSets w → (v.same w = true ↔ w.same v = true) ∧
    (v.same w = true → w.isFullyKnown = true)

private theorem lists_turn {xs ys : List Value} (each : ∀ x ∈ xs, TurnsAround x)
    (others : ∀ y ∈ ys, DistinctSets y) :
    let related := List.Forall₂ fun x y : Value => x.same y = true
    (related xs ys ↔ related ys xs) ∧
      (related xs ys → ∀ y ∈ ys, y.isFullyKnown = true) := by
  intro related
  induction xs generalizing ys with
  | nil => cases ys <;> simp [related]
  | cons x xs inductionHypothesis =>
      cases ys with
      | nil => simp [related]
      | cons y ys =>
          rcases List.forall_mem_cons.mp each with ⟨first, later⟩
          rcases List.forall_mem_cons.mp others with ⟨distinct, further⟩
          have head := first y distinct
          have tail := inductionHypothesis later further
          simp only [related, List.forall₂_cons, List.forall_mem_cons] at tail ⊢
          exact ⟨and_congr head.1 tail.1, fun both => ⟨head.2 both.1, tail.2 both.2⟩⟩

private theorem entries_turn {xs ys : List (String × Value)}
    (each : ∀ entry ∈ xs, TurnsAround entry.2) (others : ∀ entry ∈ ys, DistinctSets entry.2) :
    let related := Entries.Paired fun x y : Value => x.same y = true
    (related xs ys ↔ related ys xs) ∧
      (related xs ys → ∀ entry ∈ ys, entry.2.isFullyKnown = true) := by
  intro related
  have first : ∀ x ∈ Entries.values xs, TurnsAround x := List.forall_mem_map.mpr each
  have second : ∀ y ∈ Entries.values ys, DistinctSets y := List.forall_mem_map.mpr others
  have values := lists_turn first second
  exact ⟨and_congr eq_comm values.1, fun both => List.forall_mem_map.mp (values.2 both.2)⟩

/-- Elements of a set that are all known leave no room for an element that is not found. -/
private theorem sets_turn {xs ys : List Value} (each : ∀ x ∈ xs, TurnsAround x)
    (known : ∀ x ∈ xs, x.isFullyKnown = true) (apart : NoRepeats xs)
    (others : ∀ y ∈ ys, DistinctSets y) (othersApart : NoRepeats ys) :
    ((set xs).same (set ys) = true ↔ (set ys).same (set xs) = true) ∧
      ((set xs).same (set ys) = true → ∀ y ∈ ys, y.isFullyKnown = true) := by
  have forward : (set xs).same (set ys) = true → ∀ y ∈ ys, ∃ x ∈ xs, x.same y = true := by
    intro equal
    rcases same_set_iff.mp equal with ⟨lengths, found⟩
    have onto := exists_mem_of_apart (R := fun x y : Value => y.same x = true) lengths found ?_
    · intro y member
      rcases onto y member with ⟨x, inFirst, related⟩
      exact ⟨x, inFirst, (each x inFirst y (others y member)).1.mpr related⟩
    -- Two elements that are found at the same place are equal to each other.
    · refine apart.imp_of_mem fun {x other} inFirst alsoFirst differ y member atFirst again => ?_
      have back := (each x inFirst y (others y member)).1.mpr atFirst
      exact Bool.false_ne_true ((differ (known other alsoFirst)).symm.trans (same_trans back again))
  have allKnown : (set xs).same (set ys) = true → ∀ y ∈ ys, y.isFullyKnown = true := by
    intro equal y member
    rcases forward equal y member with ⟨x, inFirst, related⟩
    exact (each x inFirst y (others y member)).2 related
  refine ⟨⟨fun equal => same_set_iff.mpr ⟨(same_set_iff.mp equal).1.symm, forward equal⟩,
    fun equal => ?_⟩, allKnown⟩
  rcases same_set_iff.mp equal with ⟨lengths, found⟩
  have onto := exists_mem_of_apart (R := fun y x : Value => x.same y = true) lengths found ?_
  · refine same_set_iff.mpr ⟨lengths.symm, fun x inFirst => ?_⟩
    rcases onto x inFirst with ⟨y, member, related⟩
    exact ⟨y, member, (each x inFirst y (others y member)).1.mp related⟩
  · refine othersApart.imp_of_mem fun {y other} member also differ x inFirst atFirst again => ?_
    have back := (each x inFirst y (others y member)).1.mp atFirst
    have otherKnown := (each x inFirst other (others other also)).2 again
    exact Bool.false_ne_true ((differ otherKnown).symm.trans (same_trans back again))

private theorem turnsAround {v : Value} (distinct : DistinctSets v)
    (known : v.isFullyKnown = true) : TurnsAround v := by
  induction distinct with
  | null =>
      intro w _
      rw [null_same, same_null]
      refine ⟨Iff.rfl, fun absent => ?_⟩
      cases w <;> first | rfl | cases absent
  | unknown => cases known
  | bool b =>
      intro w _
      cases w with
      | bool c => exact ⟨Bool.eq_iff_iff.mp (sameFrom_swap false (bool b) (bool c)), fun _ => rfl⟩
      | _ => exact ⟨Iff.rfl, Bool.false_ne_true.elim⟩
  | number m =>
      intro w _
      cases w with
      | number n =>
          exact ⟨Bool.eq_iff_iff.mp (sameFrom_swap false (number m) (number n)), fun _ => rfl⟩
      | _ => exact ⟨Iff.rfl, Bool.false_ne_true.elim⟩
  | string s =>
      intro w _
      cases w with
      | string t =>
          exact ⟨Bool.eq_iff_iff.mp (sameFrom_swap false (string s) (string t)), fun _ => rfl⟩
      | _ => exact ⟨Iff.rfl, Bool.false_ne_true.elim⟩
  | @list xs _ inductionHypothesis =>
      intro w other
      have known := isFullyKnown_list_iff.mp known
      cases w with
      | list ys =>
          rw [same_list_iff, same_list_iff, isFullyKnown_list_iff]
          exact lists_turn (fun x member => inductionHypothesis x member (known x member))
            (distinctSets_list_iff.mp other)
      | _ => exact ⟨Iff.rfl, Bool.false_ne_true.elim⟩
  | @set xs _ apart inductionHypothesis =>
      intro w other
      have known := isFullyKnown_set_iff.mp known
      cases w with
      | set ys =>
          rcases distinctSets_set_iff.mp other with ⟨others, othersApart⟩
          rw [isFullyKnown_set_iff]
          exact sets_turn (fun x member => inductionHypothesis x member (known x member))
            known apart others othersApart
      | _ => exact ⟨Iff.rfl, Bool.false_ne_true.elim⟩
  | @map xs _ inductionHypothesis =>
      intro w other
      have known := isFullyKnown_map_iff.mp known
      cases w with
      | map ys =>
          rw [same_map_iff, same_map_iff, isFullyKnown_map_iff]
          exact entries_turn (fun entry member => inductionHypothesis entry member
            (known entry member)) (distinctSets_map_iff.mp other)
      | _ => exact ⟨Iff.rfl, Bool.false_ne_true.elim⟩
  | @object xs _ inductionHypothesis =>
      intro w other
      have known := isFullyKnown_object_iff.mp known
      cases w with
      | object ys =>
          rw [same_object_iff, same_object_iff, isFullyKnown_object_iff]
          exact entries_turn (fun entry member => inductionHypothesis entry member
            (known entry member)) (distinctSets_object_iff.mp other)
      | _ => exact ⟨Iff.rfl, Bool.false_ne_true.elim⟩

/-- The sides of a comparison with a fully known value may be exchanged. -/
theorem DistinctSets.same_comm {v w : Value} (distinct : DistinctSets v)
    (known : v.isFullyKnown = true) (other : DistinctSets w) : v.same w = w.same v :=
  Bool.eq_iff_iff.mpr (turnsAround distinct known w other).1

/-- What a fully known value equals is fully known as well. -/
theorem DistinctSets.isFullyKnown_of_same {v w : Value} (distinct : DistinctSets v)
    (known : v.isFullyKnown = true) (other : DistinctSets w) (equal : v.same w = true) :
    w.isFullyKnown = true :=
  (turnsAround distinct known w other).2 equal

/-- A repetition is noticed from either side. -/
theorem noRepeats_iff {elements : List Value} (inner : ∀ element ∈ elements, DistinctSets element) :
    NoRepeats elements ↔ elements.Pairwise fun earlier element =>
      element.isFullyKnown = true → element.same earlier = false := by
  refine List.Pairwise.iff_of_mem fun {earlier element} first second => ?_
  refine imp_congr_right fun known => ?_
  rw [(inner element second).same_comm known (inner earlier first)]

/-- Repetitions do not depend on the order of the elements. -/
theorem NoRepeats.perm {xs ys : List Value} (apart : NoRepeats xs) (permutation : xs.Perm ys)
    (inner : ∀ element ∈ xs, DistinctSets element) : NoRepeats ys := by
  -- Two elements are apart from both sides, as far as their own sets are distinct.
  have symmetric {v w : Value} (before : DistinctSets v → DistinctSets w →
      w.isFullyKnown = true → v.same w = false) (left : DistinctSets w) (right : DistinctSets v)
      (known : v.isFullyKnown = true) : w.same v = false := by
    rw [← right.same_comm known left]
    refine Bool.eq_false_iff.mpr fun equal => Bool.false_ne_true ?_
    exact (before right left (right.isFullyKnown_of_same known left equal)).symm.trans equal
  have before := apart.imp fun {v w} differ (_ : DistinctSets v) (_ : DistinctSets w) => differ
  refine ((permutation.pairwise_iff symmetric).mp before).imp_of_mem fun {v w} first second differ =>
    differ (inner v (permutation.mem_iff.mpr first)) (inner w (permutation.mem_iff.mpr second))

end Value
end ProviderKit

import Mathlib.Data.List.Permutation
import Mathlib.Data.List.Zip
import ProviderKit.Proofs.Planning.Comparisons
import ProviderKit.Proofs.Schema.WellFormed
import ProviderKit.Proofs.Value.KeyOrder
import ProviderKit.Proofs.Value.Reordered

/-!
# Replacements and the order of the prior state

The elements of a set have no names.  Those of a prior and a planned set that have no equal in the
other one are compared in the order in which they stand, but a prior state may list them in any
order.  `matchings` holds the ways to match them without looking at that order: what is compared in
one order of the prior state is one of them, and each of them is what is compared in some order.

Some ways to match may find a marked attribute changed, and others none.  Where both kinds exist,
the order of the prior state decides whether the resource is replaced, and nowhere else.
-/

namespace ProviderKit

/-! ## Ways to match occurrences -/

/-- The elements that have no equal among others. -/
def Value.unmatched (elements others : List Value) : List Value :=
  elements.filter fun element => !others.any fun other => other == element

/-- The ways to match prior with planned occurrences of a nested block.  Lists are matched by
position and maps by key.  For sets every order of the prior elements without an equal is a way. -/
def NestedBlock.matchings (nested : NestedBlock) (before after : Value) :
    List (List (Value × Value)) :=
  match nested.mode, before, after with
  | .single, before, after => [[(before, after)]]
  | _, .set before, .set after =>
    (Value.unmatched before after).permutations.map (·.zip (Value.unmatched after before))
  | _, .list before, .list after => [before.zip after]
  | _, .map before, .map after =>
    [after.filterMap fun (key, a) => (Entries.find? key before).map fun b => (b, a)]
  | _, _, _ => [[]]

def Comparison.values (comparison : Comparison) : Value × Value :=
  (comparison.prior, comparison.planned)

namespace NestedBlock

variable {nested : NestedBlock} {before after : Value}

theorem matchings_single (mode : nested.mode = .single) (before after : Value) :
    nested.matchings before after = [[(before, after)]] := by
  unfold matchings
  rw [mode]

theorem matchings_of_repeated (repeated : nested.mode ≠ .single) (before after : Value) :
    nested.matchings before after =
      match before, after with
      | .set before, .set after =>
        (Value.unmatched before after).permutations.map (·.zip (Value.unmatched after before))
      | .list before, .list after => [before.zip after]
      | .map before, .map after =>
        [after.filterMap fun (key, a) => (Entries.find? key before).map fun b => (b, a)]
      | _, _ => [[]] := by
  rcases nested with ⟨block, mode, _, _⟩
  cases mode with
  | single => exact absurd rfl repeated
  | _ => cases before <;> cases after <;> rfl

private theorem changedPairs_values (before after : List Value) :
    (Value.changedPairs before after).map Prod.snd =
      (Value.unmatched before after).zip (Value.unmatched after before) := by
  let removed := Value.unmatched before after
  let added := after.zipIdx.filter fun a => !before.any fun b => b == a.1
  have values : added.map Prod.fst = Value.unmatched after before := by
    conv_rhs => rw [Value.unmatched, ← List.zipIdx_map_fst 0 after, List.filter_map]
    rfl
  calc (Value.changedPairs before after).map Prod.snd
      = ((added.zip removed).map Prod.swap).map (Prod.map id Prod.fst) := by
        rw [List.map_map]
        exact List.map_map
    _ = (removed.zip added).map (Prod.map id Prod.fst) := by rw [List.zip_swap]
    _ = removed.zip (added.map Prod.fst) := List.zip_map_right.symm
    _ = removed.zip (Value.unmatched after before) := by rw [values]

/-- Of a block that repeats, the elements of sets are compared as they stand. -/
theorem compared_values (repeated : nested.mode ≠ .single) (before after : Value) :
    (nested.compared before after).map Comparison.values =
      match before, after with
      | .set before, .set after =>
        (Value.unmatched before after).zip (Value.unmatched after before)
      | .list before, .list after => before.zip after
      | .map before, .map after =>
        after.filterMap fun (key, a) => (Entries.find? key before).map fun b => (b, a)
      | _, _ => [] := by
  rw [compared_of_repeated repeated]
  cases before with
  | set xs =>
      cases after with
      | set ys =>
          rw [List.map_map]
          exact changedPairs_values xs ys
      | _ => rfl
  | list xs =>
      cases after with
      | list ys =>
          rw [List.map_map]
          exact List.zipIdx_map_fst 0 (xs.zip ys)
      | _ => rfl
  | map xs =>
      cases after with
      | map ys =>
          rw [List.map_filterMap]
          simp only [Option.map_map]
          rfl
      | _ => rfl
  | _ => rfl

/-! ## What is compared is one of the ways -/

section Orders

open Value (Reordered unmatched)

private theorem zip_of_reordered {xs zs : List Value} (elements : List.Forall₂ Reordered xs zs)
    (ys : List Value) :
    List.Forall₂ (fun pair other => Reordered pair.1 other.1 ∧ pair.2 = other.2) (xs.zip ys)
      (zs.zip ys) := by
  induction elements generalizing ys with
  | nil => exact .nil
  | cons related _ inductionHypothesis =>
      cases ys with
      | nil => exact .nil
      | cons y ys => exact .cons ⟨related, rfl⟩ (inductionHypothesis ys)

private theorem filterMap_of_reordered {xs zs : List (String × Value)}
    (paired : Entries.Paired Reordered xs zs) (ys : List (String × Value)) :
    List.Forall₂ (fun pair other : Value × Value => Reordered pair.1 other.1 ∧ pair.2 = other.2)
      (ys.filterMap fun (key, a) => (Entries.find? key xs).map fun b => (b, a))
      (ys.filterMap fun (key, a) => (Entries.find? key zs).map fun b => (b, a)) := by
  refine List.rel_filterMap ?_ (List.forall₂_same.mpr fun entry _ => (rfl : entry = entry))
  rintro ⟨key, a⟩ _ rfl
  have found := paired.find? key
  simp only
  generalize Entries.find? key xs = b at found
  generalize Entries.find? key zs = b' at found
  cases found with
  | none => exact .none
  | some related => exact .some ⟨related, rfl⟩

/-- A planned element has an equal in a prior set or has none, in whatever order that stands. -/
private theorem unmatched_reordered_others {xs zs ys : List Value}
    (elements : List.Forall₂ Reordered xs zs) (permutation : zs.Perm ys) (after : List Value) :
    unmatched after xs = unmatched after ys := by
  refine List.filter_congr fun a _ => congrArg (!·) ?_
  have absent : (∀ x ∈ xs, x.same a = false) ↔ ∀ y ∈ ys, y.same a = false :=
    Reordered.forall_mem_congr elements permutation fun x _ z related => by
      rw [related.same_left a]
  rw [Bool.eq_iff_iff, ← not_iff_not, Bool.not_eq_true, Bool.not_eq_true, List.any_eq_false,
    List.any_eq_false]
  simp only [Bool.not_eq_true, Value.beq_eq_same]
  exact absent

/-- The prior elements without an equal are the same ones, up to their order. -/
private theorem unmatched_reordered {xs zs ys : List Value}
    (elements : List.Forall₂ Reordered xs zs) (permutation : zs.Perm ys) (after : List Value) :
    ∃ removed, removed.Perm (unmatched xs after) ∧
      List.Forall₂ Reordered removed (unmatched ys after) := by
  have kept : List.Forall₂ Reordered (unmatched xs after) (unmatched zs after) := by
    refine List.rel_filter (fun x z related => ?_) elements
    have equal : ∀ a : Value, (a == x) = (a == z) := related.same_right
    simp only [equal]
  have moved : (unmatched zs after).Perm (unmatched ys after) := permutation.filter _
  have both : Relation.Comp List.Perm (List.Forall₂ Reordered) (unmatched xs after)
      (unmatched ys after) :=
    List.forall₂_comp_perm_eq_perm_comp_forall₂ ▸ ⟨_, kept, moved⟩
  rcases both with ⟨removed, order, related⟩
  exact ⟨removed, order.symm, related⟩

/-- What is compared in one order of the prior occurrences is one of the ways to match them. -/
theorem exists_matching_of_reordered (nested : NestedBlock) {before' : Value}
    (reordered : Reordered before before') (after : Value) :
    ∃ matching ∈ nested.matchings before after,
      List.Forall₂ (fun pair other => Reordered pair.1 other.1 ∧ pair.2 = other.2) matching
        ((nested.compared before' after).map Comparison.values) := by
  by_cases mode : nested.mode = .single
  · rw [matchings_single mode, compared_single mode]
    exact ⟨_, List.mem_singleton_self _, .cons ⟨reordered, rfl⟩ .nil⟩
  rw [matchings_of_repeated mode, compared_values mode]
  cases before with
  | list xs =>
      rcases reordered.of_list with ⟨zs, rfl, elements⟩
      cases after with
      | list ys => exact ⟨_, List.mem_singleton_self _, zip_of_reordered elements ys⟩
      | _ => exact ⟨_, List.mem_singleton_self _, .nil⟩
  | set xs =>
      rcases reordered.of_set with ⟨zs, us, rfl, elements, permutation⟩
      cases after with
      | set ys =>
          rcases unmatched_reordered elements permutation ys with ⟨removed, order, related⟩
          refine ⟨_, List.mem_map_of_mem (List.mem_permutations.mpr order), ?_⟩
          rw [unmatched_reordered_others elements permutation]
          exact zip_of_reordered related _
      | _ => exact ⟨_, List.mem_singleton_self _, .nil⟩
  | map xs =>
      rcases reordered.of_map with ⟨zs, rfl, paired⟩
      cases after with
      | map ys => exact ⟨_, List.mem_singleton_self _, filterMap_of_reordered paired ys⟩
      | _ => exact ⟨_, List.mem_singleton_self _, .nil⟩
  | object xs =>
      rcases reordered.of_object with ⟨zs, rfl, _⟩
      exact ⟨_, List.mem_singleton_self _, .nil⟩
  | _ =>
      cases reordered
      exact ⟨_, List.mem_singleton_self _, .nil⟩

/-! ## Every way is what is compared in some order -/

variable {f : Value × Value → Value}

private theorem exists_zip (moves : ∀ pair, Reordered pair.1 (f pair)) (xs ys : List Value) :
    ∃ zs, List.Forall₂ Reordered xs zs ∧ zs.zip ys = (xs.zip ys).map fun pair => (f pair, pair.2) := by
  induction xs generalizing ys with
  | nil => exact ⟨[], .nil, rfl⟩
  | cons x xs inductionHypothesis =>
      cases ys with
      | nil => exact ⟨x :: xs, List.forall₂_same.mpr fun x _ => .refl x, rfl⟩
      | cons y ys =>
          rcases inductionHypothesis ys with ⟨zs, elements, same⟩
          refine ⟨f (x, y) :: zs, .cons (moves (x, y)) elements, ?_⟩
          rw [List.zip_cons_cons, same]
          rfl

/-- The matched prior elements come first, in the order of the way, and the others behind them. -/
private theorem exists_set (moves : ∀ pair, Reordered pair.1 (f pair)) {xs ys removed : List Value}
    (order : removed.Perm (unmatched xs ys)) :
    ∃ us, Reordered (.set xs) (.set us) ∧
      (unmatched us ys).zip (unmatched ys us) =
        (removed.zip (unmatched ys xs)).map fun pair => (f pair, pair.2) := by
  rcases exists_zip moves removed (unmatched ys xs) with ⟨zs, elements, same⟩
  let others := xs.filter fun x => !(!ys.any fun y => y == x)
  have whole : xs.Perm (removed ++ others) :=
    (List.filter_append_perm _ xs).symm.trans (order.symm.append_right others)
  have behind : List.Forall₂ Reordered (removed ++ others) (zs ++ others) :=
    List.rel_append elements (List.forall₂_same.mpr fun x _ => .refl x)
  rcases List.perm_comp_forall₂ whole behind with ⟨us, moved, permutation⟩
  have first : unmatched zs ys = zs := by
    refine List.filter_eq_self.mpr fun z member => ?_
    rcases exists_mem_of_forall₂ elements member with ⟨x, isRemoved, related⟩
    have equal : ∀ y : Value, (y == x) = (y == z) := related.same_right
    have alone := (List.mem_filter.mp (order.subset isRemoved)).2
    simpa only [equal] using alone
  have rest : unmatched others ys = [] := by
    refine List.filter_eq_nil_iff.mpr fun x member => ?_
    simpa using (List.mem_filter.mp member).2
  have prior : unmatched (zs ++ others) ys = zs := by
    rw [unmatched, List.filter_append]
    exact (congrArg₂ (· ++ ·) first rest).trans (List.append_nil zs)
  refine ⟨zs ++ others, .set moved permutation, ?_⟩
  rw [prior, ← unmatched_reordered_others moved permutation, same]

private theorem exists_map (moves : ∀ pair, Reordered pair.1 (f pair))
    (xs : List (String × Value)) {ys : List (String × Value)} (nodup : (Entries.keys ys).Nodup) :
    ∃ zs, Entries.Paired Reordered xs zs ∧
      (ys.filterMap fun (key, a) => (Entries.find? key zs).map fun b => (b, a)) =
        (ys.filterMap fun (key, a) => (Entries.find? key xs).map fun b => (b, a)).map
          fun pair => (f pair, pair.2) := by
  let moved (key : String) (b : Value) : Value :=
    ((Entries.find? key ys).map fun a => f (b, a)).getD b
  refine ⟨xs.map fun entry => (entry.1, moved entry.1 entry.2), ?_, ?_⟩
  · refine Entries.paired_iff_forall₂.mpr (List.forall₂_map_right_iff.mpr ?_)
    refine List.forall₂_same.mpr fun entry _ => ⟨rfl, ?_⟩
    cases found : Entries.find? entry.1 ys with
    | none => simpa [moved, found] using Reordered.refl entry.2
    | some a => simpa [moved, found] using moves (entry.2, a)
  · rw [List.map_filterMap]
    refine List.filterMap_congr fun entry member => ?_
    have found := Entries.find?_of_mem nodup member
    simp [Entries.find?_map_with_key moved, moved, found, Function.comp_def]

/-- Each way to match the prior occurrences, and a reordering of each of these besides, is what is
compared in some order of them. -/
theorem exists_reordered_of_matching (moves : ∀ pair, Reordered pair.1 (f pair))
    (ordered : after.KeyOrdered) {matching : List (Value × Value)}
    (isMatching : matching ∈ nested.matchings before after) :
    ∃ before', Reordered before before' ∧ (nested.compared before' after).map Comparison.values =
      matching.map fun pair => (f pair, pair.2) := by
  by_cases mode : nested.mode = .single
  · rw [matchings_single mode, List.mem_singleton] at isMatching
    subst isMatching
    refine ⟨f (before, after), moves (before, after), ?_⟩
    rw [compared_single mode]
    rfl
  rw [matchings_of_repeated mode] at isMatching
  simp only [compared_values mode]
  split at isMatching
  · next xs ys =>
    rcases List.mem_map.mp isMatching with ⟨removed, isOrder, rfl⟩
    rcases exists_set moves (List.mem_permutations.mp isOrder) with ⟨us, reordered, same⟩
    exact ⟨.set us, reordered, same⟩
  · next xs ys =>
    cases List.mem_singleton.mp isMatching
    rcases exists_zip moves xs ys with ⟨zs, elements, same⟩
    exact ⟨.list zs, .list elements, same⟩
  · next xs ys =>
    cases List.mem_singleton.mp isMatching
    cases ordered with
    | map sorted =>
        rcases exists_map moves xs sorted.nodup with ⟨zs, paired, same⟩
        exact ⟨.map zs, .map paired.1 paired.2, same⟩
  · next noSets noLists noMaps =>
    cases List.mem_singleton.mp isMatching
    refine ⟨before, .refl before, ?_⟩
    split
    · exact (noSets _ _ rfl rfl).elim
    · exact (noLists _ _ rfl rfl).elim
    · exact (noMaps _ _ rfl rfl).elim
    · rfl

/-- What is matched is in key order when both sides are. -/
theorem keyOrdered_of_mem_matching (beforeOrdered : before.KeyOrdered) (ordered : after.KeyOrdered)
    {matching : List (Value × Value)} (isMatching : matching ∈ nested.matchings before after)
    {pair : Value × Value} (member : pair ∈ matching) :
    pair.1.KeyOrdered ∧ pair.2.KeyOrdered := by
  by_cases mode : nested.mode = .single
  · rw [matchings_single mode, List.mem_singleton] at isMatching
    subst isMatching
    cases List.mem_singleton.mp member
    exact ⟨beforeOrdered, ordered⟩
  rw [matchings_of_repeated mode] at isMatching
  split at isMatching
  · next xs ys =>
    rcases List.mem_map.mp isMatching with ⟨removed, isOrder, rfl⟩
    have both := List.of_mem_zip member
    have isRemoved := (List.mem_permutations.mp isOrder).subset both.1
    cases beforeOrdered with
    | set inner =>
        cases ordered with
        | set others =>
            exact ⟨inner _ (List.mem_of_mem_filter isRemoved),
              others _ (List.mem_of_mem_filter both.2)⟩
  · next xs ys =>
    cases List.mem_singleton.mp isMatching
    have both := List.of_mem_zip member
    cases beforeOrdered with
    | list inner =>
        cases ordered with
        | list others => exact ⟨inner _ both.1, others _ both.2⟩
  · next xs ys =>
    cases List.mem_singleton.mp isMatching
    rcases List.mem_filterMap.mp member with ⟨entry, isEntry, found⟩
    rcases Option.map_eq_some_iff.mp found with ⟨b, foundPrior, rfl⟩
    cases beforeOrdered with
    | map _ inner =>
        cases ordered with
        | map _ others => exact ⟨inner _ (Entries.mem_of_find? foundPrior), others _ isEntry⟩
  · cases List.mem_singleton.mp isMatching
    cases member

end Orders
end NestedBlock

/-! ## Whether the resource is replaced -/

namespace Block

/-- Some way to match the occurrences, at every level, finds a marked attribute changed. -/
inductive CanReplace : Block → Value → Value → Prop
  | here {block : Block} {prior planned : Value} {entry : String × Attribute}
      (member : entry ∈ block.attributes) (marked : entry.2.requiresReplace = true)
      (changed : (prior.attributeNamed entry.1 == planned.attributeNamed entry.1) = false) :
      CanReplace block prior planned
  | inside {block : Block} {prior planned : Value} {entry : String × NestedBlock}
      {matching : List (Value × Value)} {pair : Value × Value} (member : entry ∈ block.blocks)
      (isMatching : matching ∈
        entry.2.matchings (prior.attributeNamed entry.1) (planned.attributeNamed entry.1))
      (matched : pair ∈ matching) (inner : CanReplace entry.2.block pair.1 pair.2) :
      CanReplace block prior planned

/-- Some way to match the occurrences, at every level, finds no marked attribute changed. -/
inductive CanStay : Block → Value → Value → Prop
  | intro {block : Block} {prior planned : Value}
      (attributes : ∀ entry ∈ block.attributes, entry.2.requiresReplace = true →
        (prior.attributeNamed entry.1 == planned.attributeNamed entry.1) = true)
      (matching : String × NestedBlock → List (Value × Value))
      (isMatching : ∀ entry ∈ block.blocks, matching entry ∈
        entry.2.matchings (prior.attributeNamed entry.1) (planned.attributeNamed entry.1))
      (inner : ∀ entry ∈ block.blocks, ∀ pair ∈ matching entry,
        CanStay entry.2.block pair.1 pair.2) : CanStay block prior planned

/-- All ways to match the occurrences agree on whether the resource is replaced. -/
def Decided (block : Block) (prior planned : Value) : Prop :=
  ¬ (block.CanReplace prior planned ∧ block.CanStay prior planned)

open Value (Reordered)

variable {block : Block} {path : Path} {prior prior' planned : Value}

/-- An order in which nothing is replaced shows a way to match without a change. -/
theorem canStay_of_reordered (reordered : Reordered prior prior')
    (stays : block.replacements path prior' planned = []) : block.CanStay prior planned := by
  induction block using Block.induct generalizing path prior prior' planned with
  | step attributes blocks description inductionHypothesis =>
      rcases replacements_eq_nil_iff.mp stays with ⟨unchanged, inner⟩
      have each : ∀ entry ∈ blocks, ∃ matching ∈
          entry.2.matchings (prior.attributeNamed entry.1) (planned.attributeNamed entry.1),
            ∀ pair ∈ matching, entry.2.block.CanStay pair.1 pair.2 := by
        intro entry member
        rcases entry.2.exists_matching_of_reordered
          (reordered.attributeNamed entry.1) (planned.attributeNamed entry.1) with
            ⟨matching, isMatching, related⟩
        refine ⟨matching, isMatching, fun pair matched => ?_⟩
        rcases exists_mem_of_forall₂ related.flip matched with ⟨other, compared, moved, same⟩
        rcases List.mem_map.mp compared with ⟨comparison, isComparison, rfl⟩
        rw [same]
        exact inductionHypothesis entry member moved (inner entry member comparison isComparison)
      choose! matching isMatching stay using each
      refine .intro (fun entry member marked => ?_) matching isMatching stay
      have equal := (reordered.attributeNamed entry.1).same_left (planned.attributeNamed entry.1)
      exact equal.trans (unchanged entry member marked)

/-- An order in which something is replaced shows a way to match with a change. -/
theorem canReplace_of_reordered (reordered : Reordered prior prior')
    (replaced : block.replacements path prior' planned ≠ []) : block.CanReplace prior planned := by
  induction block using Block.induct generalizing path prior prior' planned with
  | step attributes blocks description inductionHypothesis =>
      by_contra never
      refine replaced (replacements_eq_nil_iff.mpr ⟨fun entry member marked => ?_, ?_⟩)
      · by_contra changed
        have equal := (reordered.attributeNamed entry.1).same_left (planned.attributeNamed entry.1)
        exact never (.here member marked (equal.trans (Bool.eq_false_iff.mpr changed)))
      · intro entry member comparison isComparison
        by_contra inner
        rcases entry.2.exists_matching_of_reordered
          (reordered.attributeNamed entry.1) (planned.attributeNamed entry.1) with
            ⟨matching, isMatching, related⟩
        rcases exists_mem_of_forall₂ related (List.mem_map_of_mem isComparison) with
          ⟨pair, matched, moved, same⟩
        have found : entry.2.block.CanReplace pair.1 pair.2 :=
          same ▸ inductionHypothesis entry member moved inner
        exact never (.inside member isMatching matched found)

/-- Where all ways to match agree, no order of the prior value changes whether the resource is
replaced. -/
theorem Decided.replacements_eq_nil_iff (decided : block.Decided prior planned)
    (reordered : Reordered prior prior') :
    block.replacements path prior planned = [] ↔ block.replacements path prior' planned = [] := by
  constructor
  · intro stays
    by_contra replaced
    exact decided ⟨canReplace_of_reordered reordered replaced,
      canStay_of_reordered (.refl prior) stays⟩
  · intro stays
    by_contra replaced
    exact decided ⟨canReplace_of_reordered (.refl prior) replaced,
      canStay_of_reordered reordered stays⟩

/-! ## The condition is exact -/

/-- The attributes of an object may be reordered one by one. -/
private theorem exists_reordered_attributes (ordered : prior.KeyOrdered) {g : String → Value}
    (moves : ∀ name, Reordered (prior.attributeNamed name) (g name)) :
    ∃ prior', Reordered prior prior' ∧ ∀ name, prior'.attributeNamed name = g name := by
  have absent : ∀ name, prior.attributeNamed name = .null → Value.null = g name := by
    intro name missing
    have moved := moves name
    rw [missing] at moved
    generalize g name = value at moved ⊢
    cases moved
    rfl
  cases ordered with
  | @object attributes sorted =>
      let changed := attributes.map fun entry => (entry.1, g entry.1)
      refine ⟨.object changed, .object (Entries.keys_map_with_key (fun key _ => g key) _).symm ?_,
        fun name => ?_⟩
      · refine List.forall₂_map_left_iff.mpr (List.forall₂_map_right_iff.mpr ?_)
        refine List.forall₂_map_right_iff.mpr (List.forall₂_same.mpr fun entry member => ?_)
        have here := moves entry.1
        rw [Value.attributeNamed_object, Entries.find?_of_mem sorted.nodup member] at here
        exact here
      · rw [Value.attributeNamed_object, Entries.find?_map_with_key fun key _ => g key]
        cases found : Entries.find? name attributes with
        | none =>
            exact absent name (by rw [Value.attributeNamed_object, found]; rfl)
        | some value => rfl
  | _ => exact ⟨_, .refl _, fun name => absent name rfl⟩

/-- The occurrences of all nested blocks may be reordered independently of each other. -/
private theorem exists_reordered_blocks (wellFormed : block.WellFormed) (ordered : prior.KeyOrdered)
    {P : String × NestedBlock → Value → Prop}
    (each : ∀ entry ∈ block.blocks,
      ∃ before, Reordered (prior.attributeNamed entry.1) before ∧ P entry before) :
    ∃ prior', Reordered prior prior' ∧
      ∀ entry ∈ block.blocks, P entry (prior'.attributeNamed entry.1) := by
  have named : ∀ name, ∃ before, Reordered (prior.attributeNamed name) before ∧
      ∀ nested, (name, nested) ∈ block.blocks → P (name, nested) before := by
    intro name
    cases found : Entries.find? name block.blocks with
    | none =>
        refine ⟨_, .refl _, fun nested member => ?_⟩
        rw [Entries.find?_of_mem wellFormed.blocksNodup member] at found
        cases found
    | some declared =>
        rcases each _ (Entries.mem_of_find? found) with ⟨before, moved, holds⟩
        refine ⟨before, moved, fun nested member => ?_⟩
        rw [Entries.find?_of_mem wellFormed.blocksNodup member] at found
        cases found
        exact holds
  choose g moves holds using named
  rcases exists_reordered_attributes ordered moves with ⟨prior', reordered, same⟩
  refine ⟨prior', reordered, fun entry member => ?_⟩
  rw [same]
  exact holds entry.1 entry.2 member

/-- A way to match without a change is what some order of the prior value compares. -/
theorem CanStay.exists_reordered (wellFormed : block.WellFormed) (priorOrdered : prior.KeyOrdered)
    (ordered : planned.KeyOrdered) (stays : block.CanStay prior planned) :
    ∃ prior', Reordered prior prior' ∧ ∀ path, block.replacements path prior' planned = [] := by
  induction block, wellFormed using WellFormed.induct generalizing prior planned with
  | step block wellFormed inductionHypothesis =>
      rcases stays with ⟨unchanged, matching, isMatching, inner⟩
      have each : ∀ entry ∈ block.blocks, ∃ before,
          Reordered (prior.attributeNamed entry.1) before ∧ ∀ comparison ∈
            entry.2.compared before (planned.attributeNamed entry.1), ∀ path,
              entry.2.block.replacements path comparison.prior comparison.planned = [] := by
        intro entry member
        have keys (pair) (matched : pair ∈ matching entry) :=
          NestedBlock.keyOrdered_of_mem_matching (priorOrdered.attributeNamed entry.1)
            (ordered.attributeNamed entry.1) (isMatching entry member) matched
        have orders : ∀ pair : Value × Value, ∃ moved, Reordered pair.1 moved ∧
            (pair ∈ matching entry → ∀ path, entry.2.block.replacements path moved pair.2 = []) := by
          intro pair
          by_cases matched : pair ∈ matching entry
          · rcases inductionHypothesis entry member (keys pair matched).1 (keys pair matched).2
              (inner entry member pair matched) with ⟨moved, reordered, nothing⟩
            exact ⟨moved, reordered, fun _ => nothing⟩
          · exact ⟨pair.1, .refl _, fun isMatched => absurd isMatched matched⟩
        choose f moves nothing using orders
        rcases NestedBlock.exists_reordered_of_matching moves (ordered.attributeNamed entry.1)
          (isMatching entry member) with ⟨before, reordered, values⟩
        refine ⟨before, reordered, fun comparison isComparison => ?_⟩
        have isPair := values ▸ List.mem_map_of_mem (f := Comparison.values) isComparison
        rcases List.mem_map.mp isPair with ⟨pair, matched, same⟩
        rcases Prod.mk.inj same with ⟨priorSame, plannedSame⟩
        rw [← priorSame, ← plannedSame]
        exact nothing pair matched
      rcases exists_reordered_blocks wellFormed priorOrdered each with ⟨prior', reordered, nothing⟩
      refine ⟨prior', reordered, fun path => Block.replacements_eq_nil_iff.mpr ⟨?_, ?_⟩⟩
      · intro entry member marked
        have equal := (reordered.attributeNamed entry.1).same_left (planned.attributeNamed entry.1)
        exact equal.symm.trans (unchanged entry member marked)
      · exact fun entry member comparison isComparison =>
          nothing entry member comparison isComparison _

/-- A way to match with a change is what some order of the prior value compares. -/
theorem CanReplace.exists_reordered (wellFormed : block.WellFormed)
    (priorOrdered : prior.KeyOrdered) (ordered : planned.KeyOrdered)
    (replaces : block.CanReplace prior planned) :
    ∃ prior', Reordered prior prior' ∧ ∀ path, block.replacements path prior' planned ≠ [] := by
  induction replaces with
  | @here block prior planned entry member marked changed =>
      refine ⟨prior, .refl prior, fun path nothing => ?_⟩
      have equal := (Block.replacements_eq_nil_iff.mp nothing).1 entry member marked
      rw [changed] at equal
      cases equal
  | @inside block prior planned entry matching pair member isMatching matched _
      inductionHypothesis =>
      have keys := NestedBlock.keyOrdered_of_mem_matching (priorOrdered.attributeNamed entry.1)
        (ordered.attributeNamed entry.1) isMatching matched
      rcases inductionHypothesis (wellFormed.inside member) keys.1 keys.2 with
        ⟨moved, movedReordered, replaced⟩
      have orders : ∀ other : Value × Value, ∃ value, Reordered other.1 value ∧
          (other = pair → value = moved) := by
        intro other
        by_cases same : other = pair
        · exact ⟨moved, same ▸ movedReordered, fun _ => rfl⟩
        · exact ⟨other.1, .refl _, fun isPair => absurd isPair same⟩
      choose f moves same using orders
      rcases NestedBlock.exists_reordered_of_matching moves (ordered.attributeNamed entry.1)
        isMatching with ⟨before, reordered, values⟩
      have isCompared : (moved, pair.2) ∈
          (entry.2.compared before (planned.attributeNamed entry.1)).map Comparison.values := by
        rw [values]
        exact List.mem_map.mpr ⟨pair, matched, by rw [same pair rfl]⟩
      rcases List.mem_map.mp isCompared with ⟨comparison, isComparison, found⟩
      rcases Prod.mk.inj found with ⟨priorSame, plannedSame⟩
      have each : ∀ other ∈ block.blocks, ∃ value,
          Reordered (prior.attributeNamed other.1) value ∧ (other = entry → value = before) := by
        intro other _
        by_cases here : other = entry
        · exact ⟨before, here ▸ reordered, fun _ => rfl⟩
        · exact ⟨_, .refl _, fun isEntry => absurd isEntry here⟩
      rcases exists_reordered_blocks wellFormed priorOrdered each with ⟨prior', reordered', placed⟩
      refine ⟨prior', reordered', fun path nothing => ?_⟩
      have inside := (Block.replacements_eq_nil_iff.mp nothing).2 entry member comparison
        (placed entry member rfl ▸ isComparison)
      rw [priorSame, plannedSame] at inside
      exact replaced _ inside

/-- The order of the prior value does not change whether the resource is replaced exactly where all
ways to match agree. -/
theorem decided_iff (wellFormed : block.WellFormed) (priorOrdered : prior.KeyOrdered)
    (ordered : planned.KeyOrdered) (path : Path) :
    block.Decided prior planned ↔ ∀ prior', Reordered prior prior' →
      (block.replacements path prior planned = [] ↔
        block.replacements path prior' planned = []) := by
  refine ⟨fun decided prior' reordered => decided.replacements_eq_nil_iff reordered, ?_⟩
  rintro same ⟨replaces, stays⟩
  rcases replaces.exists_reordered wellFormed priorOrdered ordered with ⟨one, first, replaced⟩
  rcases stays.exists_reordered wellFormed priorOrdered ordered with ⟨other, second, nothing⟩
  exact replaced path ((same one first).mp ((same other second).mpr (nothing path)))

end Block
end ProviderKit

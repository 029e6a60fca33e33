import Mathlib.Data.List.Nodup
import ProviderKit.Entries
import ProviderKit.Path

/-!
# What a traversal collects

A traversal of nested blocks goes through the places of a value and leaves a result at some of
them.  Each result is made from the place and from what is found there.  That the results are
exactly those of what is found, and in which order they come, is put together from the parts of the
traversal: one part may stand next to another when all of its finds come before those of the other,
and a part may stand further in.

Often only one thing is found at a place and the order does not matter.  It is then enough that no
place comes twice, so that parts without a common place may stand next to each other.
-/

namespace ProviderKit

variable {α β ι κ : Type} {make : Path → α → β} {path : Path} {found other : Path → α → Prop}
  {results more : List β} {order further : Path × α → Path × α → Prop}

/-- The results below a path are made from what is found there, one from each find, and come in the
order of the finds. -/
def CollectsInOrder (order : Path × α → Path × α → Prop) (make : Path → α → β) (path : Path)
    (found : Path → α → Prop) (results : List β) : Prop :=
  ∃ finds : List (Path × α), finds.Pairwise order ∧
    (∀ place item, (place, item) ∈ finds ↔ found place item) ∧
    results = finds.map fun find => make (path ++ find.1) find.2

namespace CollectsInOrder

theorem congr (collects : CollectsInOrder order make path found results)
    (same : ∀ place item, found place item ↔ other place item) :
    CollectsInOrder order make path other results := by
  rcases collects with ⟨finds, inOrder, exact, made⟩
  exact ⟨finds, inOrder, fun place item => (exact place item).trans (same place item), made⟩

theorem imp (collects : CollectsInOrder order make path found results)
    (weaker : ∀ one two, order one two → further one two) :
    CollectsInOrder further make path found results := by
  rcases collects with ⟨finds, inOrder, exact, made⟩
  exact ⟨finds, inOrder.imp fun before => weaker _ _ before, exact, made⟩

/-- Where nothing is found there are no results. -/
theorem none (nothing : ∀ place item, ¬ found place item) :
    CollectsInOrder order make path found [] :=
  ⟨[], .nil, fun place item => iff_of_false List.not_mem_nil (nothing place item), rfl⟩

theorem mem_iff (collects : CollectsInOrder order make path found results) {result : β} :
    result ∈ results ↔ ∃ place item, found place item ∧ make (path ++ place) item = result := by
  rcases collects with ⟨finds, _, exact, rfl⟩
  simp only [List.mem_map, Prod.exists, exact]

/-- What is found at the path itself. -/
theorem here (item : α) :
    CollectsInOrder order make path (fun place found => place = [] ∧ found = item)
      [make path item] := by
  refine ⟨[([], item)], List.pairwise_singleton _ _, fun place found => ?_, ?_⟩
  · rw [List.mem_singleton, Prod.mk.injEq]
  · rw [List.map_singleton, List.append_nil]

/-- What is found at the path itself under a condition. -/
theorem hereWhen (condition : Prop) [Decidable condition] (item : α) :
    CollectsInOrder order make path (fun place found => place = [] ∧ found = item ∧ condition)
      (if condition then [make path item] else []) := by
  split
  · next holds => exact (here item).congr fun place found => by simp only [holds, and_true]
  · next fails => exact none fun place found isFound => fails isFound.2.2

/-- What is found further in is found at a longer place. -/
theorem within {further : Path}
    (collects : CollectsInOrder
      (fun one two => order (further ++ one.1, one.2) (further ++ two.1, two.2)) make
      (path ++ further) found results) :
    CollectsInOrder order make path
      (fun place item => ∃ rest, place = further ++ rest ∧ found rest item) results := by
  rcases collects with ⟨finds, inOrder, exact, rfl⟩
  refine ⟨finds.map fun find => (further ++ find.1, find.2), List.pairwise_map.mpr inOrder,
    fun place item => ?_, ?_⟩
  · rw [List.mem_map]
    constructor
    · rintro ⟨⟨rest, inner⟩, member, same⟩
      cases same
      exact ⟨rest, rfl, (exact rest inner).mp member⟩
    · rintro ⟨rest, rfl, isFound⟩
      exact ⟨(rest, item), (exact rest item).mpr isFound, rfl⟩
  · simp only [List.map_map, Function.comp_def, List.append_assoc]

/-- Two parts, of which everything in the one comes before everything in the other. -/
theorem append (left : CollectsInOrder order make path found results)
    (right : CollectsInOrder order make path other more)
    (before : ∀ place one place' two, found place one → other place' two →
      order (place, one) (place', two)) :
    CollectsInOrder order make path (fun place item => found place item ∨ other place item)
      (results ++ more) := by
  rcases left with ⟨finds, inOrder, exact, rfl⟩
  rcases right with ⟨furtherFinds, furtherInOrder, furtherExact, rfl⟩
  refine ⟨finds ++ furtherFinds, ?_, fun place item => ?_, List.map_append.symm⟩
  · refine List.pairwise_append.mpr ⟨inOrder, furtherInOrder, ?_⟩
    intro one member two furtherMember
    exact before _ _ _ _ ((exact _ _).mp member) ((furtherExact _ _).mp furtherMember)
  · rw [List.mem_append, exact, furtherExact]

/-- Many parts, of which everything in an earlier one comes before everything in a later one. -/
theorem flatMap {items : List ι} {found : ι → Path → α → Prop} {results : ι → List β}
    (before : items.Pairwise fun x y => ∀ place one place' two, found x place one →
      found y place' two → order (place, one) (place', two))
    (each : ∀ x ∈ items, CollectsInOrder order make path (found x) (results x)) :
    CollectsInOrder order make path (fun place item => ∃ x ∈ items, found x place item)
      (items.flatMap results) := by
  induction items with
  | nil => exact none fun _ _ ⟨_, member, _⟩ => List.not_mem_nil member
  | cons x later inductionHypothesis =>
      rcases List.pairwise_cons.mp before with ⟨first, furtherBefore⟩
      rcases List.forall_mem_cons.mp each with ⟨head, tail⟩
      rw [List.flatMap_cons]
      refine (append head (inductionHypothesis furtherBefore tail) ?_).congr fun place item => ?_
      · rintro place one place' two isFound ⟨y, member, isFoundLater⟩
        exact first y member place one place' two isFound isFoundLater
      · simp only [List.exists_mem_cons_iff]

end CollectsInOrder

/-! ## At places of which none comes twice -/

/-- The results below a path are made from what is found there: one for each place at which
something is found, and no others. -/
def Collects (make : Path → α → β) (path : Path) (found : Path → α → Prop) (results : List β) :
    Prop :=
  ∃ finds : List (Path × α), (finds.map Prod.fst).Nodup ∧
    (∀ place item, (place, item) ∈ finds ↔ found place item) ∧
    results = finds.map fun find => make (path ++ find.1) find.2

/-- No continuation of one path is a continuation of the other. -/
def Path.Apart (path other : Path) : Prop :=
  ∀ rest rest' : Path, path ++ rest ≠ other ++ rest'

theorem Path.apart_singleton {step other : PathStep} (different : step ≠ other) :
    Path.Apart [step] [other] :=
  fun _ _ same => different (List.cons.inj same).1

theorem Path.names_apart {entries : List (String × ι)} (nodup : (Entries.keys entries).Nodup) :
    entries.Pairwise fun x y => Path.Apart [.name x.1] [.name y.1] :=
  (List.pairwise_map.mp nodup).imp fun different =>
    apart_singleton fun same => different (PathStep.name.inj same)

theorem Path.keys_apart {entries : List (String × ι)} (nodup : (Entries.keys entries).Nodup) :
    entries.Pairwise fun x y => Path.Apart [.key x.1] [.key y.1] :=
  (List.pairwise_map.mp nodup).imp fun different =>
    apart_singleton fun same => different (PathStep.key.inj same)

theorem Path.indexes_apart (items : List ι) :
    items.zipIdx.Pairwise fun x y => Path.Apart [.index x.2] [.index y.2] := by
  have nodup : (items.zipIdx.map Prod.snd).Nodup := by
    rw [List.zipIdx_map_snd]
    exact List.nodup_range'
  exact (List.pairwise_map.mp nodup).imp fun different =>
    apart_singleton fun same => different (Int.ofNat_inj.mp (PathStep.index.inj same))

namespace Collects

theorem iff_inOrder : Collects make path found results ↔
    CollectsInOrder (fun one two => one.1 ≠ two.1) make path found results := by
  simp only [Collects, CollectsInOrder, List.Nodup, List.pairwise_map]

theorem congr (collects : Collects make path found results)
    (same : ∀ place item, found place item ↔ other place item) :
    Collects make path other results :=
  iff_inOrder.mpr ((iff_inOrder.mp collects).congr same)

/-- Where nothing is found there are no results. -/
theorem none (nothing : ∀ place item, ¬ found place item) : Collects make path found [] :=
  iff_inOrder.mpr (.none nothing)

theorem mem_iff (collects : Collects make path found results) {result : β} :
    result ∈ results ↔ ∃ place item, found place item ∧ make (path ++ place) item = result :=
  (iff_inOrder.mp collects).mem_iff

theorem eq_nil (collects : Collects make path found results)
    (nothing : ∀ place item, ¬ found place item) : results = [] := by
  refine List.eq_nil_iff_forall_not_mem.mpr fun result member => ?_
  rcases collects.mem_iff.mp member with ⟨place, item, isFound, _⟩
  exact nothing place item isFound

/-- Results that tell their places apart are not repeated. -/
theorem nodup (collects : Collects make path found results)
    (tells : ∀ place place' item item', make place item = make place' item' → place = place') :
    results.Nodup := by
  rcases collects with ⟨finds, distinct, _, rfl⟩
  refine List.pairwise_map.mpr ((List.pairwise_map.mp distinct).imp fun different same => ?_)
  exact different (List.append_cancel_left (tells _ _ _ _ same))

/-- What is found at the path itself. -/
theorem here (item : α) :
    Collects make path (fun place found => place = [] ∧ found = item) [make path item] :=
  iff_inOrder.mpr (.here item)

/-- What is found further in is found at a longer place. -/
theorem within {further : Path} (collects : Collects make (path ++ further) found results) :
    Collects make path (fun place item => ∃ rest, place = further ++ rest ∧ found rest item)
      results := by
  refine iff_inOrder.mpr (.within ((iff_inOrder.mp collects).imp fun one two different same => ?_))
  exact different (List.append_cancel_left same)

/-- Two parts without a common place. -/
theorem append (left : Collects make path found results) (right : Collects make path other more)
    (apart : ∀ place one two, found place one → ¬ other place two) :
    Collects make path (fun place item => found place item ∨ other place item)
      (results ++ more) := by
  refine iff_inOrder.mpr ((iff_inOrder.mp left).append (iff_inOrder.mp right) ?_)
  rintro place one _ two isFound isFoundToo rfl
  exact apart place one two isFound isFoundToo

/-- Parts that stand further in, at places of which none continues another one. -/
theorem flatMap {items : List ι} {place : ι → Path} {found : ι → Path → α → Prop}
    {results : ι → List β} (apart : items.Pairwise fun x y => (place x).Apart (place y))
    (each : ∀ x ∈ items, Collects make (path ++ place x) (found x) (results x)) :
    Collects make path
      (fun whole item => ∃ x ∈ items, ∃ rest, whole = place x ++ rest ∧ found x rest item)
      (items.flatMap results) := by
  refine iff_inOrder.mpr (.flatMap (apart.imp fun apart => ?_) fun x member =>
    iff_inOrder.mp (within (each x member)))
  rintro _ one _ two ⟨rest, rfl, _⟩ ⟨rest', rfl, _⟩
  exact apart rest rest'

/-- The members of an object, which are of two kinds that share no name. -/
theorem members {left : List (String × ι)} {right : List (String × κ)}
    {foundLeft : String × ι → Path → α → Prop} {foundRight : String × κ → Path → α → Prop}
    {leftResults : String × ι → List β} {rightResults : String × κ → List β}
    (leftNodup : (Entries.keys left).Nodup) (rightNodup : (Entries.keys right).Nodup)
    (disjoint : ∀ name ∈ Entries.keys left, name ∉ Entries.keys right)
    (eachLeft : ∀ entry ∈ left,
      Collects make (path ++ [.name entry.1]) (foundLeft entry) (leftResults entry))
    (eachRight : ∀ entry ∈ right,
      Collects make (path ++ [.name entry.1]) (foundRight entry) (rightResults entry)) :
    Collects make path
      (fun place item =>
        (∃ entry ∈ left, ∃ rest, place = [.name entry.1] ++ rest ∧ foundLeft entry rest item) ∨
        ∃ entry ∈ right, ∃ rest, place = [.name entry.1] ++ rest ∧ foundRight entry rest item)
      (left.flatMap leftResults ++ right.flatMap rightResults) := by
  refine append (flatMap (Path.names_apart leftNodup) eachLeft)
    (flatMap (Path.names_apart rightNodup) eachRight) ?_
  rintro _ one two ⟨entry, member, _, rfl, _⟩ ⟨other, otherMember, _, same, _⟩
  have sameName : entry.1 = other.1 := PathStep.name.inj (List.cons.inj same).1
  exact disjoint entry.1 (List.mem_map_of_mem member) (sameName ▸ List.mem_map_of_mem otherMember)

end Collects
end ProviderKit

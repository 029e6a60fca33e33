import ProviderKit.Proofs.Value.Acceptance
import ProviderKit.Proofs.Value.Codec
import ProviderKit.Proofs.Value.Reordered

/-!
# The order in which sets are listed

A document lists the elements of a set in some order, and the type tells which of its arrays are
such lists.  Documents that differ in the order of these lists only are decoded alike: both are
refused, or both are decoded to values that differ in the order of their sets only and are equal
in both directions.

What might see the order is the search for repetitions.  It compares each fully known element with
the elements before it, whether these are known or not, and in one direction only.  But what a
known element equals is known as well and equals the element, so a repetition is noticed wherever
its two elements stand.
-/

namespace ProviderKit

/-- The second document is the first one with the items of arrays permuted where the type has a
set, at any depth.  Nothing is permuted where there is no type. -/
inductive Json.Relisted : AttributeType → Json → Json → Prop
  | refl (type : AttributeType) (json : Json) : Relisted type json json
  | list {element : AttributeType} {xs ys : List Json} (lengths : xs.length = ys.length)
      (items : ∀ pair ∈ xs.zip ys, Relisted element pair.1 pair.2) :
      Relisted (.list element) (.array xs) (.array ys)
  | set {element : AttributeType} {xs zs ys : List Json} (lengths : xs.length = zs.length)
      (items : ∀ pair ∈ xs.zip zs, Relisted element pair.1 pair.2) (permutation : zs.Perm ys) :
      Relisted (.set element) (.array xs) (.array ys)
  | map {element : AttributeType} {xs ys : List (String × Json)}
      (keys : Entries.keys xs = Entries.keys ys)
      (values : ∀ pair ∈ (Entries.values xs).zip (Entries.values ys),
        Relisted element pair.1 pair.2) :
      Relisted (.map element) (.object xs) (.object ys)
  | object {types : List (String × AttributeType)} {xs ys : List (String × Json)}
      (keys : Entries.keys xs = Entries.keys ys)
      (declared : ∀ entry ∈ types, Relisted entry.2 ((Entries.find? entry.1 xs).getD .null)
        ((Entries.find? entry.1 ys).getD .null))
      (others : ∀ name ∉ Entries.keys types, Entries.find? name xs = Entries.find? name ys) :
      Relisted (.object types) (.object xs) (.object ys)

namespace Json.Relisted

variable {type element : AttributeType} {json other : Json}

theorem list_of_items {xs ys : List Json} (items : List.Forall₂ (Relisted element) xs ys) :
    Relisted (.list element) (.array xs) (.array ys) :=
  .list items.length_eq fun _ member => (List.forall₂_iff_zip.mp items).2 member

theorem set_of_items {xs zs ys : List Json} (items : List.Forall₂ (Relisted element) xs zs)
    (permutation : zs.Perm ys) : Relisted (.set element) (.array xs) (.array ys) :=
  .set items.length_eq (fun _ member => (List.forall₂_iff_zip.mp items).2 member) permutation

theorem of_list {xs : List Json} (relisted : Relisted (.list element) (.array xs) other) :
    ∃ ys, other = .array ys ∧ List.Forall₂ (Relisted element) xs ys := by
  cases relisted with
  | refl => exact ⟨xs, rfl, List.forall₂_same.mpr fun x _ => .refl element x⟩
  | list lengths items => exact ⟨_, rfl, List.forall₂_iff_zip.mpr ⟨lengths, items _⟩⟩

theorem of_set {xs : List Json} (relisted : Relisted (.set element) (.array xs) other) :
    ∃ zs ys, other = .array ys ∧ List.Forall₂ (Relisted element) xs zs ∧ zs.Perm ys := by
  cases relisted with
  | refl => exact ⟨xs, xs, rfl, List.forall₂_same.mpr fun x _ => .refl element x, .refl xs⟩
  | set lengths items permutation =>
      exact ⟨_, _, rfl, List.forall₂_iff_zip.mpr ⟨lengths, items _⟩, permutation⟩

theorem map_of_values {xs ys : List (String × Json)}
    (paired : Entries.Paired (Relisted element) xs ys) :
    Relisted (.map element) (.object xs) (.object ys) :=
  .map paired.1 fun _ member => (List.forall₂_iff_zip.mp paired.2).2 member

theorem of_map {xs : List (String × Json)} (relisted : Relisted (.map element) (.object xs) other) :
    ∃ ys, other = .object ys ∧ Entries.Paired (Relisted element) xs ys := by
  cases relisted with
  | refl => exact ⟨xs, rfl, Entries.paired_refl (.refl element) xs⟩
  | map keys values => exact ⟨_, rfl, Entries.paired_of_zip keys values⟩

theorem symm (relisted : Relisted type json other) : Relisted type other json := by
  induction type using AttributeType.induct generalizing json other with
  | string | int64 | float64 | bool | dynamic =>
      cases relisted
      exact .refl _ _
  | list element inductionHypothesis =>
      cases json with
      | array xs =>
          rcases relisted.of_list with ⟨ys, rfl, items⟩
          exact list_of_items (items.imp fun _ _ => inductionHypothesis).flip
      | _ =>
          cases relisted
          exact .refl _ _
  | set element inductionHypothesis =>
      cases json with
      | array xs =>
          rcases relisted.of_set with ⟨zs, ys, rfl, items, permutation⟩
          have back := (items.imp fun _ _ => inductionHypothesis).flip
          rcases List.perm_comp_forall₂ permutation.symm back with ⟨listed, turned, permuted⟩
          exact set_of_items turned permuted
      | _ =>
          cases relisted
          exact .refl _ _
  | map element inductionHypothesis =>
      cases json with
      | object xs =>
          rcases relisted.of_map with ⟨ys, rfl, keys, values⟩
          exact map_of_values ⟨keys.symm, (values.imp fun _ _ => inductionHypothesis).flip⟩
      | _ =>
          cases relisted
          exact .refl _ _
  | object types inductionHypothesis =>
      cases relisted with
      | refl => exact .refl _ _
      | object keys declared others =>
          exact .object keys.symm
            (fun entry member => inductionHypothesis entry member (declared entry member))
            (fun name undeclared => (others name undeclared).symm)

end Json.Relisted

open Json (Relisted)

namespace Value

/-! ## Reordered values -/

private theorem Reordered.forall_values_congr {xs ys : List (String × Value)} {p : Value → Prop}
    (paired : Entries.Paired Reordered xs ys)
    (congr : ∀ entry ∈ xs, ∀ z, Reordered entry.2 z → (p entry.2 ↔ p z)) :
    (∀ entry ∈ xs, p entry.2) ↔ ∀ entry ∈ ys, p entry.2 := by
  have values := forall_mem_congr paired.2 (.refl _) (List.forall_mem_map.mpr congr)
  exact List.forall_mem_map.symm.trans (values.trans List.forall_mem_map)

theorem Reordered.isFullyKnown_eq {v w : Value} (reordered : Reordered v w) :
    v.isFullyKnown = w.isFullyKnown := by
  rw [Bool.eq_iff_iff]
  induction v using Value.induct generalizing w with
  | list xs inductionHypothesis =>
      rcases reordered.of_list with ⟨ys, rfl, elements⟩
      rw [isFullyKnown_list_iff, isFullyKnown_list_iff]
      exact forall_mem_congr elements (.refl ys) fun x member _ => inductionHypothesis x member
  | set xs inductionHypothesis =>
      rcases reordered.of_set with ⟨zs, ys, rfl, elements, permutation⟩
      rw [isFullyKnown_set_iff, isFullyKnown_set_iff]
      exact forall_mem_congr elements permutation fun x member _ => inductionHypothesis x member
  | map xs inductionHypothesis =>
      rcases reordered.of_map with ⟨ys, rfl, paired⟩
      rw [isFullyKnown_map_iff, isFullyKnown_map_iff]
      exact forall_values_congr (p := fun v => v.isFullyKnown = true) paired
        fun entry member _ => inductionHypothesis entry member
  | object xs inductionHypothesis =>
      rcases reordered.of_object with ⟨ys, rfl, paired⟩
      rw [isFullyKnown_object_iff, isFullyKnown_object_iff]
      exact forall_values_congr (p := fun v => v.isFullyKnown = true) paired
        fun entry member _ => inductionHypothesis entry member
  | _ =>
      cases reordered
      exact Iff.rfl

/-- Elements that are reordered inside repeat nothing if nothing was repeated before. -/
theorem NoRepeats.of_reordered {xs ys : List Value} (apart : NoRepeats xs)
    (elements : List.Forall₂ Reordered xs ys) : NoRepeats ys := by
  induction elements with
  | nil => exact .nil
  | @cons x y _ _ first further inductionHypothesis =>
      rcases List.pairwise_cons.mp apart with ⟨fresh, later⟩
      refine List.pairwise_cons.mpr ⟨fun w member known => ?_, inductionHypothesis later⟩
      rcases exists_mem_of_forall₂ further member with ⟨v, isLater, reordered⟩
      rw [← first.same_left, ← reordered.same_right]
      exact fresh v isLater (reordered.isFullyKnown_eq.trans known)

/-! ## Decoding -/

/-- Items that are decoded one by one still are when each of them is listed in another way. -/
private theorem exists_elements_of_relisted {element : AttributeType} {items others : List Json}
    {elements : List Value}
    (each : ∀ item other, Relisted element item other → ∀ part, ofJson element item = .ok part →
      ∃ found, ofJson element other = .ok found ∧ Reordered part found)
    (relisted : List.Forall₂ (Relisted element) items others)
    (decoded : List.Forall₂ (fun item part => ofJson element item = .ok part) items elements) :
    ∃ found, List.Forall₂ (fun other part => ofJson element other = .ok part) others found ∧
      List.Forall₂ Reordered elements found :=
  exists_forall₂_of_forall₂ (fun item _ other part relisted => each item other relisted part)
    relisted decoded

/-- What a document is decoded to is a reordering of what any other listing of it is decoded to. -/
theorem exists_reordered_of_relisted {type : AttributeType} {json other : Json}
    (relisted : Relisted type json other) {value : Value} (decoded : ofJson type json = .ok value) :
    ∃ found, ofJson type other = .ok found ∧ Reordered value found := by
  induction type using AttributeType.induct generalizing json other value with
  | string | int64 | float64 | bool | dynamic =>
      cases relisted
      exact ⟨value, decoded, .refl value⟩
  | list element inductionHypothesis =>
      cases json with
      | array xs =>
          rcases relisted.of_list with ⟨ys, rfl, items⟩
          rcases ofJson_list_array_iff.mp decoded with ⟨elements, each, rfl⟩
          rcases exists_elements_of_relisted (fun _ _ relisted _ => inductionHypothesis relisted)
            items each with ⟨found, means, reordered⟩
          exact ⟨.list found, ofJson_list_array_iff.mpr ⟨found, means, rfl⟩, .list reordered⟩
      | _ =>
          cases relisted
          exact ⟨value, decoded, .refl value⟩
  | set element inductionHypothesis =>
      cases json with
      | array xs =>
          rcases relisted.of_set with ⟨zs, ys, rfl, items, permutation⟩
          rcases ofJson_set_array_iff.mp decoded with ⟨elements, each, apart, rfl⟩
          rcases exists_elements_of_relisted (fun _ _ relisted _ => inductionHypothesis relisted)
            items each with ⟨found, means, reordered⟩
          -- The items are decoded in their old order first, and their values permuted with them.
          rcases List.perm_comp_forall₂ permutation.symm means with ⟨listed, meansToo, permuted⟩
          have distinct : ∀ element ∈ found, DistinctSets element := by
            intro part member
            rcases exists_mem_of_forall₂ means member with ⟨item, _, means⟩
            exact (conforms_of_decodeAt means).2
          have stillApart := (apart.of_reordered reordered).perm permuted.symm distinct
          exact ⟨.set listed, ofJson_set_array_iff.mpr ⟨listed, meansToo, stillApart, rfl⟩,
            .set reordered permuted.symm⟩
      | _ =>
          cases relisted
          exact ⟨value, decoded, .refl value⟩
  | map element inductionHypothesis =>
      cases json with
      | object xs =>
          rcases relisted.of_map with ⟨ys, rfl, members⟩
          rcases ofJson_map_object_iff.mp decoded with ⟨entries, each, rfl⟩
          have step : ∀ member ∈ xs, ∀ (other : String × Json) (entry : String × Value),
              (member.1 = other.1 ∧ Relisted element member.2 other.2) →
              (member.1 = entry.1 ∧ ofJson element member.2 = .ok entry.2) →
              ∃ found : String × Value, (other.1 = found.1 ∧ ofJson element other.2 = .ok found.2) ∧
                (entry.1 = found.1 ∧ Reordered entry.2 found.2) := by
            rintro member _ other entry ⟨sameKey, relisted⟩ ⟨key, decoded⟩
            rcases inductionHypothesis relisted decoded with ⟨found, means, reordered⟩
            exact ⟨(other.1, found), ⟨rfl, means⟩, key.symm.trans sameKey, reordered⟩
          rcases exists_forall₂_of_forall₂ step (Entries.paired_iff_forall₂.mp members) each with
            ⟨found, means, reordered⟩
          have ⟨keys, values⟩ := Entries.paired_iff_forall₂.mpr reordered
          exact ⟨.map found, ofJson_map_object_iff.mpr ⟨found, means, rfl⟩, .map keys values⟩
      | _ =>
          cases relisted
          exact ⟨value, decoded, .refl value⟩
  | object types inductionHypothesis =>
      cases relisted with
      | refl => exact ⟨value, decoded, .refl value⟩
      | @object _ xs ys keys declared _ =>
          rcases ofJson_object_object_iff.mp decoded with ⟨names, attributes, each, rfl⟩
          have step : ∀ entry ∈ types, ∀ (other : String × AttributeType) (attr : String × Value),
              entry = other →
              (entry.1 = attr.1 ∧
                ofJson entry.2 ((Entries.find? entry.1 xs).getD .null) = .ok attr.2) →
              ∃ found : String × Value, (other.1 = found.1 ∧
                ofJson other.2 ((Entries.find? other.1 ys).getD .null) = .ok found.2) ∧
                (attr.1 = found.1 ∧ Reordered attr.2 found.2) := by
            rintro entry member _ attr rfl ⟨name, decoded⟩
            rcases inductionHypothesis entry member (declared entry member) decoded with
              ⟨found, means, reordered⟩
            exact ⟨(entry.1, found), ⟨rfl, means⟩, name.symm, reordered⟩
          rcases exists_forall₂_of_forall₂ step (List.forall₂_same.mpr fun _ _ => rfl) each with
            ⟨found, means, reordered⟩
          have ⟨sameNames, values⟩ := Entries.paired_iff_forall₂.mpr reordered
          exact ⟨.object found, ofJson_object_object_iff.mpr ⟨keys ▸ names, found, means, rfl⟩,
            .object sameNames values⟩

/-- A document is decoded exactly when another listing of it is, and the values that the two are
decoded to are equal, whichever of them is compared with the other. -/
theorem relisted_documents_decode_alike {type : AttributeType} {json other : Json}
    (relisted : Relisted type json other) :
    ((∃ value, ofJson type json = .ok value) ↔ ∃ found, ofJson type other = .ok found) ∧
      ∀ value found, ofJson type json = .ok value → ofJson type other = .ok found →
        (value == found) = true ∧ (found == value) = true := by
  refine ⟨⟨?_, ?_⟩, ?_⟩
  · rintro ⟨value, decoded⟩
    rcases exists_reordered_of_relisted relisted decoded with ⟨found, means, _⟩
    exact ⟨found, means⟩
  · rintro ⟨found, decoded⟩
    rcases exists_reordered_of_relisted relisted.symm decoded with ⟨value, means, _⟩
    exact ⟨value, means⟩
  · intro value found decoded decodedToo
    rcases exists_reordered_of_relisted relisted decoded with ⟨again, means, reordered⟩
    cases Except.ok.inj (means.symm.trans decodedToo)
    exact ⟨(reordered.same_right value).symm.trans (same_refl value),
      (reordered.same_left value).symm.trans (same_refl value)⟩

/-- The groups are turned around and so is one of them, in which an element is not known. -/
theorem turned_groups_decode_alike :
    let json := Json.object [("groups", .array [.array [.number (.int 1), .number (.int 2)],
      .array [.string unknownMarker, .number (.int 3)], .array [.number (.int 2)]])]
    let other := Json.object [("groups", .array [.array [.number (.int 3), .string unknownMarker],
      .array [.number (.int 2)], .array [.number (.int 2), .number (.int 1)]])]
    Relisted groupsType json other ∧
      ∃ value found, ofJson groupsType json = .ok value ∧ ofJson groupsType other = .ok found ∧
        value ≠ found ∧ (value == found) = true ∧ (found == value) = true := by
  intro json other
  have turned (first second : Json) :
      Relisted (.set .int64) (.array [first, second]) (.array [second, first]) :=
    .set_of_items (List.forall₂_same.mpr fun item _ => .refl _ item) (.swap second first [])
  have groups : Relisted (.set (.set .int64))
      (.array [.array [.number (.int 1), .number (.int 2)],
        .array [.string unknownMarker, .number (.int 3)], .array [.number (.int 2)]])
      (.array [.array [.number (.int 3), .string unknownMarker], .array [.number (.int 2)],
        .array [.number (.int 2), .number (.int 1)]]) :=
    .set_of_items (.cons (turned _ _) (.cons (turned _ _) (.cons (.refl _ _) .nil)))
      (@List.perm_append_comm _ [_] [_, _])
  have relisted : Relisted groupsType json other := by
    refine .object rfl (List.forall_mem_cons.mpr ⟨groups, ?_⟩) fun name undeclared => ?_
    · exact List.forall_mem_singleton.mpr (.refl _ _)
    · have absent : "groups" ≠ name := fun same => undeclared (same ▸ List.mem_cons_self)
      rw [Entries.find?_cons_of_ne absent, Entries.find?_cons_of_ne absent]
  have ⟨_, equal⟩ := relisted_documents_decode_alike relisted
  have decoded : ofJson groupsType json = .ok (object [("groups", set [set [int 1, int 2],
      set [unknown, int 3], set [int 2]]), ("note", null)]) := by rfl
  have decodedToo : ofJson groupsType other = .ok (object [("groups", set [set [int 3, unknown],
      set [int 2], set [int 2, int 1]]), ("note", null)]) := by rfl
  exact ⟨relisted, _, _, decoded, decodedToo, by simp, equal _ _ decoded decodedToo⟩

end Value
end ProviderKit

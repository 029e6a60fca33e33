import ProviderKit.Proofs.Json.RoundTrip

/-!
# Members in any order

A writer puts the members of an object in an order of its own, and a reader that goes by names
does not notice which.  A document arranges another one when it has the same members in every
object, once each, wherever they stand.  In key order it is that other document.
-/

namespace ProviderKit
namespace Json

/-- No object inside repeats a name. -/
inductive NamesDistinct : Json → Prop
  | null : NamesDistinct .null
  | bool (b : Bool) : NamesDistinct (.bool b)
  | number (n : Number) : NamesDistinct (.number n)
  | string (s : String) : NamesDistinct (.string s)
  | array {items : List Json} (inner : ∀ item ∈ items, NamesDistinct item) :
      NamesDistinct (.array items)
  | object {members : List (String × Json)} (nodup : (Entries.keys members).Nodup)
      (inner : ∀ member ∈ members, NamesDistinct member.2) : NamesDistinct (.object members)

theorem KeyOrdered.namesDistinct {document : Json} (ordered : document.KeyOrdered) :
    document.NamesDistinct := by
  induction ordered with
  | null => exact .null
  | bool b => exact .bool b
  | number n => exact .number n
  | string s => exact .string s
  | array _ inductionHypothesis => exact .array inductionHypothesis
  | object sorted _ inductionHypothesis => exact .object sorted.nodup inductionHypothesis

/-- Members that come in key order make an object in key order. -/
theorem KeyOrdered.ofPairs {pairs : List (String × Json)}
    (inner : ∀ pair ∈ pairs, pair.2.KeyOrdered) :
    (Json.object (Entries.ofPairs pairs)).KeyOrdered :=
  .object (Entries.sorted_ofPairs pairs) fun _ member => inner _ (Entries.mem_of_mem_ofPairs member)

/-- The document is the other one with the members of its objects in any order. -/
structure Arranges (document other : Json) : Prop where
  inKeyOrder_eq : document.inKeyOrder = other
  namesDistinct : document.NamesDistinct

theorem KeyOrdered.arranges {document : Json} (ordered : document.KeyOrdered) :
    document.Arranges document :=
  ⟨ordered.inKeyOrder_eq, ordered.namesDistinct⟩

/-- The members have the names of others, once each, and arrange what the others have under
them. -/
structure MembersArrange (members others : List (String × Json)) : Prop where
  nodup : (Entries.keys members).Nodup
  found : ∀ name, Option.Rel Arranges (Entries.find? name members) (Entries.find? name others)

variable {document other : Json} {members others : List (String × Json)}

/-- A document without members stands for itself. -/
theorem Arranges.eq_of_leaf (arranges : document.Arranges other)
    (noArray : ∀ items, other ≠ array items) (noObject : ∀ members, other ≠ object members) :
    document = other := by
  have same := arranges.inKeyOrder_eq
  cases document with
  | array items => exact absurd same.symm (noArray _)
  | object members => exact absurd same.symm (noObject _)
  | _ => exact same

theorem Arranges.isNull_eq (arranges : document.Arranges other) :
    document.isNull = other.isNull := by
  rw [← arranges.inKeyOrder_eq]
  cases document <;> rfl

/-- An object is arranged by the objects whose members arrange its members. -/
theorem Arranges.object (arranges : document.Arranges (object (Entries.ofPairs others)))
    (nodup : (Entries.keys others).Nodup) :
    ∃ members, document = .object members ∧ MembersArrange members others := by
  rcases arranges with ⟨same, distinct⟩
  cases distinct with
  | @object members membersNodup inner =>
      refine ⟨members, rfl, membersNodup, fun name => ?_⟩
      rw [inKeyOrder, inKeyOrderMembers_eq_mapValues] at same
      have keysNodup : (Entries.keys (Entries.mapValues inKeyOrder members)).Nodup := by
        rwa [Entries.keys_mapValues]
      have found : Entries.find? name others = (Entries.find? name members).map inKeyOrder := by
        rw [← Entries.find?_ofPairs nodup, ← object.inj same, Entries.find?_ofPairs keysNodup,
          Entries.find?_mapValues]
      rw [found]
      cases present : Entries.find? name members with
      | none => exact .none
      | some member => exact .some ⟨rfl, inner _ (Entries.mem_of_find? present)⟩
  | _ => cases same

namespace MembersArrange

variable {name : String}

theorem mem_keys_iff (arrange : MembersArrange members others) :
    name ∈ Entries.keys members ↔ name ∈ Entries.keys others := by
  rw [← Entries.find?_isSome_iff, ← Entries.find?_isSome_iff]
  exact match Entries.find? name members, Entries.find? name others, arrange.found name with
    | _, _, .none => Iff.rfl
    | _, _, .some _ => Iff.rfl

theorem eq_none (arrange : MembersArrange members others)
    (absent : Entries.find? name others = none) : Entries.find? name members = none := by
  rw [Entries.find?_eq_none_iff] at absent ⊢
  exact mt arrange.mem_keys_iff.mp absent

theorem exists_eq_some (arrange : MembersArrange members others)
    (present : Entries.find? name others = some other) :
    ∃ member, Entries.find? name members = some member ∧ member.Arranges other := by
  have related := arrange.found name
  rw [present] at related
  cases found : Entries.find? name members with
  | none =>
      rw [found] at related
      cases related
  | some member =>
      rw [found] at related
      cases related with
      | some arranges => exact ⟨member, rfl, arranges⟩

/-- A single member has one place. -/
theorem eq_singleton (arrange : MembersArrange members [(name, other)]) :
    ∃ member : Json, members = [(name, member)] ∧ member.Arranges other := by
  have keys : Entries.keys members = [name] :=
    List.perm_singleton.mp ((List.perm_ext_iff_of_nodup arrange.nodup (List.nodup_singleton _)).mpr
      fun _ => arrange.mem_keys_iff)
  rcases List.map_eq_singleton_iff.mp keys with ⟨⟨_, member⟩, rfl, rfl⟩
  rcases arrange.exists_eq_some (Entries.find?_cons_self _ _ _) with ⟨_, found, arranges⟩
  rw [Entries.find?_cons_self] at found
  exact ⟨member, rfl, Option.some.inj found ▸ arranges⟩

end MembersArrange

end Json
end ProviderKit

import ProviderKit.Proofs.Value.Codec

/-!
# Where the equality of values is an equivalence

The equality of values is reflexive and transitive, whatever the values are.  Whether it is
symmetric is a matter of the sets inside them.  The search for the elements of one set in another
of the same length turns around as long as neither set has two equal elements.  Decoding makes
sure of that for elements that are fully known, and lets any number of unknown ones through: two
unknown elements are both found in a set of an unknown and a null, but the null is not found among
them.

A set of two unknown elements can be decoded for every type of set.  So the values that are decoded
for a type are compared symmetrically exactly when no set occurs in the type.
-/

namespace ProviderKit

/-- A set occurs in the type, as the type itself or inside it. -/
inductive AttributeType.HasSet : AttributeType → Prop
  | set (element : AttributeType) : HasSet (.set element)
  | list {element : AttributeType} (inner : HasSet element) : HasSet (.list element)
  | map {element : AttributeType} (inner : HasSet element) : HasSet (.map element)
  | object {attributes : List (String × AttributeType)} {name : String} {type : AttributeType}
      (declared : Entries.find? name attributes = some type) (inner : HasSet type) :
      HasSet (.object attributes)

namespace Value

/-- Some document is decoded to the value. -/
def Decoded (type : AttributeType) (value : Value) : Prop :=
  ∃ json, ofJson type json = .ok value

/-- No set inside the value has an element that equals an earlier one, be it known or not. -/
inductive AllDistinct : Value → Prop
  | null : AllDistinct .null
  | unknown : AllDistinct .unknown
  | bool (b : Bool) : AllDistinct (.bool b)
  | number (n : Json.Number) : AllDistinct (.number n)
  | string (s : String) : AllDistinct (.string s)
  | list {elements : List Value} (inner : ∀ element ∈ elements, AllDistinct element) :
      AllDistinct (.list elements)
  | set {elements : List Value} (inner : ∀ element ∈ elements, AllDistinct element)
      (distinct : elements.Pairwise fun earlier element => earlier.same element = false) :
      AllDistinct (.set elements)
  | map {entries : List (String × Value)} (inner : ∀ entry ∈ entries, AllDistinct entry.2) :
      AllDistinct (.map entries)
  | object {attributes : List (String × Value)}
      (inner : ∀ entry ∈ attributes, AllDistinct entry.2) : AllDistinct (.object attributes)

/-! ## Values without equal elements -/

private theorem elements_comm {xs ys : List Value}
    (each : ∀ x ∈ xs, ∀ y ∈ ys, (x.same y = true ↔ y.same x = true)) :
    List.Forall₂ (fun x y => x.same y = true) xs ys ↔
      List.Forall₂ (fun y x => y.same x = true) ys xs := by
  induction xs generalizing ys with
  | nil => cases ys <;> simp
  | cons x xs inductionHypothesis =>
      cases ys with
      | nil => simp
      | cons y ys =>
          rw [List.forall₂_cons, List.forall₂_cons]
          refine and_congr (each x List.mem_cons_self y List.mem_cons_self)
            (inductionHypothesis fun x left y right => ?_)
          exact each x (List.mem_cons_of_mem _ left) y (List.mem_cons_of_mem _ right)

private theorem entries_comm {xs ys : List (String × Value)}
    (each : ∀ x ∈ xs, ∀ y ∈ ys, (x.2.same y.2 = true ↔ y.2.same x.2 = true)) :
    Entries.Paired (fun x y => x.same y = true) xs ys ↔
      Entries.Paired (fun y x => y.same x = true) ys xs := by
  refine and_congr eq_comm (elements_comm ?_)
  exact List.forall_mem_map.mpr fun x left => List.forall_mem_map.mpr (each x left)

/-- Two elements that are found at one place are equal to each other, so that without equal
elements in the first set every place of the second is one of them. -/
private theorem set_same_of_same {xs ys : List Value}
    (each : ∀ x ∈ xs, ∀ y ∈ ys, (x.same y = true ↔ y.same x = true))
    (distinct : xs.Pairwise fun earlier element => earlier.same element = false)
    (equal : (set xs).same (set ys) = true) : (set ys).same (set xs) = true := by
  rcases same_set_iff.mp equal with ⟨lengths, found⟩
  have places : ∀ x ∈ xs, ∃ y ∈ ys, x.same y = true := by
    intro x left
    rcases found x left with ⟨y, right, related⟩
    exact ⟨y, right, (each x left y right).mpr related⟩
  refine same_set_iff.mpr ⟨lengths.symm, ?_⟩
  refine exists_mem_of_apart (R := fun x y : Value => x.same y = true) lengths places ?_
  refine distinct.imp_of_mem fun {x other} _ also differ y right first again => ?_
  have back : y.same other = true := (each other also y right).mp again
  exact Bool.false_ne_true (differ.symm.trans (same_trans first back))

private theorem AllDistinct.same_iff {v w : Value} (left : AllDistinct v) (right : AllDistinct w) :
    v.same w = true ↔ w.same v = true := by
  induction left generalizing w with
  | null => rw [null_same, same_null]
  | unknown => cases w <;> exact Iff.rfl
  | bool b =>
      cases w with
      | bool c => exact Bool.eq_iff_iff.mp (sameFrom_swap false (.bool b) (.bool c))
      | _ => exact Iff.rfl
  | number m =>
      cases w with
      | number n => exact Bool.eq_iff_iff.mp (sameFrom_swap false (.number m) (.number n))
      | _ => exact Iff.rfl
  | string s =>
      cases w with
      | string t => exact Bool.eq_iff_iff.mp (sameFrom_swap false (.string s) (.string t))
      | _ => exact Iff.rfl
  | list _ inductionHypothesis =>
      cases right with
      | list others =>
          rw [same_list_iff, same_list_iff]
          exact elements_comm fun x member y other =>
            inductionHypothesis x member (others y other)
      | _ => exact Iff.rfl
  | set _ distinct inductionHypothesis =>
      cases right with
      | set others othersDistinct =>
          exact ⟨set_same_of_same (fun x member y other =>
              inductionHypothesis x member (others y other)) distinct,
            set_same_of_same (fun y other x member =>
              (inductionHypothesis x member (others y other)).symm) othersDistinct⟩
      | _ => exact Iff.rfl
  | map _ inductionHypothesis =>
      cases right with
      | map others =>
          rw [same_map_iff, same_map_iff]
          exact entries_comm fun x member y other =>
            inductionHypothesis x member (others y other)
      | _ => exact Iff.rfl
  | object _ inductionHypothesis =>
      cases right with
      | object others =>
          rw [same_object_iff, same_object_iff]
          exact entries_comm fun x member y other =>
            inductionHypothesis x member (others y other)
      | _ => exact Iff.rfl

/-- The sides of a comparison may be exchanged where no set has two equal elements. -/
theorem AllDistinct.same_comm {v w : Value} (left : AllDistinct v) (right : AllDistinct w) :
    v.same w = w.same v :=
  Bool.eq_iff_iff.mpr (left.same_iff right)

theorem Untyped.allDistinct {value : Value} (untyped : Untyped value) : AllDistinct value := by
  induction untyped with
  | null => exact .null
  | unknown => exact .unknown
  | bool b => exact .bool b
  | number n => exact .number n
  | string => exact .string _
  | list _ inductionHypothesis => exact .list inductionHypothesis
  | object _ inductionHypothesis => exact .object inductionHypothesis

/-- The values of a type without sets have no sets. -/
theorem HasType.allDistinct {type : AttributeType} {value : Value} (typed : HasType type value)
    (wellFormed : type.WellFormed) (noSet : ¬ type.HasSet) : AllDistinct value := by
  induction typed with
  | null => exact .null
  | unknown => exact .unknown
  | string => exact .string _
  | int64 => exact .number _
  | float64 n => exact .number n
  | bool b => exact .bool b
  | list _ inductionHypothesis =>
      cases wellFormed with
      | list inner =>
          exact .list fun element member =>
            inductionHypothesis element member inner (mt .list noSet)
  | set => exact absurd (.set _) noSet
  | map _ inductionHypothesis =>
      cases wellFormed with
      | map inner =>
          exact .map fun entry member => inductionHypothesis entry member inner (mt .map noSet)
  | @object types attributes keys _ inductionHypothesis =>
      cases wellFormed with
      | object sorted inner =>
          refine .object fun entry member => ?_
          have declared : entry.1 ∈ Entries.keys types := keys ▸ Entries.mem_keys_of_mem member
          rcases Entries.exists_find? declared with ⟨type, found⟩
          have nodup : (Entries.keys attributes).Nodup := keys ▸ sorted.nodup
          exact inductionHypothesis entry.1 type entry.2 found (Entries.find?_of_mem nodup member)
            (inner _ (Entries.mem_of_find? found)) (mt (.object found) noSet)
  | dynamic untyped => exact untyped.allDistinct

/-! ## Sets of unknown elements -/

/-- The object of a type with one attribute given and the others null. -/
def givenOnly (types : List (String × AttributeType)) (name : String) (value : Value) : Value :=
  .object (Entries.insert name value (Entries.mapValues (fun _ => null) types))

section GivenOnly

variable {types : List (String × AttributeType)} {name : String} {type : AttributeType}

theorem attributeNamed_givenOnly (types : List (String × AttributeType)) (name : String)
    (value : Value) : (givenOnly types name value).attributeNamed name = value := by
  rw [givenOnly, attributeNamed_object, Entries.find?_insert_self]
  rfl

private theorem keys_givenOnly (sorted : Entries.Sorted types)
    (declared : Entries.find? name types = some type) (value : Value) :
    Entries.keys (Entries.insert name value (Entries.mapValues (fun _ => null) types)) =
      Entries.keys types := by
  have nulls : Entries.keys (Entries.mapValues (fun _ => null) types) = Entries.keys types :=
    Entries.keys_mapValues _ _
  have member : name ∈ Entries.keys types := Entries.find?_isSome_iff.mp (declared ▸ rfl)
  rw [Entries.keys_insert_of_mem ((Entries.sorted_congr nulls).mpr sorted) (nulls ▸ member), nulls]

private theorem eq_null_of_find? {other : String} (different : other ≠ name) {value found : Value}
    (present : Entries.find? other
      (Entries.insert name value (Entries.mapValues (fun _ => null) types)) = some found) :
    found = null := by
  rw [Entries.find?_insert_of_ne different, Entries.find?_mapValues] at present
  rcases Option.map_eq_some_iff.mp present with ⟨_, _, same⟩
  exact same.symm

theorem conforms_givenOnly (sorted : Entries.Sorted types)
    (declared : Entries.find? name types = some type) {value : Value}
    (conforms : Conforms type value) : Conforms (.object types) (givenOnly types name value) := by
  refine .object (keys_givenOnly sorted declared value) ?_
  intro other otherType found known present
  by_cases same : other = name
  · subst same
    rw [Entries.find?_insert_self] at present
    cases present
    cases known.symm.trans declared
    exact conforms
  · rw [eq_null_of_find? same present]
    exact .null otherType

theorem givenOnly_same (types : List (String × AttributeType)) (name : String) {v w : Value}
    (equal : v.same w = true) :
    (givenOnly types name v).same (givenOnly types name w) = true :=
  same_object_iff.mpr (Entries.Paired.insert (Entries.paired_refl same_refl _) name equal)

end GivenOnly

/-- Every type with a set has two values of which only one equals the other.  In a set they have
two unknown elements, and an unknown and a null one. -/
theorem exists_same_one_way {type : AttributeType} (hasSet : type.HasSet)
    (wellFormed : type.WellFormed) :
    ∃ u v, Conforms type u ∧ Conforms type v ∧ u.same v = true ∧ ¬ v.same u = true := by
  induction hasSet with
  | set element =>
      refine ⟨.set [.unknown, .unknown], .set [.unknown, .null], .set ?_ ?_, .set ?_ ?_, rfl, nofun⟩
      · simp [Conforms.unknown]
      · simp [isFullyKnown]
      · simp [Conforms.unknown, Conforms.null]
      · exact List.pairwise_pair.mpr fun _ => rfl
  | list _ inductionHypothesis =>
      cases wellFormed with
      | list inner =>
          rcases inductionHypothesis inner with ⟨u, v, left, right, equal, unequal⟩
          refine ⟨.list [u], .list [v], .list (by simpa), .list (by simpa), ?_, ?_⟩
          · exact same_list_iff.mpr (.cons equal .nil)
          · rw [same_list_iff, List.forall₂_cons]
            exact fun both => unequal both.1
  | map _ inductionHypothesis =>
      cases wellFormed with
      | map inner =>
          rcases inductionHypothesis inner with ⟨u, v, left, right, equal, unequal⟩
          refine ⟨.map [("", u)], .map [("", v)], .map (by simpa), .map (by simpa), ?_, ?_⟩
          · exact same_map_iff.mpr ⟨rfl, .cons equal .nil⟩
          · rw [same_map_iff, Entries.paired_cons_iff]
            exact fun both => unequal both.2.1
  | @object types name _ declared _ inductionHypothesis =>
      cases wellFormed with
      | object sorted inner =>
          rcases inductionHypothesis (inner _ (Entries.mem_of_find? declared)) with
            ⟨u, v, left, right, equal, unequal⟩
          refine ⟨givenOnly types name u, givenOnly types name v,
            conforms_givenOnly sorted declared left, conforms_givenOnly sorted declared right,
            givenOnly_same types name equal, fun turned => unequal ?_⟩
          have inside := attributeNamed_same turned name
          rwa [attributeNamed_givenOnly, attributeNamed_givenOnly] at inside

/-! ## The laws of the equality of decoded values -/

theorem Decoded.conforms {type : AttributeType} {value : Value} (decoded : Decoded type value) :
    HasType type value ∧ DistinctSets value := by
  rcases decoded with ⟨json, success⟩
  exact conforms_of_decodeAt success

theorem Conforms.ofJson_toJson {type : AttributeType} {value : Value}
    (conforms : Conforms type value) (wellFormed : type.WellFormed) :
    ofJson type value.toJson = .ok value :=
  (decodeAt_toJson_iff conforms.hasType wellFormed [] value).mpr
    ⟨conforms.distinctSets wellFormed, rfl⟩

theorem Conforms.decoded {type : AttributeType} {value : Value} (conforms : Conforms type value)
    (wellFormed : type.WellFormed) : Decoded type value :=
  ⟨value.toJson, conforms.ofJson_toJson wellFormed⟩

/-- Equality is reflexive and transitive.  Two values without equal elements in a set are compared
symmetrically, and so are two decoded values of which one is fully known.  For all decoded values
of a type this holds exactly when no set occurs in the type. -/
theorem equality_is_symmetric_iff_no_set {type : AttributeType} (wellFormed : type.WellFormed) :
    (∀ u : Value, (u == u) = true) ∧
      (∀ u v w : Value, (u == v) = true → (v == w) = true → (u == w) = true) ∧
      (∀ u v : Value, AllDistinct u → AllDistinct v → (u == v) = (v == u)) ∧
      (∀ u v, Decoded type u → Decoded type v →
        u.isFullyKnown = true ∨ v.isFullyKnown = true → (u == v) = (v == u)) ∧
      ((∀ u v, Decoded type u → Decoded type v → (u == v) = true → (v == u) = true) ↔
        ¬ type.HasSet) := by
  refine ⟨same_refl, fun u v w => same_trans, fun u v => AllDistinct.same_comm, ?_, ?_, ?_⟩
  · rintro u v left right (known | known)
    · exact left.conforms.2.same_comm known right.conforms.2
    · exact (right.conforms.2.same_comm known left.conforms.2).symm
  · intro symmetric hasSet
    rcases exists_same_one_way hasSet wellFormed with ⟨u, v, left, right, equal, unequal⟩
    exact unequal (symmetric u v (left.decoded wellFormed) (right.decoded wellFormed) equal)
  · intro noSet u v left right equal
    have distinct := left.conforms.1.allDistinct wellFormed noSet
    exact (distinct.same_iff (right.conforms.1.allDistinct wellFormed noSet)).mp equal

/-- Groups in sets are not compared symmetrically by their type, and those of which one is fully
known are. -/
theorem equality_of_groups :
    groupsType.WellFormed ∧ groupsType.HasSet ∧
      ¬ (∀ u v, Decoded groupsType u → Decoded groupsType v → (u == v) = true → (v == u) = true) ∧
      ∀ u, Decoded groupsType u →
        (u == object [("groups", .set [.set [.int 1, .int 2]]), ("note", .null)]) =
          (object [("groups", .set [.set [.int 1, .int 2]]), ("note", .null)] == u) := by
  have hasSet : groupsType.HasSet := @AttributeType.HasSet.object _ "groups" _ rfl (.set _)
  rcases equality_is_symmetric_iff_no_set groupsType_wellFormed with ⟨_, _, _, known, symmetric⟩
  refine ⟨groupsType_wellFormed, hasSet, fun always => symmetric.mp always hasSet, ?_⟩
  intro u decoded
  exact known u _ decoded ⟨.object [("groups", .array [.array [.number (.int 1),
    .number (.int 2)]])], rfl⟩ (.inr rfl)

/-- Two unknown ports are both found among an unknown port and a known one.  The known one is not
found among them. -/
theorem unknown_ports_equal_one_way :
    let ports := AttributeType.set .int64
    let pending := Value.set [.unknown, .unknown]
    let assigned := Value.set [.unknown, .int 443]
    Decoded ports pending ∧ Decoded ports assigned ∧
      (pending == assigned) = true ∧ (assigned == pending) = false :=
  ⟨⟨.array [.string unknownMarker, .string unknownMarker], rfl⟩,
    ⟨.array [.string unknownMarker, .number (.int 443)], rfl⟩, rfl, rfl⟩

end Value
end ProviderKit

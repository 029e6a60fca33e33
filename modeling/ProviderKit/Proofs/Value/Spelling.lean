import ProviderKit.Proofs.Value.Acceptance
import ProviderKit.Proofs.Value.Equivalence

/-!
# How numbers are written

The number one can be written as an integer and as a double.  A type of whole numbers turns both
into the integer, so that nothing of a document's spelling is left in what it means.  A type of any
numbers keeps each number the way it was written, and the equality of values does not look through
the difference: `1` and `1.0` have different meanings there, and two elements of a set.

Documents are compared here after they have been parsed.  An integer of the document is exact, and
a double stands for the number that its literal was rounded to.
-/

namespace ProviderKit

namespace Binary64

def one : Binary64 :=
  ⟨false, 2 ^ 52, 1022, by decide⟩

theorem scaled_one : one.scaled = unitsPerOne := by
  have units : one.units = unitsPerOne := by
    have exponent : 1074 = 52 + 1022 := rfl
    rw [unitsPerOne, exponent, Nat.pow_add, Binary64.units, one]
  rw [← units]
  rfl

end Binary64

namespace Json

namespace Number

/-- The integer that a number is read as depends on its value alone. -/
theorem toInt64?_congr {m n : Number} (equal : m.scaled = n.scaled) :
    m.toInt64? = n.toInt64? := by
  refine Option.ext fun i => ?_
  rw [toInt64?_eq_some_iff, toInt64?_eq_some_iff, equal]

/-- The integer one and the double one are the same number. -/
theorem scaled_one : scaled (.int 1) = scaled (.float .one) := by
  rw [scaled, scaled, Binary64.scaled_one, Int.one_mul]

end Number

/-- The second document is the first one with numbers written in another way, at any depth. -/
inductive Respelled : Json → Json → Prop
  | refl (json : Json) : Respelled json json
  | number {m n : Number} (equal : m.scaled = n.scaled) : Respelled (.number m) (.number n)
  | array {xs ys : List Json} (items : List.Forall₂ Respelled xs ys) :
      Respelled (.array xs) (.array ys)
  | object {xs ys : List (String × Json)} (keys : Entries.keys xs = Entries.keys ys)
      (values : List.Forall₂ Respelled (Entries.values xs) (Entries.values ys)) :
      Respelled (.object xs) (.object ys)

theorem Respelled.symm {json other : Json} (respelled : Respelled json other) :
    Respelled other json := by
  induction json using Json.induct generalizing other with
  | null | bool | string => cases respelled; exact .refl _
  | number =>
      cases respelled with
      | refl => exact .refl _
      | number equal => exact .number equal.symm
  | array xs inductionHypothesis =>
      cases respelled with
      | refl => exact .refl _
      | array items =>
          refine .array ((forall₂_with_mem items).imp fun x _ both => ?_).flip
          exact inductionHypothesis x both.1 both.2
  | object xs inductionHypothesis =>
      cases respelled with
      | refl => exact .refl _
      | object keys values =>
          refine .object keys.symm ((forall₂_with_mem values).imp fun x _ both => ?_).flip
          rcases List.mem_map.mp both.1 with ⟨entry, member, rfl⟩
          exact inductionHypothesis entry member both.2

end Json

/-- Numbers inside a value of the type may be kept as they are written. -/
inductive AttributeType.KeepsSpelling : AttributeType → Prop
  | float64 : KeepsSpelling .float64
  | list {element : AttributeType} (inner : KeepsSpelling element) : KeepsSpelling (.list element)
  | set {element : AttributeType} (inner : KeepsSpelling element) : KeepsSpelling (.set element)
  | map {element : AttributeType} (inner : KeepsSpelling element) : KeepsSpelling (.map element)
  | object {attributes : List (String × AttributeType)} {entry : String × AttributeType}
      (member : entry ∈ attributes) (inner : KeepsSpelling entry.2) :
      KeepsSpelling (.object attributes)
  | dynamic : KeepsSpelling .dynamic

namespace Value

open Json (Respelled)

/-! ## Types that look through the spelling -/

/-- Where no number is kept as it is written, documents that differ in nothing but the spelling of
numbers are decoded to the same value or refused for the same reason. -/
theorem decodeAt_respelled {type : AttributeType} (looksThrough : ¬ type.KeepsSpelling)
    {json other : Json} (respelled : Respelled json other) (path : Path) :
    decodeAt .strict type path json = decodeAt .strict type path other := by
  induction type using AttributeType.induct generalizing path json other with
  | string | bool => cases respelled <;> rfl
  | int64 =>
      cases respelled with
      | number equal =>
          unfold decodeAt
          simp only [isMarker, Json.isNull, Json.Number.toInt64?_congr equal]
          rfl
      | _ => rfl
  | float64 => exact absurd .float64 looksThrough
  | dynamic => exact absurd .dynamic looksThrough
  | list element inductionHypothesis =>
      cases respelled with
      | array items =>
          rw [decodeAt_list_array, decodeAt_list_array, decodeElements_congr
            (items.imp fun _ _ => inductionHypothesis (mt .list looksThrough))]
      | _ => rfl
  | set element inductionHypothesis =>
      cases respelled with
      | array items =>
          rw [decodeAt_set_array, decodeAt_set_array, decodeElements_congr
            (items.imp fun _ _ => inductionHypothesis (mt .set looksThrough))]
      | _ => rfl
  | map element inductionHypothesis =>
      cases respelled with
      | object keys values =>
          rw [decodeAt_map_object, decodeAt_map_object, decodeEntries_congr
            ⟨keys, values.imp fun _ _ => inductionHypothesis (mt .map looksThrough)⟩]
      | _ => rfl
  | object types inductionHypothesis =>
      cases respelled with
      | @object xs ys keys values =>
          have undeclared : firstUndeclared? types xs = firstUndeclared? types ys := by
            rw [firstUndeclared?, keys, firstUndeclared?]
          have paired : Entries.Paired Respelled xs ys := ⟨keys, values⟩
          have attributes : decodeAttributes .strict types path xs =
              decodeAttributes .strict types path ys :=
            decodeAttributes_congr fun entry member => inductionHypothesis entry member
              (fun inner => looksThrough (.object member inner))
              (paired.find?_getD entry.1 (.refl .null))
          rw [decodeAt_object_object, decodeAt_object_object, undeclared, attributes]
      | _ => rfl

/-! ## Types that keep the spelling -/

theorem givenOnly_respelled (types : List (String × AttributeType)) (name : String) {v w : Value}
    (respelled : Respelled v.toJson w.toJson) :
    Respelled (givenOnly types name v).toJson (givenOnly types name w).toJson := by
  simp only [givenOnly, toJson, toJsonMembers_eq_map, Entries.mapValues_insert]
  rcases (Entries.paired_refl Respelled.refl _).insert name respelled with ⟨keys, values⟩
  exact .object keys values

/-- Every type that keeps the spelling of some number has two values that are not equal and whose
documents differ in the spelling of numbers only. -/
theorem exists_respelled_apart {type : AttributeType} (keeps : type.KeepsSpelling)
    (wellFormed : type.WellFormed) :
    ∃ u v, Conforms type u ∧ Conforms type v ∧ Respelled u.toJson v.toJson ∧
      ¬ u.same v = true := by
  induction keeps with
  | float64 =>
      exact ⟨.number (.int 1), .number (.float .one), .float64 _, .float64 _,
        .number Json.Number.scaled_one, Bool.false_ne_true⟩
  | dynamic =>
      exact ⟨.number (.int 1), .number (.float .one), .dynamic (.number _), .dynamic (.number _),
        .number Json.Number.scaled_one, Bool.false_ne_true⟩
  | list _ inductionHypothesis =>
      cases wellFormed with
      | list inner =>
          rcases inductionHypothesis inner with ⟨u, v, left, right, respelled, unequal⟩
          refine ⟨.list [u], .list [v], .list (by simpa), .list (by simpa), ?_, ?_⟩
          · exact .array (.cons respelled .nil)
          · rw [same_list_iff, List.forall₂_cons]
            exact fun both => unequal both.1
  | set _ inductionHypothesis =>
      cases wellFormed with
      | set inner =>
          rcases inductionHypothesis inner with ⟨u, v, left, right, respelled, unequal⟩
          refine ⟨.set [v], .set [u], .set (by simpa) (List.pairwise_singleton _ _),
            .set (by simpa) (List.pairwise_singleton _ _), ?_, ?_⟩
          · exact .array (.cons respelled.symm .nil)
          · rw [same_set_iff]
            rintro ⟨_, found⟩
            rcases found v List.mem_cons_self with ⟨w, member, equal⟩
            exact unequal (List.mem_singleton.mp member ▸ equal)
  | map _ inductionHypothesis =>
      cases wellFormed with
      | map inner =>
          rcases inductionHypothesis inner with ⟨u, v, left, right, respelled, unequal⟩
          refine ⟨.map [("", u)], .map [("", v)], .map (by simpa), .map (by simpa), ?_, ?_⟩
          · exact .object rfl (.cons respelled .nil)
          · rw [same_map_iff, Entries.paired_cons_iff]
            exact fun both => unequal both.2.1
  | @object types entry member _ inductionHypothesis =>
      cases wellFormed with
      | object sorted inner =>
          have declared := Entries.find?_of_mem sorted.nodup member
          rcases inductionHypothesis (inner entry member) with
            ⟨u, v, left, right, respelled, unequal⟩
          refine ⟨givenOnly types entry.1 u, givenOnly types entry.1 v,
            conforms_givenOnly sorted declared left, conforms_givenOnly sorted declared right,
            givenOnly_respelled types entry.1 respelled, fun equal => unequal ?_⟩
          have inside := attributeNamed_same equal entry.1
          rwa [attributeNamed_givenOnly, attributeNamed_givenOnly] at inside

/-! ## Documents that differ in the spelling of numbers -/

/-- Both readings give a value and the values are equal, or both are refused. -/
inductive Agree : Except ValueError Value → Except ValueError Value → Prop
  | values {v w : Value} (equal : (v == w) = true) : Agree (.ok v) (.ok w)
  | refusals (problem other : ValueError) : Agree (.error problem) (.error other)

theorem Agree.refl (reading : Except ValueError Value) : Agree reading reading := by
  cases reading with
  | error problem => exact .refusals problem problem
  | ok v => exact .values (same_refl v)

/-- The spelling of numbers makes no difference to a type exactly when no number inside its values
is kept as it is written.  Then nothing is left of the spelling, and documents that differ in it
alone are decoded to the same value or refused for the same reason. -/
theorem spelling_is_forgotten_iff {type : AttributeType} (wellFormed : type.WellFormed) :
    ((∀ json other, Respelled json other → Agree (ofJson type json) (ofJson type other)) ↔
        ¬ type.KeepsSpelling) ∧
      (¬ type.KeepsSpelling → ∀ json other, Respelled json other →
        ofJson type json = ofJson type other) := by
  have coincide (looksThrough : ¬ type.KeepsSpelling) (json other : Json)
      (respelled : Respelled json other) : ofJson type json = ofJson type other :=
    decodeAt_respelled looksThrough respelled []
  refine ⟨⟨fun always keeps => ?_, fun looksThrough json other respelled => ?_⟩, coincide⟩
  · rcases exists_respelled_apart keeps wellFormed with ⟨u, v, left, right, respelled, unequal⟩
    have agree := always _ _ respelled
    rw [left.ofJson_toJson wellFormed, right.ofJson_toJson wellFormed] at agree
    cases agree with
    | values equal => exact unequal equal
  · rw [coincide looksThrough json other respelled]
    exact .refl _

/-- A list of ports may be written with doubles, and is read as the same integers. -/
theorem ports_written_as_doubles :
    let type := AttributeType.object [("name", .string), ("ports", .list .int64)]
    let whole := Json.object [("ports", .array [.number (.int 1), .null])]
    let fractional := Json.object [("ports", .array [.number (.float .one), .null])]
    let value := object [("name", .null), ("ports", .list [.int 1, .null])]
    type.WellFormed ∧ ¬ type.KeepsSpelling ∧ Respelled whole fractional ∧
      ofJson type whole = .ok value ∧ ofJson type fractional = .ok value := by
  intro type whole fractional value
  have sorted : "name" < "ports" := String.lt_iff_toList_lt.mpr (by decide)
  have wellFormed : type.WellFormed :=
    .object (List.pairwise_pair.mpr sorted) (by simp [AttributeType.WellFormed.string,
      AttributeType.WellFormed.list, AttributeType.WellFormed.int64])
  have looksThrough : ¬ type.KeepsSpelling := by
    unfold type
    intro keeps
    cases keeps with
    | object member inner =>
        simp only [List.mem_cons, List.not_mem_nil, or_false] at member
        rcases member with rfl | rfl
        · cases inner
        · cases inner with
          | list inner => cases inner
  have respelled : Respelled whole fractional :=
    .object rfl (.cons (.array (.cons (.number Json.Number.scaled_one)
      (.cons (.refl .null) .nil))) .nil)
  have decoded : ofJson type whole = .ok value := rfl
  have coincide := (spelling_is_forgotten_iff wellFormed).2 looksThrough whole fractional respelled
  exact ⟨wellFormed, looksThrough, respelled, decoded, coincide.symm.trans decoded⟩

/-- A ratio of one is another value when it is written as a double, and a set of ratios takes the
one beside the other, although it refuses one of them twice. -/
theorem ratio_written_as_double_differs :
    let whole := Json.number (.int 1)
    let fractional := Json.number (.float .one)
    Respelled whole fractional ∧
      ofJson .float64 whole = .ok (number (.int 1)) ∧
      ofJson .float64 fractional = .ok (number (.float .one)) ∧
      (number (.int 1) == number (.float .one)) = false ∧
      Respelled (.array [whole, whole]) (.array [whole, fractional]) ∧
      ofJson (.set .float64) (.array [whole, whole]) =
        .error (.duplicateSetElement (Path.atIndex [] 1)) ∧
      ofJson (.set .float64) (.array [whole, fractional]) =
        .ok (set [number (.int 1), number (.float .one)]) := by
  intro whole fractional
  have respelled : Respelled whole fractional := .number Json.Number.scaled_one
  exact ⟨respelled, rfl, rfl, rfl, .array (.cons (.refl whole) (.cons respelled .nil)), rfl, rfl⟩

end Value
end ProviderKit

import ProviderKit.Proofs.Number.Int64
import ProviderKit.Proofs.Success
import ProviderKit.Proofs.Value.Equality
import ProviderKit.Value.Decode

/-!
# Values that conform to a type

`HasType` says which values a type describes, by recursion on the type and without the
decoder.  It leaves out one demand of the decoder, that an element of a set that is fully
known differs from the earlier ones: `DistinctSets` says so for every set inside a value.
The two are kept apart because an operation on decoded values may keep the one and break the
other.

What is decoded has its type and distinct sets.  A value that has its type is decoded from
its own document exactly when its sets are distinct, and never to another value.
-/

namespace ProviderKit

/-- The attributes of every object type inside are in strictly increasing name order. -/
inductive AttributeType.WellFormed : AttributeType → Prop
  | string : WellFormed .string
  | int64 : WellFormed .int64
  | float64 : WellFormed .float64
  | bool : WellFormed .bool
  | list {element : AttributeType} (inner : WellFormed element) : WellFormed (.list element)
  | set {element : AttributeType} (inner : WellFormed element) : WellFormed (.set element)
  | map {element : AttributeType} (inner : WellFormed element) : WellFormed (.map element)
  | object {attributes : List (String × AttributeType)} (sorted : Entries.Sorted attributes)
      (inner : ∀ entry ∈ attributes, WellFormed entry.2) : WellFormed (.object attributes)
  | dynamic : WellFormed .dynamic

namespace Value

/-- What a document can mean without a type: neither sets nor maps occur, and no string is
the marker of an unknown value. -/
inductive Untyped : Value → Prop
  | null : Untyped .null
  | unknown : Untyped .unknown
  | bool (b : Bool) : Untyped (.bool b)
  | number (n : Json.Number) : Untyped (.number n)
  | string {s : String} (ordinary : s ≠ unknownMarker) : Untyped (.string s)
  | list {elements : List Value} (untyped : ∀ element ∈ elements, Untyped element) :
      Untyped (.list elements)
  | object {attributes : List (String × Value)}
      (untyped : ∀ entry ∈ attributes, Untyped entry.2) : Untyped (.object attributes)

/-- The values of a type.  Null and unknown belong to every type, and an object has exactly
the attributes that its type declares. -/
inductive HasType : AttributeType → Value → Prop
  | null (type : AttributeType) : HasType type .null
  | unknown (type : AttributeType) : HasType type .unknown
  | string {s : String} (ordinary : s ≠ unknownMarker) : HasType .string (.string s)
  | int64 {n : Int} (inRange : Json.Number.inInt64? n = some n) : HasType .int64 (.int n)
  | float64 (n : Json.Number) : HasType .float64 (.number n)
  | bool (b : Bool) : HasType .bool (.bool b)
  | list {type : AttributeType} {elements : List Value}
      (typed : ∀ element ∈ elements, HasType type element) : HasType (.list type) (.list elements)
  | set {type : AttributeType} {elements : List Value}
      (typed : ∀ element ∈ elements, HasType type element) : HasType (.set type) (.set elements)
  | map {type : AttributeType} {entries : List (String × Value)}
      (typed : ∀ entry ∈ entries, HasType type entry.2) : HasType (.map type) (.map entries)
  | object {types : List (String × AttributeType)} {attributes : List (String × Value)}
      (keys : Entries.keys attributes = Entries.keys types)
      (typed : ∀ name type value, Entries.find? name types = some type →
        Entries.find? name attributes = some value → HasType type value) :
      HasType (.object types) (.object attributes)
  | dynamic {value : Value} (untyped : Untyped value) : HasType .dynamic value

/-- No fully known element equals an earlier one. -/
def NoRepeats (elements : List Value) : Prop :=
  elements.Pairwise fun earlier element =>
    element.isFullyKnown = true → earlier.same element = false

/-- No set inside the value repeats a fully known element. -/
inductive DistinctSets : Value → Prop
  | null : DistinctSets .null
  | unknown : DistinctSets .unknown
  | bool (b : Bool) : DistinctSets (.bool b)
  | number (n : Json.Number) : DistinctSets (.number n)
  | string (s : String) : DistinctSets (.string s)
  | list {elements : List Value} (inner : ∀ element ∈ elements, DistinctSets element) :
      DistinctSets (.list elements)
  | set {elements : List Value} (inner : ∀ element ∈ elements, DistinctSets element)
      (distinct : NoRepeats elements) : DistinctSets (.set elements)
  | map {entries : List (String × Value)} (inner : ∀ entry ∈ entries, DistinctSets entry.2) :
      DistinctSets (.map entries)
  | object {attributes : List (String × Value)}
      (inner : ∀ entry ∈ attributes, DistinctSets entry.2) : DistinctSets (.object attributes)

theorem distinctSets_list_iff {elements : List Value} :
    DistinctSets (.list elements) ↔ ∀ element ∈ elements, DistinctSets element := by
  constructor
  · rintro ⟨⟩
    assumption
  · exact .list

theorem distinctSets_set_iff {elements : List Value} :
    DistinctSets (.set elements) ↔
      (∀ element ∈ elements, DistinctSets element) ∧ NoRepeats elements := by
  constructor
  · rintro ⟨⟩
    exact ⟨‹_›, ‹_›⟩
  · exact fun ⟨inner, distinct⟩ => .set inner distinct

theorem distinctSets_map_iff {entries : List (String × Value)} :
    DistinctSets (.map entries) ↔ ∀ entry ∈ entries, DistinctSets entry.2 := by
  constructor
  · rintro ⟨⟩
    assumption
  · exact .map

theorem distinctSets_object_iff {attributes : List (String × Value)} :
    DistinctSets (.object attributes) ↔ ∀ entry ∈ attributes, DistinctSets entry.2 := by
  constructor
  · rintro ⟨⟩
    assumption
  · exact .object

/-! ## Decoding containers -/

variable {decode : Path → Json → Except ValueError Value} {path : Path}

/-- Every decoded element comes from some item. -/
theorem of_mem_decodeElements {items : List Json} {elements : List Value}
    (decoded : decodeElements decode path items = .ok elements) {element : Value}
    (member : element ∈ elements) : ∃ place item, decode place item = .ok element := by
  rcases exists_mem_of_forall₂ (mapM_eq_ok_iff.mp decoded) member with ⟨source, _, found⟩
  exact ⟨_, _, found⟩

/-- Every decoded entry comes from some member. -/
theorem of_mem_decodeEntries {members : List (String × Json)} {entries : List (String × Value)}
    (decoded : decodeEntries decode path members = .ok entries) {entry : String × Value}
    (member : entry ∈ entries) : ∃ place item, decode place item = .ok entry.2 := by
  rcases exists_mem_of_forall₂ (mapM_eq_ok_iff.mp decoded) member with ⟨source, _, found⟩
  rcases bind_eq_ok found with ⟨value, result, same⟩
  cases same
  exact ⟨_, _, result⟩

/-- No duplicate is found exactly when no fully known element equals one of those before the
list, or an earlier one of the list. -/
theorem firstDuplicate?_eq_none_iff {earlier elements : List Value} {index : Nat} :
    firstDuplicate? earlier index elements = none ↔
      (∀ element ∈ elements, element.isFullyKnown = true →
        ∀ other ∈ earlier, other.same element = false) ∧ NoRepeats elements := by
  induction elements generalizing earlier index with
  | nil => simp [firstDuplicate?, NoRepeats]
  | cons element rest inductionHypothesis =>
      have head : (element.isFullyKnown && earlier.any (· == element)) = true ↔
          ¬ (element.isFullyKnown = true → ∀ other ∈ earlier, other.same element = false) := by
        simp [beq_eq_same]
      unfold firstDuplicate?
      split
      · next duplicate =>
        have repeated := head.mp duplicate
        simp only [List.mem_cons, forall_eq_or_imp]
        tauto
      · next fresh =>
        have fresh := not_not.mp (mt head.mpr fresh)
        rw [inductionHypothesis]
        simp only [NoRepeats, List.pairwise_cons, List.mem_append, List.mem_cons,
          List.not_mem_nil, or_false, forall_eq_or_imp]
        constructor
        · intro ⟨before, distinct⟩
          exact ⟨⟨fresh, fun later member known other isEarlier =>
              before later member known other (.inl isEarlier)⟩,
            fun later member known => before later member known element (.inr rfl), distinct⟩
        · intro ⟨⟨_, before⟩, first, distinct⟩
          refine ⟨fun later member known other isEarlier => ?_, distinct⟩
          rcases isEarlier with isEarlier | rfl
          · exact before later member known other isEarlier
          · exact first later member known

/-! ## What is decoded -/

theorem Untyped.distinctSets {value : Value} (untyped : Untyped value) : DistinctSets value := by
  induction untyped with
  | null => exact .null
  | unknown => exact .unknown
  | bool b => exact .bool b
  | number n => exact .number n
  | string => exact .string _
  | list _ inductionHypothesis => exact .list inductionHypothesis
  | object _ inductionHypothesis => exact .object inductionHypothesis

theorem ofUntypedItems_eq_map (items : List Json) : ofUntypedItems items = items.map ofUntyped := by
  induction items with
  | nil => rfl
  | cons item rest inductionHypothesis => simp [ofUntypedItems, inductionHypothesis]

theorem ofUntypedMembers_eq_mapValues (members : List (String × Json)) :
    ofUntypedMembers members = Entries.mapValues ofUntyped members := by
  induction members with
  | nil => rfl
  | cons member rest inductionHypothesis =>
      simpa [ofUntypedMembers, Entries.mapValues] using inductionHypothesis

theorem untyped_ofUntyped (json : Json) : Untyped (ofUntyped json) := by
  induction json using Json.induct with
  | null => exact .null
  | bool b => exact .bool b
  | number n => exact .number n
  | string s =>
      unfold ofUntyped
      split
      · exact .unknown
      · next ordinary => exact .string ordinary
  | array items inductionHypothesis =>
      unfold ofUntyped
      rw [ofUntypedItems_eq_map]
      exact .list (List.forall_mem_map.mpr inductionHypothesis)
  | object members inductionHypothesis =>
      unfold ofUntyped
      rw [ofUntypedMembers_eq_mapValues]
      exact .object (List.forall_mem_map.mpr inductionHypothesis)

/-- Null and the unknown marker are decoded alike for every type. -/
theorem of_decodeAt {P : Value → Prop} {strictness : Strictness} {type : AttributeType}
    {path : Path} {json : Json} {value : Value}
    (decoded : decodeAt strictness type path json = .ok value) (atUnknown : P unknown)
    (atNull : P null) (otherwise : ¬ isMarker json = true → ¬ json.isNull = true → P value) :
    P value := by
  unfold decodeAt at decoded
  split at decoded
  · cases decoded
    exact atUnknown
  · next ordinary =>
    split at decoded
    · cases decoded
      exact atNull
    · next present => exact otherwise ordinary present

/-- What is decoded as an object has the attributes of the type, each of its own type, when
this is so for each attribute alone. -/
theorem of_decodeAttributes {strictness : Strictness} {types : List (String × AttributeType)}
    {members : List (String × Json)} {attributes : List (String × Value)}
    {R : AttributeType → Value → Prop}
    (each : ∀ entry ∈ types, ∀ path json value,
      decodeAt strictness entry.2 path json = .ok value → R entry.2 value)
    (decoded : decodeAttributes strictness types path members = .ok attributes) :
    Entries.Paired R types attributes := by
  induction types generalizing attributes with
  | nil =>
      cases decoded
      exact ⟨rfl, .nil⟩
  | cons entry rest inductionHypothesis =>
      rcases entry with ⟨name, type⟩
      rw [decodeAttributes] at decoded
      rcases bind_eq_ok decoded with ⟨value, first, decoded⟩
      rcases bind_eq_ok decoded with ⟨values, later, same⟩
      cases same
      refine Entries.paired_cons_iff.mpr ⟨rfl, ?_, ?_⟩
      · exact each _ List.mem_cons_self _ _ _ first
      · exact inductionHypothesis (fun entry member => each entry (List.mem_cons_of_mem _ member))
          later

/-- What is decoded has its type, and its sets are distinct. -/
theorem conforms_of_decodeAt {strictness : Strictness} {type : AttributeType} {path : Path}
    {json : Json} {value : Value} (decoded : decodeAt strictness type path json = .ok value) :
    HasType type value ∧ DistinctSets value := by
  induction type using AttributeType.induct generalizing path json value
  all_goals
    refine of_decodeAt (P := fun value => HasType _ value ∧ DistinctSets value) decoded
      ⟨.unknown _, .unknown⟩ ⟨.null _, .null⟩ fun ordinary present => ?_
    unfold decodeAt at decoded
    rw [if_neg ordinary, if_neg present] at decoded
  case string =>
    cases json with
    | string s =>
        cases decoded
        exact ⟨.string (by simpa [isMarker] using ordinary), .string s⟩
    | _ => cases decoded
  case int64 =>
    cases json with
    | number n =>
        cases whole : n.toInt64? with
        | none => simp [whole] at decoded
        | some i =>
            simp only [whole] at decoded
            cases decoded
            exact ⟨.int64 (Json.Number.inInt64?_of_toInt64? whole), .number _⟩
    | _ => cases decoded
  case float64 =>
    cases json with
    | number n =>
        cases decoded
        exact ⟨.float64 n, .number n⟩
    | _ => cases decoded
  case bool =>
    cases json with
    | bool b =>
        cases decoded
        exact ⟨.bool b, .bool b⟩
    | _ => cases decoded
  case list type inductionHypothesis =>
    cases json with
    | array items =>
        rcases bind_eq_ok decoded with ⟨elements, collected, same⟩
        cases same
        have each : ∀ element ∈ elements, HasType type element ∧ DistinctSets element := by
          intro element member
          rcases of_mem_decodeElements collected member with ⟨_, _, found⟩
          exact inductionHypothesis found
        exact ⟨.list fun element member => (each element member).1,
          .list fun element member => (each element member).2⟩
    | _ => cases decoded
  case set type inductionHypothesis =>
    cases json with
    | array items =>
        rcases bind_eq_ok decoded with ⟨elements, collected, distinct⟩
        have each : ∀ element ∈ elements, HasType type element ∧ DistinctSets element := by
          intro element member
          rcases of_mem_decodeElements collected member with ⟨_, _, found⟩
          exact inductionHypothesis found
        cases duplicate : firstDuplicate? [] 0 elements with
        | some index => simp [duplicate] at distinct
        | none =>
            simp only [duplicate] at distinct
            cases distinct
            exact ⟨.set fun element member => (each element member).1,
              .set (fun element member => (each element member).2)
                (firstDuplicate?_eq_none_iff.mp duplicate).2⟩
    | _ => cases decoded
  case map type inductionHypothesis =>
    cases json with
    | object members =>
        rcases bind_eq_ok decoded with ⟨entries, collected, same⟩
        cases same
        have each : ∀ entry ∈ entries, HasType type entry.2 ∧ DistinctSets entry.2 := by
          intro entry member
          rcases of_mem_decodeEntries collected member with ⟨_, _, found⟩
          exact inductionHypothesis found
        exact ⟨.map fun entry member => (each entry member).1,
          .map fun entry member => (each entry member).2⟩
    | _ => cases decoded
  case object types inductionHypothesis =>
    cases json with
    | object members =>
        simp only at decoded
        split at decoded
        · cases decoded
        · rcases bind_eq_ok decoded with ⟨attributes, collected, same⟩
          cases same
          have paired := of_decodeAttributes
            (R := fun type value => HasType type value ∧ DistinctSets value)
            (fun entry member _ _ _ found => inductionHypothesis entry member found) collected
          refine ⟨.object paired.1.symm ?_, .object ?_⟩
          · intro name type value declared found
            have related := paired.find? name
            rw [declared, found] at related
            cases related with
            | some related => exact related.1
          · intro entry member
            rcases exists_mem_of_forall₂ paired.2 (List.mem_map_of_mem member) with ⟨_, _, related⟩
            exact related.2
    | _ => cases decoded
  case dynamic =>
    cases decoded
    exact ⟨.dynamic (untyped_ofUntyped json), (untyped_ofUntyped json).distinctSets⟩

/-! ## What is decoded from the document of a value -/

theorem Untyped.ofUntyped_toJson {value : Value} (untyped : Untyped value) :
    ofUntyped value.toJson = value := by
  induction untyped with
  | null => rfl
  | unknown => rfl
  | bool b => rfl
  | number n => rfl
  | string ordinary => simp [toJson, ofUntyped, ordinary]
  | list _ inductionHypothesis =>
      rw [toJson, ofUntyped, toJsonItems_eq_map, ofUntypedItems_eq_map, List.map_map]
      exact congrArg Value.list ((List.map_congr_left inductionHypothesis).trans (List.map_id _))
  | object _ inductionHypothesis =>
      rw [toJson, ofUntyped, toJsonMembers_eq_map, ofUntypedMembers_eq_mapValues]
      unfold Entries.mapValues
      rw [List.map_map]
      refine congrArg Value.object ((List.map_congr_left ?_).trans (List.map_id _))
      exact fun entry member => Prod.ext rfl (inductionHypothesis entry member)

/-- The items of a list of elements are decoded together when each is decoded alone. -/
theorem decodeElements_toJson_iff {elements decoded : List Value}
    (each : ∀ element ∈ elements, ∀ place value,
      decode place element.toJson = .ok value ↔ DistinctSets element ∧ value = element) :
    decodeElements decode path (toJsonItems elements) = .ok decoded ↔
      (∀ element ∈ elements, DistinctSets element) ∧ decoded = elements := by
  unfold decodeElements
  rw [mapM_eq_ok_iff, toJsonItems_eq_map]
  generalize 0 = start
  induction elements generalizing start decoded with
  | nil => simp
  | cons element rest inductionHypothesis =>
      have later := fun e member => each e (List.mem_cons_of_mem _ member)
      rw [List.map_cons, List.zipIdx_cons, List.forall₂_cons_left_iff]
      simp only [each element List.mem_cons_self, inductionHypothesis later, List.forall_mem_cons]
      constructor
      · rintro ⟨_, _, ⟨first, rfl⟩, ⟨further, rfl⟩, rfl⟩
        exact ⟨⟨first, further⟩, rfl⟩
      · rintro ⟨⟨first, further⟩, rfl⟩
        exact ⟨_, _, ⟨first, rfl⟩, ⟨further, rfl⟩, rfl⟩

/-- The members of a list of entries are decoded together when each is decoded alone. -/
theorem decodeEntries_toJson_iff {entries decoded : List (String × Value)}
    (each : ∀ entry ∈ entries, ∀ place value,
      decode place entry.2.toJson = .ok value ↔ DistinctSets entry.2 ∧ value = entry.2) :
    decodeEntries decode path (toJsonMembers entries) = .ok decoded ↔
      (∀ entry ∈ entries, DistinctSets entry.2) ∧ decoded = entries := by
  unfold decodeEntries
  rw [mapM_eq_ok_iff, toJsonMembers_eq_map]
  induction entries generalizing decoded with
  | nil => simp [Entries.mapValues]
  | cons entry rest inductionHypothesis =>
      have later := fun e member => each e (List.mem_cons_of_mem _ member)
      rw [Entries.mapValues, List.map_cons, List.forall₂_cons_left_iff]
      change (∃ first others, _ ∧ List.Forall₂ _ (Entries.mapValues toJson rest) others ∧ _) ↔ _
      simp only [inductionHypothesis later, List.forall_mem_cons]
      constructor
      · rintro ⟨_, _, first, ⟨further, rfl⟩, rfl⟩
        rcases bind_eq_ok first with ⟨value, found, same⟩
        rcases (each entry List.mem_cons_self _ _).mp found with ⟨distinct, rfl⟩
        cases same
        exact ⟨⟨distinct, further⟩, rfl⟩
      · rintro ⟨⟨first, further⟩, rfl⟩
        refine ⟨entry, rest, ?_, ⟨further, rfl⟩, rfl⟩
        rw [(each entry List.mem_cons_self _ _).mpr ⟨first, rfl⟩]
        rfl

/-- The attributes of an object are decoded together when each is decoded alone. -/
theorem decodeAttributes_toJson_iff {strictness : Strictness}
    {types : List (String × AttributeType)} {members : List (String × Json)}
    {attributes decoded : List (String × Value)}
    (each : Entries.Paired (fun type value => ∀ place result,
      decodeAt strictness type place value.toJson = .ok result ↔
        DistinctSets value ∧ result = value) types attributes)
    (found : ∀ entry ∈ attributes, Entries.find? entry.1 members = some entry.2.toJson) :
    decodeAttributes strictness types path members = .ok decoded ↔
      (∀ entry ∈ attributes, DistinctSets entry.2) ∧ decoded = attributes := by
  induction types generalizing attributes decoded with
  | nil =>
      rw [List.map_eq_nil_iff.mp each.1.symm, decodeAttributes]
      simp [eq_comm]
  | cons entry rest inductionHypothesis =>
      rcases entry with ⟨name, type⟩
      cases attributes with
      | nil => cases each.1
      | cons member others =>
          rcases member with ⟨name', value⟩
          rcases Entries.paired_cons_iff.mp each with ⟨rfl, first, further⟩
          have tail : ∀ result, decodeAttributes strictness rest path members = .ok result ↔
              (∀ entry ∈ others, DistinctSets entry.2) ∧ result = others := fun result =>
            inductionHypothesis further fun entry member =>
              found entry (List.mem_cons_of_mem _ member)
          have head : (Entries.find? name members).getD .null = value.toJson := by
            rw [found _ List.mem_cons_self]
            rfl
          rw [decodeAttributes, head, List.forall_mem_cons]
          constructor
          · intro success
            rcases bind_eq_ok success with ⟨_, decodedFirst, success⟩
            rcases bind_eq_ok success with ⟨_, decodedLater, same⟩
            rcases (first _ _).mp decodedFirst with ⟨distinct, rfl⟩
            rcases (tail _).mp decodedLater with ⟨distinctLater, rfl⟩
            cases same
            exact ⟨⟨distinct, distinctLater⟩, rfl⟩
          · rintro ⟨⟨distinct, distinctLater⟩, rfl⟩
            rw [(first _ _).mpr ⟨distinct, rfl⟩, (tail _).mpr ⟨distinctLater, rfl⟩]
            rfl

/-- The document of an object has no member that its type does not declare. -/
theorem firstUndeclared?_toJson {types : List (String × AttributeType)}
    {attributes : List (String × Value)} (keys : Entries.keys attributes = Entries.keys types) :
    firstUndeclared? types (toJsonMembers attributes) = none := by
  unfold firstUndeclared?
  rw [toJsonMembers_eq_map, Entries.keys_mapValues, keys, List.find?_eq_none]
  intro name declared
  simp [Entries.contains, Entries.find?_isSome_iff.mpr declared]

private theorem iff_of_eq_ok {decoded : Except ValueError Value} {value : Value}
    (success : decoded = .ok value) (distinct : DistinctSets value) (result : Value) :
    decoded = .ok result ↔ DistinctSets value ∧ result = value := by
  rw [success]
  exact ⟨fun same => ⟨distinct, (Except.ok.inj same).symm⟩, fun same => same.2 ▸ rfl⟩

/-- The container of parts that are decoded together. -/
private theorem wrap_iff {α : Type} {collected : Except ValueError α} {parts : α}
    {distinct : Prop} (wrap : α → Value)
    (success : ∀ found, collected = .ok found ↔ distinct ∧ found = parts) (result : Value) :
    (collected >>= fun found => .ok (wrap found)) = .ok result ↔
      distinct ∧ result = wrap parts := by
  constructor
  · intro decoded
    rcases bind_eq_ok decoded with ⟨found, first, same⟩
    rcases (success found).mp first with ⟨holds, rfl⟩
    exact ⟨holds, (Except.ok.inj same).symm⟩
  · rintro ⟨holds, rfl⟩
    rw [(success parts).mpr ⟨holds, rfl⟩]
    rfl

/-- A value of a type is decoded from its own document when its sets are distinct, and
nothing else ever is. -/
theorem decodeAt_toJson_iff {type : AttributeType} {value : Value} (typed : HasType type value)
    (wellFormed : type.WellFormed) (path : Path) (result : Value) :
    decodeAt .strict type path value.toJson = .ok result ↔
      DistinctSets value ∧ result = value := by
  induction typed generalizing path result with
  | null type => exact iff_of_eq_ok (decodeAt_null ..) .null result
  | unknown type => exact iff_of_eq_ok (decodeAt_marker _ _ _ (beq_self_eq_true _)) .unknown result
  | @string s ordinary =>
      refine iff_of_eq_ok ?_ (.string s) result
      unfold toJson decodeAt
      rw [if_neg (by simpa [isMarker] using ordinary)]
      rfl
  | @int64 n inRange =>
      refine iff_of_eq_ok ?_ (.number _) result
      unfold int toJson decodeAt
      simp [isMarker, Json.isNull, Json.Number.toInt64?_int, inRange, int]
  | float64 n =>
      refine iff_of_eq_ok ?_ (.number n) result
      unfold toJson decodeAt
      rfl
  | bool b =>
      refine iff_of_eq_ok ?_ (.bool b) result
      unfold toJson decodeAt
      rfl
  | @list type elements _ inductionHypothesis =>
      cases wellFormed with
      | list inner =>
          have collected : ∀ found, decodeElements (decodeAt .strict type) path
              (toJsonItems elements) = .ok found ↔
                (∀ element ∈ elements, DistinctSets element) ∧ found = elements := fun _ =>
            decodeElements_toJson_iff fun element member => inductionHypothesis element member inner
          rw [distinctSets_list_iff, ← wrap_iff .list collected result]
          unfold toJson decodeAt
          rfl
  | @set type elements _ inductionHypothesis =>
      cases wellFormed with
      | set inner =>
          have collected : ∀ found, decodeElements (decodeAt .strict type) path
              (toJsonItems elements) = .ok found ↔
                (∀ element ∈ elements, DistinctSets element) ∧ found = elements := fun _ =>
            decodeElements_toJson_iff fun element member => inductionHypothesis element member inner
          unfold toJson decodeAt
          change (decodeElements (decodeAt .strict type) path (toJsonItems elements) >>= _) =
            .ok result ↔ _
          rw [distinctSets_set_iff]
          constructor
          · intro decoded
            rcases bind_eq_ok decoded with ⟨found, first, checked⟩
            rcases (collected found).mp first with ⟨holds, rfl⟩
            cases duplicate : firstDuplicate? [] 0 found with
            | some index => simp [duplicate] at checked
            | none =>
                simp only [duplicate] at checked
                exact ⟨⟨holds, (firstDuplicate?_eq_none_iff.mp duplicate).2⟩,
                  (Except.ok.inj checked).symm⟩
          · rintro ⟨⟨holds, distinct⟩, rfl⟩
            have unique : firstDuplicate? [] 0 elements = none :=
              firstDuplicate?_eq_none_iff.mpr ⟨by simp, distinct⟩
            rw [(collected elements).mpr ⟨holds, rfl⟩]
            simp only [bind, Except.bind, unique]
  | @map type entries _ inductionHypothesis =>
      cases wellFormed with
      | map inner =>
          have collected : ∀ found, decodeEntries (decodeAt .strict type) path
              (toJsonMembers entries) = .ok found ↔
                (∀ entry ∈ entries, DistinctSets entry.2) ∧ found = entries := fun _ =>
            decodeEntries_toJson_iff fun entry member => inductionHypothesis entry member inner
          rw [distinctSets_map_iff, ← wrap_iff .map collected result]
          unfold toJson decodeAt
          rfl
  | @object types attributes keys _ inductionHypothesis =>
      cases wellFormed with
      | object sorted inner =>
          have nodup : (Entries.keys attributes).Nodup := keys ▸ sorted.nodup
          have collected : ∀ found, decodeAttributes .strict types path
              (toJsonMembers attributes) = .ok found ↔
                (∀ entry ∈ attributes, DistinctSets entry.2) ∧ found = attributes := by
            refine fun _ => decodeAttributes_toJson_iff ?_ fun entry member => ?_
            · apply Entries.paired_of_find? keys.symm sorted.nodup
              exact fun name type value declared found => inductionHypothesis name type value
                declared found (inner _ (Entries.mem_of_find? declared))
            · rw [toJsonMembers_eq_map, Entries.find?_mapValues, Entries.find?_of_mem nodup member]
              rfl
          rw [distinctSets_object_iff, ← wrap_iff .object collected result]
          unfold toJson decodeAt
          simp only [isMarker, Json.isNull, firstUndeclared?_toJson keys]
          rfl
  | @dynamic value untyped =>
      refine iff_of_eq_ok ?_ untyped.distinctSets result
      rw [decodeAt_dynamic, untyped.ofUntyped_toJson]

/-! ## A document means one value of a type -/

private theorem eq_of_toJsonItems_eq {xs ys : List Value}
    (each : ∀ x ∈ xs, ∀ y ∈ ys, x.toJson = y.toJson → x = y)
    (same : toJsonItems xs = toJsonItems ys) : xs = ys := by
  rw [toJsonItems_eq_map, toJsonItems_eq_map] at same
  induction xs generalizing ys with
  | nil => exact (List.map_eq_nil_iff.mp same.symm).symm
  | cons x xs inductionHypothesis =>
      cases ys with
      | nil => cases same
      | cons y ys =>
          rcases List.cons.inj same with ⟨first, others⟩
          rw [each x List.mem_cons_self y List.mem_cons_self first, inductionHypothesis
            (fun x left y right =>
              each x (List.mem_cons_of_mem _ left) y (List.mem_cons_of_mem _ right)) others]

private theorem eq_of_toJsonMembers_eq {xs ys : List (String × Value)}
    (each : ∀ x ∈ xs, ∀ y ∈ ys, x.1 = y.1 → x.2.toJson = y.2.toJson → x.2 = y.2)
    (same : toJsonMembers xs = toJsonMembers ys) : xs = ys := by
  rw [toJsonMembers_eq_map, toJsonMembers_eq_map] at same
  induction xs generalizing ys with
  | nil => exact (List.map_eq_nil_iff.mp same.symm).symm
  | cons x xs inductionHypothesis =>
      cases ys with
      | nil => cases same
      | cons y ys =>
          rcases List.cons.inj same with ⟨first, others⟩
          rcases Prod.mk.inj first with ⟨key, value⟩
          have here := each x List.mem_cons_self y List.mem_cons_self key value
          rw [Prod.ext key here, inductionHypothesis
            (fun x left y right =>
              each x (List.mem_cons_of_mem _ left) y (List.mem_cons_of_mem _ right)) others]

/-- Values of one type with the same document are the same, even where the document repeats an
element of a set and does not decode. -/
theorem HasType.eq_of_toJson_eq {type : AttributeType} {v w : Value} (left : HasType type v)
    (right : HasType type w) (wellFormed : type.WellFormed) (same : v.toJson = w.toJson) :
    v = w := by
  induction left generalizing w with
  | null type => cases w <;> first | rfl | cases same
  | unknown type =>
      cases right with
      | unknown => rfl
      | string ordinary => exact absurd (Json.string.inj same).symm ordinary
      | dynamic untyped => rw [← untyped.ofUntyped_toJson, ← same]; rfl
      | _ => cases same
  | string ordinary =>
      cases right with
      | unknown => exact absurd (Json.string.inj same) ordinary
      | string => rw [Json.string.inj same]
      | _ => cases same
  | int64 =>
      cases right with
      | int64 => exact congrArg Value.number (Json.number.inj same)
      | _ => cases same
  | float64 =>
      cases right with
      | float64 => exact congrArg Value.number (Json.number.inj same)
      | _ => cases same
  | bool =>
      cases right with
      | bool => exact congrArg Value.bool (Json.bool.inj same)
      | _ => cases same
  | @list type elements _ inductionHypothesis =>
      cases right with
      | list typed =>
          cases wellFormed with
          | list inner =>
              exact congrArg Value.list (eq_of_toJsonItems_eq (fun x member y other =>
                inductionHypothesis x member (typed y other) inner) (Json.array.inj same))
      | _ => cases same
  | @set type elements _ inductionHypothesis =>
      cases right with
      | set typed =>
          cases wellFormed with
          | set inner =>
              exact congrArg Value.set (eq_of_toJsonItems_eq (fun x member y other =>
                inductionHypothesis x member (typed y other) inner) (Json.array.inj same))
      | _ => cases same
  | @map type entries _ inductionHypothesis =>
      cases right with
      | map typed =>
          cases wellFormed with
          | map inner =>
              exact congrArg Value.map (eq_of_toJsonMembers_eq (fun x member y other _ =>
                inductionHypothesis x member (typed y other) inner) (Json.object.inj same))
      | _ => cases same
  | @object types attributes keys _ inductionHypothesis =>
      cases right with
      | @object _ others otherKeys typed =>
          cases wellFormed with
          | object sorted inner =>
              have leftNodup : (Entries.keys attributes).Nodup := keys ▸ sorted.nodup
              have rightNodup : (Entries.keys others).Nodup := otherKeys ▸ sorted.nodup
              refine congrArg Value.object (eq_of_toJsonMembers_eq ?_ (Json.object.inj same))
              intro x member y other key
              have declared : x.1 ∈ Entries.keys types := keys ▸ Entries.mem_keys_of_mem member
              rcases Entries.exists_find? declared with ⟨type, found⟩
              have foundLeft := Entries.find?_of_mem leftNodup member
              have foundRight : Entries.find? x.1 others = some y.2 :=
                key ▸ Entries.find?_of_mem rightNodup other
              exact inductionHypothesis x.1 type x.2 found foundLeft
                (typed x.1 type y.2 found foundRight) (inner _ (Entries.mem_of_find? found))
      | _ => cases same
  | dynamic untyped =>
      cases right with
      | null => rw [← untyped.ofUntyped_toJson, same]; rfl
      | unknown => rw [← untyped.ofUntyped_toJson, same]; rfl
      | dynamic other => rw [← untyped.ofUntyped_toJson, same, other.ofUntyped_toJson]

end Value
end ProviderKit

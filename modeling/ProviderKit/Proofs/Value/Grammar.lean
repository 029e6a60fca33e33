import ProviderKit.Proofs.Json.Arrangement
import ProviderKit.Proofs.Value.Codec
import ProviderKit.Proofs.Value.Meaning
import ProviderKit.Proofs.Value.Spelling

/-!
# The documents of a type, and what is wrong with the others

`Matches` is the grammar of a type: which documents it describes, by recursion on the type and
without the decoder, but for the items of a set, which are compared by what they mean.  A fault is
something that is wrong with one part of a document, whatever stands around it, and a part with a
fault matches nothing.  The decoder succeeds on the documents that match.  On any other one it
reports a fault of a part that stands where the error says, in the document and in the type alike.

The names of an object's members and the attributes of an object type occur once each, so that a
path leads to one place at most.
-/

namespace ProviderKit

/-- The number equals an integer of 64 bits with sign, however it is written. -/
def Json.Number.EqualsInt64 (n : Json.Number) : Prop :=
  ∃ i : Int, (minInt64 ≤ i ∧ i ≤ maxInt64) ∧ n.scaled = i * Binary64.unitsPerOne

theorem Json.Number.equalsInt64_iff {n : Json.Number} :
    n.EqualsInt64 ↔ ∃ i, n.toInt64? = some i :=
  exists_congr fun _ => toInt64?_eq_some_iff.symm

namespace AttributeType

/-! ## The grammar -/

/-- The documents that a type describes.  Null and the marker of an unknown value belong to every
type, an object may leave attributes out, and among the items of a set no fully known one means
the same as an earlier one. -/
inductive Matches : AttributeType → Json → Prop
  | null (type : AttributeType) : Matches type .null
  | marker (type : AttributeType) : Matches type (.string Value.unknownMarker)
  | string (s : String) : Matches .string (.string s)
  | int64 {n : Json.Number} (whole : n.EqualsInt64) : Matches .int64 (.number n)
  | float64 (n : Json.Number) : Matches .float64 (.number n)
  | bool (b : Bool) : Matches .bool (.bool b)
  | list {element : AttributeType} {items : List Json}
      (each : ∀ item ∈ items, Matches element item) : Matches (.list element) (.array items)
  | set {element : AttributeType} {items : List Json}
      (each : ∀ item ∈ items, Matches element item) (apart : element.MeansApart items) :
      Matches (.set element) (.array items)
  | map {element : AttributeType} {members : List (String × Json)}
      (each : ∀ member ∈ members, Matches element member.2) :
      Matches (.map element) (.object members)
  | object {types : List (String × AttributeType)} {members : List (String × Json)}
      (declared : ∀ name ∈ Entries.keys members, name ∈ Entries.keys types)
      (each : ∀ entry ∈ types, ∀ item,
        Entries.find? entry.1 members = some item → Matches entry.2 item) :
      Matches (.object types) (.object members)
  | dynamic (json : Json) : Matches .dynamic json

/-- The type has documents of this kind, whatever parts they have. -/
inductive Takes : AttributeType → Json → Prop
  | string (s : String) : Takes .string (.string s)
  | int64 {n : Json.Number} (whole : n.EqualsInt64) : Takes .int64 (.number n)
  | float64 (n : Json.Number) : Takes .float64 (.number n)
  | bool (b : Bool) : Takes .bool (.bool b)
  | list (element : AttributeType) (items : List Json) : Takes (.list element) (.array items)
  | set (element : AttributeType) (items : List Json) : Takes (.set element) (.array items)
  | map (element : AttributeType) (members : List (String × Json)) :
      Takes (.map element) (.object members)
  | object (types : List (String × AttributeType)) (members : List (String × Json)) :
      Takes (.object types) (.object members)
  | dynamic (json : Json) : Takes .dynamic json

/-! ## Following a path -/

/-- One step leads from a document of a type to a part of it, and to the type of the part. -/
inductive Step : PathStep → AttributeType → Json → AttributeType → Json → Prop
  | named {types : List (String × AttributeType)} {members : List (String × Json)} {name : String}
      {type : AttributeType} {item : Json} (declared : Entries.find? name types = some type)
      (present : Entries.find? name members = some item) :
      Step (.name name) (.object types) (.object members) type item
  | keyed {element : AttributeType} {members : List (String × Json)} {key : String} {item : Json}
      (present : Entries.find? key members = some item) :
      Step (.key key) (.map element) (.object members) element item
  | listed {element : AttributeType} {items : List Json} {index : Nat} {item : Json}
      (present : items[index]? = some item) :
      Step (.index index) (.list element) (.array items) element item
  | collected {element : AttributeType} {items : List Json} {index : Nat} {item : Json}
      (present : items[index]? = some item) :
      Step (.index index) (.set element) (.array items) element item

/-- A path leads from a document of a type to a part of it, and to the type of the part. -/
inductive Reaches : Path → AttributeType → Json → AttributeType → Json → Prop
  | here (type : AttributeType) (json : Json) : Reaches [] type json type json
  | further {step : PathStep} {rest : Path} {type inner place : AttributeType}
      {json item part : Json} (first : Step step type json inner item)
      (later : Reaches rest inner item place part) : Reaches (step :: rest) type json place part

/-- What is wrong with a part of a document itself, as the error to report where it stands. -/
inductive Fault : AttributeType → Json → (Path → ValueError) → Prop
  | kind {type : AttributeType} {json : Json} (notNull : json ≠ .null)
      (notMarker : json ≠ .string Value.unknownMarker) (refused : ¬ type.Takes json) :
      Fault type json fun path => .typeMismatch path type.name json.typeName
  | undeclared {types : List (String × AttributeType)} {members : List (String × Json)}
      {name : String} (present : name ∈ Entries.keys members)
      (undeclared : name ∉ Entries.keys types) :
      Fault (.object types) (.object members) fun path => .unsupportedAttribute path name
  | repeated {element : AttributeType} {items : List Json} {first second : Nat}
      {one other : Json} {v w : Value} (order : first < second)
      (earlier : items[first]? = some one) (later : items[second]? = some other)
      (before : Value.ofJson element one = .ok v) (after : Value.ofJson element other = .ok w)
      (known : w.isFullyKnown = true) (equal : (v == w) = true) :
      Fault (.set element) (.array items) fun path => .duplicateSetElement (path.atIndex second)

/-! ## What matches is decoded -/

theorem accepts_marker (type : AttributeType) : type.Accepts (.string Value.unknownMarker) :=
  ⟨.unknown, Value.decodeAt_marker _ _ _ (beq_self_eq_true _)⟩

theorem Matches.accepts {type : AttributeType} {json : Json} (matched : type.Matches json) :
    type.Accepts json := by
  induction matched with
  | null type => exact accepts_null type
  | marker type => exact accepts_marker type
  | string s =>
      cases marker : Value.isMarker (.string s) with
      | true => exact ⟨.unknown, Value.decodeAt_marker _ _ _ marker⟩
      | false =>
          refine ⟨.string s, ?_⟩
          unfold Value.ofJson Value.decodeAt
          rw [marker]
          rfl
  | @int64 n whole =>
      rcases Json.Number.equalsInt64_iff.mp whole with ⟨i, found⟩
      refine ⟨.int i, ?_⟩
      unfold Value.ofJson Value.decodeAt
      simp [Value.isMarker, Json.isNull, found]
  | float64 n => exact ⟨.number n, rfl⟩
  | bool b => exact ⟨.bool b, rfl⟩
  | list _ inductionHypothesis => exact accepts_list_iff.mpr inductionHypothesis
  | set _ apart inductionHypothesis => exact accepts_set_iff.mpr ⟨inductionHypothesis, apart⟩
  | map _ inductionHypothesis => exact accepts_map_iff.mpr inductionHypothesis
  | @object types members declared _ inductionHypothesis =>
      refine accepts_object_iff.mpr ⟨declared, fun entry member => ?_⟩
      cases found : Entries.find? entry.1 members with
      | none => exact accepts_null _
      | some item => exact inductionHypothesis entry member item found
  | dynamic json => exact accepts_dynamic json

/-- What is decoded is null, or the marker, or of a kind that the type takes. -/
theorem Accepts.kinds {type : AttributeType} {json : Json} (accepted : type.Accepts json) :
    json = .null ∨ json = .string Value.unknownMarker ∨ type.Takes json := by
  rcases accepted with ⟨value, decoded⟩
  refine Value.ofJson_induct (motive := fun type json _ =>
    json = .null ∨ json = .string Value.unknownMarker ∨ type.Takes json) ?null ?unknown ?string
    ?int64 ?float64 ?bool ?list ?set ?map ?object ?dynamic decoded
  case null => exact fun _ => .inl rfl
  case unknown => exact fun _ => .inr (.inl rfl)
  case string => exact fun s _ => .inr (.inr (.string s))
  case int64 =>
    exact fun n i found => .inr (.inr (.int64 (Json.Number.equalsInt64_iff.mpr ⟨i, found⟩)))
  case float64 => exact fun n => .inr (.inr (.float64 n))
  case bool => exact fun b => .inr (.inr (.bool b))
  case list => exact fun element items _ _ => .inr (.inr (.list element items))
  case set => exact fun element items _ _ _ => .inr (.inr (.set element items))
  case map => exact fun element members _ _ => .inr (.inr (.map element members))
  case object => exact fun types members _ _ _ => .inr (.inr (.object types members))
  case dynamic => exact fun json => .inr (.inr (.dynamic json))

theorem matches_of_accepts {type : AttributeType} {json : Json} (accepted : type.Accepts json) :
    type.Matches json := by
  induction type using AttributeType.induct generalizing json
  all_goals
    rcases accepted.kinds with rfl | rfl | taken
    · exact .null _
    · exact .marker _
  case string => cases taken with | string s => exact .string s
  case int64 => cases taken with | int64 whole => exact .int64 whole
  case float64 => cases taken with | float64 n => exact .float64 n
  case bool => cases taken with | bool b => exact .bool b
  case list element inductionHypothesis =>
    cases taken with
    | list _ items =>
        have each := accepts_list_iff.mp accepted
        exact .list fun item member => inductionHypothesis (each item member)
  case set element inductionHypothesis =>
    cases taken with
    | set _ items =>
        rcases accepts_set_iff.mp accepted with ⟨each, apart⟩
        exact .set (fun item member => inductionHypothesis (each item member)) apart
  case map element inductionHypothesis =>
    cases taken with
    | map _ members =>
        have each := accepts_map_iff.mp accepted
        exact .map fun member isMember => inductionHypothesis (each member isMember)
  case object types inductionHypothesis =>
    cases taken with
    | object _ members =>
        rcases accepts_object_iff.mp accepted with ⟨declared, each⟩
        refine .object declared fun entry member item found => inductionHypothesis entry member ?_
        have accepted := each entry member
        rwa [found, Option.getD_some] at accepted
  case dynamic => exact .dynamic json

/-! ## What has a fault does not match -/

theorem MeansApart.differ {element : AttributeType} {items : List Json}
    (apart : element.MeansApart items) (each : ∀ item ∈ items, element.Accepts item)
    {first second : Nat} {one other : Json} {v w : Value} (order : first < second)
    (earlier : items[first]? = some one) (later : items[second]? = some other)
    (before : Value.ofJson element one = .ok v) (after : Value.ofJson element other = .ok w)
    (known : w.isFullyKnown = true) : (v == w) = false := by
  rcases exists_forall₂_iff.mpr each with ⟨elements, decoded⟩
  have found {place : Nat} {item : Json} {value : Value} (present : items[place]? = some item)
      (means : Value.ofJson element item = .ok value) : elements[place]? = some value := by
    rcases exists_getElem?_of_forall₂ decoded.flip present with ⟨part, found, same⟩
    rw [found, Except.ok.inj (same.symm.trans means)]
  rcases List.getElem?_eq_some_iff.mp (found earlier before) with ⟨firstInside, rfl⟩
  rcases List.getElem?_eq_some_iff.mp (found later after) with ⟨secondInside, rfl⟩
  exact List.pairwise_iff_getElem.mp (apart elements decoded) first second firstInside secondInside
    order known

theorem Matches.no_fault {type : AttributeType} {json : Json} {fault : Path → ValueError}
    (matched : type.Matches json) : ¬ Fault type json fault := by
  intro wrong
  cases wrong with
  | kind notNull notMarker refused =>
      rcases matched.accepts.kinds with same | same | taken
      · exact notNull same
      · exact notMarker same
      · exact refused taken
  | undeclared present undeclared =>
      cases matched with
      | object declared => exact undeclared (declared _ present)
  | repeated order earlier later before after known equal =>
      cases matched with
      | set each apart =>
          have differ := apart.differ (fun item member => (each item member).accepts) order earlier
            later before after known
          exact Bool.false_ne_true (differ.symm.trans equal)

end AttributeType

namespace Value

open AttributeType (Step Reaches Fault)

/-! ## What is not decoded has a fault -/

/-- An error names a fault of a part of the document, at the place where the part stands. -/
def Blames (place : Path) (type : AttributeType) (json : Json) (error : ValueError) : Prop :=
  ∃ rest inner part fault,
    Reaches rest type json inner part ∧ Fault inner part fault ∧ error = fault (place ++ rest)

variable {place : Path} {type : AttributeType} {json : Json} {error : ValueError}

theorem Blames.of_fault {fault : Path → ValueError} (wrong : Fault type json fault)
    (same : error = fault place) : Blames place type json error :=
  ⟨[], type, json, fault, .here type json, wrong, by rw [List.append_nil, same]⟩

/-- A part of a part is a part. -/
theorem Blames.of_step {step : PathStep} {inner : AttributeType} {item : Json}
    (first : Step step type json inner item) (blamed : Blames (place ++ [step]) inner item error) :
    Blames place type json error := by
  rcases blamed with ⟨rest, last, part, fault, later, wrong, same⟩
  refine ⟨step :: rest, last, part, fault, .further first later, wrong, ?_⟩
  rw [same, List.append_assoc]
  rfl

/-- Null and the marker are decoded for every type. -/
theorem ordinary_of_decodeAt_error {strictness : Strictness}
    (failure : decodeAt strictness type place json = .error error) :
    ¬ isMarker json = true ∧ ¬ json.isNull = true := by
  constructor
  · intro marker
    rw [decodeAt_marker _ _ _ marker] at failure
    cases failure
  · intro absent
    cases json with
    | null =>
        rw [decodeAt_null] at failure
        cases failure
    | _ => cases absent

theorem exists_item_of_decodeElements_error {decode : Path → Json → Except ValueError Value}
    {items : List Json} (failure : decodeElements decode place items = .error error) :
    ∃ index item, items[index]? = some item ∧ decode (place.atIndex index) item = .error error := by
  rcases exists_mem_of_mapM_eq_error failure with ⟨⟨item, index⟩, member, failed⟩
  exact ⟨index, item, List.mem_zipIdx_iff_getElem?.mp member, failed⟩

theorem exists_member_of_decodeEntries_error {decode : Path → Json → Except ValueError Value}
    {members : List (String × Json)}
    (failure : decodeEntries decode place members = .error error) :
    ∃ member ∈ members, decode (place.atKey member.1) member.2 = .error error := by
  rcases exists_mem_of_mapM_eq_error failure with ⟨member, isMember, failed⟩
  rcases bind_eq_error failed with failed | ⟨_, _, failed⟩
  · exact ⟨member, isMember, failed⟩
  · cases failed

/-- A missing attribute is null, so one that is not decoded is present. -/
theorem exists_attribute_of_decodeAttributes_error {types : List (String × AttributeType)}
    {members : List (String × Json)}
    (failure : decodeAttributes .strict types place members = .error error) :
    ∃ entry ∈ types, ∃ item, Entries.find? entry.1 members = some item ∧
      decodeAt .strict entry.2 (place.atName entry.1) item = .error error := by
  induction types with
  | nil =>
      rw [decodeAttributes] at failure
      cases failure
  | cons entry rest inductionHypothesis =>
      rcases entry with ⟨name, type⟩
      rw [decodeAttributes] at failure
      rcases bind_eq_error failure with here | ⟨_, _, failure⟩
      · cases found : Entries.find? name members with
        | none =>
            rw [found, Option.getD_none, decodeAt_null] at here
            cases here
        | some item =>
            rw [found, Option.getD_some] at here
            exact ⟨(name, type), List.mem_cons_self, item, found, here⟩
      · rcases bind_eq_error failure with later | ⟨_, _, failure⟩
        · rcases inductionHypothesis later with ⟨entry, member, found⟩
          exact ⟨entry, List.mem_cons_of_mem _ member, found⟩
        · cases failure

/-- The element that is found is fully known and has an equal among the ones before it. -/
theorem firstDuplicate?_eq_some {earlier elements : List Value} {index found : Nat}
    (duplicate : firstDuplicate? earlier index elements = some found) :
    ∃ before element after, elements = before ++ element :: after ∧
      found = index + before.length ∧ element.isFullyKnown = true ∧
        ∃ other ∈ earlier ++ before, (other == element) = true := by
  induction elements generalizing earlier index with
  | nil => cases duplicate
  | cons element rest inductionHypothesis =>
      unfold firstDuplicate? at duplicate
      split at duplicate
      · next repeated =>
        cases duplicate
        rcases Bool.and_eq_true_iff.mp repeated with ⟨known, occurs⟩
        refine ⟨[], element, rest, rfl, rfl, known, ?_⟩
        rw [List.append_nil]
        exact List.any_eq_true.mp occurs
      · rcases inductionHypothesis duplicate with
          ⟨before, later, after, rfl, rfl, known, other, isEarlier, equal⟩
        refine ⟨element :: before, later, after, rfl, ?_, known, other, ?_, equal⟩
        · rw [List.length_cons, Nat.add_assoc, Nat.add_comm 1]
        · rwa [List.append_assoc] at isEarlier

/-- A repetition among decoded elements is one among the items they come from. -/
theorem fault_of_firstDuplicate? {element : AttributeType} {items : List Json}
    {elements : List Value} {index : Nat}
    (decoded : List.Forall₂ (fun item part => ofJson element item = .ok part) items elements)
    (duplicate : firstDuplicate? [] 0 elements = some index) :
    Fault (.set element) (.array items) fun path => .duplicateSetElement (path.atIndex index) := by
  rcases firstDuplicate?_eq_some duplicate with
    ⟨before, w, after, rfl, rfl, known, v, isEarlier, equal⟩
  rw [List.nil_append] at isEarlier
  rcases List.mem_iff_getElem?.mp isEarlier with ⟨first, stands⟩
  have order : first < before.length := (List.getElem?_eq_some_iff.mp stands).1
  have stands : (before ++ w :: after)[first]? = some v := by
    rwa [List.getElem?_append_left order]
  have standsLater : (before ++ w :: after)[before.length]? = some w := by
    rw [List.getElem?_append_right le_rfl, Nat.sub_self, List.getElem?_cons_zero]
  rcases exists_getElem?_of_forall₂ decoded stands with ⟨one, earlier, means⟩
  rcases exists_getElem?_of_forall₂ decoded standsLater with ⟨other, later, meansLater⟩
  rw [Nat.zero_add]
  exact .repeated order earlier later means meansLater known equal

/-- The member that is found has a name that the type does not declare. -/
theorem fault_of_firstUndeclared? {types : List (String × AttributeType)}
    {members : List (String × Json)} {name : String}
    (found : firstUndeclared? types members = some name) :
    Fault (.object types) (.object members) fun path => .unsupportedAttribute path name := by
  refine .undeclared (List.mem_of_find?_eq_some found) fun declared => ?_
  have missing := List.find?_some found
  rw [Entries.contains, Entries.find?_isSome_iff.mpr declared] at missing
  cases missing

/-- A document of another kind than its type asks for is refused as such. -/
theorem error_of_not_takes (failure : decodeAt .strict type place json = .error error)
    (refused : ¬ type.Takes json) : error = .typeMismatch place type.name json.typeName := by
  rcases ordinary_of_decodeAt_error failure with ⟨ordinary, present⟩
  unfold decodeAt at failure
  rw [if_neg ordinary, if_neg present] at failure
  -- The cases are those of the decoder, in its order.
  split at failure
  · cases failure
  · split at failure
    · cases failure
    · cases failure
      rfl
  · cases failure
  · cases failure
  · exact absurd (.list _ _) refused
  · exact absurd (.set _ _) refused
  · exact absurd (.map _ _) refused
  · exact absurd (.object _ _) refused
  · cases failure
  · cases failure
    rfl

theorem blames_or_takes (failure : decodeAt .strict type place json = .error error) :
    Blames place type json error ∨ type.Takes json := by
  by_cases taken : type.Takes json
  · exact .inr taken
  · rcases ordinary_of_decodeAt_error failure with ⟨ordinary, present⟩
    have notNull : json ≠ .null := fun absent => present (absent ▸ rfl)
    have notMarker : json ≠ .string unknownMarker :=
      fun marked => ordinary (marked ▸ beq_self_eq_true unknownMarker)
    exact .inl (.of_fault (.kind notNull notMarker taken) (error_of_not_takes failure taken))

theorem not_error_of_matches (matched : type.Matches json) :
    decodeAt .strict type place json ≠ .error error := by
  rcases matched.accepts with ⟨value, decoded⟩
  rw [(decodeAt_place_iff type place [] json value).mpr decoded]
  exact nofun

/-! ## The containers -/

section Containers

variable {element : AttributeType} {items : List Json} {members : List (String × Json)}

/-- The items of a list and of a set are decoded alike. -/
theorem Blames.of_items
    (leads : ∀ {index : Nat} {item : Json}, items[index]? = some item →
      Step (.index index) type (.array items) element item)
    (inner : ∀ item ∈ items, ∀ place, decodeAt .strict element place item = .error error →
      Blames place element item error)
    (failure : decodeElements (decodeAt .strict element) place items = .error error) :
    Blames place type (.array items) error := by
  rcases exists_item_of_decodeElements_error failure with ⟨index, item, found, failed⟩
  exact .of_step (leads found) (inner item (List.mem_of_getElem? found) _ failed)

theorem blames_of_list
    (inner : ∀ item ∈ items, ∀ place, decodeAt .strict element place item = .error error →
      Blames place element item error)
    (failure : decodeAt .strict (.list element) place (.array items) = .error error) :
    Blames place (.list element) (.array items) error := by
  rw [decodeAt_list_array] at failure
  rcases bind_eq_error failure with failed | ⟨_, _, failed⟩
  · exact .of_items .listed inner failed
  · cases failed

theorem blames_of_set
    (inner : ∀ item ∈ items, ∀ place, decodeAt .strict element place item = .error error →
      Blames place element item error)
    (failure : decodeAt .strict (.set element) place (.array items) = .error error) :
    Blames place (.set element) (.array items) error := by
  rw [decodeAt_set_array] at failure
  rcases bind_eq_error failure with failed | ⟨elements, decoded, repeated⟩
  · exact .of_items .collected inner failed
  · have each := (decodeElements_eq_ok_iff fun place item value =>
      decodeAt_place_iff element place [] item value).mp decoded
    split at repeated
    · next duplicate =>
      cases repeated
      exact .of_fault (fault_of_firstDuplicate? each duplicate) rfl
    · cases repeated

theorem blames_of_map (nodup : (Entries.keys members).Nodup)
    (inner : ∀ member ∈ members, ∀ place,
      decodeAt .strict element place member.2 = .error error →
        Blames place element member.2 error)
    (failure : decodeAt .strict (.map element) place (.object members) = .error error) :
    Blames place (.map element) (.object members) error := by
  rw [decodeAt_map_object] at failure
  rcases bind_eq_error failure with failed | ⟨_, _, failed⟩
  · rcases exists_member_of_decodeEntries_error failed with ⟨member, isMember, failed⟩
    exact .of_step (.keyed (Entries.find?_of_mem nodup isMember)) (inner member isMember _ failed)
  · cases failed

theorem blames_of_object {types : List (String × AttributeType)}
    (nodup : (Entries.keys types).Nodup)
    (inner : ∀ entry ∈ types, ∀ item, Entries.find? entry.1 members = some item → ∀ place,
      decodeAt .strict entry.2 place item = .error error → Blames place entry.2 item error)
    (failure : decodeAt .strict (.object types) place (.object members) = .error error) :
    Blames place (.object types) (.object members) error := by
  rw [decodeAt_object_object] at failure
  split at failure
  · next undeclared =>
    cases failure
    exact .of_fault (fault_of_firstUndeclared? undeclared) rfl
  · rcases bind_eq_error failure with failed | ⟨_, _, failed⟩
    · rcases exists_attribute_of_decodeAttributes_error failed with
        ⟨entry, isDeclared, item, found, failed⟩
      exact .of_step (.named (Entries.find?_of_mem nodup isDeclared) found)
        (inner entry isDeclared item found _ failed)
    · cases failed

end Containers

/-- The error of the decoder is a fault of a part of the document. -/
theorem blames_of_decodeAt (wellFormed : type.WellFormed) (distinct : json.NamesDistinct)
    (failure : decodeAt .strict type place json = .error error) :
    Blames place type json error := by
  induction wellFormed generalizing place json
  all_goals
    rcases blames_or_takes failure with blamed | taken
    · exact blamed
  case string =>
    cases taken with | string s => exact absurd failure (not_error_of_matches (.string s))
  case int64 =>
    cases taken with | int64 whole => exact absurd failure (not_error_of_matches (.int64 whole))
  case float64 =>
    cases taken with | float64 n => exact absurd failure (not_error_of_matches (.float64 n))
  case bool =>
    cases taken with | bool b => exact absurd failure (not_error_of_matches (.bool b))
  case dynamic => exact absurd failure (not_error_of_matches (.dynamic json))
  case list element _ inductionHypothesis =>
    cases taken with
    | list _ items =>
        cases distinct with
        | array each =>
            exact blames_of_list (fun item member _ => inductionHypothesis (each item member))
              failure
  case set element _ inductionHypothesis =>
    cases taken with
    | set _ items =>
        cases distinct with
        | array each =>
            exact blames_of_set (fun item member _ => inductionHypothesis (each item member))
              failure
  case map element _ inductionHypothesis =>
    cases taken with
    | map _ members =>
        cases distinct with
        | object nodup each =>
            exact blames_of_map nodup
              (fun member isMember _ => inductionHypothesis (each member isMember)) failure
  case object types sorted _ inductionHypothesis =>
    cases taken with
    | object _ members =>
        cases distinct with
        | object _ each =>
            refine blames_of_object sorted.nodup (fun entry declared item found _ => ?_) failure
            exact inductionHypothesis entry declared (each _ (Entries.mem_of_find? found))

/-- Decoding succeeds on exactly the documents that match the type.  Where it fails, the path of
the error leads to a part of the document, and to its type, for which the error is true. -/
theorem decodes_matching_and_blames_fault (wellFormed : type.WellFormed)
    (distinct : json.NamesDistinct) :
    ((∃ value, ofJson type json = .ok value) ↔ type.Matches json) ∧
      ∀ error, ofJson type json = .error error →
        ∃ path inner part fault, Reaches path type json inner part ∧ Fault inner part fault ∧
          ¬ inner.Matches part ∧ error = fault path := by
  refine ⟨⟨AttributeType.matches_of_accepts, AttributeType.Matches.accepts⟩,
    fun error failure => ?_⟩
  rcases blames_of_decodeAt wellFormed distinct failure with
    ⟨path, inner, part, fault, reached, wrong, same⟩
  exact ⟨path, inner, part, fault, reached, wrong, fun matched => matched.no_fault wrong, same⟩

/-- The third group repeats the first one in another order. -/
theorem repeated_group_is_blamed :
    let group := fun numbers : List Int => Json.array (numbers.map Json.int)
    let json := Json.object [("groups", .array [group [1, 2], group [3], group [2, 1]])]
    groupsType.WellFormed ∧ json.NamesDistinct ∧ ¬ groupsType.Matches json ∧
      ofJson groupsType json = .error (.duplicateSetElement [.name "groups", .index 2]) ∧
      ∃ path inner part fault, Reaches path groupsType json inner part ∧ Fault inner part fault ∧
        ¬ inner.Matches part ∧
        ValueError.duplicateSetElement [.name "groups", .index 2] = fault path := by
  intro group json
  have distinct : json.NamesDistinct := by
    refine .object (List.nodup_singleton _) (List.forall_mem_singleton.mpr (.array ?_))
    have each (numbers : List Int) : (group numbers).NamesDistinct :=
      .array (List.forall_mem_map.mpr fun n _ => .number (.int n))
    simp [each]
  have failure : ofJson groupsType json =
      .error (.duplicateSetElement [.name "groups", .index 2]) := rfl
  rcases decodes_matching_and_blames_fault groupsType_wellFormed distinct with
    ⟨accepted, blamed⟩
  refine ⟨groupsType_wellFormed, distinct, fun matched => ?_, failure, blamed _ failure⟩
  rcases accepted.mpr matched with ⟨value, decoded⟩
  cases failure.symm.trans decoded

end Value
end ProviderKit

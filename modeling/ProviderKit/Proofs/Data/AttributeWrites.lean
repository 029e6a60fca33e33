import ProviderKit.Proofs.Data.FailedWrites
import ProviderKit.Proofs.Schema.WellFormed
import ProviderKit.Proofs.Value.Equivalence

/-!
# The type that a write is checked against

A path of names leads through single nested blocks to an attribute, and may lead on through the
object types inside it.  Where every value on the way is there, a write along the path has only one
thing left to fail for, which is the check of its value, and what the check lets through is what is
read back.

The check is against the type of the attribute, wherever the path ends.  For the attribute itself
this is the type of the place that is written.  Further in it is never: an object type is told from
every type inside it by some value, so that the call refuses what belongs there, or takes what does
not.
-/

namespace ProviderKit

open Value (HasType Conforms ofJson givenOnly)

/-! ## Paths of names -/

/-- Names of declared attributes lead from an object type into a type inside it. -/
inductive AttributeType.Leads : AttributeType → Path → AttributeType → Prop
  | here (type : AttributeType) : Leads type [] type
  | member {types : List (String × AttributeType)} {name : String} {next inner : AttributeType}
      {rest : Path} (declared : Entries.find? name types = some next)
      (further : Leads next rest inner) : Leads (.object types) (.name name :: rest) inner

/-- The names of single nested blocks lead to an attribute. -/
inductive Block.Leads : Block → Path → Attribute → Prop
  | last {block : Block} {name : String} {attr : Attribute}
      (declared : Entries.find? name block.attributes = some attr) : Leads block [.name name] attr
  | nested {block : Block} {name : String} {nested : NestedBlock} {rest : Path} {attr : Attribute}
      (declared : Entries.find? name block.blocks = some nested) (single : nested.mode = .single)
      (further : Leads nested.block rest attr) : Leads block (.name name :: rest) attr

/-- Every value before the end of the path is there, and neither null nor unknown. -/
def Value.OpenAlong (path : Path) (value : Value) : Prop :=
  ∀ front step back, path = front ++ step :: back →
    ∃ part, value.follow? front = some part ∧ part ≠ .null ∧ part ≠ .unknown

namespace AttributeType.Leads

variable {type middle inner : AttributeType} {path rest : Path}

theorem append (first : type.Leads path middle) (second : middle.Leads rest inner) :
    type.Leads (path ++ rest) inner := by
  induction first with
  | here => exact second
  | member declared _ inductionHypothesis => exact .member declared (inductionHypothesis second)

theorem eq_of_nil (leads : type.Leads [] inner) : inner = type := by
  cases leads
  rfl

theorem endsInName (leads : type.Leads path inner) (steps : path ≠ []) :
    Data.endsInName path = true := by
  induction leads with
  | here => exact absurd rfl steps
  | @member types name next inner rest declared further inductionHypothesis =>
      cases further with
      | here => rfl
      | member declared further =>
          rw [Data.endsInName, List.getLast?_cons_of_ne_nil (List.cons_ne_nil _ _)]
          exact inductionHypothesis (List.cons_ne_nil _ _)

theorem wellFormed (leads : type.Leads path inner) (wellFormed : type.WellFormed) :
    inner.WellFormed := by
  induction leads with
  | here => exact wellFormed
  | member declared _ inductionHypothesis =>
      cases wellFormed with
      | object _ each => exact inductionHypothesis (each _ (Entries.mem_of_find? declared))

end AttributeType.Leads

namespace Block.Leads

variable {block : Block} {path rest : Path} {attr : Attribute}

/-- In the values of the block the path leads to the type of the attribute. -/
theorem valueType (leads : block.Leads path attr) (wellFormed : block.WellFormed) :
    block.valueType.Leads path attr.type := by
  induction leads with
  | last declared =>
      rw [valueType_eq]
      exact .member (wellFormed.find?_memberTypes_attribute declared) (.here _)
  | @nested block name nested rest attr declared single _ inductionHypothesis =>
      have once : nested.valueType = nested.block.valueType := by
        rw [NestedBlock.valueType, single]
        rfl
      rw [valueType_eq]
      refine .member (wellFormed.find?_memberTypes_nested declared) ?_
      rw [once]
      exact inductionHypothesis (wellFormed.nested declared)

/-- The attribute is found for the path, and for every path behind it. -/
theorem attributeAt?_append (leads : block.Leads path attr) (wellFormed : block.WellFormed)
    (rest : Path) : block.attributeAt? (path ++ rest) = some attr := by
  induction leads with
  | last declared =>
      rw [List.singleton_append, attributeAt?]
      simp only [declared]
  | nested declared single _ inductionHypothesis =>
      rw [List.cons_append, attributeAt?]
      simp only [wellFormed.find?_attributes declared, declared, if_pos single]
      exact inductionHypothesis (wellFormed.nested declared)

end Block.Leads

/-! ## Values that tell types apart -/

namespace Value

variable {types others : List (String × AttributeType)} {name : String} {type : AttributeType}
  {value : Value}

theorem hasType_of_givenOnly (declared : Entries.find? name others = some type)
    (typed : HasType (.object others) (givenOnly types name value)) : HasType type value := by
  unfold givenOnly at typed
  cases typed with
  | object _ each => exact each name type value declared (Entries.find?_insert_self ..)

/-- An object has the names of its type. -/
theorem keys_eq_of_givenOnly (conforms : Conforms (.object types) (givenOnly types name value))
    (typed : HasType (.object others) (givenOnly types name value)) :
    Entries.keys others = Entries.keys types := by
  unfold givenOnly at conforms typed
  cases conforms with
  | object names =>
      cases typed with
      | object keys => exact keys.symm.trans names

/-- The value belongs to one of the types and not to the other one. -/
def TellsApart (value : Value) (type other : AttributeType) : Prop :=
  Conforms type value ∧ ¬ HasType other value ∨ Conforms other value ∧ ¬ HasType type value

/-- Object types are told apart by what is under a name of both. -/
theorem exists_tellsApart_object {other : AttributeType} (sorted : Entries.Sorted types)
    (othersSorted : Entries.Sorted others) (declared : Entries.find? name types = some type)
    (found : Entries.find? name others = some other)
    (apart : ∃ value : Value, value.TellsApart type other) :
    ∃ value : Value, value.TellsApart (.object types) (.object others) := by
  rcases apart with ⟨value, ⟨conforms, untyped⟩ | ⟨conforms, untyped⟩⟩
  · have inside := conforms_givenOnly sorted declared conforms
    exact ⟨_, .inl ⟨inside, fun typed => untyped (hasType_of_givenOnly found typed)⟩⟩
  · have inside := conforms_givenOnly othersSorted found conforms
    exact ⟨_, .inr ⟨inside, fun typed => untyped (hasType_of_givenOnly declared typed)⟩⟩

end Value

/-- An object type and a type inside it are told apart by a value. -/
theorem AttributeType.Leads.exists_tellsApart {type inner : AttributeType} {path : Path}
    (leads : type.Leads path inner) (steps : path ≠ []) (wellFormed : type.WellFormed) :
    ∃ value : Value, value.TellsApart type inner := by
  induction type using AttributeType.induct generalizing path inner with
  | object types inductionHypothesis =>
      have innerWellFormed := leads.wellFormed wellFormed
      cases leads with
      | here => exact absurd rfl steps
      | @member _ name next _ rest declared further =>
          cases wellFormed with
          | object sorted each =>
              have nulls := Value.conforms_givenOnly sorted declared (.null next)
              cases inner with
              | object others =>
                  by_cases names : Entries.keys others = Entries.keys types
                  · -- The member inside starts the same walk again, one level down in the type.
                    have member : name ∈ Entries.keys others :=
                      names ▸ Entries.find?_isSome_iff.mp (declared ▸ rfl)
                    rcases Entries.exists_find? member with ⟨last, found⟩
                    have inside := Entries.mem_of_find? declared
                    have apart := inductionHypothesis (name, next) inside
                      (further.append (.member found (.here last))) (by simp) (each _ inside)
                    cases innerWellFormed with
                    | object othersSorted _ =>
                        exact Value.exists_tellsApart_object sorted othersSorted declared found
                          apart
                  · have differ := fun typed => names (Value.keys_eq_of_givenOnly nulls typed)
                    exact ⟨_, .inl ⟨nulls, differ⟩⟩
              | dynamic => exact ⟨.bool true, .inr ⟨.dynamic (.bool true), nofun⟩⟩
              | _ => exact ⟨_, .inl ⟨nulls, nofun⟩⟩
  | _ =>
      cases leads
      exact absurd rfl steps

/-! ## Writes along open values -/

namespace Value

variable {type inner : AttributeType} {path rest : Path} {name : String} {value part : Value}

theorem OpenAlong.cons {attributes : List (String × Value)}
    (opened : OpenAlong (.name name :: rest) (.object attributes))
    (found : Entries.find? name attributes = some part) : OpenAlong rest part := by
  rintro front step back rfl
  rcases opened (.name name :: front) step back rfl with ⟨further, followed, present⟩
  rw [follow?, found] at followed
  exact ⟨further, followed, present⟩

/-- A write follows names through a value of the type to their end. -/
theorem complete_of_leads (leads : type.Leads path inner) (typed : HasType type value)
    (opened : OpenAlong path value) (new : Value) :
    (writeAlong new path value).complete = true := by
  induction leads generalizing value with
  | here => rfl
  | @member types name next inner rest declared _ inductionHypothesis =>
      rcases opened [] (.name name) rest rfl with ⟨_, ⟨⟩, notNull, notUnknown⟩
      cases typed with
      | null => exact absurd rfl notNull
      | unknown => exact absurd rfl notUnknown
      | @object _ attributes keys each =>
          have member : name ∈ Entries.keys attributes :=
            keys ▸ Entries.find?_isSome_iff.mp (declared ▸ rfl)
          rcases Entries.exists_find? member with ⟨part, found⟩
          have further := inductionHypothesis (each name next part declared found)
            (opened.cons found)
          have room : (Value.object attributes).HasRoom (.name name) := trivial
          rw [writeAlong_of_hasRoom room, part?, found]
          exact further

end Value

namespace Data

variable {role : DataRole} {data : Data role} {path front rest : Path} {attr : Attribute}
  {type inner : AttributeType} {value conforming : Value} {writable : role ≠ .config}

/-- Writes at a path report a problem exactly for the values that the type does not decode, and
what is read back is what the type has made of the value. -/
def ChecksAgainst (data : Data role) (writable : role ≠ .config) (path : Path)
    (type : AttributeType) : Prop :=
  ∀ value,
    ((data.set path value writable).2 = [] ↔
      ∃ decoded, ofJson type value.toJson = .ok decoded) ∧
    ∀ decoded, ofJson type value.toJson = .ok decoded →
      (data.set path value writable).1.get path .value = .ok decoded

theorem set_of_reached (accepted : conform data.schema path value = .ok conforming)
    (reached : (Value.writeAlong conforming path data.raw).complete = true) :
    (data.set path value writable).2 = [] ∧
      (data.set path value writable).1.get path .value = .ok conforming := by
  have found := (Value.writes_of_complete reached).follow?_eq
  constructor
  · simp [set, accepted, Value.setAt, reached]
  · simp only [get, set_of_conforming accepted, Value.getAt, found, ReadShape.read]

/-- A path that is open and whose values are checked against a type is written as the type says. -/
theorem checksAgainst_of_conform
    (checked : ∀ value, conform data.schema path value = ofJson type value.toJson)
    (reached : ∀ new, (Value.writeAlong new path data.raw).complete = true) :
    data.ChecksAgainst writable path type := by
  intro value
  have written {decoded : Value} (accepted : ofJson type value.toJson = .ok decoded) :
      (data.set path value writable).2 = [] ∧
        (data.set path value writable).1.get path .value = .ok decoded :=
    set_of_reached ((checked value).trans accepted) (reached decoded)
  refine ⟨⟨fun clean => ?_, fun ⟨_, accepted⟩ => (written accepted).1⟩,
    fun _ accepted => (written accepted).2⟩
  have noError : (data.set path value writable).2.hasError = false := by
    rw [clean]
    rfl
  rcases of_set_clean noError with ⟨decoded, accepted, _⟩
  exact ⟨decoded, (checked value).symm.trans accepted⟩

/-- Types that are both what a path is checked against decode the same values. -/
theorem ChecksAgainst.hasType {other : AttributeType}
    (checks : data.ChecksAgainst writable path type)
    (also : data.ChecksAgainst writable path other) (wellFormed : type.WellFormed)
    (conforms : Conforms type value) : HasType other value := by
  have decoded := conforms.ofJson_toJson wellFormed
  have clean := (checks value).1.mpr ⟨value, decoded⟩
  rcases (also value).1.mp clean with ⟨found, otherDecoded⟩
  have same := (checks value).2 value decoded
  rw [(also value).2 found otherDecoded] at same
  cases same
  exact (Value.conforms_of_decodeAt otherDecoded).1

theorem conform_of_leads (leads : data.schema.block.Leads front attr)
    (inside : attr.type.Leads rest inner) (wellFormed : data.schema.block.WellFormed)
    (value : Value) :
    conform data.schema (front ++ rest) value = ofJson attr.type value.toJson := by
  have found : data.schema.attributeAt? (front ++ rest) = some attr :=
    leads.attributeAt?_append wellFormed rest
  have steps : front ++ rest ≠ [] := by
    cases leads <;> exact List.cons_ne_nil _ _
  have named := ((leads.valueType wellFormed).append inside).endsInName steps
  simp only [conform, found, named, if_true]

theorem attributeType_wellFormed (leads : data.schema.block.Leads front attr)
    (wellFormed : data.schema.block.WellFormed) : attr.type.WellFormed :=
  (leads.valueType wellFormed).wellFormed wellFormed.valueType

/-- A write along names, where every value on the way is there, is checked against the type of the
attribute.  This is the type of its place at the attribute itself, and nowhere further in. -/
theorem writes_check_attribute_type (data : Data role) (writable : role ≠ .config)
    (wellFormed : data.schema.block.WellFormed) {json : Json}
    (decoded : ofJson data.schema.valueType json = .ok data.raw)
    (leads : data.schema.block.Leads front attr) (inside : attr.type.Leads rest inner)
    (opened : data.raw.OpenAlong (front ++ rest)) :
    data.ChecksAgainst writable (front ++ rest) attr.type ∧
      (data.ChecksAgainst writable (front ++ rest) inner ↔ rest = []) := by
  have typed := (Value.conforms_of_decodeAt decoded).1
  have reached := Value.complete_of_leads ((leads.valueType wellFormed).append inside) typed opened
  have checks : data.ChecksAgainst writable (front ++ rest) attr.type :=
    checksAgainst_of_conform (conform_of_leads leads inside wellFormed) reached
  refine ⟨checks, fun also => ?_, ?_⟩
  · by_contra steps
    have attrWellFormed := attributeType_wellFormed leads wellFormed
    rcases inside.exists_tellsApart steps attrWellFormed with
      ⟨value, ⟨conforms, untyped⟩ | ⟨conforms, untyped⟩⟩
    · exact untyped (checks.hasType also attrWellFormed conforms)
    · exact untyped (also.hasType checks (inside.wellFormed attrWellFormed) conforms)
  · rintro rfl
    rw [inside.eq_of_nil]
    exact checks

/-- The attribute of a resource that is an object. -/
def serverAttribute : Attribute :=
  { type := .object [("name", .string)], flags := { optional := true } }

/-- A resource with a server that has a name. -/
def serverState : State :=
  ⟨⟨0, ⟨[("server", serverAttribute)], [], none⟩⟩,
    .object [("server", .object [("name", .string "a")])]⟩

theorem serverState_wellFormed : serverState.schema.block.WellFormed := by
  have named : serverAttribute.type.WellFormed :=
    .object (List.pairwise_singleton _ _) (List.forall_mem_singleton.mpr .string)
  exact .intro (List.pairwise_singleton _ _) .nil (by simp [serverState])
    (List.forall_mem_singleton.mpr named) (by simp [serverState])

theorem serverState_decoded :
    ofJson serverState.schema.valueType serverState.raw.toJson = .ok serverState.raw :=
  rfl

theorem serverState_leads :
    serverState.schema.block.Leads [.name "server"] serverAttribute ∧
      serverAttribute.type.Leads [.name "name"] .string :=
  ⟨.last rfl, .member rfl (.here _)⟩

theorem serverState_open : serverState.raw.OpenAlong [.name "server", .name "name"] := by
  intro front step back split
  rcases front with _ | ⟨first, _ | ⟨second, _ | ⟨third, front⟩⟩⟩
  · exact ⟨_, rfl, nofun, nofun⟩
  · cases split
    exact ⟨_, rfl, nofun, nofun⟩
  · cases split
  · cases split

/-- The name of the server is checked against the type of the server, and a name is not. -/
theorem writes_check_server_type :
    serverState.ChecksAgainst DataRole.state_ne_config [.name "server", .name "name"]
        (.object [("name", .string)]) ∧
      ¬ serverState.ChecksAgainst DataRole.state_ne_config [.name "server", .name "name"]
        .string := by
  have checks := writes_check_attribute_type serverState DataRole.state_ne_config
    serverState_wellFormed serverState_decoded serverState_leads.1 serverState_leads.2
    serverState_open
  exact ⟨checks.1, mt checks.2.mp (List.cons_ne_nil _ _)⟩

/-- A name that belongs to the server is refused, because it is no server. -/
theorem server_name_is_refused :
    let path : Path := [.name "server", .name "name"]
    serverState.schema.block.WellFormed ∧
      ofJson serverState.schema.valueType serverState.raw.toJson = .ok serverState.raw ∧
      serverState.schema.block.Leads [.name "server"] serverAttribute ∧
      serverAttribute.type.Leads [.name "name"] .string ∧ serverState.raw.OpenAlong path ∧
      ofJson .string (Value.string "b").toJson = .ok (.string "b") ∧
      serverState.set path (.string "b") =
        (serverState, [conversionError path (.typeMismatch [] "object" "string")]) ∧
      ¬ serverState.ChecksAgainst DataRole.state_ne_config path .string := by
  intro path
  have refused : serverState.set path (.string "b") =
      (serverState, [conversionError path (.typeMismatch [] "object" "string")]) := rfl
  have belongs : ofJson .string (Value.string "b").toJson = .ok (.string "b") := rfl
  refine ⟨serverState_wellFormed, serverState_decoded, serverState_leads.1, serverState_leads.2,
    serverState_open, belongs, refused, fun checks => ?_⟩
  have clean := (checks (.string "b")).1.mpr ⟨_, belongs⟩
  rw [refused] at clean
  cases clean

end Data
end ProviderKit

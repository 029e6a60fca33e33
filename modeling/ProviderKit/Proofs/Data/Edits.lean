import ProviderKit.Data
import ProviderKit.Proofs.Value.Writing

/-!
# Data that stays readable

Data is readable when the document of its value decodes against the type of its schema, so that
whoever receives it next can take it apart.  Replacing the whole value and removing a resource
keep data readable, since they leave what has been decoded or nothing.  A write at a path is
checked by the call itself when the path ends in the name of an attribute; inside an attribute
and at a block it is not, and the caller is the one to know what belongs there.

`Edit.Fits` is what has to be known of a write.  It is not more than needed: a write without an
error that does not fit leaves data that cannot be read.
-/

namespace ProviderKit
namespace Data

variable {role : DataRole}

/-- A call that changes data. -/
inductive Edit : DataRole → Type
  | set {role : DataRole} (writable : role ≠ .config) (path : Path) (value : Value) : Edit role
  | setAll {role : DataRole} (writable : role ≠ .config) (document : Except String Json) :
      Edit role
  | remove : Edit .state

/-- The data after a call, and what the call reports. -/
def Edit.apply {role : DataRole} : Edit role → Data role → Data role × Diagnostics
  | .set writable path value, data => data.set path value writable
  | .setAll writable document, data => data.setAll document writable
  | .remove, state => (state.removed, [])

/-- Whether the document of the value decodes against the type of the schema. -/
def Readable (data : Data role) : Prop :=
  data.schema.valueType.Accepts data.raw.toJson

/-- What a write leaves at a place of a type belongs there.  This is ensured by the call when the
path names an attribute of that type, which includes that it ends in the name. -/
def Suits (schema : Schema) (path : Path) (value : Value) (place : AttributeType) : Prop :=
  (∃ attr, schema.attributeAt? path = some attr ∧ endsInName path = true ∧ attr.type = place) ∨
    ∀ conforming, conform schema path value = .ok conforming → place.Accepts conforming.toJson

/-- A write leads to a place of the type, leaves there what belongs there, and leaves no set on
the way with a repetition.  Other calls always fit. -/
def Edit.Fits {role : DataRole} (data : Data role) : Edit role → Prop
  | .set writable path value =>
    (∃ place, data.schema.valueType.at? path = some place ∧
      Suits data.schema path value place) ∧
      Value.SetsApart data.schema.valueType path (data.set path value writable).1.raw
  | _ => True

/-- Calls in a row, each without an error and each fitting the data it finds. -/
inductive Edited (first : Data role) : Data role → Prop
  | none : Edited first first
  | next {data : Data role} (earlier : Edited first data) (edit : Edit role)
      (clean : (edit.apply data).2.hasError = false) (fits : edit.Fits data) :
      Edited first (edit.apply data).1

/-! ## One write -/

variable {schema : Schema} {data : Data role} {path : Path} {value : Value}
  {writable : role ≠ .config}

theorem isError_conversionError (path : Path) (error : ValueError) :
    (conversionError path error).isError = true := by
  unfold conversionError
  split <;> rfl

/-- A call that reports no error has found a value to write and has reached its place. -/
theorem of_set_clean (clean : (data.set path value writable).2.hasError = false) :
    ∃ conforming, conform data.schema path value = .ok conforming ∧
      (data.set path value writable).1.schema = data.schema ∧
      Value.Writes conforming path data.raw (data.set path value writable).1.raw := by
  unfold set at clean ⊢
  cases checked : conform data.schema path value with
  | error error => simp [checked, Diagnostics.hasError, isError_conversionError] at clean
  | ok conforming =>
      have complete : (Value.writeAlong conforming path data.raw).complete = true := by
        cases reached : (Value.writeAlong conforming path data.raw).complete with
        | true => rfl
        | false =>
            simp [checked, Value.setAt, reached, Diagnostics.hasError,
              isError_conversionError] at clean
      exact ⟨conforming, rfl, rfl, Value.writes_of_complete complete⟩

theorem of_setAll_clean {document : Except String Json}
    (clean : (data.setAll document writable).2.hasError = false) :
    ∃ json raw, Value.ofJson data.schema.valueType json = .ok raw ∧
      (data.setAll document writable).1 = { data with raw } := by
  unfold setAll at clean ⊢
  cases document with
  | error reason => cases clean
  | ok json =>
      cases decoded : Value.ofJson data.schema.valueType json with
      | error error => simp [decoded, Diagnostics.hasError, isError_conversionError] at clean
      | ok raw => exact ⟨json, raw, decoded, by simp only [decoded]⟩

/-- After a write without an error data is readable exactly when the write leads to a place of
the type, leaves there what belongs there, and leaves no set on the way with a repetition. -/
theorem readable_set_iff (wellFormed : data.schema.valueType.WellFormed)
    (readable : data.Readable) (clean : (data.set path value writable).2.hasError = false) :
    (data.set path value writable).1.Readable ↔
      (∃ place, data.schema.valueType.at? path = some place ∧
        ∀ conforming, conform data.schema path value = .ok conforming →
          place.Accepts conforming.toJson) ∧
        Value.SetsApart data.schema.valueType path (data.set path value writable).1.raw := by
  rcases of_set_clean clean with ⟨conforming, found, sameSchema, writes⟩
  unfold Readable
  rw [sameSchema, writes.accepts_iff wellFormed readable]
  constructor
  · rintro ⟨place, leads, accepted, apart⟩
    refine ⟨⟨place, leads, fun other same => ?_⟩, apart⟩
    cases found.symm.trans same
    exact accepted
  · rintro ⟨⟨place, leads, accepted⟩, apart⟩
    exact ⟨place, leads, accepted conforming found, apart⟩

/-- What the call has checked against the type of an attribute belongs at a place of it. -/
theorem Suits.accepts {place : AttributeType} (suits : Suits schema path value place)
    (wellFormed : place.WellFormed) {conforming : Value}
    (found : conform schema path value = .ok conforming) : place.Accepts conforming.toJson := by
  rcases suits with ⟨attr, named, ends, rfl⟩ | accepted
  · unfold conform at found
    simp only [named, ends, if_true] at found
    exact ⟨conforming, Value.ofJson_toJson_of_ofJson wellFormed found⟩
  · exact accepted conforming found

/-! ## Calls in a row -/

theorem readable_of_decoded (wellFormed : schema.valueType.WellFormed) {json : Json}
    (decoded : Value.ofJson schema.valueType json = .ok value) :
    (⟨schema, value⟩ : Data role).Readable :=
  ⟨value, Value.ofJson_toJson_of_ofJson wellFormed decoded⟩

/-- A call that reports no error and fits keeps the schema and leaves data readable. -/
theorem Edit.readable {edit : Edit role} (wellFormed : data.schema.valueType.WellFormed)
    (readable : data.Readable) (clean : (edit.apply data).2.hasError = false)
    (fits : edit.Fits data) :
    (edit.apply data).1.schema = data.schema ∧ (edit.apply data).1.Readable := by
  cases edit with
  | set writable path value =>
      rcases fits with ⟨⟨place, leads, suits⟩, apart⟩
      change (data.set path value writable).2.hasError = false at clean
      rcases of_set_clean clean with ⟨_, _, sameSchema, _⟩
      refine ⟨sameSchema, (readable_set_iff wellFormed readable clean).mpr ⟨?_, apart⟩⟩
      exact ⟨place, leads, fun _ found => suits.accepts (wellFormed.at? leads) found⟩
  | setAll writable document =>
      rcases of_setAll_clean clean with ⟨json, raw, decoded, replaced⟩
      rw [apply, replaced]
      exact ⟨rfl, readable_of_decoded wellFormed decoded⟩
  | remove => exact ⟨rfl, data.schema.valueType.accepts_null⟩

/-- Data that starts out null or decoded and is changed by calls that report no error and fit
still belongs to its schema, and can be read. -/
theorem readable_of_edited {first data : Data role}
    (wellFormed : first.schema.valueType.WellFormed)
    (start : first.raw = .null ∨
      ∃ json, Value.ofJson first.schema.valueType json = .ok first.raw)
    (edited : Edited first data) :
    data.schema = first.schema ∧
      ∃ decoded, Value.ofJson data.schema.valueType data.raw.toJson = .ok decoded := by
  have readable : first.Readable := by
    rcases start with absent | ⟨json, decoded⟩
    · unfold Readable
      rw [absent]
      exact first.schema.valueType.accepts_null
    · exact readable_of_decoded wellFormed decoded
  change data.schema = first.schema ∧ data.Readable
  induction edited with
  | none => exact ⟨rfl, readable⟩
  | next earlier edit clean fits inductionHypothesis =>
      rcases inductionHypothesis with ⟨sameSchema, readable⟩
      have step := edit.readable (sameSchema ▸ wellFormed) readable clean fits
      exact ⟨step.1.trans sameSchema, step.2⟩

/-- A resource with a set, a number and a map. -/
def portsSchema : Schema where
  version := 0
  block := ⟨[("ports", { type := .set .int64, flags := { optional := true } }),
    ("size", { type := .int64, flags := { optional := true } }),
    ("tags", { type := .map .string, flags := { optional := true } })], [], none⟩

theorem portsSchema_wellFormed : portsSchema.valueType.WellFormed := by
  let types := [("ports", AttributeType.set .int64), ("size", .int64), ("tags", .map .string)]
  have first : "ports" < "size" := String.lt_iff_toList_lt.mpr (by decide)
  have second : "size" < "tags" := String.lt_iff_toList_lt.mpr (by decide)
  have least : ∀ name ∈ ["size", "tags"], "ports" < name :=
    List.forall_mem_cons.mpr ⟨first, List.forall_mem_singleton.mpr (first.trans second)⟩
  have sorted : Entries.Sorted types := .cons least (List.pairwise_pair.mpr second)
  have each : ∀ entry ∈ types, entry.2.WellFormed := by
    simp only [types, List.forall_mem_cons, List.not_mem_nil, false_imp_iff, implies_true,
      and_true]
    exact ⟨.set .int64, .int64, .map .string⟩
  exact .object sorted each

/-- A number, and an element of a set that is not there yet.  The set is opened as a list, and
is read as a set. -/
theorem readable_of_edited_ports :
    let first : State := .null portsSchema
    ∃ data : State, Edited first data ∧
      data.raw = .object [("ports", .list [.int 443]), ("size", .int 3)] ∧
      ∃ decoded, Value.ofJson data.schema.valueType data.raw.toJson = .ok decoded := by
  intro first
  have writable : DataRole.state ≠ .config := DataRole.state_ne_config
  let sized := (first.set [.name "size"] (.int 3)).1
  have withSize : Edited first sized := by
    have through : ∀ front, sized.raw.follow? (.name "size" :: front) =
        (Value.int 3).follow? front := fun _ => rfl
    refine .next .none (.set writable [.name "size"] (.int 3)) rfl ⟨⟨.int64, rfl, ?_⟩, ?_⟩
    · exact .inl ⟨_, rfl, rfl, rfl⟩
    · exact (Value.setsApart_cons_iff rfl through).mpr ⟨nofun, Value.setsApart_nil _ _⟩
  let opened := (sized.set [.name "ports", .index 0] (.int 443)).1
  have withPort : Edited first opened := by
    have toPorts : ∀ front, opened.raw.follow? (.name "ports" :: front) =
        (Value.list [.int 443]).follow? front := fun _ => rfl
    have toPort : ∀ front, (Value.list [.int 443]).follow? (.index 0 :: front) =
        (Value.int 443).follow? front := fun _ => rfl
    refine .next withSize (.set writable [.name "ports", .index 0] (.int 443)) rfl
      ⟨⟨.int64, rfl, .inr ?_⟩, ?_⟩
    · intro conforming found
      cases found
      exact ⟨.int 443, rfl⟩
    · refine (Value.setsApart_cons_iff rfl toPorts).mpr ⟨nofun, ?_⟩
      refine (Value.setsApart_cons_iff rfl toPort).mpr ⟨?_, Value.setsApart_nil _ _⟩
      rintro element ⟨⟩ elements meant
      cases meant with
      | cons _ rest =>
          cases rest
          exact List.pairwise_singleton _ _
  rcases readable_of_edited portsSchema_wellFormed (.inl rfl) withPort with ⟨_, readable⟩
  exact ⟨opened, withPort, rfl, readable⟩

/-- Nothing checks what is written inside an attribute: a number under a key of a map of text is
written without an error, and the state is not readable afterwards. -/
theorem write_inside_attribute_is_not_read :
    let state : State :=
      ⟨portsSchema, .object [("ports", .null), ("size", .null), ("tags", .map [])]⟩
    let written := state.set [.name "tags", .key "env"] (.int 5)
    (∃ json, Value.ofJson portsSchema.valueType json = .ok state.raw) ∧ written.2 = [] ∧
      ∀ decoded, Value.ofJson portsSchema.valueType written.1.raw.toJson ≠ .ok decoded := by
  intro state written
  refine ⟨⟨state.raw.toJson, rfl⟩, rfl, fun decoded success => ?_⟩
  have rejected : Value.ofJson portsSchema.valueType written.1.raw.toJson =
      .error (.typeMismatch [.name "tags", .key "env"] "string" "number") := rfl
  rw [rejected] at success
  cases success

end Data
end ProviderKit

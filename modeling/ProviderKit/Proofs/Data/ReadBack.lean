import ProviderKit.Proofs.Data.Edits
import ProviderKit.Proofs.Schema.AttributePaths
import ProviderKit.Proofs.Value.Marker

/-!
# What has been written is read back

A callback that writes a result to an attribute and reads the attribute in the same shape gets the
result back.  In between the result has become a value, a document, and a value again that the type
of the attribute has checked.  The checked value need not be the one that was written: an attribute
of sets turns a list into a set.  The shape of the read is what makes up for it, because it takes
the elements of either.

Two conditions are needed.  The shape has to belong to the type of the attribute, and an optional
shape may not be put around one that takes null for a result itself, as the two nulls could not be
told apart.  And no string of the result is the marker of an unknown value, which the check would
take for one.
-/

namespace ProviderKit

/-! ## Attributes at the end of a path -/

private theorem Data.endsInName_cons {step : PathStep} {rest : Path} (more : rest ≠ []) :
    endsInName (step :: rest) = endsInName rest := by
  rw [endsInName, endsInName, List.getLast?_cons_of_ne_nil more]

/-- The last step that a search for an attribute takes is the name of the attribute. -/
theorem Block.Names.endsInName {block : Block} {path : Path} {attr : Attribute}
    (names : block.Names path attr) : Data.endsInName path = true := by
  induction names with
  | own => rfl
  | single _ _ _ inside inductionHypothesis => rwa [Data.endsInName_cons inside.ne_nil]
  | repeated _ _ _ _ inside inductionHypothesis =>
      rwa [Data.endsInName_cons (List.cons_ne_nil _ _), Data.endsInName_cons inside.ne_nil]

/-! ## Shapes that belong to a type -/

/-- The type of the attributes that a primitive is read from. -/
def Primitive.type : Primitive → AttributeType
  | string => .string
  | int64 => .int64
  | float64 => .float64
  | bool => .bool

namespace ReadShape

/-- Whether null is refused and not taken for a result. -/
def refusesNull : ReadShape → Bool
  | value | observed _ | optional _ => false
  | primitive _ | list _ | map _ => true

/-- The shape belongs to the type: every result that the type accepts is the result of a read. -/
inductive Matches : ReadShape → AttributeType → Prop
  | primitive (p : Primitive) : Matches (.primitive p) p.type
  | observed (p : Primitive) : Matches (.observed p) p.type
  | optional {shape : ReadShape} {type : AttributeType} (inner : Matches shape type)
      (refuses : shape.refusesNull = true) : Matches (.optional shape) type
  | list {shape : ReadShape} {type : AttributeType} (inner : Matches shape type) :
      Matches (.list shape) (.list type)
  | set {shape : ReadShape} {type : AttributeType} (inner : Matches shape type) :
      Matches (.list shape) (.set type)

end ReadShape

open Value (ofJson)

variable {checked : Value}

theorem Primitive.read_of_ofJson (p : Primitive) {result : p.Result}
    (unmarked : (p.toValue result).Unmarked)
    (decoded : ofJson p.type (p.toValue result).toJson = .ok checked) (path : Path) :
    p.read path checked = .ok result := by
  cases p with
  | string =>
      cases unmarked with
      | string ordinary =>
          have typed : Value.HasType .string (.string result) := .string ordinary
          rcases (Value.decodeAt_toJson_iff typed .string [] checked).mp decoded with ⟨_, rfl⟩
          rfl
  | int64 =>
      change ofJson .int64 (.number (.int result)) = .ok checked at decoded
      cases inRange : Json.Number.inInt64? result with
      | none =>
          unfold ofJson Value.decodeAt at decoded
          simp [Value.isMarker, Json.isNull, Json.Number.toInt64?_int, inRange] at decoded
      | some n =>
          rcases Json.Number.inInt64?_eq_some_iff.mp inRange with ⟨_, rfl⟩
          have typed : Value.HasType .int64 (Value.int result) := .int64 inRange
          rcases (Value.decodeAt_toJson_iff typed .int64 [] checked).mp decoded with ⟨_, rfl⟩
          simp only [read, Value.int, extract?, Json.Number.asInt64?, inRange]
  | float64 =>
      cases decoded
      rfl
  | bool =>
      cases decoded
      rfl

namespace ReadShape

variable {path : Path}

theorem read_optional_of_read {shape : ReadShape} {result : shape.Result}
    (refuses : shape.refusesNull = true) (found : shape.read path checked = .ok result) :
    (optional shape).read path checked = .ok (some result) := by
  have present : checked ≠ .null := by
    rintro rfl
    cases shape with
    | primitive | list | map => cases found
    | _ => cases refuses
  unfold read
  split
  · exact absurd rfl present
  · rw [found]
    rfl

theorem read_observed_of_read {p : Primitive} {result : p.Result}
    (found : p.read path checked = .ok result) :
    (observed p).read path checked = .ok (.known result) := by
  unfold read
  split
  · cases found
  · cases found
  · rw [found]
    rfl

theorem readElements_of_forall₂ {α : Type} {read : Path → Value → Except ValueError α}
    {elements : List Value} {results : List α}
    (each : List.Forall₂ (fun element result => ∀ place, read place element = .ok result)
      elements results) : readElements read path elements = .ok results := by
  unfold readElements
  rw [mapM_eq_ok_iff]
  generalize 0 = start
  induction each generalizing start with
  | nil => exact .nil
  | cons head _ inductionHypothesis => exact .cons (head _) (inductionHypothesis _)

/-- What the type makes of the document of a result is read as the result again. -/
def Recovers (shape : ReadShape) (type : AttributeType) : Prop :=
  ∀ {result : shape.Result} {checked : Value}, (shape.toValue result).Unmarked →
    ofJson type (shape.toValue result).toJson = .ok checked →
      ∀ path, shape.read path checked = .ok result

private theorem Recovers.elements {shape : ReadShape} {type : AttributeType}
    (recovers : shape.Recovers type) {results : List shape.Result} {parts : List Value}
    (unmarked : ((list shape).toValue results).Unmarked)
    (decoded : List.Forall₂ (fun item part => ofJson type item = .ok part)
      (Value.toJsonItems (results.map shape.toValue)) parts) :
    readElements shape.read path parts = .ok results := by
  have each := List.forall_mem_map.mp (Value.unmarked_list_iff.mp unmarked)
  rw [Value.toJsonItems_eq_map, List.map_map, List.forall₂_map_left_iff] at decoded
  have decoded := (List.forall₂_and_left results parts).mpr ⟨each, decoded⟩
  exact readElements_of_forall₂ (decoded.imp fun _ _ both => recovers both.1 both.2).flip

theorem Matches.recovers {shape : ReadShape} {type : AttributeType}
    (matching : shape.Matches type) : shape.Recovers type := by
  induction matching with
  | primitive p => exact p.read_of_ofJson
  | observed p =>
      intro result checked unmarked decoded path
      cases result with
      | null =>
          cases (Value.decodeAt_null .strict _ []).symm.trans decoded
          rfl
      | unknown =>
          cases (Value.decodeAt_marker .strict _ [] (beq_self_eq_true _)).symm.trans decoded
          rfl
      | known result => exact read_observed_of_read (p.read_of_ofJson unmarked decoded path)
  | optional _ refuses inductionHypothesis =>
      intro result checked unmarked decoded path
      cases result with
      | none =>
          cases (Value.decodeAt_null .strict _ []).symm.trans decoded
          rfl
      | some result =>
          exact read_optional_of_read refuses (inductionHypothesis unmarked decoded path)
  | list _ inductionHypothesis =>
      intro result checked unmarked decoded path
      rcases Value.ofJson_list_array_iff.mp decoded with ⟨parts, each, rfl⟩
      exact inductionHypothesis.elements unmarked each
  | set _ inductionHypothesis =>
      intro result checked unmarked decoded path
      rcases Value.ofJson_set_array_iff.mp decoded with ⟨parts, each, _, rfl⟩
      exact inductionHypothesis.elements unmarked each

end ReadShape

/-! ## A write and the read after it -/

namespace Data

variable {role : DataRole}

theorem conform_of_endsAt {schema : Schema} {path : Path} {attr : Attribute}
    (ends : schema.EndsAt path attr) (value : Value) :
    conform schema path value = ofJson attr.type value.toJson := by
  have named : endsInName path = true := (Schema.endsAt_iff.mp ends).endsInName
  simp only [conform, ends.1, named, if_true]

/-- A result that is written to an attribute without a problem is what a read of the attribute in
the same shape gives.  The doubles in a result are finite.  Of others, which are written as null,
nothing is said. -/
theorem written_is_read_back (data : Data role) (writable : role ≠ .config) {path : Path}
    {attr : Attribute} (ends : data.schema.EndsAt path attr) {shape : ReadShape}
    (matching : shape.Matches attr.type) {result : shape.Result}
    (unmarked : (shape.toValue result).Unmarked)
    (clean : (data.set path (shape.toValue result) writable).2 = []) :
    (data.set path (shape.toValue result) writable).1.get path shape = .ok result := by
  have noError : (data.set path (shape.toValue result) writable).2.hasError = false := by
    rw [clean]
    rfl
  rcases of_set_clean noError with ⟨checked, decoded, _, writes⟩
  rw [conform_of_endsAt ends] at decoded
  have found := writes.follow?_eq
  have read := matching.recovers unmarked decoded path
  simp only [get, Value.getAt, found, read]

/-- A resource that lets ports in. -/
def ingressSchema : Schema :=
  let ports : Attribute := { type := .set .int64, flags := { optional := true } }
  ⟨0, ⟨[], [("ingress", .ofMode .list ⟨[("ports", ports)], [], none⟩)], none⟩⟩

/-- Ports of which two are not known yet are written into a set and read back as a list, through a
block that the write has opened. -/
theorem written_ports_are_read_back :
    let state : State := .null ingressSchema
    let path : Path := [.name "ingress", .index 0, .name "ports"]
    let ports : Attribute := { type := .set .int64, flags := { optional := true } }
    let shape := ReadShape.optional (.list (.observed .int64))
    let result : shape.Result := some [.known (443 : Int), .unknown, .unknown]
    let written := state.set path (shape.toValue result)
    ingressSchema.EndsAt path ports ∧ shape.Matches ports.type ∧
      (shape.toValue result).Unmarked ∧ written.2 = [] ∧
      written.1.raw = .object [("ingress",
        .list [.object [("ports", .set [.int 443, .unknown, .unknown])]])] ∧
      written.1.get path shape = .ok result := by
  intro state path ports shape result written
  have ends : ingressSchema.EndsAt path ports := ⟨rfl, rfl⟩
  have matching : shape.Matches ports.type := .optional (.set (.observed .int64)) rfl
  have unmarked : (shape.toValue result).Unmarked := by
    refine .list ?_
    simp only [List.forall_mem_map, List.forall_mem_cons, List.not_mem_nil]
    exact ⟨.number _, .unknown, .unknown, nofun⟩
  have clean : written.2 = [] := rfl
  exact ⟨ends, matching, unmarked, clean, rfl,
    written_is_read_back state DataRole.state_ne_config ends matching unmarked clean⟩

end Data
end ProviderKit

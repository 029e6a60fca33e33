import ProviderKit.Proofs.Value.Acceptance

/-!
# What a document means for a type

There are few ways in which decoding succeeds: null and the marker mean the same for every type,
and any other document is of the kind that the type asks for.  The induction here lists them, so
that a statement about everything that is decoded is proved once for each of them, with the parts of
a container as induction hypotheses.
-/

namespace ProviderKit
namespace Value

variable {type : AttributeType} {json : Json} {value : Value}

/-- Null and the marker mean the same for every type. -/
theorem kinds_of_ofJson (decoded : ofJson type json = .ok value) :
    json = .null ∧ value = null ∨ json = .string unknownMarker ∧ value = unknown ∨
      ¬ isMarker json = true ∧ ¬ json.isNull = true := by
  cases marker : isMarker json with
  | true =>
      rw [ofJson, decodeAt_marker _ _ _ marker] at decoded
      cases decoded
      cases json with
      | string s => exact .inr (.inl ⟨congrArg Json.string (beq_iff_eq.mp marker), rfl⟩)
      | _ => cases marker
  | false =>
      cases json with
      | null =>
          rw [ofJson, decodeAt_null] at decoded
          cases decoded
          exact .inl ⟨rfl, rfl⟩
      | _ => exact .inr (.inr ⟨Bool.false_ne_true, Bool.false_ne_true⟩)

/-- Induction over what is decoded, with one case for each way in which decoding succeeds. -/
@[elab_as_elim]
theorem ofJson_induct {motive : AttributeType → Json → Value → Prop}
    (null : ∀ type, motive type .null null)
    (unknown : ∀ type, motive type (.string unknownMarker) unknown)
    (string : ∀ s, s ≠ unknownMarker → motive .string (.string s) (string s))
    (int64 : ∀ n i, n.toInt64? = some i → motive .int64 (.number n) (int i))
    (float64 : ∀ n, motive .float64 (.number n) (number n))
    (bool : ∀ b, motive .bool (.bool b) (bool b))
    (list : ∀ element items elements, List.Forall₂ (motive element) items elements →
      motive (.list element) (.array items) (list elements))
    (set : ∀ element items elements, List.Forall₂ (motive element) items elements →
      NoRepeats elements → motive (.set element) (.array items) (set elements))
    (map : ∀ element members entries,
      List.Forall₂ (fun member entry => member.1 = entry.1 ∧ motive element member.2 entry.2)
        members entries → motive (.map element) (.object members) (map entries))
    (object : ∀ types members attributes,
      (∀ name ∈ Entries.keys members, name ∈ Entries.keys types) →
      List.Forall₂ (fun entry attr => entry.1 = attr.1 ∧
        motive entry.2 ((Entries.find? entry.1 members).getD .null) attr.2) types attributes →
      motive (.object types) (.object members) (object attributes))
    (dynamic : ∀ json, motive .dynamic json (ofUntyped json))
    (decoded : ofJson type json = .ok value) : motive type json value := by
  induction type using AttributeType.induct generalizing json value
  all_goals
    rcases kinds_of_ofJson decoded with ⟨rfl, rfl⟩ | ⟨rfl, rfl⟩ | ⟨ordinary, present⟩
    · exact null _
    · exact unknown _
    have refused := decoded
    unfold ofJson decodeAt at refused
    rw [if_neg ordinary, if_neg present] at refused
  case string =>
    cases json with
    | string s =>
        cases refused
        exact string s fun marked => ordinary (beq_iff_eq.mpr marked)
    | _ => cases refused
  case int64 =>
    cases json with
    | number n =>
        cases whole : n.toInt64? with
        | none => simp [whole] at refused
        | some i =>
            simp only [whole] at refused
            cases refused
            exact int64 n i whole
    | _ => cases refused
  case float64 =>
    cases json with
    | number n =>
        cases refused
        exact float64 n
    | _ => cases refused
  case bool =>
    cases json with
    | bool b =>
        cases refused
        exact bool b
    | _ => cases refused
  case list element inductionHypothesis =>
    cases json with
    | array items =>
        rcases ofJson_list_array_iff.mp decoded with ⟨elements, each, rfl⟩
        exact list element items elements (each.imp fun _ _ => inductionHypothesis)
    | _ => cases refused
  case set element inductionHypothesis =>
    cases json with
    | array items =>
        rcases ofJson_set_array_iff.mp decoded with ⟨elements, each, apart, rfl⟩
        exact set element items elements (each.imp fun _ _ => inductionHypothesis) apart
    | _ => cases refused
  case map element inductionHypothesis =>
    cases json with
    | object members =>
        rcases ofJson_map_object_iff.mp decoded with ⟨entries, each, rfl⟩
        exact map element members entries
          (each.imp fun _ _ both => ⟨both.1, inductionHypothesis both.2⟩)
    | _ => cases refused
  case object types inductionHypothesis =>
    cases json with
    | object members =>
        rcases ofJson_object_object_iff.mp decoded with ⟨declared, attributes, each, rfl⟩
        refine object types members attributes declared ?_
        exact (forall₂_with_mem each).imp fun entry _ both =>
          ⟨both.2.1, inductionHypothesis entry both.1 both.2.2⟩
    | _ => cases refused
  case dynamic =>
    cases refused
    exact dynamic json

end Value
end ProviderKit

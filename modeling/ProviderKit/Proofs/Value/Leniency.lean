import ProviderKit.Proofs.Value.Acceptance

/-!
# Lenient decoding

Lenient decoding differs from strict decoding in one point: members that an object type does not
declare are dropped.  A document that is accepted strictly has no such members, so it means the
same for both.
-/

namespace ProviderKit
namespace Value

variable {decode decode' : Path → Json → Except ValueError Value} {path : Path}

/-! ## Decoders that accept more -/

theorem decodeElements_mono {items : List Json} {elements : List Value}
    (each : ∀ place item value, decode place item = .ok value → decode' place item = .ok value)
    (decoded : decodeElements decode path items = .ok elements) :
    decodeElements decode' path items = .ok elements := by
  unfold decodeElements at decoded ⊢
  exact mapM_eq_ok_iff.mpr ((mapM_eq_ok_iff.mp decoded).imp fun _ _ => each _ _ _)

theorem decodeEntries_mono {members : List (String × Json)} {entries : List (String × Value)}
    (each : ∀ place item value, decode place item = .ok value → decode' place item = .ok value)
    (decoded : decodeEntries decode path members = .ok entries) :
    decodeEntries decode' path members = .ok entries := by
  unfold decodeEntries at decoded ⊢
  refine mapM_eq_ok_iff.mpr ((mapM_eq_ok_iff.mp decoded).imp fun member entry success => ?_)
  rcases bind_eq_ok success with ⟨value, found, same⟩
  exact bind_eq_ok_iff.mpr ⟨value, each _ _ _ found, same⟩

theorem decodeAttributes_mono {strictness strictness' : Strictness}
    {types : List (String × AttributeType)} {members : List (String × Json)}
    {attributes : List (String × Value)}
    (each : ∀ entry ∈ types, ∀ place item value,
      decodeAt strictness entry.2 place item = .ok value →
        decodeAt strictness' entry.2 place item = .ok value)
    (decoded : decodeAttributes strictness types path members = .ok attributes) :
    decodeAttributes strictness' types path members = .ok attributes := by
  induction types generalizing attributes with
  | nil => exact decoded
  | cons entry rest inductionHypothesis =>
      rcases List.forall_mem_cons.mp each with ⟨first, later⟩
      rw [decodeAttributes] at decoded ⊢
      rcases bind_eq_ok decoded with ⟨value, head, decoded⟩
      rcases bind_eq_ok decoded with ⟨values, tail, same⟩
      refine bind_eq_ok_iff.mpr ⟨value, first _ _ _ head, ?_⟩
      exact bind_eq_ok_iff.mpr ⟨values, inductionHypothesis later tail, same⟩

/-! ## Strict and lenient decoding -/

theorem decodeAt_lenient_object (types : List (String × AttributeType))
    (members : List (String × Json)) :
    decodeAt .lenient (.object types) path (.object members) =
      (decodeAttributes .lenient types path members >>= fun attributes =>
        .ok (object attributes)) := by
  unfold decodeAt
  simp only [isMarker, Json.isNull]
  rfl

/-- What is accepted strictly is accepted leniently and means the same. -/
theorem decodeAt_lenient_of_strict {type : AttributeType} {json : Json} {value : Value}
    (decoded : decodeAt .strict type path json = .ok value) :
    decodeAt .lenient type path json = .ok value := by
  induction type using AttributeType.induct generalizing path json value
  all_goals
    cases marker : isMarker json with
    | true =>
        rw [decodeAt_marker _ _ _ marker] at decoded ⊢
        exact decoded
    | false => ?_
  case string | int64 | float64 | bool | dynamic =>
    unfold decodeAt at decoded ⊢
    cases json <;> exact decoded
  case list type inductionHypothesis =>
    cases json with
    | array items =>
        rcases bind_eq_ok decoded with ⟨elements, collected, same⟩
        exact bind_eq_ok_iff.mpr
          ⟨elements, decodeElements_mono (fun _ _ _ => inductionHypothesis) collected, same⟩
    | _ => exact decoded
  case set type inductionHypothesis =>
    cases json with
    | array items =>
        rcases bind_eq_ok decoded with ⟨elements, collected, distinct⟩
        exact bind_eq_ok_iff.mpr
          ⟨elements, decodeElements_mono (fun _ _ _ => inductionHypothesis) collected, distinct⟩
    | _ => exact decoded
  case map type inductionHypothesis =>
    cases json with
    | object members =>
        rcases bind_eq_ok decoded with ⟨entries, collected, same⟩
        exact bind_eq_ok_iff.mpr
          ⟨entries, decodeEntries_mono (fun _ _ _ => inductionHypothesis) collected, same⟩
    | _ => exact decoded
  case object types inductionHypothesis =>
    cases json with
    | object members =>
        rw [decodeAt_object_object] at decoded
        rw [decodeAt_lenient_object]
        split at decoded
        · cases decoded
        · rcases bind_eq_ok decoded with ⟨attributes, collected, same⟩
          exact bind_eq_ok_iff.mpr ⟨attributes, decodeAttributes_mono
            (fun entry member _ _ _ => inductionHypothesis entry member) collected, same⟩
    | _ => exact decoded

/-- The value of a type is what its own document means, leniently as well. -/
theorem ofJsonLenient_toJson {type : AttributeType} {value : Value}
    (decoded : ofJson type value.toJson = .ok value) :
    ofJsonLenient type value.toJson = .ok value :=
  decodeAt_lenient_of_strict decoded

end Value
end ProviderKit

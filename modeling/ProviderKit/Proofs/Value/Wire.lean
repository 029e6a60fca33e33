import ProviderKit.Proofs.Value.KeyOrder
import ProviderKit.Value.Wire

/-!
# Values over the wire

A payload is the text of the document of a value.  When the text is read as the same
document, decoding the payload is decoding the document.
-/

namespace ProviderKit

theorem Json.parseBytes_toUTF8 (text : String) : parseBytes text.toUTF8 = parse text := by
  have decoded : String.fromUTF8? text.toUTF8 = some text := by
    unfold String.fromUTF8?
    rw [String.toUTF8_eq_toByteArray, dif_pos text.isValidUTF8]
    rfl
  unfold parseBytes
  rw [decoded]

namespace DynamicValue

variable {value : Value}

/-- The payload of a document has bytes. -/
theorem ofText_json_isEmpty {text : String} {document : Json}
    (parsed : Json.parse text = .ok document) : (ofText text).json.isEmpty = false := by
  refine Bool.eq_false_iff.mpr fun empty => ?_
  have noText : text = "" := String.utf8ByteSize_eq_zero_iff.mp (beq_iff_eq.mp empty)
  rw [noText] at parsed
  cases parsed

/-- Decoding the payload of a text is decoding the document that is read from it. -/
theorem decode_ofText {text : String} {document : Json} (parsed : Json.parse text = .ok document)
    (type : AttributeType) : (ofText text).decode type = Value.ofJson type document := by
  have read : Json.parseBytes (ofText text).json = .ok document :=
    (Json.parseBytes_toUTF8 _).trans parsed
  unfold decode
  rw [ofText_json_isEmpty parsed, read]
  rfl

theorem encode_json_isEmpty (readsBack : value.toJson.ReadsBack) :
    (encode value).json.isEmpty = false :=
  ofText_json_isEmpty readsBack

theorem decode_encode (readsBack : value.toJson.ReadsBack) (type : AttributeType) :
    (encode value).decode type = Value.ofJson type value.toJson :=
  decode_ofText readsBack type

/-- What a payload decodes to conforms to the type. -/
theorem conforms_of_decode {payload : DynamicValue} {type : AttributeType}
    (decoded : payload.decode type = .ok value) :
    Value.HasType type value ∧ Value.DistinctSets value := by
  unfold decode at decoded
  split at decoded
  · split at decoded
    · cases decoded
      exact ⟨.null type, .null⟩
    · cases decoded
  · split at decoded
    · exact Value.conforms_of_decodeAt decoded
    · cases decoded

end DynamicValue
end ProviderKit

import ProviderKit.Proofs.Server.Planning

/-!
# What is received in a payload

A payload that is absent or has no bytes stands for null.  Any other one is decoded against the
type of a schema, and when that fails the call goes on with null and one error more.
-/

namespace ProviderKit
namespace Server

variable {schema : Schema} {what : String} {payload : Option DynamicValue}

/-- The value that a payload stands for. -/
inductive Received (schema : Schema) : Option DynamicValue → Value → Prop
  | absent : Received schema none .null
  | empty : Received schema (some .empty) .null
  | decoded {payload : DynamicValue} {value : Value}
      (success : payload.decode schema.valueType = .ok value) :
      Received schema (some payload) value

/-- The error for a payload that does not decode. -/
def payloadProblem? (schema : Schema) (what : String) (payload : Option DynamicValue) :
    Option Diagnostic :=
  payload.bind fun payload =>
    match payload.decode schema.valueType with
    | .ok _ => none
    | .error error => some (payloadError what error)

/-- The value of a payload, or null when it does not decode. -/
def payloadValue (schema : Schema) (payload : Option DynamicValue) : Value :=
  (decodePayload schema "" payload).1

theorem decodePayload_eq (schema : Schema) (what : String) (payload : Option DynamicValue) :
    decodePayload schema what payload =
      (payloadValue schema payload, (payloadProblem? schema what payload).toList) := by
  cases payload with
  | none => rfl
  | some payload =>
      cases decoded : payload.decode schema.valueType with
      | ok value => simp only [payloadValue, decodePayload, payloadProblem?, decoded,
          Option.bind_some, Option.toList_none]
      | error error => simp only [payloadValue, decodePayload, payloadProblem?, decoded,
          Option.bind_some, Option.toList_some]

theorem isError_of_payloadProblem? {problem : Diagnostic}
    (found : payloadProblem? schema what payload = some problem) : problem.isError = true := by
  rcases Option.bind_eq_some_iff.mp found with ⟨payload, rfl, reported⟩
  split at reported
  · cases reported
  · cases reported
    rfl

/-- The problem of a payload is an error. -/
theorem hasError_payloadProblem? :
    Diagnostics.hasError (payloadProblem? schema what payload).toList =
      (payloadProblem? schema what payload).isSome := by
  cases found : payloadProblem? schema what payload with
  | none => rfl
  | some problem =>
      have isError := isError_of_payloadProblem? found
      simp [Diagnostics.hasError, isError]

/-- There is no problem exactly when the payload stands for a value, which then is its value. -/
theorem payloadProblem?_eq_none_iff :
    payloadProblem? schema what payload = none ↔
      Received schema payload (payloadValue schema payload) := by
  cases payload with
  | none => exact iff_of_true rfl .absent
  | some payload =>
      cases decoded : payload.decode schema.valueType with
      | ok value =>
          have isValue : payloadValue schema (some payload) = value := by
            simp only [payloadValue, decodePayload, decoded]
          rw [isValue]
          exact iff_of_true (by simp [payloadProblem?, decoded]) (.decoded decoded)
      | error error =>
          refine iff_of_false (by simp [payloadProblem?, decoded]) fun received => ?_
          cases received with
          | empty => cases decoded
          | decoded success => cases decoded.symm.trans success

theorem Received.holds {value : Value} (received : Received schema payload value) :
    Holds schema payload value := by
  intro what
  cases received with
  | absent => rfl
  | empty => rfl
  | decoded success => simp only [decodePayload, success]

theorem Holds.payloadValue_eq {value : Value} (holds : Holds schema payload value) :
    payloadValue schema payload = value :=
  congrArg Prod.fst (holds "")

/-- A payload that decodes has no problem. -/
theorem Holds.payloadProblem?_eq_none {value : Value} (holds : Holds schema payload value)
    (what : String) : payloadProblem? schema what payload = none := by
  have problems := congrArg Prod.snd (holds what)
  rw [decodePayload_eq] at problems
  exact Option.toList_eq_nil_iff.mp problems

end Server
end ProviderKit

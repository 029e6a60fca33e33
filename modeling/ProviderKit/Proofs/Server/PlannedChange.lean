import ProviderKit.Proofs.Planning.Convergence
import ProviderKit.Server.Lifecycle

/-!
# The change that a schema plans

A planned state is the proposal with its defaults filled in, and where something changes the
computed attributes are unknown as well.  It has the type of the schema.  It is stable when
the proposal is the one that a host makes, and from a stable state nothing is planned.
-/

namespace ProviderKit
namespace Server

variable {schema : Schema} {prior config proposed : Value}

/-- The state that is planned for a prior state, a proposal and a configuration. -/
def plannedState (schema : Schema) (prior proposed config : Value) : Value :=
  (plannedChange schema prior config proposed).result.1

/-- The planned state of a proposal that is not a destruction. -/
theorem plannedChange_state (present : proposed.isNull = false) :
    (plannedChange schema prior config proposed).result.1 =
      if schema.block.fill .defaults config proposed == prior then
        schema.block.fill .defaults config proposed
      else schema.block.fill .unknowns config (schema.block.fill .defaults config proposed) := by
  unfold plannedChange
  rw [if_neg (Bool.eq_false_iff.mp present)]
  by_cases unchanged : ((schema.complete .defaults config proposed).result == prior) = true
  · simp only [if_pos unchanged]
    exact (if_pos unchanged).symm
  · simp only [if_neg unchanged]
    exact (if_neg unchanged).symm

theorem hasType_plannedChange (wellFormed : schema.block.WellFormed)
    (typed : Value.HasType schema.valueType proposed) :
    Value.HasType schema.valueType (plannedChange schema prior config proposed).result.1 := by
  cases absent : proposed.isNull with
  | true =>
      unfold plannedChange
      rw [if_pos absent]
      exact typed
  | false =>
      rw [plannedChange_state absent]
      split
      · exact wellFormed.hasType_fill config typed
      · exact wellFormed.hasType_fill config (wellFormed.hasType_fill config typed)

/-- What is planned for the proposal of a host is stable. -/
theorem stable_plannedChange (wellFormed : schema.block.WellFormed)
    (typed : Value.HasType schema.valueType config) (ordered : config.KeyOrdered)
    (configured : config.isNull = false) :
    schema.block.Stable config
      (plannedChange schema prior config (schema.propose prior config)).result.1 := by
  have proposed : (schema.propose prior config).isNull = false :=
    (schema.block.isNull_propose prior config).trans configured
  have stable := wellFormed.stable_replanned typed ordered prior
  rw [plannedChange_state proposed]
  split
  · exact stable
  · exact wellFormed.stable_fill_unknowns typed ordered stable

/-- Nothing is planned for the proposal from a stable state. -/
theorem plannedChange_of_stable (defaults : schema.block.DefaultsKnown)
    (configured : config.isNull = false) {state : Value}
    (stable : schema.block.Stable config state) :
    plannedChange schema state config (schema.propose state config) = ⟨(state, .empty), []⟩ := by
  have proposed : (schema.propose state config).isNull = false :=
    (schema.block.isNull_propose state config).trans configured
  have completed :
      (schema.complete .defaults config (schema.propose state config)).result = state := stable
  have equal : (state == state) = true := Value.same_refl state
  unfold plannedChange
  rw [if_neg (Bool.eq_false_iff.mp proposed)]
  simp only [completed, equal, if_true]
  congr 1
  exact defaults.complete_diagnostics [] config _

end Server
end ProviderKit

import ProviderKit.Proofs.Planning.Separation
import ProviderKit.Proofs.Server.PlannedChange
import ProviderKit.Proofs.Server.Planning
import ProviderKit.Proofs.Value.Equivalence
import ProviderKit.Proofs.Value.Reordered

/-!
# Plans and the order of the configuration

The elements of a set have no order, yet a pass looks for the configuration of a planned element
at the position where the element stands.  Whether a reordered configuration leads to the same
plans is decided by its gaps: plans agree for every prior and every proposed state exactly when
the two configurations have the same gaps.
-/

namespace ProviderKit
namespace Server

variable {σ δ : Type} {server : Server (StateM σ) δ} {typeName : String} {schema : Schema}

/-- With the same gaps the planned states are identical. -/
theorem plannedState_congr (wellFormed : schema.block.WellFormed)
    {prior proposed config config' : Value} (typed : Value.HasType schema.valueType proposed)
    (same : schema.block.SameGaps config config') :
    plannedState schema prior proposed config = plannedState schema prior proposed config' := by
  unfold plannedState
  cases absent : proposed.isNull with
  | true =>
      unfold plannedChange
      rw [if_pos absent, if_pos absent]
  | false =>
      have filledTyped : Value.HasType schema.valueType
          (schema.block.fill .defaults config' proposed) := wellFormed.hasType_fill config' typed
      have filled := same.fill_eq wellFormed .defaults typed
      have completed := same.fill_eq wellFormed .unknowns filledTyped
      rw [plannedChange_state absent, plannedChange_state absent, filled, completed]

/-- Where nothing is there yet, both passes complete the proposal. -/
theorem plannedState_null {proposed : Value} (present : proposed.isNull = false) (config : Value) :
    plannedState schema .null proposed config = schema.block.completed config proposed := by
  have changed : ¬ (schema.block.fill .defaults config proposed == Value.null) = true := by
    rw [Value.beq_eq_same, Value.same_null, Block.isNull_fill, present]
    simp
  unfold plannedState
  rw [plannedChange_state present, if_neg changed]
  rfl

/-- Configurations whose plans always agree have the same gaps. -/
theorem sameGaps_of_plannedState_same (wellFormed : schema.block.WellFormed)
    {config config' : Value} (alike : ∀ proposed, Value.Decoded schema.valueType proposed →
      (plannedState schema .null proposed config == plannedState schema .null proposed config') =
        true) : schema.block.SameGaps config config' := by
  apply wellFormed.sameGaps_of_not_separates
  rintro ⟨planned, typed, distinct, apart⟩
  have decodes := (Value.decodeAt_toJson_iff typed wellFormed.valueType [] planned).mpr
    ⟨distinct, rfl⟩
  have equal := alike planned ⟨_, decodes⟩
  cases absent : planned.isNull with
  | true =>
      have isNull : ∀ config, schema.block.completed config planned = .null := by
        intro config
        cases planned with
        | null =>
            unfold Block.completed
            rw [Block.fill_null, Block.fill_null]
        | _ => cases absent
      rw [isNull, isNull] at apart
      exact Value.not_apart_self _ apart
  | false =>
      rw [plannedState_null absent, plannedState_null absent, Value.beq_eq_same,
        apart.left] at equal
      cases equal

/-- Every decodable request is answered with the planned state of its values.  Planned states
under two configurations are equal for all prior and all proposed states exactly when the
configurations have the same gaps.  This holds in particular when the second configuration is a
reordering of the first one, and then it need not have the same gaps. -/
theorem Serves.plans_agree_iff_sameGaps (serves : server.Serves typeName schema)
    (wellFormed : schema.block.WellFormed) (config config' : Value) :
    (∀ request prior proposed configured world, request.typeName = typeName →
      server.PlanDecodes schema request prior proposed configured →
        (outcome (server.planResourceChange (some request)) world).plannedState =
          some (.encode (plannedState schema prior proposed configured))) ∧
    ((∀ prior proposed, Value.Decoded schema.valueType prior →
      Value.Decoded schema.valueType proposed →
      (plannedState schema prior proposed config == plannedState schema prior proposed config') =
        true) ↔ schema.block.SameGaps config config') := by
  refine ⟨?_, ?_, ?_⟩
  · intro request prior proposed configured world named decodes
    rcases serves.answered world with ⟨resource, found⟩
    rw [serves.offers.planResourceChange named decodes found]
    rfl
  · intro alike
    exact sameGaps_of_plannedState_same wellFormed
      fun proposed decoded => alike .null proposed ⟨.null, Value.decodeAt_null _ _ _⟩ decoded
  · rintro same prior proposed _ ⟨document, decoded⟩
    rw [plannedState_congr wellFormed (Value.conforms_of_decodeAt decoded).1 same]
    exact Value.same_refl _

/-! A resource with a set of rules, whose mode has a default. -/

def portSchema : Schema where
  version := 0
  block :=
    ⟨[], [("rule", .ofMode .set ⟨[("mode",
      { type := .string, flags := { optional := true }, defaultValue := some (.string "tcp") }),
      ("port", { type := .int64, flags := { optional := true } })], [], none⟩)], none⟩

def portRule (mode : Value) (port : Int) : Value :=
  .object [("mode", mode), ("port", .int port)]

def portRules (rules : List Value) : Value :=
  .object [("rule", .set rules)]

/-- A configuration that gives a mode for the first rule only. -/
def portConfig : Value :=
  portRules [portRule (.string "udp") 1, portRule .null 2]

def portConfigSwapped : Value :=
  portRules [portRule .null 2, portRule (.string "udp") 1]

theorem portSchema_wellFormed : portSchema.block.WellFormed := by
  refine .intro (by simp [Entries.Sorted, portSchema]) (by simp [Entries.Sorted, portSchema])
    (by simp [portSchema]) (by simp [portSchema]) ?_
  have inOrder : "mode" < "port" := by decide
  simp only [portSchema, List.forall_mem_singleton, NestedBlock.ofMode]
  exact .intro (List.pairwise_pair.mpr inOrder) (by simp [Entries.Sorted]) (by simp)
    (by simp [AttributeType.WellFormed.string, AttributeType.WellFormed.int64]) (by simp)

/-- The two orders of the rules do not have the same gaps, as their plans differ. -/
theorem not_sameGaps_portConfig :
    (ofSchema "ports" portSchema : Server (StateM Unit) Unit).Serves "ports" portSchema ∧
      portSchema.block.WellFormed ∧
      ¬ portSchema.block.SameGaps portConfig portConfigSwapped := by
  have serves : (ofSchema "ports" portSchema : Server (StateM Unit) Unit).Serves "ports"
      portSchema := serves_ofSchema "ports" portSchema
  refine ⟨serves, portSchema_wellFormed, fun same => ?_⟩
  have agree := (serves.plans_agree_iff_sameGaps portSchema_wellFormed portConfig
    portConfigSwapped).2.mpr same .null portConfig ⟨.null, rfl⟩ ⟨portConfig.toJson, rfl⟩
  have differ : (plannedState portSchema .null portConfig portConfig ==
    plannedState portSchema .null portConfig portConfigSwapped) = false := rfl
  rw [differ] at agree
  cases agree

/-- What is planned for the configuration. -/
def portPlan : Value :=
  portRules [portRule (.string "udp") 1, portRule (.string "tcp") 2]

def portPlanSwapped : Value :=
  portRules [portRule (.string "tcp") 1, portRule .null 2]

private theorem portRules_travel :
    Travels portSchema .null ∧ Travels portSchema portConfig ∧
      Travels portSchema portConfigSwapped ∧ Travels portSchema portPlan ∧
      Travels portSchema portPlanSwapped := by
  refine ⟨⟨?_, rfl⟩, ⟨?_, rfl⟩, ⟨?_, rfl⟩, ⟨?_, rfl⟩, ⟨?_, rfl⟩⟩ <;>
    · apply (Json.keyOrdered_iff.mpr rfl).readsBack
      simp [Json.maxDepth, portConfig, portConfigSwapped, portPlan, portPlanSwapped, portRules,
        portRule, Value.toJson, Value.toJsonItems, Value.toJsonMembers, Value.int,
        Json.Number.minInt64, Json.Number.maxUInt64]

/-- The order of the rules changes the plan.  In the other order the default goes to the rule
with a mode, and the rule without one stays without. -/
theorem planned_state_depends_on_order :
    Value.Reordered portConfig portConfigSwapped ∧
    (portConfig.isFullyKnown && portConfigSwapped.isFullyKnown) = true ∧
    ∃ (request request' : Protocol.PlanChangeRequest) (planned planned' : Value),
      let server : Server (StateM Unit) Unit := ofSchema "ports" portSchema
      server.Serves "ports" portSchema ∧
      server.PlanDecodes portSchema request .null portConfig portConfig ∧
      server.PlanDecodes portSchema request' .null portConfig portConfigSwapped ∧
      (outcome (server.planResourceChange (some request)) ()).plannedState =
        some (.encode planned) ∧
      (outcome (server.planResourceChange (some request')) ()).plannedState =
        some (.encode planned') ∧
      Holds portSchema (some (.encode planned)) planned ∧
      Holds portSchema (some (.encode planned')) planned' ∧
      (planned == planned') = false := by
  rcases portRules_travel with ⟨null, config, swapped, plan, planSwapped⟩
  have serves : (ofSchema "ports" portSchema : Server (StateM Unit) Unit).Serves "ports"
      portSchema := serves_ofSchema "ports" portSchema
  have decodes := (ofSchema "ports" portSchema : Server (StateM Unit) Unit).planDecodes_planRequest
    "ports" null config config
  have decodes' := (ofSchema "ports" portSchema : Server (StateM Unit) Unit).planDecodes_planRequest
    "ports" null config swapped
  have agree : Value.Reordered portConfig portConfigSwapped := by
    refine .object rfl (.cons (.set (List.forall₂_same.mpr fun rule _ => .refl rule) ?_) .nil)
    exact .swap _ _ _
  refine ⟨agree, rfl, _, _, portPlan, portPlanSwapped, serves, decodes, decodes', ?_, ?_,
    plan.holds, planSwapped.holds, rfl⟩
  · rcases serves.answered () with ⟨resource, found⟩
    rw [serves.offers.planResourceChange rfl decodes found]
    rfl
  · rcases serves.answered () with ⟨resource, found⟩
    rw [serves.offers.planResourceChange rfl decodes' found]
    rfl

end Server
end ProviderKit

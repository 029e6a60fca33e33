import ProviderKit.Proofs.Planning.ReplacementOrder
import ProviderKit.Proofs.Server.PlannedChange
import ProviderKit.Proofs.Server.Planning

/-!
# Replacement and the order of the prior state

A stored state lists the elements of a set in some order.  The planned state does not depend on
it.  Whether the resource is replaced may depend on it, since changed elements are compared in the
order in which they stand.  It does not where all ways to match these elements agree, and by
`Block.decided_iff` this is all that can be asked of them.
-/

namespace ProviderKit
namespace Server

variable {σ δ : Type} {server : Server (StateM σ) δ} {typeName : String} {schema : Schema}

/-- Where all ways to match agree, the planned changes for all orders of the prior state replace the
resource or none of them does. -/
theorem plannedChange_eq_nil_iff {prior prior' proposed config : Value}
    (reordered : Value.Reordered prior prior')
    (decided : schema.block.Decided prior (plannedState schema prior proposed config)) :
    (plannedChange schema prior config proposed).result.2.toList = [] ↔
      (plannedChange schema prior' config proposed).result.2.toList = [] := by
  have equal : ∀ value, (value == prior) = (value == prior') := reordered.same_right
  unfold plannedState at decided
  unfold plannedChange at decided ⊢
  by_cases absent : proposed.isNull = true
  · rw [if_pos absent, if_pos absent]
  rw [if_neg absent] at decided ⊢
  rw [if_neg absent]
  simp only [equal] at decided ⊢
  by_cases unchanged : ((schema.complete .defaults config proposed).result == prior') = true
  · rw [if_pos unchanged, if_pos unchanged]
  rw [if_neg unchanged] at decided ⊢
  rw [if_neg unchanged, reordered.isNull_eq]
  by_cases created : prior'.isNull = true
  · simp only [if_pos created]
  · simp only [if_neg created]
    unfold Schema.replacements
    rw [Paths.toList_ofList_eq_nil_iff, Paths.toList_ofList_eq_nil_iff]
    exact decided.replacements_eq_nil_iff reordered

/-- Where all ways to match the changed elements of sets agree, the order of the prior state does not
decide whether the resource is replaced. -/
theorem Serves.replaced_iff_of_reordered (serves : server.Serves typeName schema)
    {request request' : Protocol.PlanChangeRequest} {prior prior' proposed config : Value}
    (named : request.typeName = typeName) (named' : request'.typeName = typeName)
    (decodes : server.PlanDecodes schema request prior proposed config)
    (decodes' : server.PlanDecodes schema request' prior' proposed config)
    (reordered : Value.Reordered prior prior')
    (decided : schema.block.Decided prior (plannedState schema prior proposed config))
    (world world' : σ) :
    (outcome (server.planResourceChange (some request)) world).requiresReplace = [] ↔
      (outcome (server.planResourceChange (some request')) world').requiresReplace = [] := by
  rcases serves.answered world with ⟨resource, found⟩
  rcases serves.answered world' with ⟨resource', found'⟩
  rw [serves.offers.planResourceChange named decodes found,
    serves.offers.planResourceChange named' decodes' found']
  exact List.map_eq_nil_iff.trans
    ((plannedChange_eq_nil_iff reordered decided).trans List.map_eq_nil_iff.symm)

/-! A resource with a set of volumes.  A volume cannot be given another identifier. -/

def volumeBlock : NestedBlock :=
  .ofMode .set ⟨[("id",
    { type := .int64, flags := { optional := true }, requiresReplace := true }),
    ("size", { type := .int64, flags := { optional := true } })], [], none⟩

def volumeSchema : Schema where
  version := 0
  block := ⟨[], [("volume", volumeBlock)], none⟩

def volume (id size : Int) : Value :=
  .object [("id", .int id), ("size", .int size)]

def volumes (elements : List Value) : Value :=
  .object [("volume", .set elements)]

theorem reordered_volumes (first second : Value) :
    Value.Reordered (volumes [first, second]) (volumes [second, first]) := by
  refine .object rfl (.cons (.set (List.forall₂_same.mpr fun element _ => .refl element) ?_) .nil)
  exact .swap _ _ _

private theorem volumes_travel :
    Travels volumeSchema (volumes [volume 1 1, volume 2 2]) ∧
    Travels volumeSchema (volumes [volume 2 2, volume 1 1]) ∧
    Travels volumeSchema (volumes [volume 1 9, volume 2 8]) ∧
    Travels volumeSchema (volumes [volume 3 9, volume 4 8]) := by
  refine ⟨⟨?_, rfl⟩, ⟨?_, rfl⟩, ⟨?_, rfl⟩, ⟨?_, rfl⟩⟩ <;>
    · apply (Json.keyOrdered_iff.mpr rfl).readsBack
      simp [Json.maxDepth, volumes, volume, Value.toJson, Value.toJsonItems, Value.toJsonMembers,
        Value.int, Json.Number.minInt64, Json.Number.maxUInt64]

private theorem volumes_decode {prior planned : Value} (stored : Travels volumeSchema prior)
    (proposed : Travels volumeSchema planned) :
    (ofSchema "volumes" volumeSchema : Server (StateM Unit) Unit).PlanDecodes volumeSchema
      (planRequest "volumes" prior planned planned) prior planned planned :=
  planDecodes_planRequest _ _ stored proposed proposed

/-- Two volumes that both get a new identifier are replaced in whatever way they are matched. -/
theorem decided_volumes : volumeSchema.block.Decided (volumes [volume 1 1, volume 2 2])
    (volumes [volume 3 9, volume 4 8]) := by
  rintro ⟨-, ⟨-, matching, isMatching, inner⟩⟩
  have member : ("volume", volumeBlock) ∈ volumeSchema.block.blocks := List.mem_cons_self
  rcases List.mem_map.mp (isMatching _ member) with ⟨removed, isOrder, same⟩
  have order : removed.Perm [volume 1 1, volume 2 2] := List.mem_permutations.mp isOrder
  cases removed with
  | nil => cases order.nil_eq
  | cons first rest =>
      have matched : (first, volume 3 9) ∈ matching ("volume", volumeBlock) := by
        rw [← same]
        exact List.mem_cons_self
      rcases inner _ member _ matched with ⟨unchanged, -⟩
      have identifier := unchanged _ List.mem_cons_self rfl
      have present : first ∈ [volume 1 1, volume 2 2] := order.subset List.mem_cons_self
      simp only [List.mem_cons, List.not_mem_nil, or_false] at present
      rcases present with rfl | rfl <;> cases identifier

/-- Two volumes that both get a new identifier are replaced in both orders. -/
theorem replaced_volumes_of_reordered :
    let server : Server (StateM Unit) Unit := ofSchema "volumes" volumeSchema
    let prior := volumes [volume 1 1, volume 2 2]
    let prior' := volumes [volume 2 2, volume 1 1]
    let proposed := volumes [volume 3 9, volume 4 8]
    let request := planRequest "volumes" prior proposed proposed
    let request' := planRequest "volumes" prior' proposed proposed
    Value.Reordered prior prior' ∧
      volumeSchema.block.Decided prior (plannedState volumeSchema prior proposed proposed) ∧
      (outcome (server.planResourceChange (some request)) ()).requiresReplace ≠ [] ∧
      ((outcome (server.planResourceChange (some request)) ()).requiresReplace = [] ↔
        (outcome (server.planResourceChange (some request')) ()).requiresReplace = []) := by
  rcases volumes_travel with ⟨stored, swapped, _, proposed⟩
  have serves : (ofSchema "volumes" volumeSchema : Server (StateM Unit) Unit).Serves "volumes"
      volumeSchema := serves_ofSchema "volumes" volumeSchema
  rcases serves.answered () with ⟨resource, found⟩
  have decodes := volumes_decode stored proposed
  have decodes' := volumes_decode swapped proposed
  have reordered := reordered_volumes (volume 1 1) (volume 2 2)
  refine ⟨reordered, decided_volumes, ?_, serves.replaced_iff_of_reordered rfl rfl decodes decodes'
    reordered decided_volumes () ()⟩
  rw [serves.offers.planResourceChange rfl decodes found]
  exact List.cons_ne_nil _ _

/-- The order of two changed volumes decides whether the resource is replaced.  In the stored
order every volume is compared with the one of its identifier, and in the other order none is. -/
theorem replacement_depends_on_order :
    let server : Server (StateM Unit) Unit := ofSchema "volumes" volumeSchema
    let prior := volumes [volume 1 1, volume 2 2]
    let prior' := volumes [volume 2 2, volume 1 1]
    let proposed := volumes [volume 1 9, volume 2 8]
    let request := planRequest "volumes" prior proposed proposed
    let request' := planRequest "volumes" prior' proposed proposed
    server.Serves "volumes" volumeSchema ∧ Value.Reordered prior prior' ∧
      (prior.isFullyKnown && proposed.isFullyKnown) = true ∧
      server.PlanDecodes volumeSchema request prior proposed proposed ∧
      server.PlanDecodes volumeSchema request' prior' proposed proposed ∧
      (outcome (server.planResourceChange (some request)) ()).requiresReplace = [] ∧
      (outcome (server.planResourceChange (some request')) ()).requiresReplace ≠ [] := by
  rcases volumes_travel with ⟨stored, swapped, proposed, _⟩
  have serves : (ofSchema "volumes" volumeSchema : Server (StateM Unit) Unit).Serves "volumes"
      volumeSchema := serves_ofSchema "volumes" volumeSchema
  rcases serves.answered () with ⟨resource, found⟩
  have decodes := volumes_decode stored proposed
  have decodes' := volumes_decode swapped proposed
  refine ⟨serves, reordered_volumes _ _, rfl, decodes, decodes', ?_, ?_⟩
  · rw [serves.offers.planResourceChange rfl decodes found]
    rfl
  · rw [serves.offers.planResourceChange rfl decodes' found]
    exact List.cons_ne_nil _ _

end Server
end ProviderKit

import ProviderKit.Proofs.Server.ReportedSchemas
import ProviderKit.Proofs.Server.StoredState

/-!
# The version that the host stores

The host is told the version of a schema in a signed field, and sends it back with the state that
it stores.  On the way out the version of 64 bits is wrapped around, and on the way in a negative
version is refused.  The two agree on the versions that the field can hold.  A version of the upper
half comes back as a negative one, and the state that was stored with it is lost to the schema by
which it was made.
-/

namespace ProviderKit
namespace Server

variable {σ δ : Type} {schema : Schema} {version : Int64} {stored : ByteArray}

/-! ## There and back -/

theorem toInt_toInt64 (version : UInt64) :
    version.toInt64.toInt =
      if version.toNat < 2 ^ 63 then (version.toNat : Int) else (version.toNat : Int) - 2 ^ 64 := by
  change version.toBitVec.toInt = _
  rw [BitVec.toInt_eq_toNat_cond]
  have same : version.toBitVec.toNat = version.toNat := rfl
  rw [same]
  split <;> split <;> omega

/-- The reported version is that of the schema exactly when the signed field can hold it. -/
theorem hasVersion_toWire_iff :
    schema.HasVersion schema.toWire.version ↔ schema.version.toNat < 2 ^ 63 := by
  change schema.version.toInt64.toInt = schema.version.toNat ↔ _
  rw [toInt_toInt64]
  split
  · next fits => exact iff_of_true rfl fits
  · next large => exact iff_of_false (by omega) large

theorem toWire_version_neg (large : 2 ^ 63 ≤ schema.version.toNat) :
    schema.toWire.version < 0 := by
  rw [Int64.lt_iff_toInt_lt, Int64.toInt_zero]
  change schema.version.toInt64.toInt < 0
  have bound := schema.version.toNat_lt
  rw [toInt_toInt64, if_neg (Nat.not_lt.mpr large)]
  omega

/-! ## Versions that are refused -/

/-- The problem of stored state with a negative version. -/
def invalidVersion (version : Int64) : Diagnostic :=
  .error "Invalid Schema Version"
    ("The stored state has a negative schema version (" ++ decimalText version.toInt ++ ").")

theorem upgradeStored_of_negative {m : Type → Type} [Monad m] {document : Json}
    (negative : version < 0) (parsed : Json.parseBytes stored = .ok document)
    (resource : Resource m) :
    upgradeStored resource version stored = pure (none, [invalidVersion version]) := by
  unfold upgradeStored
  simp only [parsed, if_pos negative]
  rfl

/-- Whatever is wrong with state of the current version, its version is not. -/
theorem storedProblem?_ne_invalidVersion (current : schema.HasVersion version)
    {problem : Diagnostic} (found : storedProblem? schema version stored = some problem) :
    problem.summary ≠ (invalidVersion version).summary := by
  rcases hasVersion_iff.mp current with ⟨valid, same⟩
  have different : storedStateSummary ≠ "Invalid Schema Version" := by decide
  suffices summary : problem.summary = storedStateSummary from summary ▸ different
  unfold storedProblem? at found
  cases parsed : Json.parseBytes stored with
  | error cause =>
      simp only [parsed] at found
      cases found
      rfl
  | ok document =>
      simp only [parsed, if_neg valid, if_pos same] at found
      split at found
      · cases found
      · cases found
        rfl

/-! ## The call -/

variable {server : Server (StateM σ) δ} {typeName : String} {world : σ}

/-- Where no instance is made, the call ends with the reason. -/
theorem upgradeResourceState_of_absent
    (absent : (outcome (server.resource typeName) world).1 = none)
    (nonempty : stored.isEmpty = false) :
    outcome (server.upgradeResourceState (some (upgradeRequest typeName version stored))) world =
      { diagnostics := (outcome (server.resource typeName) world).2.toWire } := by
  unfold upgradeResourceState
  simp only [upgradeRequest, Option.getD_some, nonempty, Bool.false_eq_true, if_false]
  rw [outcome_bind]
  generalize outcome (server.resource typeName) world = answer at absent ⊢
  rcases answer with ⟨_, lookup⟩
  cases absent
  rfl

/-- The call asks no callback to upgrade the state. -/
def LeavesUpgrades (server : Server (StateM σ) δ) (request : Protocol.UpgradeStateRequest)
    (world : σ) : Prop :=
  JournalsThat
    (fun _ events => ∀ event ∈ events, ¬ event.Answers (.upgradeResourceState (some request)))
    id (server.upgradeResourceState (some request))
    (server.journaled.upgradeResourceState (some request)) world

/-- Whether or not an instance is made, state of the current version is not upgraded. -/
theorem leavesUpgrades_of_current
    (sameSchema : ∀ resource, (outcome (server.resource typeName) world).1 = some resource →
      resource.schema = schema)
    (current : schema.HasVersion version) (stored : ByteArray) :
    server.LeavesUpgrades (upgradeRequest typeName version stored) world := by
  let request := upgradeRequest typeName version stored
  have follows : Follows server (.upgradeResourceState (some request)) (·.diagnostics) id
      (server.upgradeResourceState (some request))
      (server.journaled.upgradeResourceState (some request)) world :=
    server.follows_upgradeResourceState (some request)
  rcases follows with ⟨begun, callback, _, unanswered, journals, course⟩
  -- A callback would have work to do only for state of another version.
  have idle : callback = none := by
    by_contra called
    rcases course.runs_iff.mp (Option.isSome_iff_ne_none.mpr called) with ⟨found, made, _, work⟩
    change (outcome (if stored.isEmpty then pure (none, []) else server.resourceSchema typeName)
      world).1 = some found at made
    split at made
    · cases made
    · rcases Option.map_eq_some_iff.mp made with ⟨resource, isResource, rfl⟩
      rw [← sameSchema resource isResource] at current
      exact work (hasVersion_iff.mp current).2
  subst idle
  exact ⟨_, journals, by simpa using unanswered⟩

/-! ## The reported version -/

/-- A host that stores the reported version with a state and sends both back has the state read by
the schema, as state of the current version, when the version is below `2 ^ 63`.  All other
versions are reported as negative ones, and their state is refused. -/
theorem reported_version_is_current_when_it_fits {provider : Provider (StateM σ) δ} {name : String}
    {served : ResourceType (StateM σ) δ}
    (isFirst : ServedType.IsFirst provider.typeName name provider.resources served)
    (keeps : served.KeepsSchema Resource.schema) (asked : Option δ) (world : σ) :
    ∃ reported, Entries.find? name
      (outcome (Server.mk provider asked).getProviderSchema world).resourceSchemas =
        some reported ∧
    (served.schema.HasVersion reported.version ↔ served.schema.version.toNat < 2 ^ 63) ∧
    ∀ (called : Option δ) (later : σ) (stored : ByteArray),
      let server : Server (StateM σ) δ := ⟨provider, called⟩
      let request := upgradeRequest name reported.version stored
      let lookup := outcome (server.resource name) later
      let response := outcome (server.upgradeResourceState (some request)) later
      (served.schema.version.toNat < 2 ^ 63 → stored.isEmpty = false →
        server.LeavesUpgrades request later ∧
        (lookup.1 = none → response = { diagnostics := lookup.2.toWire }) ∧
        (∀ resource, lookup.1 = some resource →
          let problem? := storedProblem? served.schema reported.version stored
          response =
            { state := (storedValue? served.schema stored).map .encode
              diagnostics := (lookup.2 ++ problem?.toList).toWire } ∧
          ∀ problem ∈ problem?, problem.summary ≠ (invalidVersion reported.version).summary)) ∧
      (2 ^ 63 ≤ served.schema.version.toNat →
        ∀ document resource, Json.parseBytes stored = .ok document → lookup.1 = some resource →
          response =
            { diagnostics := (lookup.2 ++ [invalidVersion reported.version]).toWire }) := by
  have found : (Server.mk provider asked).provider.findResource? name = some served :=
    ServedType.isFirst_iff.mp isFirst
  refine ⟨served.schema.toWire, ?_, hasVersion_toWire_iff, fun called later stored => ?_⟩
  · change Entries.find? name
      (reportSchemas provider.typeName .duplicateResource provider.resources).1 = _
    rw [find?_reportSchemas, ServedType.isFirst_iff.mp isFirst]
    rfl
  · intro server request lookup response
    have sameSchema : ∀ resource, lookup.1 = some resource → resource.schema = served.schema := by
      intro resource isResource
      have dispatched : server.resource name =
          server.instantiate (some served) (.unknownResource name) :=
        congrArg (server.instantiate · _) found
      have made : (outcome (server.resource name) later).1 = some resource := isResource
      rw [dispatched] at made
      exact schema_of_instantiate keeps made
    refine ⟨fun fits nonempty => ?_, fun large document resource parsed isResource => ?_⟩
    · have current := hasVersion_toWire_iff.mpr fits
      refine ⟨leavesUpgrades_of_current sameSchema current stored, fun absent =>
        upgradeResourceState_of_absent absent nonempty, fun resource isResource => ?_⟩
      have answers : server.Answers name served.schema later :=
        ⟨resource, isResource, sameSchema resource isResource⟩
      exact ⟨(upgradeResourceState_of_current answers current nonempty).2,
        fun _ => storedProblem?_ne_invalidVersion current⟩
    · have negative := toWire_version_neg large
      exact (upgradeResourceState_of_decided isResource (nonempty_of_parseBytes parsed)
        fun other _ => upgradeStored_of_negative negative parsed other).2

theorem parse_emptyDocument : Json.parseBytes "{}".toUTF8 = .ok (.object []) :=
  (Json.parseBytes_toUTF8 _).trans rfl

/-- The version of the volumes comes back as it is. -/
theorem version_of_volumes_comes_back :
    let server : Server (StateM Unit) Unit := ⟨cloud, none⟩
    ServedType.IsFirst "cloud" "cloud_volume" cloud.resources (idleResource "_volume" 1) ∧
    (idleResource "_volume" 1).KeepsSchema Resource.schema ∧
    ∃ reported, Entries.find? "cloud_volume" (outcome server.getProviderSchema ()).resourceSchemas =
      some reported ∧
    let request := upgradeRequest "cloud_volume" reported.version "{}".toUTF8
    server.LeavesUpgrades request () ∧
    (outcome (server.upgradeResourceState (some request)) ()).state =
      some (.encode (.object [])) := by
  intro server
  have isFirst : ServedType.IsFirst "cloud" "cloud_volume" cloud.resources
      (idleResource "_volume" 1) := ⟨[], _, rfl, rfl, nofun⟩
  have keeps : (idleResource "_volume" 1).KeepsSchema Resource.schema := fun _ _ => rfl
  rcases reported_version_is_current_when_it_fits isFirst keeps none () with
    ⟨reported, found, _, answered⟩
  have fits : (idleResource "_volume" 1).schema.version.toNat < 2 ^ 63 := by decide
  rcases (answered none () "{}".toUTF8).1 fits rfl with ⟨leaves, _, upgraded⟩
  have value : storedValue? (Schema.empty 1) "{}".toUTF8 = some (.object []) :=
    (storedValue?_eq_some_iff parse_emptyDocument _).mpr rfl
  refine ⟨isFirst, keeps, reported, found, leaves, ?_⟩
  rw [(upgraded _ rfl).1]
  exact congrArg (Option.map DynamicValue.encode) value

/-- The first version that does not fit comes back as a negative one and is refused. -/
theorem version_beyond_the_field_is_refused :
    let schema : Schema := .empty 9223372036854775808
    let server : Server (StateM Unit) Unit := ofSchema "volume" schema
    ∃ reported, Entries.find? "volume" (outcome server.getProviderSchema ()).resourceSchemas =
      some reported ∧
    reported.version = -9223372036854775808 ∧
    outcome (server.upgradeResourceState
      (some (upgradeRequest "volume" reported.version "{}".toUTF8))) () =
        { diagnostics := Diagnostics.toWire [invalidVersion (-9223372036854775808)] } := by
  intro schema server
  have made := congrArg Prod.fst (resource_ofSchema (σ := Unit) (δ := Unit) "volume" schema ())
  refine ⟨schema.toWire, rfl, rfl, ?_⟩
  have negative : schema.toWire.version < 0 := by decide
  have refused := (upgradeResourceState_of_decided made (nonempty_of_parseBytes parse_emptyDocument)
    fun other _ => upgradeStored_of_negative negative parse_emptyDocument other).2
  rw [resource_ofSchema] at refused
  exact refused

end Server
end ProviderKit

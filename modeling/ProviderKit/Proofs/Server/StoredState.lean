import ProviderKit.Proofs.Server.Reports
import ProviderKit.Proofs.Value.Leniency

/-!
# Stored state of the current version

State is stored with the version of the schema that it was made by.  As long as the schema has this
version, stored state is read by the schema alone, which drops what is not declared any more and
takes for null what has been added since.  No callback of the resource is asked.

What comes out of this conforms to the schema, so that there is nothing to drop and nothing to add
when it is stored and read again.
-/

namespace ProviderKit

/-- The version is that of the schema. -/
def Schema.HasVersion (schema : Schema) (version : Int64) : Prop :=
  version.toInt = schema.version.toNat

namespace Server

variable {σ δ : Type} {schema : Schema} {version : Int64} {stored : ByteArray}

/-- The version of a schema passes both checks of stored state. -/
theorem hasVersion_iff :
    schema.HasVersion version ↔ ¬ version < 0 ∧ version.toUInt64 = schema.version := by
  unfold Schema.HasVersion
  constructor
  · intro same
    have valid : ¬ version < 0 := by
      rw [Int64.lt_iff_toInt_lt, Int64.toInt_zero, same]
      exact Int.not_lt.mpr (Int.natCast_nonneg _)
    exact ⟨valid, UInt64.toNat_inj.mp (Int.ofNat_inj.mp ((toNat_toUInt64 valid).trans same))⟩
  · rintro ⟨valid, same⟩
    rw [← same, toNat_toUInt64 valid]

/-! ## Reading by the schema -/

/-- The value that stored state has for a schema. -/
def storedValue? (schema : Schema) (stored : ByteArray) : Option Value :=
  match Json.parseBytes stored with
  | .error _ => none
  | .ok document => (Value.ofJsonLenient schema.valueType document).toOption

theorem storedValue?_eq_some_iff {document : Json} (parsed : Json.parseBytes stored = .ok document)
    (value : Value) : storedValue? schema stored = some value ↔
      Value.ofJsonLenient schema.valueType document = .ok value := by
  unfold storedValue?
  simp only [parsed]
  cases Value.ofJsonLenient schema.valueType document <;> simp [Except.toOption]

/-- State of the current version has a value or a problem, and the problem is an error. -/
theorem hasError_storedProblem?_iff (current : schema.HasVersion version) (stored : ByteArray) :
    Diagnostics.hasError (storedProblem? schema version stored).toList = false ↔
      ∃ value, storedValue? schema stored = some value := by
  rcases hasVersion_iff.mp current with ⟨valid, same⟩
  unfold storedProblem? storedValue?
  cases Json.parseBytes stored with
  | error cause => simp [Diagnostics.hasError, Diagnostic.error, Diagnostic.isError]
  | ok document =>
      simp only [if_neg valid, if_pos same]
      cases Value.ofJsonLenient schema.valueType document <;>
        simp [Except.toOption, Diagnostics.hasError, Diagnostic.error, Diagnostic.isError]

/-- State of the current version is read by the schema, whatever the callbacks would do. -/
theorem upgradeStored_of_current {m : Type → Type} [Monad m] {resource : Resource m}
    (sameSchema : resource.schema = schema) (current : schema.HasVersion version)
    (stored : ByteArray) :
    upgradeStored resource version stored =
      pure (storedValue? schema stored, (storedProblem? schema version stored).toList) := by
  subst sameSchema
  rcases hasVersion_iff.mp current with ⟨valid, same⟩
  unfold upgradeStored storedValue? storedProblem?
  cases Json.parseBytes stored with
  | error cause => rfl
  | ok document =>
      simp only [if_neg valid, if_pos same]
      cases Value.ofJsonLenient resource.schema.valueType document <;> rfl

/-! ## The call -/

/-- A call for the type is answered by an instance with the schema. -/
def Answers (server : Server (StateM σ) δ) (typeName : String) (schema : Schema) (world : σ) :
    Prop :=
  ∃ resource, (outcome (server.resource typeName) world).1 = some resource ∧
    resource.schema = schema

def upgradeRequest (typeName : String) (version : Int64) (stored : ByteArray) :
    Protocol.UpgradeStateRequest where
  typeName := typeName
  version := version
  rawState := some stored

variable {server : Server (StateM σ) δ} {typeName : String} {world : σ}

/-- What is found in stored state without a callback is the answer of the call, and nothing is
called but the configuration of the instance. -/
theorem upgradeResourceState_of_decided {resource : Resource (StateM σ)} {result : Outcome}
    (found : (outcome (server.resource typeName) world).1 = some resource)
    (nonempty : stored.isEmpty = false)
    (decided : ∀ {m : Type → Type} [Monad m] (other : Resource m),
      other.schema = resource.schema → upgradeStored other version stored = pure result) :
    let request := upgradeRequest typeName version stored
    let lookup := (outcome (server.resource typeName) world).2
    Journals id (server.upgradeResourceState (some request))
      (server.journaled.upgradeResourceState (some request)) world
      [.resourceConfigured typeName server.providerData lookup] ∧
    outcome (server.upgradeResourceState (some request)) world =
      { state := result.1.map .encode, diagnostics := (lookup ++ result.2).toWire } := by
  intro request lookup
  have answered : outcome (server.resource typeName) world = (some resource, lookup) :=
    Prod.ext found rfl
  have configured := journals_resource_found (δ := δ) found
  unfold upgradeResourceState
  simp only [request, upgradeRequest, Option.getD_some, nonempty, Bool.false_eq_true, if_false]
  constructor
  · rw [← List.append_nil [_]]
    refine configured.bind ?_
    rw [answered]
    simp only [Prod.map, Option.map_some, id]
    rw [decided resource rfl, decided resource.journaled rfl, pure_bind, pure_bind]
    exact .of_pure id _ _
  · rw [outcome_bind, answered]
    simp only
    rw [decided resource rfl]
    rfl

/-- State of the current version is read by the schema, and its problem is reported behind those
of the configuration. -/
theorem upgradeResourceState_of_current (answers : server.Answers typeName schema world)
    (current : schema.HasVersion version) (nonempty : stored.isEmpty = false) :
    let request := upgradeRequest typeName version stored
    let lookup := (outcome (server.resource typeName) world).2
    Journals id (server.upgradeResourceState (some request))
      (server.journaled.upgradeResourceState (some request)) world
      [.resourceConfigured typeName server.providerData lookup] ∧
    outcome (server.upgradeResourceState (some request)) world =
      { state := (storedValue? schema stored).map .encode
        diagnostics := (lookup ++ (storedProblem? schema version stored).toList).toWire } := by
  rcases answers with ⟨resource, found, sameSchema⟩
  exact upgradeResourceState_of_decided found nonempty fun other sameAgain =>
    upgradeStored_of_current (sameAgain.trans sameSchema) current stored

/-! ## Cleaning up -/

theorem nonempty_of_parseBytes {document : Json} (parsed : Json.parseBytes stored = .ok document) :
    stored.isEmpty = false := by
  refine Bool.eq_false_iff.mpr fun empty => ?_
  have noBytes : stored = "".toUTF8 :=
    ByteArray.ext (Array.eq_empty_of_size_eq_zero (by simpa [ByteArray.isEmpty] using empty))
  rw [noBytes, Json.parseBytes_toUTF8] at parsed
  cases parsed

/-- A response has the value of the stored document, or else an error. -/
theorem upgraded_of_current (answers : server.Answers typeName schema world)
    (current : schema.HasVersion version) {document : Json}
    (parsed : Json.parseBytes stored = .ok document) :
    let response := outcome (server.upgradeResourceState
      (some (upgradeRequest typeName version stored))) world
    (Diagnostics.hasError (response.diagnostics.map Diagnostic.ofWire) = false ↔
      ∃ value, Value.ofJsonLenient schema.valueType document = .ok value) ∧
    ∀ value, Value.ofJsonLenient schema.valueType document = .ok value →
      response.state = some (.encode value) := by
  intro response
  have answer : response = _ :=
    (upgradeResourceState_of_current answers current (nonempty_of_parseBytes parsed)).2
  rcases answers with ⟨resource, found, _⟩
  rw [answer]
  refine ⟨?_, fun value read => ?_⟩
  · rw [hasError_ofWire_toWire, hasError_append, resource_hasError found, Bool.false_or,
      hasError_storedProblem?_iff current]
    exact exists_congr (storedValue?_eq_some_iff parsed)
  · rw [(storedValue?_eq_some_iff parsed value).mpr read]
    rfl

/-- The payload is returned when its text is sent as stored state, without an error. -/
def Keeps (server : Server (StateM σ) δ) (typeName : String) (version : Int64) (world : σ)
    (payload : DynamicValue) : Prop :=
  let response := outcome (server.upgradeResourceState
    (some (upgradeRequest typeName version payload.json))) world
  response.state = some payload ∧
    Diagnostics.hasError (response.diagnostics.map Diagnostic.ofWire) = false

/-- State that conforms to the schema is kept. -/
theorem keeps_of_decoded (answers : server.Answers typeName schema world)
    (current : schema.HasVersion version) {value : Value} (readsBack : value.toJson.ReadsBack)
    (decoded : Value.ofJson schema.valueType value.toJson = .ok value) :
    server.Keeps typeName version world (.encode value) := by
  have parsed : Json.parseBytes (DynamicValue.encode value).json = .ok value.toJson :=
    (Json.parseBytes_toUTF8 _).trans readsBack
  have read := Value.ofJsonLenient_toJson decoded
  rcases upgraded_of_current answers current parsed with ⟨fine, state⟩
  exact ⟨state value read, fine.mpr ⟨value, read⟩⟩

/-- Stored state of the current version is brought to the schema without a callback, and then
stays as it is: in a second call, on a server that may have been configured in between, it is
returned unchanged.  State that conforms to the schema is returned unchanged at once. -/
theorem current_state_is_cleaned_once {later : Server (StateM σ) δ} {again : σ} {document : Json}
    (wellFormed : schema.valueType.WellFormed) (current : schema.HasVersion version)
    (answers : server.Answers typeName schema world)
    (answersAgain : later.Answers typeName schema again)
    (parsed : Json.parseBytes stored = .ok document) :
    let request := upgradeRequest typeName version stored
    let response := outcome (server.upgradeResourceState (some request)) world
    Journals id (server.upgradeResourceState (some request))
      (server.journaled.upgradeResourceState (some request)) world
      [.resourceConfigured typeName server.providerData
        (outcome (server.resource typeName) world).2] ∧
    (Diagnostics.hasError (response.diagnostics.map Diagnostic.ofWire) = false ↔
      ∃ value, Value.ofJsonLenient schema.valueType document = .ok value) ∧
    (∀ value, Value.ofJsonLenient schema.valueType document = .ok value →
      response.state = some (.encode value) ∧
      (value.toJson.ReadsBack →
        (DynamicValue.encode value).decode schema.valueType = .ok value ∧
        later.Keeps typeName version again (.encode value))) ∧
    ∀ value, Value.ofJson schema.valueType value.toJson = .ok value → value.toJson.ReadsBack →
      server.Keeps typeName version world (.encode value) := by
  intro request response
  have journals :=
    (upgradeResourceState_of_current answers current (nonempty_of_parseBytes parsed)).1
  rcases upgraded_of_current answers current parsed with ⟨fine, state⟩
  refine ⟨journals, fine, fun value read => ⟨state value read, fun readsBack => ?_⟩,
    fun value decoded readsBack => keeps_of_decoded answers current readsBack decoded⟩
  -- Lenient decoding gives a value of the type, which strict decoding accepts.
  rcases Value.conforms_of_decodeAt read with ⟨typed, distinct⟩
  have decoded : Value.ofJson schema.valueType value.toJson = .ok value :=
    (Value.decodeAt_toJson_iff typed wellFormed [] value).mpr ⟨distinct, rfl⟩
  exact ⟨(DynamicValue.decode_encode readsBack _).trans decoded,
    keeps_of_decoded answersAgain current readsBack decoded⟩

/-- Stored rules, with an attribute that is not declared any more. -/
def legacyRules : Json :=
  .object [("legacy", .bool true), ("rule", .array [.object [("mode", .string "udp")]])]

theorem parse_legacyRules : Json.parseBytes legacyRules.compact.toUTF8 = .ok legacyRules := by
  apply (Json.parseBytes_toUTF8 _).trans
  apply (Json.keyOrdered_iff.mpr rfl).readsBack
  simp [Json.maxDepth, legacyRules]

/-- The attribute is dropped, and the rules are kept from then on. -/
theorem legacy_rules_are_cleaned_once :
    let server : Server (StateM Unit) Unit := ofSchema "modes" modeSchema
    let request := upgradeRequest "modes" 0 legacyRules.compact.toUTF8
    let rules := DynamicValue.encode (modeRules [.string "udp"])
    modeSchema.valueType.WellFormed ∧ modeSchema.HasVersion 0 ∧
    server.Answers "modes" modeSchema () ∧
    Json.parseBytes legacyRules.compact.toUTF8 = .ok legacyRules ∧
    (outcome (server.upgradeResourceState (some request)) ()).state = some rules ∧
    rules.decode modeSchema.valueType = .ok (modeRules [.string "udp"]) ∧
    server.Keeps "modes" 0 () rules := by
  intro server request rules
  have wellFormed : modeSchema.valueType.WellFormed := modeSchema_wellFormed.valueType
  have current : modeSchema.HasVersion 0 := rfl
  have answers : server.Answers "modes" modeSchema () :=
    ⟨_, congrArg Prod.fst (resource_ofSchema "modes" modeSchema ()), rfl⟩
  have readsBack : (modeRules [.string "udp"]).toJson.ReadsBack := by
    apply (Json.keyOrdered_iff.mpr rfl).readsBack
    simp [Json.maxDepth, modeRules, Value.toJson, Value.toJsonItems, Value.toJsonMembers]
  have read : Value.ofJsonLenient modeSchema.valueType legacyRules =
      .ok (modeRules [.string "udp"]) := rfl
  rcases current_state_is_cleaned_once wellFormed current answers answers parse_legacyRules with
    ⟨_, _, cleaned, _⟩
  rcases cleaned _ read with ⟨state, kept⟩
  rcases kept readsBack with ⟨decoded, keeps⟩
  exact ⟨wellFormed, current, answers, parse_legacyRules, state, decoded, keeps⟩

end Server
end ProviderKit

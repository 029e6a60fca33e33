import ProviderKit.Proofs.Server.Dispatch
import ProviderKit.Proofs.Server.Payloads
import ProviderKit.Server.Answer

/-!
# What is found in the course of a call

A call begins by finding the schema it is about, which for most calls means that an instance is
made.  Then its payloads are decoded, in a fixed order and with the metadata of the calling module
last.  Where all of them decode, the call makes the checks that need no callback, and after the
callback those that do.

Each of these steps has its findings, and they are defined here apart from the calls: what is
found in the payloads is a function of the schema and the request, and what is found behind the
callback is a function of what it was called with and what came of it.  `Course` puts them
together.
-/

namespace ProviderKit

variable {m : Type → Type} {δ : Type}

/-! ## Before the callback -/

namespace Protocol.Request

/-- The payloads of a call in the order of their decoding, each with its name in problems. -/
@[simp] def payloads : Request → List (String × Option DynamicValue)
  | validateProviderConfig (some request) => [("configuration", request.config)]
  | validateResourceConfig (some request) => [("configuration", request.config)]
  | validateDataSourceConfig (some request) => [("configuration", request.config)]
  | readResource (some request) => [("current state", request.currentState)]
  | planResourceChange (some request) =>
    [("prior state", request.priorState), ("proposed new state", request.proposedNewState),
      ("configuration", request.config)]
  | applyResourceChange (some request) =>
    [("prior state", request.priorState), ("planned state", request.plannedState),
      ("configuration", request.config)]
  | readDataSource (some request) => [("configuration", request.config)]
  | _ => []

/-- The metadata of the calling module, with the calls that carry it. -/
@[simp] def metadata : Request → Option DynamicValue
  | readResource (some request) => request.providerMeta
  | planResourceChange (some request) => request.providerMeta
  | applyResourceChange (some request) => request.providerMeta
  | readDataSource (some request) => request.providerMeta
  | _ => none

@[simp] def validates : Request → Bool
  | validateProviderConfig _ => true
  | validateResourceConfig _ => true
  | validateDataSourceConfig _ => true
  | _ => false

/-- The calls about a schema.  The others are to describe, configure and stop the provider. -/
def IsAboutSchema : Request → Prop
  | getProviderSchema => False
  | configureProvider _ => False
  | stopProvider => False
  | _ => True

end Protocol.Request

def Protocol.Response.reported : Response → List WireDiagnostic
  | schema response => response.diagnostics
  | diagnostics response => response.diagnostics
  | upgradedState response => response.diagnostics
  | newState response => response.diagnostics
  | plannedChange response => response.diagnostics
  | importedState response => response.diagnostics
  | dataSourceState response => response.diagnostics
  | stopped _ => []

namespace Server

@[simp] theorem andThen_nil (diagnostics : Diagnostics) : andThen diagnostics [] = diagnostics := by
  unfold andThen
  rw [List.append_nil, ite_self]

/-- Diagnostics without an error do not stand in the way of further checks. -/
theorem andThen_append {before : Diagnostics} (fine : before.hasError = false)
    (found further : Diagnostics) :
    andThen (before ++ found) further = before ++ andThen found further := by
  unfold andThen
  rw [hasError_append, fine, Bool.false_or, List.append_assoc]
  split <;> rfl

/-- What is wrong with stored state, where no callback is needed to see it. -/
def storedProblem? (schema : Schema) (version : Int64) (stored : ByteArray) : Option Diagnostic :=
  match Json.parseBytes stored with
  | .error cause =>
    some (.error storedStateSummary
      ("There was an error reading the saved resource state as JSON.\n\n" ++ cause.message))
  | .ok json =>
    if version < 0 then
      some (.error "Invalid Schema Version"
        ("The stored state has a negative schema version (" ++ decimalText version.toInt ++ ")."))
    else if version.toUInt64 = schema.version then
      match Value.ofJsonLenient schema.valueType json with
      | .ok _ => none
      | .error error =>
        some (.error storedStateSummary
          ("The saved state does not match the current schema.\n\n" ++ error.message))
    else none

/-- What the schema finds in a call whose payloads decode. -/
def checks (schema : Schema) : Protocol.Request → Diagnostics
  | .validateProviderConfig (some request) => schema.validate (payloadValue schema request.config)
  | .validateResourceConfig (some request) => schema.validate (payloadValue schema request.config)
  | .validateDataSourceConfig (some request) => schema.validate (payloadValue schema request.config)
  | .upgradeResourceState (some request) =>
    (storedProblem? schema request.version (request.rawState.getD ByteArray.empty)).toList
  | .planResourceChange (some request) =>
    let prior := payloadValue schema request.priorState
    let config := payloadValue schema request.config
    (plannedChange schema prior config (payloadValue schema request.proposedNewState)).diagnostics
  | _ => []

/-- Whether a call leaves something to a callback: a state to refresh, a change to apply, or stored
state of another version.  All other calls do. -/
def HasWork (schema : Schema) : Protocol.Request → Prop
  | .upgradeResourceState (some request) => request.version.toUInt64 ≠ schema.version
  | .readResource (some request) => payloadValue schema request.currentState ≠ .null
  | .applyResourceChange (some request) =>
    payloadValue schema request.priorState ≠ .null ∨
      payloadValue schema request.plannedState ≠ .null
  | _ => True

/-- The problem of metadata.  Without a schema for it nothing is decoded. -/
def metaProblem? (server : Server m δ) (payload : Option DynamicValue) : Option Diagnostic :=
  server.provider.metaSchema.bind fun schema => payloadProblem? schema "provider_meta" payload

/-- The metadata that a callback is given. -/
def metaConfig (server : Server m δ) (payload : Option DynamicValue) : Config :=
  server.provider.metaSchema.elim default fun schema => ⟨schema, payloadValue schema payload⟩

theorem decodeMeta_eq (server : Server m δ) (payload : Option DynamicValue) :
    server.decodeMeta payload =
      (server.metaConfig payload, (server.metaProblem? payload).toList) := by
  unfold decodeMeta metaConfig metaProblem?
  cases server.provider.metaSchema with
  | none => rfl
  | some schema =>
      simp only [decodePayload_eq]
      rfl

/-- A problem for each payload that does not decode, and the one of the metadata last. -/
def conversions (server : Server m δ) (schema : Schema) (request : Protocol.Request) :
    Diagnostics :=
  request.payloads.flatMap (fun (what, payload) => (payloadProblem? schema what payload).toList) ++
    (server.metaProblem? request.metadata).toList

@[simp] theorem metaProblem?_none (server : Server m δ) : server.metaProblem? none = none := by
  unfold metaProblem?
  cases server.provider.metaSchema <;> rfl

/-- What is found before the callback, behind the instance. -/
def findings (server : Server m δ) (schema : Schema) (request : Protocol.Request) : Diagnostics :=
  andThen (server.conversions schema request) (checks schema request)

section Decoding

variable {server : Server m δ} {schema : Schema} {request : Protocol.Request}
  {lookup before : Diagnostics}

/-- A payload that does not decode ends the findings. -/
theorem findings_of_undecoded (undecoded : (server.conversions schema request).hasError = true) :
    server.findings schema request = server.conversions schema request :=
  if_pos undecoded

theorem findings_of_decoded (decoded : (server.conversions schema request).hasError = false) :
    server.findings schema request =
      server.conversions schema request ++ checks schema request :=
  if_neg (Bool.eq_false_iff.mp decoded)

/-- Behind an instance that was made without an error, an error is one of a payload. -/
theorem hasError_conversions (fine : lookup.hasError = false)
    (decoding : before = lookup ++ server.conversions schema request) :
    (server.conversions schema request).hasError = before.hasError := by
  rw [decoding, hasError_append, fine, Bool.false_or]

theorem eq_append_findings (fine : lookup.hasError = false)
    (decoding : before = lookup ++ server.conversions schema request)
    (undecoded : before.hasError = true) : before = lookup ++ server.findings schema request := by
  rw [findings_of_undecoded ((hasError_conversions fine decoding).trans undecoded), decoding]

theorem append_checks_eq (fine : lookup.hasError = false)
    (decoding : before = lookup ++ server.conversions schema request)
    (decoded : before.hasError = false) :
    before ++ checks schema request = lookup ++ server.findings schema request := by
  rw [findings_of_decoded ((hasError_conversions fine decoding).trans decoded), decoding,
    List.append_assoc]

/-- Without an error every payload stands for a value. -/
theorem received_of_decoded (decoded : (server.conversions schema request).hasError = false)
    {what : String} {payload : Option DynamicValue}
    (carried : (what, payload) ∈ request.payloads) :
    Received schema payload (payloadValue schema payload) := by
  have none : payloadProblem? schema what payload = none := by
    refine Option.eq_none_iff_forall_ne_some.mpr fun problem found => ?_
    have reported : problem ∈ server.conversions schema request := by
      refine List.mem_append_left _ (List.mem_flatMap.mpr ⟨_, carried, ?_⟩)
      exact Option.mem_toList.mpr found
    exact List.any_eq_false.mp decoded problem reported (isError_of_payloadProblem? found)
  exact payloadProblem?_eq_none_iff.mp none

theorem decodeMeta_of_decoded (decoded : (server.conversions schema request).hasError = false) :
    (server.decodeMeta request.metadata).2 = [] := by
  rw [conversions, hasError_append, Bool.or_eq_false_iff] at decoded
  rw [decodeMeta_eq]
  cases found : server.metaProblem? request.metadata with
  | none => rfl
  | some problem =>
      rcases Option.bind_eq_some_iff.mp found with ⟨metaSchema, _, isProblem⟩
      have member : problem ∈ (server.metaProblem? request.metadata).toList :=
        Option.mem_toList.mpr found
      have failed := List.any_eq_false.mp decoded.2 problem member
      exact absurd (isError_of_payloadProblem? isProblem) failed

end Decoding

/-- The findings that keep the callback from being called.  A validation has it called as soon as
the payload decodes, also when the schema finds an error in the value. -/
def gate (server : Server m δ) (schema : Schema) (request : Protocol.Request) : Diagnostics :=
  if request.validates then server.conversions schema request else server.findings schema request

theorem gate_eq_findings (server : Server m δ) (schema : Schema) {request : Protocol.Request}
    (acts : request.validates = false) :
    server.gate schema request = server.findings schema request := by
  rw [gate, acts, if_neg Bool.false_ne_true]

variable [Monad m]

def resourceSchema (server : Server m δ) (typeName : String) : m (Option Schema × Diagnostics) := do
  let (found, problems) ← server.resource typeName
  pure (found.map Resource.schema, problems)

def dataSourceSchema (server : Server m δ) (typeName : String) :
    m (Option Schema × Diagnostics) := do
  let (found, problems) ← server.dataSource typeName
  pure (found.map DataSource.schema, problems)

/-- How a call begins: with the schema it is about, and the problems met in finding it.  There is
no schema after an error, and where a call asks for nothing. -/
def approach (server : Server m δ) : Protocol.Request → m (Option Schema × Diagnostics)
  | .validateProviderConfig (some _) => do
    let described ← server.provider.schema
    pure (if described.diagnostics.hasError then none else some described.schema,
      described.diagnostics)
  | .validateResourceConfig (some request) => server.resourceSchema request.typeName
  | .validateDataSourceConfig (some request) => server.dataSourceSchema request.typeName
  | .upgradeResourceState (some request) =>
    if (request.rawState.getD ByteArray.empty).isEmpty then pure (none, [])
    else server.resourceSchema request.typeName
  | .readResource (some request) => server.resourceSchema request.typeName
  | .planResourceChange (some request) => server.resourceSchema request.typeName
  | .applyResourceChange (some request) => server.resourceSchema request.typeName
  | .importResourceState (some request) => server.resourceSchema request.typeName
  | .readDataSource (some request) => server.dataSourceSchema request.typeName
  | _ => pure (none, [])

end Server

/-! ## The callback and behind it -/

namespace Event

/-- Whether a callback is the one that a call is made for. -/
def Answers : Event δ → Protocol.Request → Prop
  | providerValidated .., .validateProviderConfig _ => True
  | configValidated .., .validateResourceConfig _ => True
  | configValidated .., .validateDataSourceConfig _ => True
  | upgraded .., .upgradeResourceState _ => True
  | refreshed .., .readResource _ => True
  | planModified .., .planResourceChange _ => True
  | created .., .applyResourceChange _ => True
  | updated .., .applyResourceChange _ => True
  | deleted .., .applyResourceChange _ => True
  | imported .., .importResourceState _ => True
  | dataRead .., .readDataSource _ => True
  | _, _ => False

def reported : Event δ → Diagnostics
  | providerDescribed response => response.diagnostics
  | providerValidated _ result => result
  | providerConfigured _ response => response.diagnostics
  | providerStopped _ => []
  | resourceConfigured _ _ problems => problems
  | dataSourceConfigured _ _ problems => problems
  | configValidated _ result => result
  | planModified _ _ result => result.diagnostics
  | created _ _ result => result.diagnostics
  | refreshed _ _ result => result.diagnostics
  | updated _ _ result => result.diagnostics
  | deleted _ _ result => result.diagnostics
  | imported _ _ result => result.diagnostics
  | upgraded _ _ result => result.diagnostics
  | dataRead _ _ result => result.diagnostics

/-- The problem of an upgrade that gave neither a state nor an error. -/
def missingUpgrade (version : UInt64) : Diagnostic :=
  .error "Missing Upgraded Resource State"
    ("The resource's upgrade callback returned no state for version " ++
      decimalText version.toNat ++ ". This is always a bug in the provider.")

/-- What is wrong with a state that has been created or updated. -/
def stateProblems (operation callback : String) (state : State) : Diagnostics :=
  if state.isNull then [Server.missingState operation callback]
  else Server.unknownAfter "apply" state.raw

/-- What is wrong with the result of a callback that has reported no error. -/
def shortcomings : Event δ → Diagnostics
  | created _ _ result => stateProblems "Create" "create" result.state
  | updated _ _ result => stateProblems "Update" "update" result.state
  | imported _ _ result => if result.state.isNull then [Server.missingImport] else []
  | upgraded request _ result =>
    if result.state.isNull then [missingUpgrade request.version] else []
  | dataRead _ _ result => Server.unknownAfter "read" result.state.raw
  | _ => []

/-- What a callback adds to the findings of a call. -/
def findings (event : Event δ) : Diagnostics :=
  Server.andThen event.reported event.shortcomings

/-- A callback behind which nothing is checked adds what it reports. -/
theorem findings_eq_reported {event : Event δ} (complete : event.shortcomings = []) :
    event.findings = event.reported := by
  unfold findings
  rw [complete, Server.andThen_nil]

/-- Asking for the schema of the provider answers no call. -/
theorem not_answers_providerDescribed (response : SchemaResponse) (request : Protocol.Request) :
    ¬ (providerDescribed response : Event δ).Answers request := by
  cases request <;> exact id

/-- Nor does making an instance of a resource type. -/
theorem not_answers_resourceConfigured (typeName : String) (data : Option δ)
    (problems : Diagnostics) (request : Protocol.Request) :
    ¬ (resourceConfigured typeName data problems).Answers request := by
  cases request <;> exact id

/-- Nor does making an instance of a data source type. -/
theorem not_answers_dataSourceConfigured (typeName : String) (data : Option δ)
    (problems : Diagnostics) (request : Protocol.Request) :
    ¬ (dataSourceConfigured typeName data problems).Answers request := by
  cases request <;> exact id

end Event

/-- The course of a call about a schema: whether its callback was called, and what was reported in
the end. -/
structure Course (server : Server m δ) (request : Protocol.Request)
    (found : Option Schema × Diagnostics) (callback : Option (Event δ))
    (reported : List WireDiagnostic) : Prop where
  answers : ∀ event ∈ callback, event.Answers request
  runs_iff : callback.isSome ↔ ∃ schema, found.1 = some schema ∧
    Diagnostics.hasError (found.2 ++ server.gate schema request) = false ∧
    Server.HasWork schema request
  reported_eq : reported = Diagnostics.toWire (found.2 ++
    found.1.elim [] (fun schema => server.findings schema request) ++
    callback.elim [] Event.findings)

/-- Without an error in the end there is none in the payloads. -/
theorem Course.hasError_conversions {server : Server m δ} {request : Protocol.Request}
    {schema : Schema} {lookup : Diagnostics} {callback : Option (Event δ)}
    {reported : List WireDiagnostic}
    (course : Course server request (some schema, lookup) callback reported)
    (fine : Diagnostics.hasError (reported.map Diagnostic.ofWire) = false) :
    (server.conversions schema request).hasError = false := by
  rw [course.reported_eq, Server.hasError_ofWire_toWire] at fine
  simp only [Option.elim_some, Server.hasError_append, Bool.or_eq_false_iff] at fine
  have findings := fine.1.2
  rw [Server.findings, Server.hasError_andThen, Bool.or_eq_false_iff] at findings
  exact findings.1

end ProviderKit

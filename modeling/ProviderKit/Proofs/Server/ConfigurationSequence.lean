import ProviderKit.Proofs.Provider.Journal
import ProviderKit.Proofs.Server.Payloads
import ProviderKit.Server.Configuration

/-!
# The sequence of a configuration

Configuring a provider goes through its schema, the payload, and the callback, in this order, and
an error ends the sequence.  An empty schema leaves nothing to decode, so that its payload is
passed over whatever it holds, and the callback gets a null configuration.

The callback therefore runs exactly when the schema was made without an error and there is nothing
to decode or the payload stands for a value, and it is the only one that runs besides the schema.
All that was found on the way is in the response, in the order of the sequence.
-/

namespace ProviderKit
namespace Server

variable {σ δ : Type} {schema : Schema} {payload : Option DynamicValue}

/-- The problem of the payload of a configuration.  It is not decoded when the sequence has ended
before, nor when the schema is empty. -/
def configurationProblem? (described : SchemaResponse) (payload : Option DynamicValue) :
    Option Diagnostic :=
  if described.diagnostics.hasError || described.schema.isEmpty then none
  else payloadProblem? described.schema "configuration" payload

/-- A configuration of the schema, which is the value of the payload unless the schema is empty. -/
structure Configures (schema : Schema) (payload : Option DynamicValue) (config : Config) :
    Prop where
  schema_eq : config.schema = schema
  null_of_isEmpty : schema.isEmpty = true → config.raw = .null
  received : schema.isEmpty = false → Received schema payload config.raw

/-! ## The payload -/

theorem providerConfig_problems {described : SchemaResponse}
    (made : described.diagnostics.hasError = false) (payload : Option DynamicValue) :
    (providerConfig described.schema payload).2 =
      (configurationProblem? described payload).toList := by
  unfold providerConfig configurationProblem?
  rw [made, Bool.false_or, decodePayload_eq]
  split <;> rfl

/-- Nothing is wrong with a payload that is passed over or stands for a value. -/
theorem configurationProblem?_eq_none_iff {described : SchemaResponse}
    (made : described.diagnostics.hasError = false) :
    configurationProblem? described payload = none ↔
      described.schema.isEmpty = true ∨ ∃ value, Received described.schema payload value := by
  unfold configurationProblem?
  rw [made, Bool.false_or]
  split
  · next empty => exact iff_of_true rfl (.inl empty)
  · next used =>
    rw [payloadProblem?_eq_none_iff, or_iff_right used]
    refine ⟨fun received => ⟨_, received⟩, ?_⟩
    rintro ⟨value, received⟩
    rwa [received.holds.payloadValue_eq]

theorem configures_providerConfig {described : SchemaResponse}
    (made : described.diagnostics.hasError = false)
    (fine : configurationProblem? described payload = none) :
    Configures described.schema payload (providerConfig described.schema payload).1 := by
  unfold providerConfig
  split
  · next empty => exact ⟨rfl, fun _ => rfl, fun used => absurd empty (Bool.eq_false_iff.mp used)⟩
  · next used =>
    rw [decodePayload_eq]
    have noProblem : payloadProblem? described.schema "configuration" payload = none := by
      unfold configurationProblem? at fine
      rwa [made, Bool.false_or, if_neg used] at fine
    exact ⟨rfl, fun empty => absurd empty used, fun _ => payloadProblem?_eq_none_iff.mp noProblem⟩

/-- The problem of a configuration is an error. -/
theorem hasError_configurationProblem? (described : SchemaResponse) :
    Diagnostics.hasError (configurationProblem? described payload).toList =
      (configurationProblem? described payload).isSome := by
  unfold configurationProblem?
  split
  · rfl
  · exact hasError_payloadProblem?

/-! ## The sequence -/

/-- A run of the callback: what it was given, and what came of it. -/
structure Configuring (δ : Type) where
  request : ConfigureRequest
  response : ConfigureResponse δ

def Configuring.event (run : Configuring δ) : Event δ :=
  .providerConfigured run.request run.response

/-- How the sequence went for a request: whether the callback ran, what it was given, and what was
reported in the end. -/
structure Sequence (call : Protocol.ConfigureProviderRequest) (described : SchemaResponse)
    (run : Option (Configuring δ)) (response : Protocol.DiagnosticsResponse) : Prop where
  runs_iff : run.isSome ↔ described.diagnostics.hasError = false ∧
    (described.schema.isEmpty = true ∨ ∃ value, Received described.schema call.config value)
  given : ∀ ran ∈ run, ran.request.hostVersion = call.hostVersion ∧
    Configures described.schema call.config ran.request.config
  reported : response.diagnostics = Diagnostics.toWire (described.diagnostics ++
    (configurationProblem? described call.config).toList ++
      run.elim [] fun ran => ran.response.diagnostics)

namespace Sequence

variable {call : Protocol.ConfigureProviderRequest} {described : SchemaResponse}

/-- An error in making the schema ends the sequence. -/
theorem of_schema_failed (failed : described.diagnostics.hasError = true) :
    Sequence (δ := δ) call described none ⟨described.diagnostics.toWire⟩ where
  runs_iff := by simp [failed]
  given := nofun
  reported := by simp [configurationProblem?, failed]

/-- So does a payload that does not decode. -/
theorem of_payload_failed (made : described.diagnostics.hasError = false)
    (failed : (configurationProblem? described call.config).isSome = true) :
    Sequence (δ := δ) call described none ⟨Diagnostics.toWire (described.diagnostics ++
      (configurationProblem? described call.config).toList)⟩ where
  runs_iff := by
    rw [← configurationProblem?_eq_none_iff made]
    rw [Option.isSome_iff_ne_none] at failed
    simp [failed]
  given := nofun
  reported := by rw [Option.elim_none, List.append_nil]

/-- Otherwise the callback has run. -/
theorem of_run (made : described.diagnostics.hasError = false)
    (fine : configurationProblem? described call.config = none) (response : ConfigureResponse δ) :
    Sequence call described
      (some ⟨⟨call.hostVersion, (providerConfig described.schema call.config).1⟩, response⟩)
      ⟨Diagnostics.toWire (described.diagnostics ++
        (configurationProblem? described call.config).toList ++ response.diagnostics)⟩ where
  runs_iff := by
    rw [← configurationProblem?_eq_none_iff made]
    exact iff_of_true rfl ⟨made, fine⟩
  given := by
    rintro ran ⟨⟩
    exact ⟨rfl, configures_providerConfig made fine⟩
  reported := rfl

end Sequence

/-- Without a request nothing runs and nothing is reported.  With one the schema is asked for, and
then the callback runs at most once and exactly when nothing before has failed.  It gets the version
of the host as it came, and the response holds the diagnostics of the schema, of the payload and of
the callback, in this order. -/
theorem configuration_follows_sequence (server : Server (StateM σ) δ)
    (request : Option Protocol.ConfigureProviderRequest) (world : σ) :
    let response := (outcome (server.configureProvider request) world).1
    let Notes (events : List (Event δ)) : Prop :=
      Journals (Prod.map id journaled) (server.configureProvider request)
        (server.journaled.configureProvider request) world events
    (request = none → response = {} ∧ Notes []) ∧
    ∀ call, request = some call →
      let described := outcome server.provider.schema world
      ∃ run : Option (Configuring δ),
        Notes (.providerDescribed described :: run.toList.map Configuring.event) ∧
        Sequence call described run response := by
  intro response Notes
  refine ⟨?_, ?_⟩
  · rintro rfl
    exact ⟨rfl, .of_pure _ _ world⟩
  rintro call rfl described
  suffices follows : JournalsThat (fun result events => ∃ run : Option (Configuring δ),
      events = .providerDescribed described :: run.toList.map Configuring.event ∧
        Sequence call described run result.1)
      (Prod.map id journaled) (server.configureProvider (some call))
      (server.journaled.configureProvider (some call)) world by
    rcases follows with ⟨events, journals, run, rfl, sequence⟩
    exact ⟨run, journals, sequence⟩
  refine .noted_bind (.ite (fun failed => ?_) fun made => ?_)
  · exact .of_pure _ ⟨none, rfl, .of_schema_failed failed⟩ _
  have made : described.diagnostics.hasError = false := Bool.eq_false_iff.mpr made
  have problems := providerConfig_problems made call.config
  have failed_iff : (described.diagnostics ++
      (providerConfig described.schema call.config).2).hasError =
        (configurationProblem? described call.config).isSome := by
    rw [problems, hasError_append, made, Bool.false_or, hasError_configurationProblem?]
  refine .ite (fun failed => ?_) fun fine => .noted_bind ?_
  · refine .of_pure _ ⟨none, rfl, ?_⟩ _
    have stopped := Sequence.of_payload_failed (δ := δ) made (failed_iff.symm.trans failed)
    rwa [← problems] at stopped
  · intro response
    have fine : configurationProblem? described call.config = none :=
      Option.not_isSome_iff_eq_none.mp (failed_iff ▸ fine)
    have ran := Sequence.of_run made fine response
    rw [← problems] at ran
    -- The data that the server keeps afterwards is not part of the response.
    cases failed : response.diagnostics.hasError with
    | true => exact .of_pure _ ⟨_, rfl, ran⟩ _
    | false => exact .of_pure _ ⟨_, rfl, ran⟩ _

end Server
end ProviderKit

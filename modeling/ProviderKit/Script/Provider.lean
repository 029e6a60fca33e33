import ProviderKit.Script.Action

/-!
# Scripted providers

A provider whose callbacks are scripts.  It keeps a journal of the callbacks that were
called, with the data they received and the reads they made, so that a test can see
what a server did.  The data that the provider hands to its resources is a text.

A minimal provider, resource or data source implements only the callbacks it has to.
What it leaves out has the usual behaviour and is not in the journal.
-/

namespace ProviderKit
namespace Script

/-- What happened, as noted in the journal. -/
inductive Entry where
  /-- The schema of the provider was asked for. -/
  | schemaRequested
  /-- The provider was stopped. -/
  | stopRequested
  /-- An instance was configured with provider data. -/
  | configured (callback : String) (received : Option String)
  /-- A scripted callback was called. -/
  | called (callback : String) (argument : Option String) (inputs : List (Input × Value))
  /-- A script made a read. -/
  | got (reading : Reading)

/-- Actions that note what happens. -/
abbrev Journal := StateM (Array Entry)

def note (entry : Entry) : Journal Unit :=
  modify fun journal => journal.push entry

/-- Note a callback, run its script, and note the reads the script has made. -/
def play (callback : String) (argument : Option String) (script : List Action) (stage : Stage) :
    Journal Stage := do
  note (.called callback argument (stage.inputs.map fun (input, data) => (input, data.raw)))
  let after := runAll script stage
  after.readings.forM fun reading => note (.got reading)
  pure after

/-- Data as an input of a script. -/
def asInput {role : DataRole} (data : Data role) : Config :=
  ⟨data.schema, data.raw⟩

/-- A scripted resource. -/
structure ResourceScript where
  name : String
  schema : Schema
  configureDiagnostics : Diagnostics := []
  validateConfig : List Action := []
  modifyPlan : List Action := []
  create : List Action := []
  read : List Action := []
  update : List Action := []
  delete : List Action := []
  importState : List Action := []
  upgradeState : List Action := []
  /-- The attribute to which an import writes the identifier before its script runs. -/
  passthrough : Option Path := none
  minimal : Bool := false

structure DataSourceScript where
  name : String
  schema : Schema
  configureDiagnostics : Diagnostics := []
  validateConfig : List Action := []
  read : List Action := []
  minimal : Bool := false

structure ProviderScript where
  typeName : String := "test"
  schema : Schema := default
  metaSchema : Option Schema := none
  schemaDiagnostics : Diagnostics := []
  validateConfig : List Action := []
  configure : List Action := []
  stopError : Option ProviderError := none
  resources : List ResourceScript := []
  dataSources : List DataSourceScript := []
  minimal : Bool := false

def version : String := "0.1.0"

/-- Run a script on the response of a callback that leaves a state. -/
def playState (callback : String) (argument : Option String) (script : List Action)
    (inputs : List (Input × Config)) (received : Option String) (response : StateResponse)
    (stored : Option Json := none) : Journal StateResponse := do
  let after ← play callback argument script {
    inputs, received, stored, target := .state response.state
    diagnostics := response.diagnostics }
  let state := match after.target with
    | .state state => state
    | _ => response.state
  pure ⟨state, after.diagnostics⟩

namespace ResourceScript

/-- The four callbacks of every resource, with the usual behaviour of the others. -/
def minimalResource (script : ResourceScript) (received : Option String) : Resource Journal :=
  .plain script.schema
    (fun request => playState "resource.create" none script.create
      [(.config, asInput request.config), (.plan, asInput request.plan),
        (.providerMeta, request.providerMeta)] received)
    (fun request => playState "resource.read" none script.read
      [(.state, asInput request.state), (.providerMeta, request.providerMeta)] received)
    (fun request => playState "resource.update" none script.update
      [(.config, asInput request.config), (.plan, asInput request.plan),
        (.state, asInput request.state), (.providerMeta, request.providerMeta)] received)
    (fun request => playState "resource.delete" none script.delete
      [(.state, asInput request.state), (.providerMeta, request.providerMeta)] received)

/-- The resource that has received provider data. -/
def resource (script : ResourceScript) (received : Option String) : Resource Journal :=
  { script.minimalResource received with
    validateConfig := fun config => do
      let after ← play "resource.validate_config" none script.validateConfig {
        inputs := [(.config, config)], received }
      pure after.diagnostics
    modifyPlan := fun request response => do
      let after ← play "resource.modify_plan" none script.modifyPlan {
        inputs := [(.config, asInput request.config), (.state, asInput request.state),
          (.plan, asInput request.plan), (.providerMeta, request.providerMeta)]
        received, target := .plan response.plan
        requiresReplace := response.requiresReplace, diagnostics := response.diagnostics }
      let plan := match after.target with
        | .plan plan => plan
        | _ => response.plan
      pure ⟨plan, after.requiresReplace, after.diagnostics⟩
    importState := fun id response =>
      let response := match script.passthrough with
        | some path => response.passIdentifier path id
        | none => response
      playState "resource.import_state" (some id) script.importState [] received response
    upgradeState := fun request response =>
      playState "resource.upgrade_state" (some (Nat.repr request.version.toNat))
        script.upgradeState [] received response (some request.stored) }

/-- The kind of resource that a script describes, under a provider of a name. -/
def served (script : ResourceScript) : ResourceType Journal String :=
  let typeName := fun provider => provider ++ "_" ++ script.name
  if script.minimal then .plain typeName script.schema (script.minimalResource none)
  else
    { typeName
      schema := script.schema
      configure := fun received => do
        note (.configured "resource.configure" received)
        pure (script.resource received, script.configureDiagnostics) }

end ResourceScript

namespace DataSourceScript

/-- A data source that only reads. -/
def minimalSource (script : DataSourceScript) (received : Option String) : DataSource Journal :=
  .plain script.schema fun request => playState "data_source.read" none script.read
    [(.config, request.config), (.providerMeta, request.providerMeta)] received

/-- The data source that has received provider data. -/
def source (script : DataSourceScript) (received : Option String) : DataSource Journal :=
  { script.minimalSource received with
    validateConfig := fun config => do
      let after ← play "data_source.validate_config" none script.validateConfig {
        inputs := [(.config, config)], received }
      pure after.diagnostics }

/-- The kind of data source that a script describes, under a provider of a name. -/
def served (script : DataSourceScript) : DataSourceType Journal String :=
  let typeName := fun provider => provider ++ "_" ++ script.name
  if script.minimal then .plain typeName script.schema (script.minimalSource none)
  else
    { typeName
      schema := script.schema
      configure := fun received => do
        note (.configured "data_source.configure" received)
        pure (script.source received, script.configureDiagnostics) }

end DataSourceScript

namespace ProviderScript

/-- The callbacks of every provider, with the usual behaviour of the others. -/
def minimalProvider (script : ProviderScript) : Provider Journal String :=
  .plain script.typeName version
    (do
      note .schemaRequested
      pure ⟨script.schema, script.schemaDiagnostics⟩)
    (fun request => do
      let after ← play "provider.configure" (some request.hostVersion) script.configure {
        inputs := [(.config, request.config)] }
      pure ⟨after.provided, after.diagnostics⟩)

/-- The provider that a script describes. -/
def provider (script : ProviderScript) : Provider Journal String :=
  if script.minimal then script.minimalProvider
  else
    { script.minimalProvider with
      metaSchema := script.metaSchema
      validateConfig := fun config => do
        let after ← play "provider.validate_config" none script.validateConfig {
          inputs := [(.config, config)] }
        pure after.diagnostics
      resources := script.resources.map ResourceScript.served
      dataSources := script.dataSources.map DataSourceScript.served
      stop := do
        note .stopRequested
        pure (match script.stopError with
          | some error => .error error
          | none => .ok ()) }

end ProviderScript
end Script
end ProviderKit

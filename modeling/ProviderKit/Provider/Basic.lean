import ProviderKit.Data
import ProviderKit.Path.Distinct
import ProviderKit.Provider.Error

/-!
# Providers

A provider describes its configuration, configures itself from it, and lists the
resources and data sources it serves.  It is a record of callbacks in a monad of its
choice: a real provider acts on the world, and one in a pure monad can be reasoned
about.

A callback that returns data is handed a response that is already filled in, with the
planned state, say, or the current one, and changes what is different.  Configuring a
resource or a data source gives the instance that answers one request; it receives
what the provider made of its own configuration, of type `δ`.

The callbacks that most providers leave out have their usual behaviour in
`Provider.plain`, `ResourceType.plain` and `DataSourceType.plain`.
-/

namespace ProviderKit

/-- The schema of a provider, with the problems found in making it. -/
structure SchemaResponse where
  schema : Schema
  diagnostics : Diagnostics

structure ConfigureRequest where
  hostVersion : String
  config : Config

/-- What comes of configuring a provider.  The data goes to every resource and data
source that is configured later. -/
structure ConfigureResponse (δ : Type) where
  providerData : Option δ
  diagnostics : Diagnostics

/-- A state, with the problems found in making it. -/
structure StateResponse where
  state : State
  diagnostics : Diagnostics

/-- What a plan may be modified by.  The state is null when the resource is created,
and the plan when it is destroyed. -/
structure ModifyPlanRequest where
  config : Config
  state : State
  plan : Plan
  providerMeta : Config

/-- A plan, the attributes whose change replaces the resource, and the problems found
in planning. -/
structure ModifyPlanResponse where
  plan : Plan
  requiresReplace : Paths
  diagnostics : Diagnostics

structure CreateRequest where
  config : Config
  plan : Plan
  providerMeta : Config

/-- What a resource is refreshed or deleted by. -/
structure StateRequest where
  state : State
  providerMeta : Config

/-- What a resource is updated from. -/
structure UpdateRequest where
  config : Config
  plan : Plan
  state : State
  providerMeta : Config

structure ReadDataRequest where
  config : Config
  providerMeta : Config

/-- Stored state to be brought to the current schema. -/
structure UpgradeRequest where
  version : UInt64
  stored : Json

structure Resource (m : Type → Type) where
  schema : Schema
  validateConfig : Config → m Diagnostics
  modifyPlan : ModifyPlanRequest → ModifyPlanResponse → m ModifyPlanResponse
  create : CreateRequest → StateResponse → m StateResponse
  read : StateRequest → StateResponse → m StateResponse
  update : UpdateRequest → StateResponse → m StateResponse
  delete : StateRequest → StateResponse → m StateResponse
  importState : String → StateResponse → m StateResponse
  upgradeState : UpgradeRequest → StateResponse → m StateResponse

structure DataSource (m : Type → Type) where
  schema : Schema
  validateConfig : Config → m Diagnostics
  read : ReadDataRequest → StateResponse → m StateResponse

/-- A kind of resource or data source, whose configured instances have type `ι`.  The
full name of a type is made from the name of its provider. -/
structure ServedType (m : Type → Type) (δ ι : Type) where
  typeName : String → String
  schema : Schema
  configure : Option δ → m (ι × Diagnostics)

abbrev ResourceType (m : Type → Type) (δ : Type) := ServedType m δ (Resource m)

abbrev DataSourceType (m : Type → Type) (δ : Type) := ServedType m δ (DataSource m)

structure Provider (m : Type → Type) (δ : Type) where
  typeName : String
  version : String
  schema : m SchemaResponse
  metaSchema : Option Schema
  validateConfig : Config → m Diagnostics
  configure : ConfigureRequest → m (ConfigureResponse δ)
  resources : List (ResourceType m δ)
  dataSources : List (DataSourceType m δ)
  stop : m (Except ProviderError Unit)

variable {m : Type → Type} [Monad m] {δ : Type}

namespace StateResponse

/-- The response with further problems. -/
def report (response : StateResponse) (diagnostics : Diagnostics) : StateResponse :=
  { response with diagnostics := response.diagnostics ++ diagnostics }

def set (response : StateResponse) (path : Path) (value : Value) : StateResponse :=
  let (state, diagnostics) := response.state.set path value DataRole.state_ne_config
  { state, diagnostics := response.diagnostics ++ diagnostics }

/-- Import by writing the identifier to an attribute. -/
def passIdentifier (response : StateResponse) (path : Path) (id : String) : StateResponse :=
  response.set path (.string id)

end StateResponse

namespace Resource

/-- The problem of a resource that cannot be imported. -/
def importUnsupported : Diagnostic :=
  .error "Resource Import Not Implemented"
    ("This resource does not support import. " ++
      "Please contact the provider developer for additional information.")

/-- The problem of stored state that a resource cannot upgrade. -/
def upgradeUnsupported (version : UInt64) : Diagnostic :=
  .error "Unable to Upgrade Resource State"
    ("This resource was stored with schema version " ++ Nat.repr version.toNat ++
      ", but the resource does not implement state upgrades. " ++
      "Please report this to the provider developer.")

/-- A resource with the four callbacks every resource has.  It accepts every
configuration, leaves plans as they are, and supports neither import nor upgrades. -/
def plain (schema : Schema) (create : CreateRequest → StateResponse → m StateResponse)
    (read : StateRequest → StateResponse → m StateResponse)
    (update : UpdateRequest → StateResponse → m StateResponse)
    (delete : StateRequest → StateResponse → m StateResponse) : Resource m where
  schema := schema
  validateConfig _ := pure []
  modifyPlan _ response := pure response
  create := create
  read := read
  update := update
  delete := delete
  importState _ response := pure (response.report [importUnsupported])
  upgradeState request response := pure (response.report [upgradeUnsupported request.version])

end Resource

namespace DataSource

/-- A data source that only reads. -/
def plain (schema : Schema) (read : ReadDataRequest → StateResponse → m StateResponse) :
    DataSource m where
  schema := schema
  validateConfig _ := pure []
  read := read

end DataSource

namespace ServedType

/-- A type whose instances need nothing from the provider. -/
def plain {ι : Type} (typeName : String → String) (schema : Schema) (inst : ι) :
    ServedType m δ ι where
  typeName := typeName
  schema := schema
  configure _ := pure (inst, [])

end ServedType

namespace Provider

/-- A provider that only describes and configures itself. -/
def plain (typeName version : String) (schema : m SchemaResponse)
    (configure : ConfigureRequest → m (ConfigureResponse δ)) : Provider m δ where
  typeName := typeName
  version := version
  schema := schema
  metaSchema := none
  validateConfig _ := pure []
  configure := configure
  resources := []
  dataSources := []
  stop := pure (.ok ())

def resourceTypes (provider : Provider m δ) : List String :=
  provider.resources.map fun served => served.typeName provider.typeName

def dataSourceTypes (provider : Provider m δ) : List String :=
  provider.dataSources.map fun served => served.typeName provider.typeName

/-- The first resource with a full name. -/
def findResource? (provider : Provider m δ) (typeName : String) : Option (ResourceType m δ) :=
  provider.resources.find? fun served => served.typeName provider.typeName == typeName

/-- The first data source with a full name. -/
def findDataSource? (provider : Provider m δ) (typeName : String) :
    Option (DataSourceType m δ) :=
  provider.dataSources.find? fun served => served.typeName provider.typeName == typeName

end Provider
end ProviderKit

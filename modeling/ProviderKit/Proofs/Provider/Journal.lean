import ProviderKit.Proofs.Provider.World
import ProviderKit.Server.Basic

/-!
# Journals of callbacks

What a server asks of its provider is not part of what it answers.  To speak about it, a provider
is given a journal beside its world, and each of its callbacks notes what it was called with and
what came of it.  The provider itself does not see the journal, so that all answers and the world
are those of the provider without one; this is part of `Journals`, the relation between an action
and the same action with a journal.
-/

namespace ProviderKit

/-- A call of a callback, with what it was given and what came of it. -/
inductive Event (δ : Type) where
  | providerDescribed (response : SchemaResponse)
  | providerValidated (config : Config) (result : Diagnostics)
  | providerConfigured (request : ConfigureRequest) (response : ConfigureResponse δ)
  | providerStopped (result : Except ProviderError Unit)
  /-- An instance of a resource type was made with data of the provider. -/
  | resourceConfigured (typeName : String) (data : Option δ) (problems : Diagnostics)
  /-- An instance of a data source type was made with data of the provider. -/
  | dataSourceConfigured (typeName : String) (data : Option δ) (problems : Diagnostics)
  | configValidated (config : Config) (result : Diagnostics)
  | planModified (request : ModifyPlanRequest) (start result : ModifyPlanResponse)
  | created (request : CreateRequest) (start result : StateResponse)
  | refreshed (request : StateRequest) (start result : StateResponse)
  | updated (request : UpdateRequest) (start result : StateResponse)
  | deleted (request : StateRequest) (start result : StateResponse)
  | imported (id : String) (start result : StateResponse)
  | upgraded (request : UpgradeRequest) (start result : StateResponse)
  | dataRead (request : ReadDataRequest) (start result : StateResponse)

variable {σ δ α β γ κ : Type}

/-- Actions on a world with a journal beside it. -/
abbrev JournalM (σ δ : Type) : Type → Type :=
  StateM (σ × List (Event δ))

/-- The action, which leaves a note of what came of it. -/
def noted (event : α → Event δ) (action : StateM σ α) : JournalM σ δ α :=
  fun (world, journal) =>
    let (result, world) := StateT.run action world
    (result, world, journal ++ [event result])

/-! ## Providers that keep a journal -/

/-- A resource that notes every call. -/
def Resource.journaled (resource : Resource (StateM σ)) : Resource (JournalM σ δ) where
  schema := resource.schema
  validateConfig config := noted (.configValidated config) (resource.validateConfig config)
  modifyPlan request start :=
    noted (.planModified request start) (resource.modifyPlan request start)
  create request start := noted (.created request start) (resource.create request start)
  read request start := noted (.refreshed request start) (resource.read request start)
  update request start := noted (.updated request start) (resource.update request start)
  delete request start := noted (.deleted request start) (resource.delete request start)
  importState id start := noted (.imported id start) (resource.importState id start)
  upgradeState request start :=
    noted (.upgraded request start) (resource.upgradeState request start)

@[simp] theorem Resource.journaled_schema (resource : Resource (StateM σ)) :
    (resource.journaled (δ := δ)).schema = resource.schema :=
  rfl

def DataSource.journaled (source : DataSource (StateM σ)) : DataSource (JournalM σ δ) where
  schema := source.schema
  validateConfig config := noted (.configValidated config) (source.validateConfig config)
  read request start := noted (.dataRead request start) (source.read request start)

@[simp] theorem DataSource.journaled_schema (source : DataSource (StateM σ)) :
    (source.journaled (δ := δ)).schema = source.schema :=
  rfl

/-- A type that notes every instance it makes, and whose instances are changed by a function. -/
def ServedType.journaled {ι : Type} (event : Option δ → Diagnostics → Event δ) (change : ι → κ)
    (served : ServedType (StateM σ) δ ι) : ServedType (JournalM σ δ) δ κ where
  typeName := served.typeName
  schema := served.schema
  configure data := do
    let (inst, problems) ← noted (fun result => event data result.2) (served.configure data)
    pure (change inst, problems)

def ResourceType.journaled (provider : String) (served : ResourceType (StateM σ) δ) :
    ResourceType (JournalM σ δ) δ :=
  ServedType.journaled (.resourceConfigured (served.typeName provider)) Resource.journaled served

def DataSourceType.journaled (provider : String) (served : DataSourceType (StateM σ) δ) :
    DataSourceType (JournalM σ δ) δ :=
  ServedType.journaled (.dataSourceConfigured (served.typeName provider)) DataSource.journaled
    served

def Provider.journaled (provider : Provider (StateM σ) δ) : Provider (JournalM σ δ) δ where
  typeName := provider.typeName
  version := provider.version
  schema := noted .providerDescribed provider.schema
  metaSchema := provider.metaSchema
  validateConfig config := noted (.providerValidated config) (provider.validateConfig config)
  configure request := noted (.providerConfigured request) (provider.configure request)
  resources := provider.resources.map (ResourceType.journaled provider.typeName)
  dataSources := provider.dataSources.map (DataSourceType.journaled provider.typeName)
  stop := noted .providerStopped provider.stop

def Server.journaled (server : Server (StateM σ) δ) : Server (JournalM σ δ) δ where
  provider := server.provider.journaled
  providerData := server.providerData

/-! ## Runs with a journal -/

/-- Started in a world, the action with a journal notes these events, and apart from that does
what the plain action does; its outcome is changed by a function. -/
def Journals (change : α → β) (plain : StateM σ α) (journaled : JournalM σ δ β) (world : σ)
    (events : List (Event δ)) : Prop :=
  ∀ journal, StateT.run journaled (world, journal) =
    (change (outcome plain world), worldAfter plain world, journal ++ events)

namespace Journals

variable {change : α → β} {further : γ → κ} {plain : StateM σ α} {journaled : JournalM σ δ β}
  {world : σ} {events later : List (Event δ)}

theorem of_pure (change : α → β) (result : α) (world : σ) :
    Journals (δ := δ) change (pure result) (pure (change result)) world [] :=
  fun journal => by rw [List.append_nil]; rfl

theorem of_noted (event : α → Event δ) (action : StateM σ α) (world : σ) :
    Journals id action (noted event action) world [event (outcome action world)] :=
  fun _ => rfl

/-- Where actions follow each other, so do their events. -/
theorem bind {next : α → StateM σ γ} {journaledNext : β → JournalM σ δ κ}
    (first : Journals change plain journaled world events)
    (second : Journals further (next (outcome plain world))
      (journaledNext (change (outcome plain world))) (worldAfter plain world) later) :
    Journals further (plain >>= next) (journaled >>= journaledNext) world (events ++ later) := by
  intro journal
  rw [StateT.run_bind, first journal, ← List.append_assoc]
  exact second (journal ++ events)

/-- What is made of the outcome afterwards leaves no trace. -/
theorem map (journals : Journals change plain journaled world events) {result : α → γ}
    {other : β → κ} (same : ∀ found, other (change found) = further (result found)) :
    Journals further (plain >>= fun found => pure (result found))
      (journaled >>= fun found => pure (other found)) world events := by
  intro journal
  rw [StateT.run_bind, journals journal]
  exact congrArg (fun last => (last, (worldAfter plain world, journal ++ events))) (same _)

theorem outcome_eq (journals : Journals change plain journaled world events)
    (journal : List (Event δ)) :
    outcome journaled (world, journal) = change (outcome plain world) :=
  congrArg Prod.fst (journals journal)

theorem worldAfter_eq (journals : Journals change plain journaled world events)
    (journal : List (Event δ)) :
    worldAfter journaled (world, journal) = (worldAfter plain world, journal ++ events) :=
  congrArg Prod.snd (journals journal)

end Journals

/-- Started in a world, the action notes events that suit what comes of it. -/
def JournalsThat (Q : α → List (Event δ) → Prop) (change : α → β) (plain : StateM σ α)
    (journaled : JournalM σ δ β) (world : σ) : Prop :=
  ∃ events, Journals change plain journaled world events ∧ Q (outcome plain world) events

namespace JournalsThat

variable {Q : α → List (Event δ) → Prop} {change : α → β} {world : σ}

theorem of_pure (change : α → β) {result : α} (holds : Q result []) (world : σ) :
    JournalsThat Q change (pure result) (pure (change result)) world :=
  ⟨[], .of_pure change result world, holds⟩

/-- What an action notes comes before what follows it. -/
theorem bind {first : StateM σ γ} {journaledFirst : JournalM σ δ κ} {between : γ → κ}
    {events : List (Event δ)} (begun : Journals between first journaledFirst world events)
    {next : γ → StateM σ α} {journaledNext : κ → JournalM σ δ β}
    (further : JournalsThat (fun last later => Q last (events ++ later)) change
      (next (outcome first world)) (journaledNext (between (outcome first world)))
      (worldAfter first world)) :
    JournalsThat Q change (first >>= next) (journaledFirst >>= journaledNext) world := by
  rcases further with ⟨later, journals, holds⟩
  exact ⟨_, begun.bind journals, holds⟩

/-- A callback is the first event of what begins with it. -/
theorem noted_bind {event : γ → Event δ} {plain : StateM σ γ} {next : γ → StateM σ α}
    {journaledNext : γ → JournalM σ δ β}
    (further : let result := outcome plain world
      JournalsThat (fun last later => Q last (event result :: later)) change (next result)
        (journaledNext result) (worldAfter plain world)) :
    JournalsThat Q change (plain >>= next) (noted event plain >>= journaledNext) world :=
  bind (.of_noted event plain world) further

theorem ite {condition : Prop} [Decidable condition] {yes no : StateM σ α}
    {journaledYes journaledNo : JournalM σ δ β}
    (positive : condition → JournalsThat Q change yes journaledYes world)
    (negative : ¬ condition → JournalsThat Q change no journaledNo world) :
    JournalsThat Q change (if condition then yes else no)
      (if condition then journaledYes else journaledNo) world := by
  split
  · exact positive ‹_›
  · exact negative ‹_›

end JournalsThat

/-! ## Instances that answer a call -/

theorem Provider.findResource?_journaled (provider : Provider (StateM σ) δ) (typeName : String) :
    provider.journaled.findResource? typeName =
      (provider.findResource? typeName).map (ResourceType.journaled provider.typeName) :=
  List.find?_map

theorem Provider.findDataSource?_journaled (provider : Provider (StateM σ) δ) (typeName : String) :
    provider.journaled.findDataSource? typeName =
      (provider.findDataSource? typeName).map (DataSourceType.journaled provider.typeName) :=
  List.find?_map

namespace Server

variable (server : Server (StateM σ) δ) (typeName : String) (world : σ)

/-- Making an instance is noted, and nothing is when there is no such type. -/
theorem journals_instantiate {ι : Type} (found : Option (ServedType (StateM σ) δ ι))
    (unknown : ProviderError) (event : ServedType (StateM σ) δ ι → Option δ → Diagnostics → Event δ)
    (change : ι → κ) :
    Journals (Prod.map (Option.map change) id) (server.instantiate found unknown)
      (server.journaled.instantiate (found.map fun served => served.journaled (event served) change)
        unknown) world
      (found.toList.map fun served => event served server.providerData
        (outcome (server.instantiate found unknown) world).2) := by
  cases found with
  | none => exact .of_pure _ _ world
  | some served =>
      have made : Journals (Prod.map change id) (served.configure server.providerData)
          ((served.journaled (event served) change).configure server.providerData) world
          [event served server.providerData
            (outcome (served.configure server.providerData) world).2] := fun _ => rfl
      have checked (result : ι × Diagnostics) : Journals (δ := δ) (Prod.map (Option.map change) id)
          (pure (if result.2.hasError then none else some result.1, result.2))
          (pure (if result.2.hasError then none else some (change result.1), result.2))
          (worldAfter (served.configure server.providerData) world) [] := by
        cases failed : result.2.hasError with
        | true => exact .of_pure _ _ _
        | false => exact .of_pure _ _ _
      exact made.bind (checked _)

theorem journals_resource :
    Journals (Prod.map (Option.map Resource.journaled) id) (server.resource typeName)
      (server.journaled.resource typeName) world
      ((server.provider.findResource? typeName).toList.map fun served =>
        .resourceConfigured (served.typeName server.provider.typeName) server.providerData
          (outcome (server.resource typeName) world).2) := by
  unfold resource
  rw [journaled, Provider.findResource?_journaled]
  exact server.journals_instantiate world _ _ _ _

theorem journals_dataSource :
    Journals (Prod.map (Option.map DataSource.journaled) id) (server.dataSource typeName)
      (server.journaled.dataSource typeName) world
      ((server.provider.findDataSource? typeName).toList.map fun served =>
        .dataSourceConfigured (served.typeName server.provider.typeName) server.providerData
          (outcome (server.dataSource typeName) world).2) := by
  unfold dataSource
  rw [journaled, Provider.findDataSource?_journaled]
  exact server.journals_instantiate world _ _ _ _

end Server
end ProviderKit

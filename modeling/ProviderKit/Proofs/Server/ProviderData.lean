import ProviderKit.Proofs.Provider.Journal
import ProviderKit.Server.Answer

/-!
# The data of the last successful configuration

A server hands the data that the provider made of its configuration to every resource and every
data source that is made for a call.  Whatever calls it has answered before, in any order and
with any requests, this is the data that the latest successful configuration of the provider has
left, also when it left none, and there is none as long as no configuration has succeeded.

Only a call to configure the provider changes the data, and only when the callback has run and
reported no error.  All other calls are alike in this respect: what they note in the journal are
instances made with the data the server has, and no configuration.
-/

namespace ProviderKit

variable {σ δ α β γ κ : Type}

namespace Event

/-- The data an instance was made with. -/
def passed? : Event δ → Option (Option δ)
  | resourceConfigured _ data _ => some data
  | dataSourceConfigured _ data _ => some data
  | _ => none

/-- The data that a successful configuration of the provider has left. -/
def configured? : Event δ → Option (Option δ)
  | providerConfigured _ response =>
    if response.diagnostics.hasError then none else some response.providerData
  | _ => none

/-- An event of a call that does not configure the provider, while a server has some data. -/
def Keeps (data : Option δ) (event : Event δ) : Prop :=
  (∀ passed, event.passed? = some passed → passed = data) ∧ event.configured? = none

/-- The data that the latest successful configuration has left. -/
def lastConfigured (journal : List (Event δ)) : Option δ :=
  (journal.filterMap configured?).getLast?.join

theorem lastConfigured_append_of_none {journal later : List (Event δ)}
    (without : ∀ event ∈ later, event.configured? = none) :
    lastConfigured (journal ++ later) = lastConfigured journal := by
  unfold lastConfigured
  rw [List.filterMap_append, List.filterMap_eq_nil_iff.mpr without, List.append_nil]

theorem lastConfigured_append_configured {journal later : List (Event δ)} {event : Event δ}
    {data : Option δ} (configured : event.configured? = some data) :
    lastConfigured (journal ++ (later ++ [event])) = data := by
  unfold lastConfigured
  simp [configured]

end Event

/-! ## Actions that note events of one kind -/

/-- The action notes events with a property, and apart from that does what the plain one does. -/
def Noting (P : Event δ → Prop) (change : α → β) (plain : StateM σ α)
    (journaled : JournalM σ δ β) : Prop :=
  ∀ world, JournalsThat (fun _ events => ∀ event ∈ events, P event) change plain journaled world

namespace Noting

variable {P : Event δ → Prop} {change : α → β} {further : γ → κ} {plain : StateM σ α}
  {journaled : JournalM σ δ β}

theorem of_pure (P : Event δ → Prop) (change : α → β) (result : α) :
    Noting (σ := σ) P change (pure result) (pure (change result)) :=
  fun world => ⟨[], .of_pure change result world, nofun⟩

theorem of_noted (event : α → Event δ) (action : StateM σ α) (holds : ∀ result, P (event result)) :
    Noting P id action (noted event action) :=
  fun world => ⟨_, .of_noted event action world, List.forall_mem_singleton.mpr (holds _)⟩

theorem bind {next : α → StateM σ γ} {journaledNext : β → JournalM σ δ κ}
    (first : Noting P change plain journaled)
    (second : ∀ result, Noting P further (next result) (journaledNext (change result))) :
    Noting P further (plain >>= next) (journaled >>= journaledNext) := by
  intro world
  rcases first world with ⟨events, journals, holds⟩
  rcases second (outcome plain world) (worldAfter plain world) with ⟨later, further, alsoHolds⟩
  refine ⟨events ++ later, journals.bind further, ?_⟩
  exact List.forall_mem_append.mpr ⟨holds, alsoHolds⟩

/-- A call goes on with the instance that has been made for it, or without one. -/
theorem bind_instance {ι ι' : Type} {wrap : ι → ι'}
    {lookup : StateM σ (Option ι × Diagnostics)}
    {journaledLookup : JournalM σ δ (Option ι' × Diagnostics)}
    {next : Option ι × Diagnostics → StateM σ γ}
    {journaledNext : Option ι' × Diagnostics → JournalM σ δ κ}
    (found : Noting P (Prod.map (Option.map wrap) id) lookup journaledLookup)
    (absent : ∀ problems,
      Noting P further (next (none, problems)) (journaledNext (none, problems)))
    (present : ∀ inst problems, Noting P further (next (some inst, problems))
      (journaledNext (some (wrap inst), problems))) :
    Noting P further (lookup >>= next) (journaledLookup >>= journaledNext) := by
  refine found.bind ?_
  rintro ⟨inst, problems⟩
  cases inst with
  | none => exact absent problems
  | some inst => exact present inst problems

theorem ite {condition : Prop} [Decidable condition] {yes no : StateM σ α}
    {journaledYes journaledNo : JournalM σ δ β} (positive : Noting P change yes journaledYes)
    (negative : Noting P change no journaledNo) :
    Noting P change (if condition then yes else no)
      (if condition then journaledYes else journaledNo) := by
  split
  · exact positive
  · exact negative

end Noting

/-! ## Calls that do not configure the provider -/

namespace Server

variable (server : Server (StateM σ) δ)

theorem noting_resource (typeName : String) :
    Noting (Event.Keeps server.providerData) (Prod.map (Option.map Resource.journaled) id)
      (server.resource typeName) (server.journaled.resource typeName) := by
  intro world
  refine ⟨_, server.journals_resource typeName world, ?_⟩
  simp [Event.Keeps, Event.passed?, Event.configured?]

theorem noting_dataSource (typeName : String) :
    Noting (Event.Keeps server.providerData) (Prod.map (Option.map DataSource.journaled) id)
      (server.dataSource typeName) (server.journaled.dataSource typeName) := by
  intro world
  refine ⟨_, server.journals_dataSource typeName world, ?_⟩
  simp [Event.Keeps, Event.passed?, Event.configured?]

/-- A callback that is neither given the data nor leaves any. -/
theorem noting_callback {data : Option δ} (event : α → Event δ) (action : StateM σ α)
    (passes : ∀ result, (event result).passed? = none)
    (configures : ∀ result, (event result).configured? = none) :
    Noting (Event.Keeps data) id action (noted event action) := by
  refine .of_noted event action fun result => ⟨fun passed found => ?_, configures result⟩
  rw [passes result] at found
  cases found

theorem noting_getProviderSchema :
    Noting (Event.Keeps server.providerData) id server.getProviderSchema
      server.journaled.getProviderSchema := by
  have resources (name : String) (duplicate : String → ProviderError) :
      reportSchemas name duplicate server.journaled.provider.resources =
        reportSchemas name duplicate server.provider.resources := List.foldl_map
  have dataSources (name : String) (duplicate : String → ProviderError) :
      reportSchemas name duplicate server.journaled.provider.dataSources =
        reportSchemas name duplicate server.provider.dataSources := List.foldl_map
  unfold getProviderSchema
  simp only [resources, dataSources]
  refine (noting_callback _ _ (fun _ => rfl) fun _ => rfl).bind fun described => ?_
  exact .of_pure _ id _

/-- A payload is validated by a callback that is neither given the data nor leaves any. -/
theorem noting_validatePayload {data : Option δ} (schema : Schema) (payload : Option DynamicValue)
    (event : Config → Diagnostics → Event δ) (callback : Config → StateM σ Diagnostics)
    (passes : ∀ config result, (event config result).passed? = none)
    (configures : ∀ config result, (event config result).configured? = none) :
    Noting (Event.Keeps data) id (validatePayload schema payload callback)
      (validatePayload schema payload fun config => noted (event config) (callback config)) := by
  refine .ite (.of_pure _ id _) ?_
  refine (noting_callback _ _ (passes _) (configures _)).bind fun _ => ?_
  exact .of_pure _ id _

theorem noting_validateProviderConfig (request : Option Protocol.ValidateProviderRequest) :
    Noting (Event.Keeps server.providerData) id (server.validateProviderConfig request)
      (server.journaled.validateProviderConfig request) := by
  cases request with
  | none => exact .of_pure _ id _
  | some request =>
      refine (noting_callback _ _ (fun _ => rfl) fun _ => rfl).bind fun described => ?_
      refine .ite (.of_pure _ id _) ?_
      refine (noting_validatePayload _ _ .providerValidated _ (fun _ _ => rfl)
        fun _ _ => rfl).bind fun _ => ?_
      exact .of_pure _ id _

theorem noting_validateResourceConfig (request : Option Protocol.ConfigRequest) :
    Noting (Event.Keeps server.providerData) id (server.validateResourceConfig request)
      (server.journaled.validateResourceConfig request) := by
  cases request with
  | none => exact .of_pure _ id _
  | some request =>
      refine (server.noting_resource request.typeName).bind_instance (fun _ => .of_pure _ id _)
        fun resource lookup => ?_
      refine (noting_validatePayload _ _ .configValidated _ (fun _ _ => rfl)
        fun _ _ => rfl).bind fun _ => ?_
      exact .of_pure _ id _

theorem noting_validateDataSourceConfig (request : Option Protocol.ConfigRequest) :
    Noting (Event.Keeps server.providerData) id (server.validateDataSourceConfig request)
      (server.journaled.validateDataSourceConfig request) := by
  cases request with
  | none => exact .of_pure _ id _
  | some request =>
      refine (server.noting_dataSource request.typeName).bind_instance (fun _ => .of_pure _ id _)
        fun source lookup => ?_
      refine (noting_validatePayload _ _ .configValidated _ (fun _ _ => rfl)
        fun _ _ => rfl).bind fun _ => ?_
      exact .of_pure _ id _

theorem noting_upgradeStored {data : Option δ} (resource : Resource (StateM σ)) (version : Int64)
    (stored : ByteArray) :
    Noting (Event.Keeps data) id (upgradeStored resource version stored)
      (upgradeStored resource.journaled version stored) := by
  unfold upgradeStored
  cases Json.parseBytes stored with
  | error cause => exact .of_pure _ id _
  | ok json =>
      refine .ite (.of_pure _ id _) (.ite ?_ ?_)
      · rw [Resource.journaled_schema]
        cases Value.ofJsonLenient resource.schema.valueType json with
        | ok value => exact .of_pure _ id _
        | error error => exact .of_pure _ id _
      · refine (noting_callback _ _ (fun _ => rfl) fun _ => rfl).bind fun response => ?_
        exact .ite (.of_pure _ id _) (.ite (.of_pure _ id _) (.of_pure _ id _))

theorem noting_upgradeResourceState (request : Option Protocol.UpgradeStateRequest) :
    Noting (Event.Keeps server.providerData) id (server.upgradeResourceState request)
      (server.journaled.upgradeResourceState request) := by
  cases request with
  | none => exact .of_pure _ id _
  | some request =>
      refine .ite (.of_pure _ id _) ?_
      refine (server.noting_resource request.typeName).bind_instance (fun _ => .of_pure _ id _)
        fun resource lookup => ?_
      refine (noting_upgradeStored resource _ _).bind fun _ => ?_
      exact .of_pure _ id _

theorem noting_readResource (request : Option Protocol.ReadResourceRequest) :
    Noting (Event.Keeps server.providerData) id (server.readResource request)
      (server.journaled.readResource request) := by
  cases request with
  | none => exact .of_pure _ id _
  | some request =>
      refine (server.noting_resource request.typeName).bind_instance (fun _ => .of_pure _ id _)
        fun resource lookup => ?_
      refine .ite (.of_pure _ id _) ?_
      refine (noting_callback _ _ (fun _ => rfl) fun _ => rfl).bind fun _ => ?_
      exact .of_pure _ id _

theorem noting_planResourceChange (request : Option Protocol.PlanChangeRequest) :
    Noting (Event.Keeps server.providerData) id (server.planResourceChange request)
      (server.journaled.planResourceChange request) := by
  cases request with
  | none => exact .of_pure _ id _
  | some request =>
      refine (server.noting_resource request.typeName).bind_instance (fun _ => .of_pure _ id _)
        fun resource lookup => ?_
      refine .ite (.of_pure _ id _) (.ite ?_ ?_)
      · exact (Noting.of_pure _ id _).bind fun _ => .of_pure _ id _
      · refine (noting_callback _ _ (fun _ => rfl) fun _ => rfl).bind fun _ => ?_
        exact .of_pure _ id _

theorem noting_applyChange {data : Option δ} (resource : Resource (StateM σ)) (before : Diagnostics)
    (prior planned config : Value) (providerMeta : Config) :
    Noting (Event.Keeps data) id (applyChange resource before prior planned config providerMeta)
      (applyChange resource.journaled before prior planned config providerMeta) := by
  refine .ite (.ite (.of_pure _ id _) ?_) (.ite ?_ ?_)
  all_goals
    refine (noting_callback _ _ (fun _ => rfl) fun _ => rfl).bind fun _ => ?_
    exact .of_pure _ id _

theorem noting_applyResourceChange (request : Option Protocol.ApplyChangeRequest) :
    Noting (Event.Keeps server.providerData) id (server.applyResourceChange request)
      (server.journaled.applyResourceChange request) := by
  cases request with
  | none => exact .of_pure _ id _
  | some request =>
      refine (server.noting_resource request.typeName).bind_instance (fun _ => .of_pure _ id _)
        fun resource lookup => ?_
      refine .ite (.of_pure _ id _) ?_
      refine (noting_applyChange resource _ _ _ _ _).bind fun _ => ?_
      exact .of_pure _ id _

theorem noting_importResourceState (request : Option Protocol.ImportStateRequest) :
    Noting (Event.Keeps server.providerData) id (server.importResourceState request)
      (server.journaled.importResourceState request) := by
  cases request with
  | none => exact .of_pure _ id _
  | some request =>
      refine (server.noting_resource request.typeName).bind_instance (fun _ => .of_pure _ id _)
        fun resource lookup => ?_
      refine (noting_callback _ _ (fun _ => rfl) fun _ => rfl).bind fun _ => ?_
      exact .ite (.of_pure _ id _) (.ite (.of_pure _ id _) (.of_pure _ id _))

theorem noting_readDataSource (request : Option Protocol.ReadDataSourceRequest) :
    Noting (Event.Keeps server.providerData) id (server.readDataSource request)
      (server.journaled.readDataSource request) := by
  cases request with
  | none => exact .of_pure _ id _
  | some request =>
      refine (server.noting_dataSource request.typeName).bind_instance (fun _ => .of_pure _ id _)
        fun source lookup => ?_
      refine .ite (.of_pure _ id _) ?_
      refine (noting_callback _ _ (fun _ => rfl) fun _ => rfl).bind fun _ => ?_
      exact .of_pure _ id _

theorem noting_stopProvider :
    Noting (Event.Keeps server.providerData) id server.stopProvider
      server.journaled.stopProvider := by
  refine (noting_callback _ _ (fun _ => rfl) fun _ => rfl).bind fun result => ?_
  cases result with
  | ok _ => exact .of_pure _ id _
  | error _ => exact .of_pure _ id _

/-! ## One call -/

/-- What a call does to the data of a server: nothing, and then no configuration has succeeded,
or it is a call to configure the provider whose callback has run without an error, and then the
data is what the callback has left. -/
inductive Updates (request : Protocol.Request) (data : Option δ) (events : List (Event δ)) :
    Option δ → Prop
  | kept (without : ∀ event ∈ events, event.configured? = none) : Updates request data events data
  | configured {call : Protocol.ConfigureProviderRequest} {earlier : List (Event δ)}
      {given : ConfigureRequest} {response : ConfigureResponse δ}
      (called : request = .configureProvider (some call))
      (noted : events = earlier ++ [.providerConfigured given response])
      (success : response.diagnostics.hasError = false) :
      Updates request data events response.providerData

theorem journals_configureProvider (request : Option Protocol.ConfigureProviderRequest)
    (world : σ) :
    let after := (outcome (server.configureProvider request) world).2
    ∃ events, Journals (Prod.map id journaled) (server.configureProvider request)
        (server.journaled.configureProvider request) world events ∧
      (∀ event ∈ events, event.passed? = none) ∧
      Updates (.configureProvider request) server.providerData events after.providerData := by
  change JournalsThat (fun result events => (∀ event ∈ events, event.passed? = none) ∧
    Updates (.configureProvider request) server.providerData events result.2.providerData)
    (Prod.map id journaled) (server.configureProvider request)
    (server.journaled.configureProvider request) world
  cases request with
  | none => exact .of_pure _ ⟨nofun, .kept nofun⟩ world
  | some call =>
      refine .noted_bind (.ite (fun failed => ?_) fun described => ?_)
      · exact .of_pure _ ⟨by simp [Event.passed?], .kept (by simp [Event.configured?])⟩ _
      refine .ite (fun malformed => ?_) fun decoded => .noted_bind ?_
      · exact .of_pure _ ⟨by simp [Event.passed?], .kept (by simp [Event.configured?])⟩ _
      intro response
      cases failed : response.diagnostics.hasError with
      | true =>
          simp only [if_true]
          exact .of_pure _ ⟨by simp [Event.passed?], .kept (by simp [Event.configured?, failed])⟩ _
      | false =>
          simp only [Bool.false_eq_true, if_false]
          refine .of_pure _ ⟨by simp [Event.passed?], ?_⟩ _
          exact .configured rfl List.singleton_append.symm failed

private theorem journals_keep {request : Protocol.Request} {wrap : α → Protocol.Response}
    {plain : StateM σ α} {journaled' : JournalM σ δ α}
    (noting : Noting (Event.Keeps server.providerData) id plain journaled') (world : σ) :
    let after := (outcome (answer.keep server wrap plain) world).2
    ∃ events, Journals (Prod.map id journaled) (answer.keep server wrap plain)
        (answer.keep server.journaled wrap journaled') world events ∧
      (∀ event ∈ events, ∀ passed, event.passed? = some passed → passed = server.providerData) ∧
      Updates request server.providerData events after.providerData := by
  rcases noting world with ⟨events, journals, keeps⟩
  exact ⟨events, journals.map fun _ => rfl, fun event member => (keeps event member).1,
    .kept fun event member => (keeps event member).2⟩

/-- One call hands on the data the server has, and changes it as `Updates` says. -/
theorem journals_answer (request : Protocol.Request) (world : σ) :
    let after := (outcome (server.answer request) world).2
    ∃ events, Journals (Prod.map id journaled) (server.answer request)
        (server.journaled.answer request) world events ∧
      (∀ event ∈ events, ∀ passed, event.passed? = some passed → passed = server.providerData) ∧
      Updates request server.providerData events after.providerData := by
  cases request with
  | getProviderSchema => exact server.journals_keep server.noting_getProviderSchema world
  | validateProviderConfig request =>
      exact server.journals_keep (server.noting_validateProviderConfig request) world
  | configureProvider request =>
      rcases server.journals_configureProvider request world with ⟨events, journals, none, updates⟩
      refine ⟨events, ?_, fun event member passed found => ?_, updates⟩
      · let answered {m : Type → Type} (result : Protocol.DiagnosticsResponse × Server m δ) :
            Protocol.Response × Server m δ := (.diagnostics result.1, result.2)
        exact journals.map fun result => (rfl : answered _ = Prod.map id _ (answered result))
      · rw [none event member] at found
        cases found
  | validateResourceConfig request =>
      exact server.journals_keep (server.noting_validateResourceConfig request) world
  | validateDataSourceConfig request =>
      exact server.journals_keep (server.noting_validateDataSourceConfig request) world
  | upgradeResourceState request =>
      exact server.journals_keep (server.noting_upgradeResourceState request) world
  | readResource request => exact server.journals_keep (server.noting_readResource request) world
  | planResourceChange request =>
      exact server.journals_keep (server.noting_planResourceChange request) world
  | applyResourceChange request =>
      exact server.journals_keep (server.noting_applyResourceChange request) world
  | importResourceState request =>
      exact server.journals_keep (server.noting_importResourceState request) world
  | readDataSource request =>
      exact server.journals_keep (server.noting_readDataSource request) world
  | stopProvider => exact server.journals_keep server.noting_stopProvider world

/-! ## Calls one after the other -/

theorem Updates.lastConfigured {request : Protocol.Request} {data after : Option δ}
    {journal events : List (Event δ)} (updates : Updates request data events after)
    (stored : data = Event.lastConfigured journal) :
    after = Event.lastConfigured (journal ++ events) := by
  cases updates with
  | kept without => rw [stored, Event.lastConfigured_append_of_none without]
  | configured _ noted success =>
      rw [noted]
      exact (Event.lastConfigured_append_configured (by simp [Event.configured?, success])).symm

/-- Calls keep the data of a server that of the latest configuration in its journal. -/
theorem journals_answerAll (requests : List Protocol.Request) (world : σ) :
    let after := (outcome (server.answerAll requests) world).2
    ∃ events, Journals (Prod.map id journaled) (server.answerAll requests)
        (server.journaled.answerAll requests) world events ∧
      ∀ journal, server.providerData = Event.lastConfigured journal →
        after.providerData = Event.lastConfigured (journal ++ events) := by
  induction requests generalizing server world with
  | nil =>
      refine ⟨[], .of_pure _ _ world, fun journal stored => ?_⟩
      rw [List.append_nil]
      exact stored
  | cons request rest inductionHypothesis =>
      rcases server.journals_answer request world with ⟨events, answered, _, updates⟩
      let after := (outcome (server.answer request) world).2
      rcases inductionHypothesis after (worldAfter (server.answer request) world) with
        ⟨later, answeredLater, further⟩
      refine ⟨events ++ later, answered.bind (answeredLater.map fun _ => rfl), ?_⟩
      intro journal stored
      rw [← List.append_assoc]
      exact further (journal ++ events) (updates.lastConfigured stored)

/-- After any calls, the next one hands on what the latest successful configuration has left. -/
theorem passed_data_is_last_configured (provider : Provider (StateM σ) δ)
    (earlier : List Protocol.Request) (request : Protocol.Request) (world : σ) :
    let fresh : Server (StateM σ) δ := { provider }
    let server := (outcome (fresh.answerAll earlier) world).2
    let reached := worldAfter (fresh.answerAll earlier) world
    let after := (outcome (server.answer request) reached).2
    ∃ journal events,
      Journals (Prod.map id journaled) (fresh.answerAll earlier) (fresh.journaled.answerAll earlier)
        world journal ∧
      Journals (Prod.map id journaled) (server.answer request) (server.journaled.answer request)
        reached events ∧
      (∀ event ∈ events, ∀ passed, event.passed? = some passed →
        passed = Event.lastConfigured journal) ∧
      server.providerData = Event.lastConfigured journal ∧
      Updates request server.providerData events after.providerData := by
  intro fresh server reached after
  rcases fresh.journals_answerAll earlier world with ⟨journal, answered, stored⟩
  rcases server.journals_answer request reached with ⟨events, answeredNext, passed, updates⟩
  have stored : server.providerData = Event.lastConfigured journal := stored [] rfl
  refine ⟨journal, events, answered, answeredNext, ?_, stored, updates⟩
  intro event member data found
  exact (passed event member data found).trans stored

end Server
end ProviderKit

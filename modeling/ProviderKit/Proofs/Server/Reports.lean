import ProviderKit.Proofs.Server.Findings

/-!
# What is reported of a call

Whatever a call about a schema comes to, its response reports all that was found, in the order in
which it was found, and nothing else.  The callback that the call is made for is called at most
once, behind everything else that is called, and exactly when nothing found before stands in its
way and there is work for it.
-/

namespace ProviderKit

variable {σ δ ι κ α β γ : Type}

namespace Course

variable {server : Server (StateM σ) δ} {request : Protocol.Request} {schema : Schema}
  {lookup before all : Diagnostics} {event : Event δ}

/-- Without a schema nothing more is found. -/
theorem of_absent (server : Server (StateM σ) δ) (request : Protocol.Request)
    (lookup : Diagnostics) :
    Course server request (none, lookup) (none : Option (Event δ)) lookup.toWire where
  answers := nofun
  runs_iff := by simp
  reported_eq := by simp

/-- The callback is not called. -/
theorem of_idle (idle : ¬ (Diagnostics.hasError (lookup ++ server.gate schema request) = false ∧
      Server.HasWork schema request)) (found : all = lookup ++ server.findings schema request) :
    Course server request (some schema, lookup) (none : Option (Event δ)) all.toWire where
  answers := nofun
  runs_iff := by
    refine iff_of_false nofun ?_
    rintro ⟨_, ⟨⟩, fine⟩
    exact idle fine
  reported_eq := by simp [found]

/-- The callback is called. -/
theorem of_called (answers : event.Answers request)
    (passed : Diagnostics.hasError (lookup ++ server.gate schema request) = false)
    (work : Server.HasWork schema request)
    (found : all = lookup ++ server.findings schema request ++ event.findings) :
    Course server request (some schema, lookup) (some event) all.toWire where
  answers := by
    rintro _ ⟨⟩
    exact answers
  runs_iff := iff_of_true rfl ⟨schema, rfl, passed, work⟩
  reported_eq := by simp [found]

/-! A call that does not validate has its callback called when nothing before it is an error. -/

theorem of_idle_action (acts : request.validates = false)
    (found : before = lookup ++ server.findings schema request)
    (idle : before.hasError = true ∨ ¬ Server.HasWork schema request) :
    Course server request (some schema, lookup) (none : Option (Event δ)) before.toWire := by
  refine of_idle ?_ found
  rw [server.gate_eq_findings schema acts, ← found, not_and_or, Bool.not_eq_false]
  exact idle

theorem of_called_action (acts : request.validates = false)
    (found : before = lookup ++ server.findings schema request) (fine : before.hasError = false)
    (work : Server.HasWork schema request) (answers : event.Answers request)
    (adds : all = before ++ event.findings) :
    Course server request (some schema, lookup) (some event) all.toWire := by
  refine of_called answers ?_ work (found ▸ adds)
  rw [server.gate_eq_findings schema acts, ← found]
  exact fine

end Course

namespace Server

variable {server : Server (StateM σ) δ} {request : Protocol.Request} {schema : Schema}
  {lookup : Diagnostics} {world : σ}

/-- Making an instance for a call does not answer it, and after an error none is handed on. -/
structure Makes (request : Protocol.Request) (wrap : ι → κ)
    (lookup : StateM σ (Option ι × Diagnostics))
    (journaledLookup : JournalM σ δ (Option κ × Diagnostics)) (world : σ) : Prop where
  journals : JournalsThat (fun _ events => ∀ event ∈ events, ¬ event.Answers request)
    (Prod.map (Option.map wrap) id) lookup journaledLookup world
  sound : ∀ inst, (outcome lookup world).1 = some inst →
    (outcome lookup world).2.hasError = false

theorem makes_resource (server : Server (StateM σ) δ) (typeName : String) :
    Makes request Resource.journaled (server.resource typeName)
      (server.journaled.resource typeName) world where
  journals := by
    refine ⟨_, server.journals_resource typeName world, ?_⟩
    simp [Event.not_answers_resourceConfigured]
  sound _ := resource_hasError

theorem makes_dataSource (server : Server (StateM σ) δ) (typeName : String) :
    Makes request DataSource.journaled (server.dataSource typeName)
      (server.journaled.dataSource typeName) world where
  journals := by
    refine ⟨_, server.journals_dataSource typeName world, ?_⟩
    simp [Event.not_answers_dataSourceConfigured]
  sound _ := instantiate_hasError

/-- How a call ends for what its beginning has found. -/
def Ends (server : Server (StateM σ) δ) (request : Protocol.Request)
    (found : Option Schema × Diagnostics) (reported : List WireDiagnostic)
    (events : List (Event δ)) : Prop :=
  ∃ callback : Option (Event δ), events = callback.toList ∧
    Course server request found callback reported

/-- The call begins as `approach` says, which answers nothing yet, and then follows its course. -/
def Follows (server : Server (StateM σ) δ) (request : Protocol.Request)
    (reported : α → List WireDiagnostic) (change : α → β) (plain : StateM σ α)
    (journaled : JournalM σ δ β) (world : σ) : Prop :=
  ∃ begun callback, Journals id (server.approach request) (server.journaled.approach request) world
      begun ∧
    (∀ event ∈ begun, ¬ event.Answers request) ∧
    Journals change plain journaled world (begun ++ callback.toList) ∧
    Course server request (outcome (server.approach request) world) callback
      (reported (outcome plain world))

namespace Follows

variable {reported : α → List WireDiagnostic} {change : α → β}

/-- A call that asks for nothing. -/
theorem of_nothing (server : Server (StateM σ) δ) (world : σ)
    (idle : server.approach request = pure (none, []))
    (idleAgain : server.journaled.approach request = pure (none, [])) {response : α}
    (empty : reported response = []) :
    Follows server request reported change (pure response) (pure (change response)) world := by
  refine ⟨[], none, ?_, nofun, .of_pure change response world, ?_⟩
  · rw [idle, idleAgain]
    exact .of_pure id _ world
  · rw [idle, outcome_pure, outcome_pure, empty]
    exact .of_absent server request []

/-- A call that goes on with what its beginning has found. -/
theorem of_begun {between : γ → κ} {first : StateM σ γ} {journaledFirst : JournalM σ δ κ}
    {begun : List (Event δ)} (begins : Journals between first journaledFirst world begun)
    {view : γ → Option Schema × Diagnostics} {journaledView : κ → Option Schema × Diagnostics}
    (sameView : ∀ found, journaledView (between found) = view found)
    (approached : server.approach request = first >>= fun found => pure (view found))
    (approachedAgain : server.journaled.approach request =
      journaledFirst >>= fun found => pure (journaledView found))
    (unanswered : ∀ event ∈ begun, ¬ event.Answers request)
    {next : γ → StateM σ α} {journaledNext : κ → JournalM σ δ β}
    (ends : let found := outcome first world
      JournalsThat (fun response => Ends server request (view found) (reported response)) change
        (next found) (journaledNext (between found)) (worldAfter first world)) :
    Follows server request reported change (first >>= next) (journaledFirst >>= journaledNext)
      world := by
  rcases ends with ⟨_, journals, callback, rfl, course⟩
  refine ⟨begun, callback, ?_, unanswered, begins.bind journals, ?_⟩
  · rw [approached, approachedAgain]
    exact begins.map sameView
  · rw [approached]
    exact course

/-- A call that goes on with the instance that has been made for it, and that ends with what has
been reported where there is none. -/
theorem of_instance {wrap : ι → κ} {lookup : StateM σ (Option ι × Diagnostics)}
    {journaledLookup : JournalM σ δ (Option κ × Diagnostics)}
    (made : Makes request wrap lookup journaledLookup world)
    {schemaOf : ι → Schema} {journaledSchemaOf : κ → Schema}
    (sameSchema : ∀ inst, journaledSchemaOf (wrap inst) = schemaOf inst)
    (approached : server.approach request =
      lookup >>= fun found => pure (found.1.map schemaOf, found.2))
    (approachedAgain : server.journaled.approach request =
      journaledLookup >>= fun found => pure (found.1.map journaledSchemaOf, found.2))
    {next : Option ι × Diagnostics → StateM σ α}
    {journaledNext : Option κ × Diagnostics → JournalM σ δ β}
    (absent : ∀ problems, ∃ response, next (none, problems) = pure response ∧
      journaledNext (none, problems) = pure (change response) ∧
      reported response = problems.toWire)
    (present : ∀ inst problems world, problems.hasError = false →
      JournalsThat (fun response => Ends server request (some (schemaOf inst), problems)
        (reported response)) change (next (some inst, problems))
        (journaledNext (some (wrap inst), problems)) world) :
    Follows server request reported change (lookup >>= next) (journaledLookup >>= journaledNext)
      world := by
  rcases made with ⟨⟨begun, begins, unanswered⟩, sound⟩
  refine of_begun begins ?_ approached approachedAgain unanswered ?_
  · rintro ⟨_ | inst, problems⟩
    · rfl
    · exact congrArg (fun schema => (some schema, problems)) (sameSchema inst)
  · intro found
    change ∀ inst, found.1 = some inst → found.2.hasError = false at sound
    rcases found with ⟨_ | inst, problems⟩
    · rcases absent problems with ⟨response, ends, endsAgain, reports⟩
      refine ends ▸ endsAgain ▸ .of_pure change ⟨none, rfl, ?_⟩ _
      exact reports ▸ .of_absent server request problems
    · exact present inst problems _ (sound inst rfl)

end Follows

/-! ## Validations -/

variable (server : Server (StateM σ) δ) {before : Diagnostics}

/-- A validation reports the problem of the payload, or else what the schema and the callback find
in its value. -/
theorem ends_validatePayload {payload : Option DynamicValue}
    {event : Config → Diagnostics → Event δ} {callback : Config → StateM σ Diagnostics}
    (fine : lookup.hasError = false) (validates : request.validates = true)
    (payloads : request.payloads = [("configuration", payload)]) (bare : request.metadata = none)
    (checks : checks schema request = schema.validate (payloadValue schema payload))
    (work : HasWork schema request)
    (answers : ∀ config result, (event config result).Answers request)
    (adds : ∀ config result, (event config result).findings = result) :
    JournalsThat (fun response => Ends server request (some schema, lookup)
        (Protocol.DiagnosticsResponse.diagnostics response)) id
      (validatePayload schema payload callback >>= fun found => pure ⟨(lookup ++ found).toWire⟩)
      (validatePayload schema payload (fun config => noted (event config) (callback config)) >>=
        fun found => pure ⟨(lookup ++ found).toWire⟩) world := by
  have conversions : server.conversions schema request =
      (payloadProblem? schema "configuration" payload).toList := by
    rw [Server.conversions, payloads, bare]
    simp
  have gate : server.gate schema request =
      (payloadProblem? schema "configuration" payload).toList := by
    rw [Server.gate, if_pos validates, conversions]
  suffices validated : JournalsThat (fun found => Ends server request (some schema, lookup)
      (Diagnostics.toWire (lookup ++ found))) id (validatePayload schema payload callback)
      (validatePayload schema payload fun config => noted (event config) (callback config)) world by
    rcases validated with ⟨events, journals, ends⟩
    exact ⟨events, journals.map fun _ => rfl, ends⟩
  unfold validatePayload
  simp only [decodePayload_eq]
  refine .ite (fun failed => .of_pure id ⟨none, rfl, .of_idle ?_ ?_⟩ _) fun decoded =>
    .noted_bind (.of_pure id ⟨some _, rfl, .of_called (answers _ _) ?_ work ?_⟩ _)
  · rw [gate, hasError_append, failed, Bool.or_true]
    rintro ⟨decoded, _⟩
    cases decoded
  · rw [findings_of_undecoded (conversions ▸ failed), conversions]
  · rw [gate, hasError_append, fine, Bool.eq_false_iff.mpr decoded, Bool.or_false]
  · have fine := Bool.eq_false_iff.mpr decoded
    rw [findings_of_decoded (conversions ▸ fine), conversions, checks, adds]
    simp only [List.append_assoc]

theorem follows_validateProviderConfig (call : Option Protocol.ValidateProviderRequest) :
    Follows server (.validateProviderConfig call) (·.diagnostics) id
      (server.validateProviderConfig call) (server.journaled.validateProviderConfig call)
      world := by
  cases call with
  | none => exact .of_nothing server world rfl rfl rfl
  | some call =>
      refine .of_begun (.of_noted _ _ world) (fun _ => rfl) rfl rfl
        (List.forall_mem_singleton.mpr (Event.not_answers_providerDescribed _ _)) ?_
      intro described
      simp only [id]
      refine .ite (fun failed => ?_) fun made => ?_
      · rw [if_pos failed]
        exact .of_pure id ⟨none, rfl, .of_absent _ _ _⟩ _
      · rw [if_neg made]
        exact server.ends_validatePayload (Bool.eq_false_iff.mpr made) rfl rfl rfl rfl
          trivial (fun _ _ => trivial) fun _ _ => Event.findings_eq_reported rfl

theorem follows_validateResourceConfig (call : Option Protocol.ConfigRequest) :
    Follows server (.validateResourceConfig call) (·.diagnostics) id
      (server.validateResourceConfig call) (server.journaled.validateResourceConfig call)
      world := by
  cases call with
  | none => exact .of_nothing server world rfl rfl rfl
  | some call =>
      refine .of_instance (makes_resource server call.typeName) Resource.journaled_schema rfl rfl
        (fun _ => ⟨_, rfl, rfl, rfl⟩) fun resource lookup world fine => ?_
      exact server.ends_validatePayload fine rfl rfl rfl rfl trivial
        (fun _ _ => trivial) fun _ _ => Event.findings_eq_reported rfl

theorem follows_validateDataSourceConfig (call : Option Protocol.ConfigRequest) :
    Follows server (.validateDataSourceConfig call) (·.diagnostics) id
      (server.validateDataSourceConfig call) (server.journaled.validateDataSourceConfig call)
      world := by
  cases call with
  | none => exact .of_nothing server world rfl rfl rfl
  | some call =>
      refine .of_instance (makes_dataSource server call.typeName) DataSource.journaled_schema
        rfl rfl (fun _ => ⟨_, rfl, rfl, rfl⟩) fun source lookup world fine => ?_
      exact server.ends_validatePayload fine rfl rfl rfl rfl trivial
        (fun _ _ => trivial) fun _ _ => Event.findings_eq_reported rfl

/-! ## The lifecycle of resources -/

theorem follows_readResource (call : Option Protocol.ReadResourceRequest) :
    Follows server (.readResource call) (·.diagnostics) id (server.readResource call)
      (server.journaled.readResource call) world := by
  cases call with
  | none => exact .of_nothing server world rfl rfl rfl
  | some call =>
      unfold readResource
      simp only [decodePayload_eq, decodeMeta_eq]
      refine .of_instance (makes_resource server call.typeName) Resource.journaled_schema rfl rfl
        (fun _ => ⟨_, rfl, rfl, rfl⟩) fun resource lookup world fine => ?_
      have found : lookup ++ (payloadProblem? resource.schema "current state"
          call.currentState).toList ++ (server.metaProblem? call.providerMeta).toList =
            lookup ++ server.findings resource.schema (.readResource (some call)) := by
        simp [findings, conversions, checks]
      refine .ite (fun stopped => ?_) fun goes => .noted_bind ?_
      · rw [Bool.or_eq_true, Value.isNull_iff] at stopped
        have idle := stopped.imp id not_not.mpr
        exact .of_pure id ⟨none, rfl, .of_idle_action rfl found idle⟩ _
      · rw [Bool.or_eq_true, not_or, Value.isNull_iff] at goes
        have fine := Bool.eq_false_iff.mpr goes.1
        refine .of_pure id ⟨some _, rfl, .of_called_action rfl found fine goes.2 trivial ?_⟩ _
        rw [Event.findings_eq_reported rfl]
        rfl

theorem follows_planResourceChange (call : Option Protocol.PlanChangeRequest) :
    Follows server (.planResourceChange call) (·.diagnostics) id (server.planResourceChange call)
      (server.journaled.planResourceChange call) world := by
  cases call with
  | none => exact .of_nothing server world rfl rfl rfl
  | some call =>
      unfold planResourceChange
      simp only [decodePayload_eq, decodeMeta_eq]
      refine .of_instance (makes_resource server call.typeName) Resource.journaled_schema rfl rfl
        (fun _ => ⟨_, rfl, rfl, rfl⟩) fun resource lookup world fine => ?_
      have decoding : lookup ++
          (payloadProblem? resource.schema "prior state" call.priorState).toList ++
          (payloadProblem? resource.schema "proposed new state" call.proposedNewState).toList ++
          (payloadProblem? resource.schema "configuration" call.config).toList ++
          (server.metaProblem? call.providerMeta).toList =
            lookup ++ server.conversions resource.schema (.planResourceChange (some call)) := by
        simp [conversions]
      refine .ite (fun undecoded => ?_) fun decoded => ?_
      · have found := eq_append_findings fine decoding undecoded
        exact .of_pure id ⟨none, rfl, .of_idle_action rfl found (.inl undecoded)⟩ _
      have found := append_checks_eq fine decoding (Bool.eq_false_iff.mpr decoded)
      refine .ite (fun invalid => ?_) fun valid => .noted_bind ?_
      · exact .of_pure id ⟨none, rfl, .of_idle_action rfl ((List.append_nil _).trans found)
          (.inl ((List.append_nil _).symm ▸ invalid))⟩ _
      · refine .of_pure id ⟨some _, rfl, .of_called_action rfl found (Bool.eq_false_iff.mpr valid)
          trivial trivial ?_⟩ _
        rw [Event.findings_eq_reported rfl]
        rfl

theorem follows_importResourceState (call : Option Protocol.ImportStateRequest) :
    Follows server (.importResourceState call) (·.diagnostics) id
      (server.importResourceState call) (server.journaled.importResourceState call) world := by
  cases call with
  | none => exact .of_nothing server world rfl rfl rfl
  | some call =>
      refine .of_instance (makes_resource server call.typeName) Resource.journaled_schema rfl rfl
        (fun _ => ⟨_, rfl, rfl, rfl⟩)
        fun resource lookup world fine => .noted_bind ?_
      have found : lookup = lookup ++
          server.findings resource.schema (.importResourceState (some call)) := by
        simp [findings, conversions, checks]
      intro response
      refine .ite (fun failed => ?_) fun succeeded => .ite (fun absent => ?_) fun present => ?_
      all_goals
        refine .of_pure id ⟨some _, rfl, .of_called_action rfl found fine trivial trivial ?_⟩ _
        simp only [Event.findings, Event.reported, Event.shortcomings, ← andThen_append fine]
        unfold andThen
      · exact (if_pos failed).symm
      · rw [if_neg succeeded, if_pos absent]
      · rw [if_neg succeeded, if_neg present, List.append_nil]

theorem follows_readDataSource (call : Option Protocol.ReadDataSourceRequest) :
    Follows server (.readDataSource call) (·.diagnostics) id (server.readDataSource call)
      (server.journaled.readDataSource call) world := by
  cases call with
  | none => exact .of_nothing server world rfl rfl rfl
  | some call =>
      unfold readDataSource
      simp only [decodePayload_eq, decodeMeta_eq]
      refine .of_instance (makes_dataSource server call.typeName) DataSource.journaled_schema
        rfl rfl (fun _ => ⟨_, rfl, rfl, rfl⟩) fun source lookup world fine => ?_
      have found : lookup ++ (payloadProblem? source.schema "configuration" call.config).toList ++
          (server.metaProblem? call.providerMeta).toList =
            lookup ++ server.findings source.schema (.readDataSource (some call)) := by
        simp [findings, conversions, checks]
      refine .ite (fun undecoded => ?_) fun decoded => .noted_bind ?_
      · exact .of_pure id ⟨none, rfl, .of_idle_action rfl found (.inl undecoded)⟩ _
      · have fine := Bool.eq_false_iff.mpr decoded
        exact .of_pure id ⟨some _, rfl, .of_called_action rfl found fine trivial trivial
          (andThen_append fine _ _)⟩ _

/-- The checks behind a creation or an update. -/
theorem andThen_producedState (fine : before.hasError = false) (operation callback : String)
    (response : StateResponse) :
    let produced := producedState operation callback before response
    andThen produced.2 (unknownAfter "apply" produced.1) =
      before ++ andThen response.diagnostics
        (Event.stateProblems operation callback response.state) := by
  unfold producedState Event.stateProblems
  by_cases absent : response.state.isNull = true
  · have known : unknownAfter "apply" response.state.raw = [] := by
      rw [Value.isNull_iff.mp absent]
      rfl
    simp only [if_pos absent, known, andThen_nil, andThen_append fine]
  · simp only [if_neg absent, andThen_append fine]

/-- The checks behind a deletion find nothing. -/
theorem andThen_deletedState (response : StateResponse) :
    andThen response.diagnostics (unknownAfter "apply"
      (if response.diagnostics.hasError then response.state.raw else .null)) =
        response.diagnostics := by
  unfold andThen
  by_cases failed : response.diagnostics.hasError = true
  · rw [if_pos failed]
  · rw [if_neg failed, if_neg failed]
    exact List.append_nil _

/-- A change reports what its callback finds, and what the checks behind it find in the state. -/
theorem ends_applyChange {call : Protocol.ApplyChangeRequest} {resource : Resource (StateM σ)}
    (found : before = lookup ++ server.findings resource.schema (.applyResourceChange (some call)))
    (fine : before.hasError = false) (config : Value) (providerMeta : Config) :
    let prior := payloadValue resource.schema call.priorState
    let planned := payloadValue resource.schema call.plannedState
    JournalsThat (fun result => Ends server (.applyResourceChange (some call))
        (some resource.schema, lookup)
        (Diagnostics.toWire (andThen result.2 (unknownAfter "apply" result.1)))) id
      (applyChange resource before prior planned config providerMeta)
      (applyChange resource.journaled before prior planned config providerMeta) world := by
  intro prior planned
  refine .ite (fun unplanned => .ite (fun absent => ?_) fun present => .noted_bind ?_)
    fun wanted => .ite (fun absent => .noted_bind ?_) fun present => .noted_bind ?_
  all_goals simp only [Value.isNull_iff] at *
  · have idle : ¬ HasWork resource.schema (.applyResourceChange (some call)) :=
      not_or.mpr ⟨not_not.mpr absent, not_not.mpr unplanned⟩
    have result : andThen before (unknownAfter "apply" .null) = before := andThen_nil before
    refine .of_pure id ⟨none, rfl, ?_⟩ _
    rw [result]
    exact .of_idle_action rfl found (.inr idle)
  · refine .of_pure id ⟨some _, rfl, .of_called_action rfl found fine (.inl present) trivial ?_⟩ _
    rw [Event.findings_eq_reported rfl, andThen_append fine]
    exact congrArg (before ++ ·) (andThen_deletedState _)
  · exact .of_pure id ⟨some _, rfl, .of_called_action rfl found fine (.inr wanted) trivial
      (andThen_producedState fine "Create" "create" _)⟩ _
  · exact .of_pure id ⟨some _, rfl, .of_called_action rfl found fine (.inr wanted) trivial
      (andThen_producedState fine "Update" "update" _)⟩ _

theorem follows_applyResourceChange (call : Option Protocol.ApplyChangeRequest) :
    Follows server (.applyResourceChange call) (·.diagnostics) id
      (server.applyResourceChange call) (server.journaled.applyResourceChange call) world := by
  cases call with
  | none => exact .of_nothing server world rfl rfl rfl
  | some call =>
      unfold applyResourceChange
      simp only [decodePayload_eq, decodeMeta_eq]
      refine .of_instance (makes_resource server call.typeName) Resource.journaled_schema rfl rfl
        (fun _ => ⟨_, rfl, rfl, rfl⟩) fun resource lookup world fine => ?_
      have found : lookup ++
          (payloadProblem? resource.schema "prior state" call.priorState).toList ++
          (payloadProblem? resource.schema "planned state" call.plannedState).toList ++
          (payloadProblem? resource.schema "configuration" call.config).toList ++
          (server.metaProblem? call.providerMeta).toList =
            lookup ++ server.findings resource.schema (.applyResourceChange (some call)) := by
        simp [findings, conversions, checks]
      refine .ite (fun undecoded => ?_) fun decoded => ?_
      · exact .of_pure id ⟨none, rfl, .of_idle_action rfl found (.inl undecoded)⟩ _
      · rcases server.ends_applyChange found (Bool.eq_false_iff.mpr decoded) _ _ with
          ⟨events, journals, ends⟩
        exact ⟨events, journals.map fun _ => rfl, ends⟩

/-- The text of a version that is not negative. -/
theorem toNat_toUInt64 {version : Int64} (valid : ¬ version < 0) :
    (version.toUInt64.toNat : Int) = version.toInt := by
  rw [Int64.not_lt] at valid
  have nonneg : (0 : Int64).toInt ≤ version.toInt := Int64.le_iff_toInt_le.mp valid
  rw [Int64.toNat_toUInt64_of_le valid, Int64.toNatClampNeg, Int.toNat_of_nonneg nonneg]

/-- An upgrade reports what is wrong with the stored state, or what its callback finds when the
state is of another version. -/
theorem ends_upgradeStored {call : Protocol.UpgradeStateRequest} {resource : Resource (StateM σ)}
    (fine : lookup.hasError = false) :
    let stored := call.rawState.getD ByteArray.empty
    JournalsThat (fun result => Ends server (.upgradeResourceState (some call))
        (some resource.schema, lookup) (Diagnostics.toWire (lookup ++ result.2))) id
      (upgradeStored resource call.version stored)
      (upgradeStored resource.journaled call.version stored) world := by
  intro stored
  have found {problem : Option Diagnostic}
      (same : storedProblem? resource.schema call.version stored = problem) :
      lookup ++ problem.toList =
        lookup ++ server.findings resource.schema (.upgradeResourceState (some call)) := by
    simp [findings, conversions, checks, same, stored, andThen, Diagnostics.hasError]
  -- A problem of the stored state is an error, so that nothing is called after it.
  have rejected {problem : Diagnostic} (isError : problem.isError = true)
      (same : storedProblem? resource.schema call.version stored = some problem) :
      JournalsThat (fun result => Ends server (.upgradeResourceState (some call))
        (some resource.schema, lookup) (Diagnostics.toWire (lookup ++ result.2))) id
        (pure (none, [problem]) : StateM σ Outcome) (pure (none, [problem])) world := by
    refine .of_pure id ⟨none, rfl, .of_idle_action rfl (found same) (.inl ?_)⟩ _
    rw [hasError_append, Bool.or_eq_true]
    exact .inr ((Bool.or_false _).trans isError)
  unfold storedProblem? at found rejected
  unfold upgradeStored
  cases parsed : Json.parseBytes stored with
  | error cause =>
      simp only [parsed] at rejected
      exact rejected rfl rfl
  | ok json =>
      simp only [parsed] at found rejected
      refine .ite (fun negative => ?_) fun valid => .ite (fun current => ?_) fun other => ?_
      · exact rejected rfl (if_pos negative)
      · rw [if_neg valid, if_pos current] at found rejected
        rw [Resource.journaled_schema]
        cases read : Value.ofJsonLenient resource.schema.valueType json with
        | ok value =>
            simp only [read] at found
            have idle := not_not.mpr current
            exact .of_pure id ⟨none, rfl, .of_idle_action rfl (found rfl) (.inr idle)⟩ _
        | error error =>
            simp only [read] at rejected
            exact rejected rfl rfl
      · rw [if_neg valid, if_neg other] at found
        refine .noted_bind ?_
        intro response
        have missing : Event.missingUpgrade call.version.toUInt64 =
            .error "Missing Upgraded Resource State"
              ("The resource's upgrade callback returned no state for version " ++
                decimalText call.version.toInt ++ ". This is always a bug in the provider.") := by
          rw [Event.missingUpgrade, toNat_toUInt64 valid]
        refine .ite (fun failed => ?_) fun succeeded => .ite (fun absent => ?_) fun present => ?_
        all_goals
          refine .of_pure id ⟨some _, rfl, .of_called_action rfl (found rfl)
            ((congrArg _ (List.append_nil _)).trans fine) other trivial ?_⟩ _
          simp only [Event.findings, Event.reported, Event.shortcomings, missing,
            Option.toList_none, List.append_nil]
          unfold andThen
        · rw [if_pos failed]
        · rw [if_neg succeeded, if_pos absent]
        · rw [if_neg succeeded, if_neg present, List.append_nil]

theorem follows_upgradeResourceState (call : Option Protocol.UpgradeStateRequest) :
    Follows server (.upgradeResourceState call) (·.diagnostics) id
      (server.upgradeResourceState call) (server.journaled.upgradeResourceState call) world := by
  cases call with
  | none => exact .of_nothing server world rfl rfl rfl
  | some call =>
      unfold upgradeResourceState
      by_cases nothing : (call.rawState.getD ByteArray.empty).isEmpty = true
      · have idle {m : Type → Type} [Monad m] (server : Server m δ) :
            server.approach (.upgradeResourceState (some call)) = pure (none, []) := if_pos nothing
        simp only [if_pos nothing]
        exact .of_nothing server world (idle _) (idle _) rfl
      · have approached {m : Type → Type} [Monad m] (server : Server m δ) :
            server.approach (.upgradeResourceState (some call)) =
              server.resourceSchema call.typeName := if_neg nothing
        simp only [if_neg nothing]
        refine .of_instance (makes_resource server call.typeName) Resource.journaled_schema
          (approached _) (approached _)
          (fun _ => ⟨_, rfl, rfl, rfl⟩) fun resource lookup world fine => ?_
        rcases server.ends_upgradeStored fine with ⟨events, journals, ends⟩
        exact ⟨events, journals.map fun _ => rfl, ends⟩

/-! ## All calls -/

/-- What the answer adds to a call changes nothing of its course. -/
theorem Follows.keep {server : Server (StateM σ) δ} {reported : α → List WireDiagnostic}
    {plain : StateM σ α} {journaled' : JournalM σ δ α}
    (follows : Follows server request reported id plain journaled' world)
    {wrap : α → Protocol.Response}
    (same : ∀ response, (wrap response).reported = reported response) :
    Follows server request (fun result => result.1.reported) (Prod.map id journaled)
      (answer.keep server wrap plain) (answer.keep server.journaled wrap journaled') world := by
  rcases follows with ⟨begun, callback, begins, unanswered, journals, course⟩
  refine ⟨begun, callback, begins, unanswered, journals.map fun _ => rfl, ?_⟩
  rw [← same] at course
  exact course

/-- A call begins with the schema it is about.  Then its callback is called at most once, and
exactly when nothing that was found before stands in the way and there is work for it.  What the
response reports is what was found: in making the schema or the instance, in the payloads, by the
schema, by the callback and behind it, in this order and on the wire as it was found. -/
theorem calls_report_all_findings (about : request.IsAboutSchema) (world : σ) :
    let found := outcome (server.approach request) world
    ∃ (begun : List (Event δ)) (callback : Option (Event δ)),
      Journals id (server.approach request) (server.journaled.approach request) world begun ∧
      (∀ event ∈ begun, ¬ event.Answers request) ∧
      Journals (Prod.map id journaled) (server.answer request) (server.journaled.answer request)
        world (begun ++ callback.toList) ∧
      Course server request found callback (outcome (server.answer request) world).1.reported := by
  change Follows server request (fun result => result.1.reported) (Prod.map id journaled)
    (server.answer request) (server.journaled.answer request) world
  cases request with
  | getProviderSchema => exact about.elim
  | validateProviderConfig call =>
      exact (server.follows_validateProviderConfig call).keep fun _ => rfl
  | configureProvider call => exact about.elim
  | validateResourceConfig call =>
      exact (server.follows_validateResourceConfig call).keep fun _ => rfl
  | validateDataSourceConfig call =>
      exact (server.follows_validateDataSourceConfig call).keep fun _ => rfl
  | upgradeResourceState call =>
      exact (server.follows_upgradeResourceState call).keep fun _ => rfl
  | readResource call => exact (server.follows_readResource call).keep fun _ => rfl
  | planResourceChange call =>
      exact (server.follows_planResourceChange call).keep fun _ => rfl
  | applyResourceChange call =>
      exact (server.follows_applyResourceChange call).keep fun _ => rfl
  | importResourceState call =>
      exact (server.follows_importResourceState call).keep fun _ => rfl
  | readDataSource call =>
      exact (server.follows_readDataSource call).keep fun _ => rfl
  | stopProvider => exact about.elim

/-- An import that the resource does not support is reported as the resource says, and nothing is
called behind that. -/
theorem import_of_modes_is_reported :
    let server : Server (StateM Unit) Unit := ofSchema "modes" modeSchema
    let request : Protocol.Request := .importResourceState (some { typeName := "modes", id := "a" })
    request.IsAboutSchema ∧ ∃ begun event,
      Journals (Prod.map id journaled) (server.answer request) (server.journaled.answer request) ()
        (begun ++ [event]) ∧
      (∀ earlier ∈ begun, ¬ earlier.Answers request) ∧ event.Answers request ∧
      (outcome (server.answer request) ()).1.reported = Diagnostics.toWire event.findings := by
  intro server request
  have about : request.IsAboutSchema := trivial
  have found : outcome (server.approach request) () = (some modeSchema, []) := by
    simp only [approach, request, resourceSchema, outcome_bind, server, resource_ofSchema]
    rfl
  rcases server.calls_report_all_findings about () with
    ⟨begun, callback, _, unanswered, journals, course⟩
  rw [found] at course
  have gate : server.gate modeSchema request = [] := rfl
  have called : callback.isSome := by
    refine course.runs_iff.mpr ⟨modeSchema, rfl, ?_, trivial⟩
    rw [gate]
    rfl
  rcases Option.isSome_iff_exists.mp called with ⟨event, rfl⟩
  have findings : server.findings modeSchema request = [] := rfl
  refine ⟨about, begun, event, journals, unanswered, course.answers event rfl, ?_⟩
  rw [course.reported_eq, Option.elim_some, Option.elim_some, findings]
  rfl

/-! A resource that has advice for every configuration, and whose configurations need a name. -/

def nameSchema : Schema where
  version := 0
  block := ⟨[("name", { type := .string, flags := { required := true } })], [], none⟩

def advice : Diagnostic :=
  .warning "Names Are Public" "Do not use the name of a person."

def host : Resource (StateM Unit) :=
  { Resource.plain nameSchema (fun _ response => pure response) (fun _ response => pure response)
      (fun _ response => pure response) (fun _ response => pure response) with
    validateConfig := fun _ => pure [advice] }

/-- A server with the resource. -/
def hosting : Server (StateM Unit) Unit where
  provider := { Provider.plain "test" "" (pure ⟨.empty 0, []⟩) (fun _ => pure ⟨none, []⟩) with
    resources := [ServedType.plain (fun _ => "host") nameSchema host] }

def nameless : Value :=
  .object [("name", .null)]

theorem resource_hosting : outcome (hosting.resource "host") () = (some host, []) := by
  have found : hosting.provider.findResource? "host" = some _ :=
    List.find?_cons_of_pos (beq_self_eq_true "host")
  unfold resource instantiate
  rw [found]
  rfl

theorem nameless_travels : Travels nameSchema nameless := by
  refine ⟨(Json.keyOrdered_iff.mpr rfl).readsBack ?_, rfl⟩
  simp [Json.maxDepth, nameless, Value.toJson, Value.toJsonMembers]

def missingName : Diagnostic :=
  .attributeError (Path.root "name") "Missing Configuration for Required Attribute"
    ("Must set a configuration value for the " ++ (Path.root "name").display ++
      " attribute as the provider has marked it as required.")

/-- Without a name the schema finds an error, and the advice is reported behind it. -/
theorem hosting_validates {call : Protocol.ConfigRequest} (named : call.typeName = "host")
    (holds : Holds nameSchema call.config nameless) :
    ∃ begun event,
      Journals id (hosting.validateResourceConfig (some call))
        (hosting.journaled.validateResourceConfig (some call)) () (begun ++ [event]) ∧
      event.Answers (.validateResourceConfig (some call)) ∧
      (outcome (hosting.validateResourceConfig (some call)) ()).diagnostics =
        Diagnostics.toWire [missingName, advice] := by
  have found : outcome (hosting.approach (.validateResourceConfig (some call))) () =
      (some nameSchema, []) := by
    simp only [approach, resourceSchema, outcome_bind, named, resource_hosting]
    rfl
  have gate : hosting.gate nameSchema (.validateResourceConfig (some call)) = [] := by
    simp [Server.gate, conversions, holds.payloadProblem?_eq_none]
  have validated : outcome (validatePayload nameSchema call.config host.validateConfig) () =
      [missingName, advice] := by
    unfold validatePayload
    rw [holds]
    rfl
  have response : (outcome (hosting.validateResourceConfig (some call)) ()).diagnostics =
      Diagnostics.toWire [missingName, advice] := by
    unfold validateResourceConfig
    rw [outcome_bind, named, resource_hosting]
    exact congrArg Diagnostics.toWire validated
  rcases hosting.follows_validateResourceConfig (some call) with
    ⟨begun, callback, _, _, journals, course⟩
  rw [found] at course
  have called : callback.isSome := by
    refine course.runs_iff.mpr ⟨nameSchema, rfl, ?_, trivial⟩
    rw [gate]
    rfl
  rcases Option.isSome_iff_exists.mp called with ⟨event, rfl⟩
  exact ⟨begun, event, journals, course.answers event rfl, response⟩

/-- A configuration that fails the validation of its schema is passed to the callback. -/
theorem validation_goes_on_after_error :
    let call : Protocol.ConfigRequest := { typeName := "host", config := some (.encode nameless) }
    nameSchema.validate nameless = [missingName] ∧ missingName.isError = true ∧
    ∃ begun event,
      Journals id (hosting.validateResourceConfig (some call))
        (hosting.journaled.validateResourceConfig (some call)) () (begun ++ [event]) ∧
      event.Answers (.validateResourceConfig (some call)) ∧
      (outcome (hosting.validateResourceConfig (some call)) ()).diagnostics =
        Diagnostics.toWire [missingName, advice] :=
  ⟨rfl, rfl, hosting_validates rfl nameless_travels.holds⟩

end Server
end ProviderKit

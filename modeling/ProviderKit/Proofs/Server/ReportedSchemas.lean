import Mathlib.Data.List.Induction
import ProviderKit.Proofs.Entries
import ProviderKit.Proofs.Testing.Plan

/-!
# Schemas that are reported and schemas that are used

A provider lists the types it serves, and nothing keeps it from listing two under one name.  The
names are resolved in three places: in the report of all schemas, in the look-up for a call, and
in the tester that plans a change.  All of them settle on the first type with the name, so that
what the host encodes by the reported schema is decoded by the same schema.  The report has the
further duty to complain about the other types with the name.
-/

namespace ProviderKit

variable {σ δ ι : Type}

/-! ## Repeated names -/

/-- The occurrences of names that are not the first ones, in the order of the list. -/
def repetitions (names : List String) : List String :=
  (names.zipIdx.filter fun (name, place) => name ∈ names.take place).map Prod.fst

theorem repetitions_concat (names : List String) (last : String) :
    repetitions (names ++ [last]) =
      repetitions names ++ (if last ∈ names then [last] else []) := by
  -- The names before a place are the same with a name at the end.
  have earlier : ∀ occurrence ∈ names.zipIdx,
      decide (occurrence.1 ∈ (names ++ [last]).take occurrence.2) =
        decide (occurrence.1 ∈ names.take occurrence.2) := by
    rintro ⟨name, place⟩ occurs
    have inside : place ≤ names.length := Nat.le_of_lt (List.snd_lt_of_mem_zipIdx occurs)
    rw [List.take_append_of_le_length inside]
  unfold repetitions
  rw [List.zipIdx_append, List.filter_append, List.map_append, List.filter_congr earlier]
  congr 1
  by_cases repeated : last ∈ names
  · simp [repeated]
  · simp [repeated]

/-- Every occurrence but the first one is a repetition. -/
theorem count_repetitions (names : List String) (name : String) :
    (repetitions names).count name = names.count name - 1 := by
  induction names using List.reverseRecOn with
  | nil => rfl
  | append_singleton names last inductionHypothesis =>
      rw [repetitions_concat, List.count_append, List.count_append, inductionHypothesis]
      by_cases same : last = name
      · subst same
        by_cases repeated : last ∈ names
        · have occurs := List.count_pos_iff.mpr repeated
          simp only [repeated, if_true, List.count_singleton_self]
          omega
        · simp [repeated, List.count_eq_zero_of_not_mem repeated]
      · split <;> simp [same]

/-! ## The first type with a name -/

namespace ServedType

variable {m : Type → Type}

/-- The first of the types that have a full name. -/
def IsFirst (provider name : String) (types : List (ServedType m δ ι))
    (served : ServedType m δ ι) : Prop :=
  ∃ earlier later, types = earlier ++ served :: later ∧ served.typeName provider = name ∧
    ∀ other ∈ earlier, other.typeName provider ≠ name

theorem isFirst_iff {provider name : String} {types : List (ServedType m δ ι)}
    {served : ServedType m δ ι} :
    IsFirst provider name types served ↔
      (types.find? fun served => served.typeName provider == name) = some served := by
  rw [List.find?_eq_some_iff_append]
  constructor
  · rintro ⟨earlier, later, listed, named, others⟩
    exact ⟨beq_iff_eq.mpr named, earlier, later, listed, fun other member => by
      simpa using others other member⟩
  · rintro ⟨named, earlier, later, listed, others⟩
    exact ⟨earlier, later, listed, beq_iff_eq.mp named, fun other member => by
      simpa using others other member⟩

/-- A full name that is listed belongs to a first type. -/
theorem exists_isFirst_iff {provider name : String} {types : List (ServedType m δ ι)} :
    (∃ served, IsFirst provider name types served) ↔
      name ∈ types.map fun served => served.typeName provider := by
  simp only [isFirst_iff, ← Option.isSome_iff_exists, List.find?_isSome, beq_iff_eq, List.mem_map]

/-- Whatever it is configured with, an instance of the type has the schema of the type. -/
def KeepsSchema (schemaOf : ι → Schema) (served : ServedType (StateM σ) δ ι) : Prop :=
  ∀ data world, schemaOf (outcome (served.configure data) world).1 = served.schema

end ServedType

namespace Server

/-! ## The report -/

section Report

variable {m : Type → Type} (provider : String) (duplicate : String → ProviderError)

section Last

variable {provider duplicate} {types : List (ServedType m δ ι)} {last : ServedType m δ ι}

/-- A type whose name is taken is complained about. -/
theorem reportSchemas_concat_of_mem
    (taken : last.typeName provider ∈ Entries.keys (reportSchemas provider duplicate types).1) :
    reportSchemas provider duplicate (types ++ [last]) =
      ((reportSchemas provider duplicate types).1, (reportSchemas provider duplicate types).2 ++
        [(duplicate (last.typeName provider)).toDiagnostic]) := by
  have contained : Entries.contains (last.typeName provider)
      (reportSchemas provider duplicate types).1 = true := Entries.find?_isSome_iff.mpr taken
  unfold reportSchemas at contained ⊢
  rw [List.foldl_append]
  exact if_pos contained

/-- A type with a new name is reported. -/
theorem reportSchemas_concat_of_not_mem
    (free : last.typeName provider ∉ Entries.keys (reportSchemas provider duplicate types).1) :
    reportSchemas provider duplicate (types ++ [last]) =
      (Entries.insert (last.typeName provider) last.schema.toWire
          (reportSchemas provider duplicate types).1,
        (reportSchemas provider duplicate types).2) := by
  have uncontained : ¬ Entries.contains (last.typeName provider)
      (reportSchemas provider duplicate types).1 = true := mt Entries.find?_isSome_iff.mp free
  unfold reportSchemas at uncontained ⊢
  rw [List.foldl_append]
  exact if_neg uncontained

end Last

theorem sorted_reportSchemas (types : List (ServedType m δ ι)) :
    Entries.Sorted (reportSchemas provider duplicate types).1 := by
  induction types using List.reverseRecOn with
  | nil => exact List.Pairwise.nil
  | append_singleton types last inductionHypothesis =>
      by_cases taken : last.typeName provider ∈
          Entries.keys (reportSchemas provider duplicate types).1
      · rw [reportSchemas_concat_of_mem taken]
        exact inductionHypothesis
      · rw [reportSchemas_concat_of_not_mem taken]
        exact inductionHypothesis.insert _ _

/-- The schema under a name is that of the first type with the name. -/
theorem find?_reportSchemas (types : List (ServedType m δ ι)) (name : String) :
    Entries.find? name (reportSchemas provider duplicate types).1 =
      (types.find? fun served => served.typeName provider == name).map
        fun served => served.schema.toWire := by
  -- The report grows at its end, and so does the induction.
  induction types using List.reverseRecOn with
  | nil => rfl
  | append_singleton types last inductionHypothesis =>
      rw [List.find?_append, Option.map_or, ← inductionHypothesis]
      by_cases taken : last.typeName provider ∈
          Entries.keys (reportSchemas provider duplicate types).1
      · rw [reportSchemas_concat_of_mem taken]
        by_cases named : last.typeName provider = name
        · rcases Entries.exists_find? (named ▸ taken) with ⟨schema, found⟩
          rw [found, Option.some_or]
        · simp [named]
      · rw [reportSchemas_concat_of_not_mem taken]
        by_cases named : last.typeName provider = name
        · subst named
          rw [Entries.find?_insert_self, Entries.find?_eq_none_iff.mpr taken, Option.none_or]
          simp
        · rw [Entries.find?_insert_of_ne (Ne.symm named)]
          simp [named]

theorem mem_keys_reportSchemas (types : List (ServedType m δ ι)) (name : String) :
    name ∈ Entries.keys (reportSchemas provider duplicate types).1 ↔
      name ∈ types.map fun served => served.typeName provider := by
  rw [← Entries.find?_isSome_iff, find?_reportSchemas, Option.isSome_map, List.find?_isSome]
  simp

/-- There is one complaint for each repetition of a name. -/
theorem problems_reportSchemas (types : List (ServedType m δ ι)) :
    (reportSchemas provider duplicate types).2 =
      (repetitions (types.map fun served => served.typeName provider)).map
        fun name => (duplicate name).toDiagnostic := by
  induction types using List.reverseRecOn with
  | nil => rfl
  | append_singleton types last inductionHypothesis =>
      rw [List.map_append, List.map_singleton, repetitions_concat, List.map_append,
        ← inductionHypothesis]
      have reported := mem_keys_reportSchemas provider duplicate types (last.typeName provider)
      by_cases taken : last.typeName provider ∈ types.map fun served => served.typeName provider
      · rw [reportSchemas_concat_of_mem (reported.mpr taken), if_pos taken]
        rfl
      · rw [reportSchemas_concat_of_not_mem (mt reported.mp taken), if_neg taken, List.map_nil,
          List.append_nil]

end Report

/-! ## The three places -/

/-- The schemas that are reported are those of the instances that answer calls, and no name is
served but those that are reported. -/
structure SchemasAgree (server : Server (StateM σ) δ) (types : List (ServedType (StateM σ) δ ι))
    (schemaOf : ι → Schema) (lookup : String → StateM σ (Option ι × Diagnostics))
    (unknown : String → ProviderError) (schemas : List (String × WireSchema)) : Prop where
  sorted : Entries.Sorted schemas
  reported_iff : ∀ name, name ∈ Entries.keys schemas ↔
    name ∈ types.map fun served => served.typeName server.provider.typeName
  served_iff : ∀ name, name ∈ Entries.keys schemas ↔
    ∃ served, ServedType.IsFirst server.provider.typeName name types served
  /-- A call for the name goes to the first type with the name. -/
  dispatched : ∀ name served, ServedType.IsFirst server.provider.typeName name types served →
    lookup name = server.instantiate (some served) (unknown name)
  /-- The schema under a name is that of the type and of all its instances. -/
  schema : ∀ name served, ServedType.IsFirst server.provider.typeName name types served →
    Entries.find? name schemas = some served.schema.toWire ∧
    ∀ world inst, (outcome (lookup name) world).1 = some inst → schemaOf inst = served.schema
  unserved : ∀ name, name ∉ Entries.keys schemas →
    lookup name = pure (none, [(unknown name).toDiagnostic])

/-- An instance that is handed on has the schema of its type. -/
theorem schema_of_instantiate {server : Server (StateM σ) δ} {schemaOf : ι → Schema}
    {served : ServedType (StateM σ) δ ι} (keeps : served.KeepsSchema schemaOf)
    {unknown : ProviderError} {world : σ} {inst : ι}
    (made : (outcome (server.instantiate (some served) unknown) world).1 = some inst) :
    schemaOf inst = served.schema := by
  unfold instantiate at made
  simp only [outcome_bind, outcome_pure] at made
  split at made
  · cases made
  · cases made
    exact keeps _ _

/-- A look-up that takes the first type with a name agrees with the report. -/
theorem schemasAgree_reportSchemas (server : Server (StateM σ) δ)
    {types : List (ServedType (StateM σ) δ ι)} {schemaOf : ι → Schema}
    (keeps : ∀ served ∈ types, served.KeepsSchema schemaOf)
    {lookup : String → StateM σ (Option ι × Diagnostics)} {unknown : String → ProviderError}
    (looksUp : ∀ name, lookup name = server.instantiate
      (types.find? fun served => served.typeName server.provider.typeName == name) (unknown name))
    (duplicate : String → ProviderError) :
    server.SchemasAgree types schemaOf lookup unknown
      (reportSchemas server.provider.typeName duplicate types).1 where
  sorted := sorted_reportSchemas ..
  reported_iff := mem_keys_reportSchemas _ _ types
  served_iff name := by
    rw [mem_keys_reportSchemas, ServedType.exists_isFirst_iff]
  dispatched name served isFirst := by
    rw [looksUp, ServedType.isFirst_iff.mp isFirst]
  schema name served isFirst := by
    have found := ServedType.isFirst_iff.mp isFirst
    refine ⟨?_, fun world inst made => ?_⟩
    · rw [find?_reportSchemas, found]
      rfl
    · rw [looksUp, found] at made
      exact schema_of_instantiate (keeps served (List.mem_of_find?_eq_some found)) made
  unserved name unreported := by
    rw [← Entries.find?_eq_none_iff, find?_reportSchemas, Option.map_eq_none_iff] at unreported
    rw [looksUp, unreported]
    rfl

end Server

namespace Tester

variable {m : Type → Type} [Monad m]

/-- A plan in which documents are decoded and the new state is proposed by a schema. -/
def planWith (schema : Schema) (typeName : String) (prior config : Option Json) :
    Tester m δ PlannedChange := do
  let prior ← decode schema.valueType prior
  let config ← decode schema.valueType config
  let proposed := schema.propose prior config
  let response ← ask fun server => server.planResourceChange (some {
    typeName
    priorState := some (.encode prior)
    proposedNewState := some (.encode proposed)
    config := some (.encode config) })
  let diagnostics ← check response.diagnostics
  let plannedState ← document response.plannedState
  pure { plannedState, requiresReplace := response.requiresReplace.map Path.ofWire, diagnostics }

/-- A plan is made by the schema of the first resource with the name. -/
theorem run_plan (server : Server (StateM σ) δ) (typeName : String)
    (prior config : Option Json) :
    run (plan typeName prior config) server =
      match server.provider.findResource? typeName with
      | some served => run (planWith served.schema typeName prior config) server
      | none => pure (.error (.provider (.unknownResource typeName)), server) := by
  have asked : run (get : Tester (StateM σ) δ (Server (StateM σ) δ)) server =
      pure (.ok server, server) := rfl
  unfold plan
  rw [run_bind, asked, pure_bind]
  dsimp only
  cases server.provider.findResource? typeName <;> rfl

end Tester

namespace Server

/-- A provider reports all schemas of its resources and data sources, before and after it has been
configured, as they are used.  Every name that is repeated is complained about, once for each
repetition, and the complaints are in the order of the lists. -/
theorem reported_schemas_are_dispatched (provider : Provider (StateM σ) δ)
    (resourcesKeep : ∀ served ∈ provider.resources, served.KeepsSchema Resource.schema)
    (dataSourcesKeep : ∀ served ∈ provider.dataSources, served.KeepsSchema DataSource.schema)
    (asked called : Option δ) (world : σ) :
    let server : Server (StateM σ) δ := ⟨provider, called⟩
    let response := outcome (Server.mk provider asked).getProviderSchema world
    server.SchemasAgree provider.resources Resource.schema server.resource .unknownResource
      response.resourceSchemas ∧
    server.SchemasAgree provider.dataSources DataSource.schema server.dataSource
      .unknownDataSource response.dataSourceSchemas ∧
    (∀ name served, ServedType.IsFirst provider.typeName name provider.resources served →
      ∀ prior config, Tester.run (Tester.plan name prior config) server =
        Tester.run (Tester.planWith served.schema name prior config) server) ∧
    (∀ name, name ∉ Entries.keys response.resourceSchemas →
      ∀ prior config, Tester.run (Tester.plan name prior config) server =
        pure (.error (.provider (.unknownResource name)), server)) ∧
    response.diagnostics = Diagnostics.toWire ((outcome provider.schema world).diagnostics ++
      (repetitions provider.resourceTypes).map (fun name =>
        ProviderError.toDiagnostic (.duplicateResource name)) ++
      (repetitions provider.dataSourceTypes).map (fun name =>
        ProviderError.toDiagnostic (.duplicateDataSource name))) ∧
    ∀ name,
      (repetitions provider.resourceTypes).count name = provider.resourceTypes.count name - 1 ∧
      (repetitions provider.dataSourceTypes).count name =
        provider.dataSourceTypes.count name - 1 := by
  intro server response
  have resources : server.SchemasAgree provider.resources Resource.schema server.resource
      .unknownResource response.resourceSchemas :=
    server.schemasAgree_reportSchemas resourcesKeep (fun _ => rfl) .duplicateResource
  have dataSources : server.SchemasAgree provider.dataSources DataSource.schema
      server.dataSource .unknownDataSource response.dataSourceSchemas :=
    server.schemasAgree_reportSchemas dataSourcesKeep (fun _ => rfl) .duplicateDataSource
  refine ⟨resources, dataSources, ?_, ?_, ?_, fun name =>
    ⟨count_repetitions _ name, count_repetitions _ name⟩⟩
  · intro name served isFirst prior config
    have found : server.provider.findResource? name = some served :=
      ServedType.isFirst_iff.mp isFirst
    rw [Tester.run_plan, found]
  · intro name unreported prior config
    have absent : server.provider.findResource? name = none := by
      by_contra present
      rcases Option.ne_none_iff_exists'.mp present with ⟨served, found⟩
      exact unreported ((resources.served_iff name).mpr ⟨served, ServedType.isFirst_iff.mpr found⟩)
    rw [Tester.run_plan, absent]
  · change Diagnostics.toWire ((outcome provider.schema world).diagnostics ++
      (reportSchemas provider.typeName .duplicateResource provider.resources).2 ++
      (reportSchemas provider.typeName .duplicateDataSource provider.dataSources).2) = _
    rw [problems_reportSchemas, problems_reportSchemas]
    rfl

/-! A provider with two resources and two data sources of one name. -/

/-- A type of resources that do nothing. -/
def idleResource (name : String) (version : UInt64) : ResourceType (StateM Unit) Unit :=
  ServedType.plain (· ++ name) (.empty version)
    (Resource.plain (.empty version) (fun _ response => pure response)
      (fun _ response => pure response) (fun _ response => pure response)
      (fun _ response => pure response))

def idleDataSource (name : String) (version : UInt64) : DataSourceType (StateM Unit) Unit :=
  ServedType.plain (· ++ name) (.empty version)
    (DataSource.plain (.empty version) fun _ response => pure response)

def cloud : Provider (StateM Unit) Unit :=
  { Provider.plain "cloud" "" (pure ⟨.empty 0, []⟩) (fun _ => pure ⟨none, []⟩) with
    resources := [idleResource "_volume" 1, idleResource "_network" 1, idleResource "_volume" 2]
    dataSources := [idleDataSource "_image" 1, idleDataSource "_image" 2] }

/-- The first volumes are reported and used, and each second type is complained about. -/
theorem schemas_of_cloud_are_dispatched :
    let server : Server (StateM Unit) Unit := ⟨cloud, some ()⟩
    let response := outcome (Server.mk cloud none).getProviderSchema ()
    (∀ served ∈ cloud.resources, served.KeepsSchema Resource.schema) ∧
    (∀ served ∈ cloud.dataSources, served.KeepsSchema DataSource.schema) ∧
    Entries.find? "cloud_volume" response.resourceSchemas = some (Schema.empty 1).toWire ∧
    (∀ world resource, (outcome (server.resource "cloud_volume") world).1 = some resource →
      resource.schema = Schema.empty 1) ∧
    response.diagnostics = Diagnostics.toWire
      [ProviderError.toDiagnostic (.duplicateResource "cloud_volume"),
        ProviderError.toDiagnostic (.duplicateDataSource "cloud_image")] := by
  intro server response
  have resourcesKeep : ∀ served ∈ cloud.resources, served.KeepsSchema Resource.schema := by
    simp [cloud, idleResource, ServedType.plain, ServedType.KeepsSchema, Resource.plain]
  have dataSourcesKeep : ∀ served ∈ cloud.dataSources, served.KeepsSchema DataSource.schema := by
    simp [cloud, idleDataSource, ServedType.plain, ServedType.KeepsSchema, DataSource.plain]
  rcases reported_schemas_are_dispatched cloud resourcesKeep dataSourcesKeep none (some ()) () with
    ⟨resources, _, _, _, reported, _⟩
  have isFirst : ServedType.IsFirst "cloud" "cloud_volume" cloud.resources
      (idleResource "_volume" 1) := ⟨[], _, rfl, rfl, nofun⟩
  have volumes : repetitions cloud.resourceTypes = ["cloud_volume"] := rfl
  have images : repetitions cloud.dataSourceTypes = ["cloud_image"] := rfl
  rw [volumes, images] at reported
  rcases resources.schema _ _ isFirst with ⟨found, same⟩
  exact ⟨resourcesKeep, dataSourcesKeep, found, same, reported⟩

end Server
end ProviderKit

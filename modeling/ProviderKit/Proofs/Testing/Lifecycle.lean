import ProviderKit.Proofs.Testing.Stages

/-!
# The lifecycle of a resource under test

A tester creates a resource, updates it and deletes it, and refreshes it after each of the first two
changes.  Which callbacks run is not up to the tester, though: the server decides it by the states
it has decoded, and a plan may be modified into anything.  A lifecycle that succeeds has all the
same run every callback once, in the order of its stages, and has handed each state on to the next
callback that needs one.

A response with an error ends the lifecycle, so that nothing is called behind it.
-/

namespace ProviderKit
namespace Tester

variable {σ δ : Type} {server : Server (StateM σ) δ} {typeName : String} {world : σ}

/-- What a callback has left is what another one is given, by way of a document. -/
def Threads (left : Value) (given : State) : Prop :=
  ∃ document, Leaves left document ∧ Gives document given

/-- A document that reads back is handed on as the value that it decodes to. -/
theorem Threads.decoded {left : Value} {given : State} (threads : Threads left given)
    (readsBack : left.toJson.ReadsBack) :
    Value.ofJson given.schema.valueType left.toJson = .ok given.raw := by
  rcases threads with ⟨document, ⟨read, nonnull⟩, received⟩
  rw [readDocument_encode readsBack] at read
  cases read
  exact (DynamicValue.decode_ofText readsBack _).symm.trans (decode_of_received received)

/-- The callbacks of a lifecycle that has given a state. -/
inductive Lived (state : Json) : List (Event δ) → Prop
  | intro {create : CreateRequest} {update : UpdateRequest}
      {firstRead secondRead delete : StateRequest}
      {createStart created firstStart first updateStart updated secondStart second deleteStart
        deleted : StateResponse}
      (refreshesCreated : Threads created.state.raw firstRead.state)
      (updatesFirst : Threads first.state.raw update.state)
      (refreshesUpdated : Threads updated.state.raw secondRead.state)
      (gives : Leaves second.state.raw state) (deletesSecond : Gives state delete.state) :
      Lived state [.created create createStart created, .refreshed firstRead firstStart first,
        .updated update updateStart updated, .refreshed secondRead secondStart second,
        .deleted delete deleteStart deleted]

/-! ## The parts of a lifecycle -/

/-- A state that an operation must have given is there, or the lifecycle ends. -/
theorem Passes.expect_bind {β : Type} {stages : List Stage} {operation : String}
    {found : Option Json} {property : β → List (Exchange δ) → Prop}
    {next : Json → Tester (StateM σ) δ β} {journaledNext : Json → Tester (JournalM σ δ) δ β}
    (later : ∀ state, found = some state →
      Passes server stages property (next state) (journaledNext state) world) :
    Passes server stages property (expectState operation found >>= next)
      (expectState operation found >>= journaledNext) world := by
  cases found with
  | none => exact (of_failure stages property world _).of_run_eq rfl fun _ => rfl
  | some state => exact (later state rfl).of_run_eq rfl fun _ => rfl

theorem Passes.of_expected {operation : String} {found : Option Json}
    {property : Json → List (Exchange δ) → Prop} (holds : ∀ state, found = some state →
      property state []) :
    Passes server [] property (expectState operation found) (expectState operation found)
      world := by
  cases found with
  | none => exact of_failure [] property world _
  | some state => exact of_pure (holds state rfl) world

/-- A creation that succeeds creates the resource and reads what has been created. -/
theorem passes_lifecycleCreate (server : Server (StateM σ) δ) (typeName : String) (config : Json)
    (world : σ) :
    Passes server [.plan, .apply, .refresh]
      (fun state calls => ∃ create start created asked begun left,
        Exchange.lifecycle calls = [.created create start created, .refreshed asked begun left] ∧
        Threads created.state.raw asked.state ∧ Leaves left.state.raw state)
      (lifecycleCreate typeName config) (lifecycleCreate typeName config) world := by
  refine .bind [.apply, .refresh] (passes_plan server typeName none (some config) world)
    fun planned plans afterPlan quiet => ?_
  refine .bind [.refresh] (passes_apply server typeName none planned config afterPlan)
    fun found applications afterApply applied => .expect_bind ?_
  rintro document rfl
  rcases applied.created with ⟨create, start, created, callback, leaves⟩
  refine .bind [] (passes_read server typeName leaves.2 afterApply)
    fun found refreshes afterRead refreshed => .of_expected fun state given => ?_
  rcases refreshed state given with ⟨asked, begun, left, read, gives, last⟩
  refine ⟨create, start, created, asked, begun, left, ?_, ⟨document, leaves, gives⟩, last⟩
  simp [quiet, callback, read]

/-- An update that succeeds updates the resource and reads what has been updated. -/
theorem passes_lifecycleUpdate (server : Server (StateM σ) δ) (typeName : String)
    {prior : Json} (nonnull : prior ≠ .null) (config : Json) (world : σ) :
    Passes server [.plan, .apply, .refresh]
      (fun state calls => ∃ update start updated asked begun left,
        Exchange.lifecycle calls = [.updated update start updated, .refreshed asked begun left] ∧
        Gives prior update.state ∧ Threads updated.state.raw asked.state ∧
        Leaves left.state.raw state)
      (lifecycleUpdate typeName prior config) (lifecycleUpdate typeName prior config) world := by
  refine .bind [.apply, .refresh] (passes_plan server typeName (some prior) (some config) world)
    fun planned plans afterPlan quiet => ?_
  refine .bind [.refresh]
    (passes_apply server typeName (some prior) planned config afterPlan)
    fun found applications afterApply applied => .expect_bind ?_
  rintro document rfl
  rcases applied.updated nonnull with ⟨update, start, updated, callback, given, leaves⟩
  refine .bind [] (passes_read server typeName leaves.2 afterApply)
    fun found refreshes afterRead refreshed => .of_expected fun state given => ?_
  rcases refreshed state given with ⟨asked, begun, left, read, gives, last⟩
  refine ⟨update, start, updated, asked, begun, left, ?_, ‹_›, ⟨document, leaves, gives⟩, last⟩
  simp [quiet, callback, read]

/-- A deletion that succeeds deletes the resource. -/
theorem passes_lifecycleDelete (server : Server (StateM σ) δ) (typeName : String)
    {current : Json} (nonnull : current ≠ .null) (world : σ) :
    Passes server [.plan, .apply]
      (fun _ calls => ∃ delete start deleted,
        Exchange.lifecycle calls = [.deleted delete start deleted] ∧ Gives current delete.state)
      (lifecycleDelete typeName current) (lifecycleDelete typeName current) world := by
  refine .bind [.apply] (passes_plan server typeName (some current) none world)
    fun planned plans afterPlan quiet => ?_
  refine .bind []
    (passes_apply server typeName (some current) planned .null afterPlan)
    fun found applications afterApply applied => ?_
  cases found with
  | some state => exact .of_failure [] _ _ _
  | none =>
      rcases applied.deleted nonnull with ⟨delete, start, deleted, callback, gives⟩
      refine .of_pure ⟨delete, start, deleted, ?_, gives⟩ _
      simp [quiet, callback]

def lifecycleStages : List Stage :=
  [.plan, .apply, .refresh, .plan, .apply, .refresh, .plan, .apply]

theorem passes_lifecycle (server : Server (StateM σ) δ) (typeName : String)
    (config updated : Json) (world : σ) :
    Passes server lifecycleStages (fun state calls => Lived state (Exchange.lifecycle calls))
      (lifecycle typeName config updated) (lifecycle typeName config updated) world := by
  refine .bind [.plan, .apply, .refresh, .plan, .apply]
    (passes_lifecycleCreate server typeName config world) ?_
  rintro firstState creation afterCreation
    ⟨create, createStart, created, firstRead, firstStart, first, creates, threads, firstLeaves⟩
  refine .bind [.plan, .apply]
    (passes_lifecycleUpdate server typeName firstLeaves.2 updated afterCreation) ?_
  rintro state change afterChange
    ⟨update, updateStart, updated, secondRead, secondStart, second, updates, gives, threadsOn,
      secondLeaves⟩
  refine .bind []
    (passes_lifecycleDelete server typeName secondLeaves.2 afterChange) ?_
  rintro ⟨⟩ deletion afterDeletion ⟨delete, deleteStart, deleted, deletes, givesOn⟩
  refine .of_pure ?_ _
  simp only [Exchange.lifecycle_append, List.append_nil, creates, updates, deletes]
  exact .intro threads ⟨firstState, firstLeaves, gives⟩ threadsOn secondLeaves givesOn

/-- All that a lifecycle asks of the provider is asked in calls that the server answers in a row.
They belong to the stages of a lifecycle, and only the last one may have an error.  A lifecycle that
gives a state has created, read, updated, read and deleted the resource, once each and in this
order, and has handed each state on to the next callback. -/
theorem lifecycle_threads_state (server : Server (StateM σ) δ) (typeName : String)
    (config updated : Json) (world : σ) :
    let test {m : Type → Type} [Monad m] : Tester m δ Json := lifecycle typeName config updated
    ∃ calls : List (Exchange δ),
      Exchange.Answered server world calls (worldAfter (run test server) world) ∧
      Journals (Prod.map id Server.journaled) (run test server) (run test server.journaled) world
        (calls.flatMap Exchange.events) ∧
      Exchange.stages calls <+: lifecycleStages.map some ∧
      (∀ call ∈ calls.dropLast, call.Fine) ∧
      ∀ state, (outcome (run test server) world).1 = .ok state →
        Lived state (Exchange.lifecycle calls) := by
  intro test
  rcases passes_lifecycle server typeName config updated world with
    ⟨result, calls, after, performs, within, success⟩
  have ended : worldAfter (run test server) world = after := congrArg Prod.snd performs.run_eq
  have gave : (outcome (run test server) world).1 = result :=
    congrArg (fun run => run.1.1) performs.run_eq
  refine ⟨calls, ended ▸ performs.answered, performs.journals, within, performs.settled, ?_⟩
  intro state succeeded
  exact (success state (gave.symm.trans succeeded)).2

/-! A resource whose callbacks leave their marks in its state. -/

def traceSchema : Schema where
  version := 0
  block :=
    ⟨[("trace", { type := .string, flags := { optional := true, computed := true } })], [], none⟩

/-- The response with a mark behind those that a state has been given with. -/
def leaveMark (given : State) (mark : String) (response : StateResponse) : StateResponse :=
  match given.raw.attributeNamed "trace" with
  | .string marks => response.set [.name "trace"] (.string (marks ++ mark))
  | _ => response.set [.name "trace"] (.string mark)

def traceServer : Server (StateM Unit) Unit where
  provider := { Provider.plain "test" "" (pure ⟨.empty 0, []⟩) (fun _ => pure ⟨none, []⟩) with
    resources := [ServedType.plain (fun _ => "trace") traceSchema
      (Resource.plain traceSchema
        (fun _ response => pure (leaveMark (.null traceSchema) "c" response))
        (fun request response => pure (leaveMark request.state "r" response))
        (fun request response => pure (leaveMark request.state "u" response))
        (fun _ response => pure response))] }

/-- A configuration that leaves the marks to the provider. -/
def unmarkedConfig : Json :=
  .object [("trace", .null)]

/-- The marks in a state that a lifecycle gives. -/
def givenMarks? : Except TestError Json → Option String
  | .ok (.object [("trace", .string marks)]) => some marks
  | _ => none

theorem givenMarks?_eq_some {given : Except TestError Json} {marks : String}
    (found : givenMarks? given = some marks) :
    given = .ok (.object [("trace", .string marks)]) := by
  unfold givenMarks? at found
  split at found
  · cases found
    rfl
  · cases found

/-- Each callback adds its mark to the state that the one before it has left. -/
theorem lifecycle_threads_marks :
    let test {m : Type → Type} [Monad m] : Tester m Unit Json :=
      lifecycle "trace" unmarkedConfig unmarkedConfig
    ∃ calls : List (Exchange Unit),
      Journals (Prod.map id Server.journaled) (run test traceServer)
        (run test traceServer.journaled) () (calls.flatMap Exchange.events) ∧
      Lived (.object [("trace", .string "crur")]) (Exchange.lifecycle calls) := by
  intro test
  have traced : givenMarks? (outcome (run test traceServer) ()).1 = some "crur" := by
    decide +kernel
  rcases lifecycle_threads_state traceServer "trace" unmarkedConfig unmarkedConfig () with
    ⟨calls, _, journals, _, _, lived⟩
  exact ⟨calls, journals, lived _ (givenMarks?_eq_some traced)⟩

end Tester
end ProviderKit

import ProviderKit.Proofs.Server.Findings
import ProviderKit.Proofs.Testing.Plan

/-!
# The calls that a tester makes

An operation of a tester is a number of calls to the server, with documents read and written in
between.  Everything that is asked of the provider is asked in one of these calls, and the first
response with an error is the last one: no call is made behind it.

`Passes` says this of an operation, with the stages that it goes through when nothing fails and
what is known of its calls when nothing has failed.  Operations that follow each other pass through
the stages of both.
-/

namespace ProviderKit

/-- A call to a server: what was asked, what came back, and what the provider was asked for it. -/
structure Exchange (δ : Type) where
  request : Protocol.Request
  response : Protocol.Response
  events : List (Event δ)

/-- The calls by which a tester changes a resource or looks at it. -/
inductive Stage where
  | plan
  | apply
  | refresh
deriving DecidableEq

def Protocol.Request.stage? : Request → Option Stage
  | planResourceChange _ => some .plan
  | applyResourceChange _ => some .apply
  | readResource _ => some .refresh
  | _ => none

variable {σ δ α β ρ : Type}

namespace Exchange

def stages (calls : List (Exchange δ)) : List (Option Stage) :=
  calls.map fun call => call.request.stage?

/-- The response reports no error. -/
def Fine (call : Exchange δ) : Prop :=
  Diagnostics.hasError (call.response.reported.map Diagnostic.ofWire) = false

/-- In a world the server answers the request with the response, and this is all that the provider
is asked for it. -/
structure Occurs (call : Exchange δ) (server : Server (StateM σ) δ) (world : σ) : Prop where
  responds : (outcome (server.answer call.request) world).1 = call.response
  journals : Journals (Prod.map id Server.journaled) (server.answer call.request)
    (server.journaled.answer call.request) world call.events

/-- Calls that are answered in a row, from one world to another. -/
inductive Answered (server : Server (StateM σ) δ) : σ → List (Exchange δ) → σ → Prop
  | none (world : σ) : Answered server world [] world
  | next {call : Exchange δ} {rest : List (Exchange δ)} {world last : σ}
      (first : call.Occurs server world)
      (later : Answered server (worldAfter (server.answer call.request) world) rest last) :
      Answered server world (call :: rest) last

theorem Answered.append {server : Server (StateM σ) δ} {world middle last : σ}
    {earlier later : List (Exchange δ)} (first : Answered server world earlier middle)
    (second : Answered server middle later last) :
    Answered server world (earlier ++ later) last := by
  induction first with
  | none => exact second
  | next occurs _ inductionHypothesis => exact .next occurs (inductionHypothesis second)

end Exchange

namespace Tester

open Exchange

/-! ## A question and the check of its answer -/

section Questions

variable {server : Server (StateM σ) δ} {world : σ} {question : Server (StateM σ) δ → StateM σ ρ}
  {wire : List WireDiagnostic}

theorem run_ask_bind (next : ρ → Tester (StateM σ) δ β) :
    StateT.run (run (ask question >>= next) server) world =
      StateT.run (run (next (outcome (question server) world)) server)
        (worldAfter (question server) world) :=
  rfl

theorem run_ask_bind_journaled {journaledQuestion : Server (JournalM σ δ) δ → JournalM σ δ ρ}
    {events : List (Event δ)}
    (asked : Journals id (question server) (journaledQuestion server.journaled) world events)
    (next : ρ → Tester (JournalM σ δ) δ β) (journal : List (Event δ)) :
    StateT.run (run (ask journaledQuestion >>= next) server.journaled) (world, journal) =
      StateT.run (run (next (outcome (question server) world)) server.journaled)
        (worldAfter (question server) world, journal ++ events) := by
  have answered : StateT.run (run (ask journaledQuestion) server.journaled) (world, journal) =
      ((.ok (outcome (question server) world), server.journaled),
        (worldAfter (question server) world, journal ++ events)) :=
    congrArg (fun result : ρ × σ × List (Event δ) =>
      ((Except.ok (ε := TestError) result.1, server.journaled), result.2)) (asked journal)
  rw [run_bind, StateT.run_bind, answered]
  rfl

variable {m : Type → Type} [Monad m]

theorem check_of_hasError (failed : Diagnostics.hasError (wire.map Diagnostic.ofWire) = true) :
    (check wire : Tester m δ Diagnostics) = throw (.diagnostics (wire.map Diagnostic.ofWire)) :=
  if_pos failed

theorem check_of_fine (fine : Diagnostics.hasError (wire.map Diagnostic.ofWire) = false) :
    (check wire : Tester m δ Diagnostics) = pure (wire.map Diagnostic.ofWire) :=
  if_neg (Bool.eq_false_iff.mp fine)

end Questions

/-! ## Operations -/

/-- The operation makes these calls and no other, keeps the server, and ends in the world with the
result.  Only the last response may report an error, and then there is no result. -/
structure Performs (server : Server (StateM σ) δ) (plain : Tester (StateM σ) δ α)
    (journaled : Tester (JournalM σ δ) δ α) (world : σ) (result : Except TestError α)
    (calls : List (Exchange δ)) (after : σ) : Prop where
  run_eq : StateT.run (run plain server) world = ((result, server), after)
  journaled_eq : ∀ journal, StateT.run (run journaled server.journaled) (world, journal) =
    ((result, server.journaled), (after, journal ++ calls.flatMap Exchange.events))
  answered : Answered server world calls after
  settled : ∀ call ∈ calls.dropLast, call.Fine
  clean : ∀ value, result = .ok value → ∀ call ∈ calls, call.Fine

namespace Performs

variable {server : Server (StateM σ) δ} {world after last : σ} {failure : TestError}
  {first : Tester (StateM σ) δ α} {journaledFirst : Tester (JournalM σ δ) δ α}
  {next : α → Tester (StateM σ) δ β} {journaledNext : α → Tester (JournalM σ δ) δ β}
  {calls later : List (Exchange δ)}

/-- An operation that makes no call. -/
theorem none {plain : Tester (StateM σ) δ α} {journaled : Tester (JournalM σ δ) δ α}
    {result : Except TestError α}
    (runs : StateT.run (run plain server) world = ((result, server), world))
    (runsAgain : ∀ journal, StateT.run (run journaled server.journaled) (world, journal) =
      ((result, server.journaled), (world, journal))) :
    Performs server plain journaled world result [] world where
  run_eq := runs
  journaled_eq journal := by
    rw [List.flatMap_nil, List.append_nil]
    exact runsAgain journal
  answered := .none world
  settled := List.forall_mem_nil _
  clean _ _ := List.forall_mem_nil _

/-- An operation that fails behind its only call. -/
theorem single {plain : Tester (StateM σ) δ α} {journaled : Tester (JournalM σ δ) δ α}
    {call : Exchange δ} (occurs : call.Occurs server world)
    (runs : StateT.run (run plain server) world =
      ((.error failure, server), worldAfter (server.answer call.request) world))
    (runsAgain : ∀ journal, StateT.run (run journaled server.journaled) (world, journal) =
      ((.error failure, server.journaled),
        (worldAfter (server.answer call.request) world, journal ++ call.events))) :
    Performs server plain journaled world (.error failure) [call]
      (worldAfter (server.answer call.request) world) where
  run_eq := runs
  journaled_eq journal := by
    rw [List.flatMap_singleton]
    exact runsAgain journal
  answered := .next occurs (.none _)
  settled := List.forall_mem_nil _
  clean _ success := by cases success

/-- Nothing follows a failure. -/
theorem bind_error
    (failed : Performs server first journaledFirst world (.error failure) calls after) :
    Performs server (first >>= next) (journaledFirst >>= journaledNext) world (.error failure)
      calls after where
  run_eq := by
    rw [run_bind, StateT.run_bind, failed.run_eq]
    rfl
  journaled_eq journal := by
    rw [run_bind, StateT.run_bind, failed.journaled_eq]
    rfl
  answered := failed.answered
  settled := failed.settled
  clean _ success := by cases success

/-- What follows a result makes its calls behind those that were made for it. -/
theorem bind_ok {value : α} {result : Except TestError β}
    (begun : Performs server first journaledFirst world (.ok value) calls after)
    (further : Performs server (next value) (journaledNext value) after result later last) :
    Performs server (first >>= next) (journaledFirst >>= journaledNext) world result
      (calls ++ later) last where
  run_eq := by
    rw [run_bind, StateT.run_bind, begun.run_eq]
    exact further.run_eq
  journaled_eq journal := by
    rw [run_bind, StateT.run_bind, begun.journaled_eq, List.flatMap_append, ← List.append_assoc]
    exact further.journaled_eq _
  answered := begun.answered.append further.answered
  settled := by
    have fine := begun.clean value rfl
    cases later with
    | nil =>
        rw [List.append_nil]
        exact begun.settled
    | cons call rest =>
        rw [List.dropLast_append_of_ne_nil (List.cons_ne_nil call rest)]
        exact List.forall_mem_append.mpr ⟨fine, further.settled⟩
  clean found success :=
    List.forall_mem_append.mpr ⟨begun.clean value rfl, further.clean found success⟩

/-- A call without an error comes before what the operation does next. -/
theorem cons {whole plain : Tester (StateM σ) δ α}
    {journaledWhole journaled : Tester (JournalM σ δ) δ α} {result : Except TestError α}
    {call : Exchange δ} (occurs : call.Occurs server world) (fine : call.Fine)
    (runs : StateT.run (run whole server) world =
      StateT.run (run plain server) (worldAfter (server.answer call.request) world))
    (runsAgain : ∀ journal, StateT.run (run journaledWhole server.journaled) (world, journal) =
      StateT.run (run journaled server.journaled)
        (worldAfter (server.answer call.request) world, journal ++ call.events))
    (performs : Performs server plain journaled (worldAfter (server.answer call.request) world)
      result calls after) :
    Performs server whole journaledWhole world result (call :: calls) after where
  run_eq := runs.trans performs.run_eq
  journaled_eq journal := by
    rw [runsAgain, performs.journaled_eq, List.flatMap_cons, List.append_assoc]
  answered := .next occurs performs.answered
  settled := by
    cases calls with
    | nil => exact List.forall_mem_nil _
    | cons next rest => exact List.forall_mem_cons.mpr ⟨fine, performs.settled⟩
  clean value success := List.forall_mem_cons.mpr ⟨fine, performs.clean value success⟩

/-- An operation leaves the notes of its calls. -/
theorem journals {plain : Tester (StateM σ) δ α} {journaled : Tester (JournalM σ δ) δ α}
    {result : Except TestError α}
    (performs : Performs server plain journaled world result calls after) :
    Journals (Prod.map id Server.journaled) (run plain server) (run journaled server.journaled)
      world (calls.flatMap Exchange.events) := by
  intro journal
  rw [performs.journaled_eq journal, outcome, worldAfter, performs.run_eq]
  rfl

end Performs

/-- The operation makes the calls of the stages, or of the first of them when it fails.  Where it
does not fail, the result and the calls have a property. -/
def Passes (server : Server (StateM σ) δ) (stages : List Stage)
    (property : α → List (Exchange δ) → Prop) (plain : Tester (StateM σ) δ α)
    (journaled : Tester (JournalM σ δ) δ α) (world : σ) : Prop :=
  ∃ result calls after, Performs server plain journaled world result calls after ∧
    Exchange.stages calls <+: stages.map some ∧
    ∀ value, result = .ok value →
      Exchange.stages calls = stages.map some ∧ property value calls

namespace Passes

variable {server : Server (StateM σ) δ} {stages : List Stage} {world : σ}
  {property : β → List (Exchange δ) → Prop} {plain : Tester (StateM σ) δ β}
  {journaled : Tester (JournalM σ δ) δ β}

/-- An operation that fails on the spot passes through any stages. -/
theorem of_failure (stages : List Stage) (property : β → List (Exchange δ) → Prop) (world : σ)
    (failure : TestError) :
    Passes server stages property (throw failure) (throw failure) world := by
  exact ⟨.error failure, [], world, .none rfl fun _ => rfl, List.nil_prefix,
    fun _ success => by cases success⟩

/-- An operation without a call. -/
theorem of_result {result : Except TestError β}
    (runs : StateT.run (run plain server) world = ((result, server), world))
    (runsAgain : ∀ journal, StateT.run (run journaled server.journaled) (world, journal) =
      ((result, server.journaled), (world, journal)))
    (holds : ∀ value, result = .ok value → property value []) :
    Passes server [] property plain journaled world := by
  exact ⟨result, [], world, .none runs runsAgain, List.nil_prefix,
    fun value success => ⟨rfl, holds value success⟩⟩

theorem of_pure {value : β} (holds : property value []) (world : σ) :
    Passes server [] property (pure value) (pure value) world :=
  of_result rfl (fun _ => rfl) fun _ same => Except.ok.inj same ▸ holds

/-- Operations that follow each other pass through the stages of both. -/
theorem bind {first : Tester (StateM σ) δ α} {journaledFirst : Tester (JournalM σ δ) δ α}
    {next : α → Tester (StateM σ) δ β} {journaledNext : α → Tester (JournalM σ δ) δ β}
    {begun : α → List (Exchange δ) → Prop} (further : List Stage)
    (passes : Passes server stages begun first journaledFirst world)
    (later : ∀ value calls after, begun value calls →
      Passes server further (fun last rest => property last (calls ++ rest)) (next value)
        (journaledNext value) after) :
    Passes server (stages ++ further) property (first >>= next)
      (journaledFirst >>= journaledNext) world := by
  rcases passes with ⟨result, calls, after, performs, within, success⟩
  rw [Passes, List.map_append]
  cases result with
  | error failure =>
      exact ⟨_, calls, after, performs.bind_error, within.trans (List.prefix_append _ _),
        fun _ success => by cases success⟩
  | ok value =>
      rcases success value rfl with ⟨all, holds⟩
      rcases later value calls after holds with
        ⟨result, rest, last, performsRest, withinRest, successRest⟩
      have together : Exchange.stages (calls ++ rest) =
          stages.map some ++ Exchange.stages rest := by
        rw [← all]
        exact List.map_append
      refine ⟨result, calls ++ rest, last, performs.bind_ok performsRest, ?_, fun found ok => ?_⟩
      · rw [together]
        exact (List.prefix_append_right_inj _).mpr withinRest
      · rw [together, (successRest found ok).1]
        exact ⟨rfl, (successRest found ok).2⟩

/-- What an operation comes to is a matter of its runs. -/
theorem of_run_eq {other : Tester (StateM σ) δ β} {journaledOther : Tester (JournalM σ δ) δ β}
    (passes : Passes server stages property plain journaled world)
    (same : StateT.run (run other server) world = StateT.run (run plain server) world)
    (sameAgain : ∀ journal, StateT.run (run journaledOther server.journaled) (world, journal) =
      StateT.run (run journaled server.journaled) (world, journal)) :
    Passes server stages property other journaledOther world := by
  rcases passes with ⟨result, calls, after, performs, stages⟩
  refine ⟨result, calls, after, ?_, stages⟩
  exact { performs with
    run_eq := same.trans performs.run_eq
    journaled_eq := fun journal => (sameAgain journal).trans (performs.journaled_eq journal) }

/-- An operation that looks at the server goes on with it. -/
theorem get_bind {next : Server (StateM σ) δ → Tester (StateM σ) δ β}
    {journaledNext : Server (JournalM σ δ) δ → Tester (JournalM σ δ) δ β}
    (passes : Passes server stages property (next server) (journaledNext server.journaled) world) :
    Passes server stages property (get >>= next) (get >>= journaledNext) world :=
  passes.of_run_eq rfl fun _ => rfl

/-- What follows an operation without a call. -/
theorem result_bind {first : Tester (StateM σ) δ α} {journaledFirst : Tester (JournalM σ δ) δ α}
    {result : Except TestError α} {next : α → Tester (StateM σ) δ β}
    {journaledNext : α → Tester (JournalM σ δ) δ β}
    (runs : StateT.run (run first server) world = ((result, server), world))
    (runsAgain : ∀ journal, StateT.run (run journaledFirst server.journaled) (world, journal) =
      ((result, server.journaled), (world, journal)))
    (later : ∀ value, result = .ok value →
      Passes server stages property (next value) (journaledNext value) world) :
    Passes server stages property (first >>= next) (journaledFirst >>= journaledNext) world := by
  cases result with
  | error failure =>
      refine (of_failure stages property world failure).of_run_eq ?_ fun journal => ?_
      · rw [run_bind, StateT.run_bind, runs]
        rfl
      · rw [run_bind, StateT.run_bind, runsAgain]
        rfl
  | ok value =>
      refine (later value rfl).of_run_eq ?_ fun journal => ?_
      · rw [run_bind, StateT.run_bind, runs]
        rfl
      · rw [run_bind, StateT.run_bind, runsAgain]
        rfl

/-- A call, which ends the operation when its response has an error. -/
theorem call_bind (request : Protocol.Request) (wrap : ρ → Protocol.Response)
    (question : Server (StateM σ) δ → StateM σ ρ)
    (journaledQuestion : Server (JournalM σ δ) δ → JournalM σ δ ρ) {stage : Stage}
    {reported : ρ → List WireDiagnostic} {events : List (Event δ)}
    {rest : ρ → Diagnostics → Tester (StateM σ) δ β}
    {journaledRest : ρ → Diagnostics → Tester (JournalM σ δ) δ β}
    (staged : request.stage? = some stage)
    (reports : ∀ response, (wrap response).reported = reported response)
    (answers : server.answer request = Server.answer.keep server wrap (question server))
    (answersAgain : server.journaled.answer request =
      Server.answer.keep server.journaled wrap (journaledQuestion server.journaled))
    (asked : Journals id (question server) (journaledQuestion server.journaled) world events)
    (further : let response := outcome (question server) world
      let found : Diagnostics := (reported response).map Diagnostic.ofWire
      found.hasError = false →
        Passes server stages (fun last later => property last (⟨request, wrap response, events⟩ ::
          later)) (rest response found) (journaledRest response found)
          (worldAfter (question server) world)) :
    Passes server (stage :: stages) property
      (ask question >>= fun response => check (reported response) >>= rest response)
      (ask journaledQuestion >>= fun response => check (reported response) >>=
        journaledRest response) world := by
  let response := outcome (question server) world
  let found : Diagnostics := (reported response).map Diagnostic.ofWire
  let call : Exchange δ := ⟨request, wrap response, events⟩
  have occurs : call.Occurs server world := by
    constructor
    · exact congrArg (fun action => (outcome action world).1) answers
    · rw [show call.request = request from rfl, answers, answersAgain]
      exact asked.map fun _ => rfl
  have reached : worldAfter (server.answer request) world = worldAfter (question server) world :=
    congrArg (fun action => worldAfter action world) answers
  cases fine : found.hasError with
  | true =>
      have failed : Performs server (ask question >>= fun response =>
          check (reported response) >>= rest response) (ask journaledQuestion >>= fun response =>
            check (reported response) >>= journaledRest response) world
          (.error (.diagnostics found)) [call] (worldAfter (question server) world) := by
        rw [← reached]
        refine .single occurs ?_ fun journal => ?_
        · rw [run_ask_bind, check_of_hasError fine, reached]
          rfl
        · rw [run_ask_bind_journaled asked, check_of_hasError fine, reached]
          rfl
      refine ⟨_, [call], _, failed, ?_, fun _ success => by cases success⟩
      exact List.cons_prefix_cons.mpr ⟨staged, List.nil_prefix⟩
  | false =>
      rcases further fine with ⟨result, calls, after, performs, within, success⟩
      rw [← reached] at performs
      have callFine : call.Fine := by
        rw [Exchange.Fine, reports]
        exact fine
      refine ⟨result, call :: calls, after, performs.cons occurs callFine ?_ fun journal => ?_,
        List.cons_prefix_cons.mpr ⟨staged, within⟩, fun value ok => ?_⟩
      · rw [run_ask_bind, check_of_fine fine, reached]
        rfl
      · rw [run_ask_bind_journaled asked, check_of_fine fine, reached]
        rfl
      · rcases success value ok with ⟨all, holds⟩
        exact ⟨congrArg₂ List.cons staged all, holds⟩

end Passes
end Tester
end ProviderKit

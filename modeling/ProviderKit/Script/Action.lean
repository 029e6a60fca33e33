import ProviderKit.Provider.Basic

/-!
# Scripts

A script is the body of a callback written as data: a list of actions, run in order on
the response of the callback.  Scripts make providers for tests without any code.

An action that writes does so to the target of the callback, a state or a plan, and
does nothing where there is none.  Every problem that arises is added to the response,
and the actions go on.
-/

namespace ProviderKit
namespace Script

/-- The data handed to a callback. -/
inductive Input where
  | config
  | state
  | plan
  | providerMeta
deriving DecidableEq

/-- One action of a script. -/
inductive Action where
  /-- Report a problem. -/
  | report (diagnostic : Diagnostic)
  /-- Write a value at a path. -/
  | set (path : Path) (value : Value)
  /-- Write what an input holds at a path to another path. -/
  | copy (source : Input) (path target : Path)
  /-- Read an input, and note the result. -/
  | read (source : Input) (path : Path) (shape : ReadShape)
  /-- Replace the target by a value, which is not checked. -/
  | replaceRaw (value : Value)
  /-- Replace the target by a document; nothing stands for one that cannot be made. -/
  | setAll (document : Option Json)
  /-- Remove the resource. -/
  | remove
  /-- Demand the replacement of the resource for an attribute. -/
  | demandReplacement (path : Path)
  /-- End the script when an input is null. -/
  | stopIfNull (source : Input)
  /-- Hand data to the resources and data sources. -/
  | provide (data : String)
  /-- Write the received provider data at a path, null when there is none. -/
  | setReceived (path : Path)
  /-- Replace the target by the stored document. -/
  | setStored
  /-- Write a member of the stored document at a path. -/
  | setStoredMember (name : String) (path : Path)

/-- A read that a script has made, with its result. -/
structure Reading where
  shape : ReadShape
  outcome : Except Diagnostics shape.Result

/-- What a callback writes to. -/
inductive Target where
  | none
  | state (data : State)
  | plan (data : Plan)

/-- What a script sees and what it leaves. -/
structure Stage where
  inputs : List (Input × Config) := []
  received : Option String := none
  stored : Option Json := none
  target : Target := .none
  requiresReplace : Paths := .empty
  provided : Option String := none
  diagnostics : Diagnostics := []
  readings : List Reading := []

/-- A document that could not be made for some reason. -/
def unserializable : Except String Json :=
  .error "key must be a string"

namespace Target

/-- Write a value at a path. -/
def set (target : Target) (path : Path) (value : Value) : Target × Diagnostics :=
  match target with
  | .none => (.none, [])
  | .state old =>
    let (new, problems) := old.set path value DataRole.state_ne_config
    (.state new, problems)
  | .plan old =>
    let (new, problems) := old.set path value DataRole.plan_ne_config
    (.plan new, problems)

/-- Replace the whole value by a document. -/
def setAll (target : Target) (document : Except String Json) : Target × Diagnostics :=
  match target with
  | .none => (.none, [])
  | .state old =>
    let (new, problems) := old.setAll document DataRole.state_ne_config
    (.state new, problems)
  | .plan old =>
    let (new, problems) := old.setAll document DataRole.plan_ne_config
    (.plan new, problems)

/-- Replace the whole value without a check. -/
def replaceRaw (target : Target) (raw : Value) : Target :=
  match target with
  | .none => .none
  | .state old => .state { old with raw }
  | .plan old => .plan { old with raw }

/-- Remove the resource, where the target is a state. -/
def remove : Target → Target
  | .state old => .state old.removed
  | other => other

end Target

namespace Stage

/-- The data of an input, which is null where the callback has no such input. -/
def input (stage : Stage) (source : Input) : Config :=
  ((stage.inputs.find? fun entry => entry.1 == source).map Prod.snd).getD default

/-- The stage with a changed target and further problems. -/
def after (stage : Stage) (written : Target × Diagnostics) : Stage :=
  { stage with target := written.1, diagnostics := stage.diagnostics ++ written.2 }

/-- The stage with further problems. -/
def report (stage : Stage) (problems : Diagnostics) : Stage :=
  { stage with diagnostics := stage.diagnostics ++ problems }

end Stage

namespace Action

def run (stage : Stage) : Action → Stage
  | report diagnostic => stage.report [diagnostic]
  | set path value => stage.after (stage.target.set path value)
  | copy source path target =>
    match (stage.input source).get path .value with
    | .ok value => stage.after (stage.target.set target value)
    | .error problems => stage.report problems
  | read source path shape =>
    let outcome := (stage.input source).get path shape
    let problems := match outcome with
      | .ok _ => []
      | .error problems => problems
    { stage.report problems with readings := stage.readings ++ [⟨shape, outcome⟩] }
  | replaceRaw value => { stage with target := stage.target.replaceRaw value }
  | setAll document =>
    let document := match document with
      | some json => .ok json
      | none => unserializable
    stage.after (stage.target.setAll document)
  | remove => { stage with target := stage.target.remove }
  | demandReplacement path => { stage with requiresReplace := stage.requiresReplace.append path }
  | stopIfNull _ => stage
  | provide data => { stage with provided := some data }
  | setReceived path =>
    let value := match stage.received with
      | some data => Value.string data
      | none => .null
    stage.after (stage.target.set path value)
  | setStored =>
    match stage.stored with
    | some json => stage.after (stage.target.setAll (.ok json))
    | none => stage
  | setStoredMember name path =>
    match stage.stored with
    | some json => stage.after (stage.target.set path (Value.ofUntyped (json.member name)))
    | none => stage

/-- Whether the script ends at this action. -/
def ends (stage : Stage) : Action → Bool
  | stopIfNull source => (stage.input source).isNull
  | _ => false

end Action

def runAll : List Action → Stage → Stage
  | [], stage => stage
  | action :: rest, stage => if action.ends stage then stage else runAll rest (action.run stage)

end Script
end ProviderKit

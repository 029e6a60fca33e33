import ProviderKit.Diagnostic
import ProviderKit.Planning.Counterpart
import ProviderKit.Schema.Basic
import ProviderKit.Value.Decode

/-!
# Completing a plan

Attributes that the configuration leaves null are filled in two passes over the
planned value.  The first gives an attribute its default.  The second, which runs
only when something changes, makes a computed attribute without a default unknown.
Nothing else in the planned value changes.

An occurrence of a nested block in the plan is judged by the configuration of its
counterpart.  Where a planned value is not an object, or a block is missing from it,
there is nothing to fill.
-/

namespace ProviderKit

/-- Which attributes a pass over a planned value fills. -/
inductive PlanPass where
  /-- Attributes with a default. -/
  | defaults
  /-- Computed attributes without a default, which become unknown. -/
  | unknowns
deriving DecidableEq

namespace Attribute

/-- What a pass fills into an attribute that is configured with a value: nothing, a
value, or an error when the default does not have the type of the attribute. -/
def filling (attr : Attribute) (pass : PlanPass) (configured : Value) :
    Option (Except ValueError Value) :=
  if configured.isNull then
    match attr.defaultValue, pass with
    | some document, .defaults => some (Value.ofJson attr.type document)
    | none, .unknowns => if attr.flags.computed then some (.ok .unknown) else none
    | _, _ => none
  else none

end Attribute

/-- The diagnostic for a default that does not have the type of its attribute. -/
def invalidDefault (path : Path) (error : ValueError) : Diagnostic :=
  .attributeError path "Invalid Attribute Default"
    ("The default value does not match the attribute type. " ++
      "This is always a bug in the provider.\n\n" ++ error.message)

/-- A planned value and the problems found while completing it. -/
structure Completion (α : Type) where
  result : α
  diagnostics : Diagnostics

namespace Completion

variable {α β : Type}

/-- A part that is complete as it stands. -/
def unchanged (part : α) : Completion α :=
  ⟨part, []⟩

/-- Completed parts in order, with all their problems. -/
def sequence (parts : List (Completion α)) : Completion (List α) :=
  ⟨parts.map result, parts.flatMap diagnostics⟩

def map (f : α → β) (completion : Completion α) : Completion β :=
  ⟨f completion.result, completion.diagnostics⟩

end Completion

namespace Block

/-- Fill attributes of a planned object. -/
def completeAttributes (pass : PlanPass) (path : Path) (config : Value) :
    List (String × Attribute) → List (String × Value) → Completion (List (String × Value))
  | [], planned => .unchanged planned
  | (name, attr) :: rest, planned =>
    match attr.filling pass (config.attributeNamed name) with
    | none => completeAttributes pass path config rest planned
    | some (.ok value) =>
      completeAttributes pass path config rest (Entries.insert name value planned)
    | some (.error error) =>
      let completed := completeAttributes pass path config rest planned
      ⟨completed.result, invalidDefault (path.atName name) error :: completed.diagnostics⟩

mutual

/-- Complete the planned value of a block. -/
def complete (pass : PlanPass) : Block → Path → Value → Value → Completion Value
  | ⟨attributes, blocks, _⟩, path, config, planned =>
    match planned with
    | .object planned =>
      let filled := completeAttributes pass path config attributes planned
      let completed := completeBlocks pass blocks path config filled.result
      ⟨.object completed.result, filled.diagnostics ++ completed.diagnostics⟩
    | other => .unchanged other

/-- Complete the values of nested blocks in a planned object. -/
def completeBlocks (pass : PlanPass) :
    List (String × NestedBlock) → Path → Value → List (String × Value) →
      Completion (List (String × Value))
  | [], _, _, planned => .unchanged planned
  | (name, ⟨block, mode, _, _⟩) :: rest, path, config, planned =>
    match Entries.find? name planned with
    | none => completeBlocks pass rest path config planned
    | some value =>
      let blockPath := path.atName name
      let configured := config.attributeNamed name
      let items (elements : List Value) : Completion (List Value) :=
        .sequence (elements.zipIdx.map fun (element, i) =>
          complete pass block (blockPath.atIndex i) (configured.elementOrNull i) element)
      let completion : Completion Value :=
        match mode, value with
        | .single, value => complete pass block blockPath configured value
        | _, .list elements => (items elements).map .list
        | _, .set elements => (items elements).map .set
        | _, .map entries =>
          (Completion.sequence (entries.map fun (key, entry) =>
            (complete pass block (blockPath.atKey key) (configured.entryOrNull key) entry).map
              fun completed => (key, completed))).map .map
        | _, other => .unchanged other
      let completed :=
        completeBlocks pass rest path config (Entries.insert name completion.result planned)
      ⟨completed.result, completion.diagnostics ++ completed.diagnostics⟩

end

end Block

namespace Schema

/-- Run one pass over a planned value. -/
def complete (schema : Schema) (pass : PlanPass) (config planned : Value) : Completion Value :=
  schema.block.complete pass [] config planned

end Schema
end ProviderKit

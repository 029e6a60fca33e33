import ProviderKit.Planning.Counterpart
import ProviderKit.Schema.Basic

/-!
# The proposed state

A host proposes a new state before it asks for a plan: what is configured, and for a
computed attribute that the configuration leaves unset its prior value.  Where the
configuration of a block is null or unknown, so is the proposal.
-/

namespace ProviderKit

namespace Attribute

def propose (attr : Attribute) (prior configured : Value) : Value :=
  if configured.isNull && attr.flags.computed then prior else configured

end Attribute

namespace Block

mutual

def propose : Block → Value → Value → Value
  | ⟨attributes, blocks, _⟩, prior, config =>
    if config.isNull || config.isUnknown then config
    else
      let proposed := attributes.map fun (name, attr) =>
        (name, attr.propose (prior.attributeNamed name) (config.attributeNamed name))
      .object (proposeBlocks blocks prior config proposed)

/-- Proposed attributes with the proposed values of nested blocks added, in place of
attributes of the same name. -/
def proposeBlocks : List (String × NestedBlock) → Value → Value → List (String × Value) →
    List (String × Value)
  | [], _, _, proposed => proposed
  | (name, ⟨block, mode, _, _⟩) :: rest, prior, config, proposed =>
    let before := prior.attributeNamed name
    let configured := config.attributeNamed name
    let value :=
      match mode, configured with
      | .single, configured => propose block before configured
      | _, .list items =>
        .list (items.zipIdx.map fun (item, i) => propose block (before.elementOrNull i) item)
      | _, .set items =>
        .set (items.zipIdx.map fun (item, i) => propose block (before.elementOrNull i) item)
      | _, .map entries =>
        .map (entries.map fun (key, item) => (key, propose block (before.entryOrNull key) item))
      | _, other => other
    proposeBlocks rest prior config (Entries.insert name value proposed)

end

end Block

namespace Schema

/-- The state that a host proposes for a prior state and a configuration. -/
def propose (schema : Schema) (prior config : Value) : Value :=
  schema.block.propose prior config

end Schema
end ProviderKit

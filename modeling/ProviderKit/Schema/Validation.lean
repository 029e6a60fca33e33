import ProviderKit.Diagnostic
import ProviderKit.Schema.Basic
import ProviderKit.Value.Basic

/-!
# Validation of configurations

Decoding enforces types.  What remains are the rules that a type cannot express:
required attributes are set, attributes that only the provider sets are not, a
deprecated attribute that is set gives a warning, and the number of occurrences of
a nested block lies within its limits.

An unknown value counts as set.  Where the value of a nested block is itself
unknown, neither its number nor its occurrences are known, and nothing is checked.
-/

namespace ProviderKit

namespace Attribute

/-- The problems with the value of an attribute. -/
def problems (attr : Attribute) (path : Path) (value : Value) : Diagnostics :=
  if value.isNull then
    if attr.flags.required then
      [.attributeError path "Missing Configuration for Required Attribute"
        ("Must set a configuration value for the " ++ path.display ++
          " attribute as the provider has marked it as required.")]
    else []
  else if attr.flags.isComputedOnly then
    [.attributeError path "Invalid Configuration for Read-Only Attribute"
      ("Cannot set value for the " ++ path.display ++
        " attribute as the provider has marked it as read-only. " ++
        "Remove the configuration line setting the value.")]
  else
    match attr.deprecationMessage with
    | some message => [.attributeWarning path "Attribute Deprecated" message]
    | none => []

end Attribute

/-- The least and the greatest number of occurrences of a block. -/
structure ItemLimits where
  least : UInt32
  greatest : UInt32

namespace ItemLimits

/-- The problems with the number of occurrences of a block that repeats. -/
def problems (limits : ItemLimits) (path : Path) (count : Nat) : Diagnostics :=
  let tooFew : Diagnostics :=
    if count < limits.least.toNat then
      [.attributeError path "Invalid Block"
        ("Block " ++ path.display ++
          " must have a configuration value as the provider has marked it as required. " ++
          "At least " ++ Nat.repr limits.least.toNat ++ " item(s) are required, got " ++
          Nat.repr count ++ ".")]
    else []
  let tooMany : Diagnostics :=
    if 0 < limits.greatest.toNat ∧ limits.greatest.toNat < count then
      [.attributeError path "Invalid Block"
        ("Block " ++ path.display ++ " allows at most " ++ Nat.repr limits.greatest.toNat ++
          " item(s), got " ++ Nat.repr count ++ ".")]
    else []
  tooFew ++ tooMany

/-- The problem of a block that occurs at most once and does not occur. -/
def problemsOfMissing (limits : ItemLimits) (path : Path) : Diagnostics :=
  if 0 < limits.least.toNat then
    [.attributeError path "Missing Configuration for Required Block"
      ("Must have a configuration value for the " ++ path.display ++ " block.")]
  else []

/-- The problems with the value of a nested block as such. -/
def problemsOfValue (limits : ItemLimits) (mode : NestingMode) (path : Path) :
    Value → Diagnostics
  | .null => if mode = .single then limits.problemsOfMissing path else limits.problems path 0
  | .list elements => if mode = .single then [] else limits.problems path elements.length
  | .set elements => if mode = .single then [] else limits.problems path elements.length
  | .map entries => if mode = .single then [] else limits.problems path entries.length
  | _ => []

end ItemLimits

/-- The occurrences in the value of a nested block, each at its path. -/
def NestingMode.occurrences (mode : NestingMode) (path : Path) (value : Value) :
    List (Path × Value) :=
  match mode, value with
  | .single, value => if value.isNull || value.isUnknown then [] else [(path, value)]
  | _, .list elements => elements.zipIdx.map fun (element, i) => (path.atIndex i, element)
  | _, .set elements => elements.zipIdx.map fun (element, i) => (path.atIndex i, element)
  | _, .map entries => entries.map fun (key, entry) => (path.atKey key, entry)
  | _, _ => []

def Value.isObject : Value → Bool
  | .object _ => true
  | _ => false

namespace Block

mutual

/-- The problems with one occurrence of a block: those of its attributes in name
order, and then those of its nested blocks. -/
def problems : Block → Path → Value → Diagnostics
  | ⟨attributes, blocks, _⟩, path, value =>
    if value.isObject then
      (attributes.flatMap fun (name, attr) =>
        attr.problems (path.atName name) (value.attributeNamed name))
      ++ problemsOfBlocks blocks path value
    else []

/-- The problems with nested blocks: for each its number of occurrences, and then the
occurrences one by one. -/
def problemsOfBlocks : List (String × NestedBlock) → Path → Value → Diagnostics
  | [], _, _ => []
  | (name, ⟨block, mode, least, greatest⟩) :: rest, path, value =>
    let blockPath := path.atName name
    let blockValue := value.attributeNamed name
    ItemLimits.problemsOfValue ⟨least, greatest⟩ mode blockPath blockValue
    ++ (mode.occurrences blockPath blockValue).flatMap (fun occurrence =>
      problems block occurrence.1 occurrence.2)
    ++ problemsOfBlocks rest path value

end

end Block

namespace Schema

/-- The problems with a configuration. -/
def validate (schema : Schema) (value : Value) : Diagnostics :=
  schema.block.problems [] value

/-- The problems with a configuration, on the side of failure when one is an error. -/
def checked (schema : Schema) (value : Value) : Except Diagnostics Diagnostics :=
  let diagnostics := schema.validate value
  if diagnostics.hasError then .error diagnostics else .ok diagnostics

/-- Whether a configuration has no error. -/
def accepts (schema : Schema) (value : Value) : Bool :=
  !(schema.validate value).hasError

end Schema
end ProviderKit

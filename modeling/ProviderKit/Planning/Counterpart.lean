import ProviderKit.Value.Basic

/-!
# Counterparts

Planning compares two values of one block, such as a plan and a configuration.  The
counterpart of an occurrence is found by position in lists and sets and by key in
maps; where there is none it is null.
-/

namespace ProviderKit
namespace Value

/-- The elements of a list or a set; none for anything else. -/
def elements : Value → List Value
  | list elements => elements
  | set elements => elements
  | _ => []

def elementOrNull (value : Value) (index : Nat) : Value :=
  value.elements[index]?.getD null

def entryOrNull (key : String) : Value → Value
  | map entries => (Entries.find? key entries).getD null
  | _ => null

end Value
end ProviderKit

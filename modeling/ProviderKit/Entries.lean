/-!
# Entries: finite maps keyed by text

Maps and objects are lists of entries in strictly increasing key order, so two
maps with the same contents are the same list, and every traversal visits keys
in one order.  The order of `String` compares code points, which is also the
order of the UTF-8 encodings.

The operations assume sorted entries and keep them sorted.  Sortedness is a
predicate beside the list rather than a field of it, because values nest inside
entries and the nesting has to stay an ordinary inductive type.
-/

namespace ProviderKit

/-- Key-value pairs, meant to be in strictly increasing key order. -/
abbrev Entries (α : Type) := List (String × α)

namespace Entries

variable {α β : Type}

def keys (entries : Entries α) : List String :=
  entries.map Prod.fst

def values (entries : Entries α) : List α :=
  entries.map Prod.snd

/-- No key occurs twice and the keys increase. -/
def Sorted (entries : Entries α) : Prop :=
  entries.keys.Pairwise (· < ·)

/-- The value stored under a key. -/
def find? (key : String) : Entries α → Option α
  | [] => none
  | (name, value) :: rest => if name = key then some value else find? key rest

def contains (key : String) (entries : Entries α) : Bool :=
  (entries.find? key).isSome

/-- Store a value under a key.  An existing entry is replaced where it stands,
and a new one goes before the first larger key. -/
def insert (key : String) (value : α) : Entries α → Entries α
  | [] => [(key, value)]
  | (name, old) :: rest =>
    if name = key then (key, value) :: rest
    else if key < name then (key, value) :: (name, old) :: rest
    else (name, old) :: insert key value rest

/-- Sorted entries from pairs in any order.  Of two pairs with one key the
later one stays. -/
def ofPairs (pairs : List (String × α)) : Entries α :=
  pairs.foldl (fun entries pair => entries.insert pair.1 pair.2) []

def mapValues (f : α → β) (entries : Entries α) : Entries β :=
  entries.map fun (key, value) => (key, f value)

@[simp] theorem find?_nil (key : String) : find? key ([] : Entries α) = none := rfl

@[simp] theorem keys_nil : keys ([] : Entries α) = [] := rfl

@[simp] theorem keys_cons (pair : String × α) (rest : Entries α) :
    keys (pair :: rest) = pair.1 :: keys rest := rfl

@[simp] theorem keys_mapValues (f : α → β) (entries : Entries α) :
    (entries.mapValues f).keys = entries.keys := by
  simp [keys, mapValues, Function.comp_def]

/-- A stored value is read back. -/
@[simp] theorem find?_insert_self (key : String) (value : α) (entries : Entries α) :
    (entries.insert key value).find? key = some value := by
  induction entries with
  | nil => simp [insert, find?]
  | cons pair rest ih =>
    obtain ⟨name, old⟩ := pair
    simp only [insert]
    split
    · simp [find?]
    · split <;> simp_all [find?]

/-- Storing under one key leaves the others alone. -/
theorem find?_insert_of_ne {key other : String} (different : other ≠ key) (value : α)
    (entries : Entries α) : (entries.insert key value).find? other = entries.find? other := by
  induction entries with
  | nil => simp [insert, find?, different.symm]
  | cons pair rest ih =>
    obtain ⟨name, old⟩ := pair
    simp only [insert]
    split
    · next same => simp [find?, same, different.symm]
    · split
      · simp [find?, different.symm]
      · simp [find?, ih]

end Entries
end ProviderKit

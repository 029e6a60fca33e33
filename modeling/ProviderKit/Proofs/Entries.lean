import Mathlib.Data.List.Forall2
import Mathlib.Data.List.Induction
import Mathlib.Data.List.Nodup
import Mathlib.Data.String.Basic
import ProviderKit.Entries

/-!
# Laws of entries

Entries are read by key and written by key.  A write changes the keys in a way that
depends on the keys alone, so two lists that start with the same keys and are written
under the same keys end with the same keys, whatever is stored.  Entries without repeated
keys are determined by their keys and by what is found under each of them; most statements
about objects compare two lists in this way.
-/

namespace ProviderKit
namespace Entries

variable {α β : Type}

/-! ## Reading -/

theorem find?_cons_self (key : String) (value : α) (rest : Entries α) :
    find? key ((key, value) :: rest) = some value := by
  simp [find?]

theorem find?_cons_of_ne {key name : String} (different : name ≠ key) (value : α)
    (rest : Entries α) : find? key ((name, value) :: rest) = find? key rest := by
  simp [find?, different]

theorem mem_of_find? {key : String} {value : α} {entries : Entries α}
    (found : entries.find? key = some value) : (key, value) ∈ entries := by
  induction entries with
  | nil => cases found
  | cons entry rest inductionHypothesis =>
      rcases entry with ⟨name, first⟩
      by_cases same : name = key
      · subst same
        rw [find?_cons_self] at found
        cases found
        exact List.mem_cons_self
      · rw [find?_cons_of_ne same] at found
        exact List.mem_cons_of_mem _ (inductionHypothesis found)

theorem mem_keys_of_mem {entry : String × α} {entries : Entries α} (member : entry ∈ entries) :
    entry.1 ∈ entries.keys :=
  List.mem_map_of_mem member

theorem find?_isSome_iff {key : String} {entries : Entries α} :
    (entries.find? key).isSome ↔ key ∈ entries.keys := by
  induction entries with
  | nil => simp
  | cons entry rest inductionHypothesis =>
      rcases entry with ⟨name, first⟩
      by_cases same : name = key
      · simp [find?, same]
      · simp [find?, same, Ne.symm same, inductionHypothesis]

theorem find?_eq_none_iff {key : String} {entries : Entries α} :
    entries.find? key = none ↔ key ∉ entries.keys := by
  rw [← find?_isSome_iff]
  cases entries.find? key <;> simp

theorem exists_find? {key : String} {entries : Entries α} (member : key ∈ entries.keys) :
    ∃ value, entries.find? key = some value :=
  Option.isSome_iff_exists.mp (find?_isSome_iff.mpr member)

/-- Without repeated keys every entry is the one found under its key. -/
theorem find?_of_mem {entries : Entries α} (nodup : entries.keys.Nodup) {key : String} {value : α}
    (member : (key, value) ∈ entries) : entries.find? key = some value := by
  induction entries with
  | nil => cases member
  | cons entry rest inductionHypothesis =>
      rcases entry with ⟨name, first⟩
      rcases List.nodup_cons.mp nodup with ⟨fresh, restNodup⟩
      rcases List.mem_cons.mp member with same | later
      · cases same
        exact find?_cons_self key value rest
      · have different : name ≠ key := by
          intro same
          have present := mem_keys_of_mem later
          exact fresh (same ▸ present)
        rw [find?_cons_of_ne different]
        exact inductionHypothesis restNodup later

theorem keys_append (earlier later : Entries α) :
    keys (earlier ++ later) = keys earlier ++ keys later :=
  List.map_append

@[simp] theorem find?_append (key : String) (earlier later : Entries α) :
    find? key (earlier ++ later) = (find? key earlier).or (find? key later) := by
  induction earlier with
  | nil => rfl
  | cons entry rest inductionHypothesis =>
      rcases entry with ⟨name, value⟩
      rw [List.cons_append]
      by_cases same : name = key
      · subst same
        rw [find?_cons_self, find?_cons_self, Option.some_or]
      · rw [find?_cons_of_ne same, find?_cons_of_ne same, inductionHypothesis]

theorem find?_mapValues (f : α → β) (key : String) (entries : Entries α) :
    (entries.mapValues f).find? key = (entries.find? key).map f := by
  induction entries with
  | nil => rfl
  | cons entry rest inductionHypothesis =>
      rcases entry with ⟨name, first⟩
      by_cases same : name = key
      · simp [mapValues, find?, same]
      · simpa [mapValues, find?, same] using inductionHypothesis

/-- Values may also be changed in a way that depends on the key. -/
theorem find?_map_with_key (f : String → α → β) (key : String) (entries : Entries α) :
    find? key (entries.map fun entry => (entry.1, f entry.1 entry.2)) =
      (entries.find? key).map (f key) := by
  induction entries with
  | nil => rfl
  | cons entry rest inductionHypothesis =>
      rcases entry with ⟨name, first⟩
      by_cases same : name = key
      · simp [find?, same]
      · simpa [find?, same] using inductionHypothesis

theorem keys_map_with_key (f : String → α → β) (entries : Entries α) :
    keys (entries.map fun entry => (entry.1, f entry.1 entry.2)) = entries.keys := by
  simp [keys, Function.comp_def]

/-! ## Writing -/

/-- The keys after a write depend on the keys before it and on nothing else. -/
theorem keys_insert_congr (key : String) (value : α) (other : β) {xs : Entries α} {ys : Entries β}
    (same : xs.keys = ys.keys) : (xs.insert key value).keys = (ys.insert key other).keys := by
  induction xs generalizing ys with
  | nil =>
      rw [List.map_eq_nil_iff.mp same.symm]
      rfl
  | cons entry rest inductionHypothesis =>
      cases ys with
      | nil => cases same
      | cons entry' rest' =>
          rcases entry with ⟨name, old⟩
          rcases entry' with ⟨name', old'⟩
          rcases List.cons.inj same with ⟨sameName, sameRest⟩
          have sameName : name = name' := sameName
          subst sameName
          simp only [insert]
          split
          · exact congrArg (key :: ·) sameRest
          · split
            · exact congrArg (key :: name :: ·) sameRest
            · exact congrArg (name :: ·) (inductionHypothesis sameRest)

theorem mem_keys_insert {key name : String} (value : α) {entries : Entries α} :
    name ∈ (entries.insert key value).keys ↔ name = key ∨ name ∈ entries.keys := by
  rw [← find?_isSome_iff]
  by_cases same : name = key
  · subst same
    simp
  · rw [find?_insert_of_ne same, find?_isSome_iff]
    simp [same]

theorem Sorted.nodup {entries : Entries α} (sorted : entries.Sorted) : entries.keys.Nodup :=
  sorted.imp fun less => ne_of_lt less

/-- Sortedness is a matter of the keys. -/
theorem sorted_congr {xs : Entries α} {ys : Entries β} (same : xs.keys = ys.keys) :
    xs.Sorted ↔ ys.Sorted := by
  unfold Sorted
  rw [same]

theorem Sorted.insert {entries : Entries α} (sorted : entries.Sorted) (key : String) (value : α) :
    (entries.insert key value).Sorted := by
  induction entries with
  | nil => exact List.pairwise_singleton _ _
  | cons entry rest inductionHypothesis =>
      rcases entry with ⟨name, old⟩
      rcases List.pairwise_cons.mp sorted with ⟨least, restSorted⟩
      simp only [Entries.insert]
      split
      · next same => exact same ▸ sorted
      · next different =>
        split
        · next less =>
          refine List.pairwise_cons.mpr ⟨fun other member => ?_, sorted⟩
          rcases List.mem_cons.mp member with same | later
          · exact same ▸ less
          · exact lt_trans less (least other later)
        · next notLess =>
          refine List.pairwise_cons.mpr ⟨fun other member => ?_, inductionHypothesis restSorted⟩
          rcases (mem_keys_insert value).mp member with same | later
          · exact same ▸ lt_of_le_of_ne (not_lt.mp notLess) different
          · exact least other later

theorem sorted_ofPairs (pairs : List (String × α)) : (ofPairs pairs).Sorted := by
  suffices step : ∀ (pairs : List (String × α)) (entries : Entries α), entries.Sorted →
      (pairs.foldl (fun entries pair => entries.insert pair.1 pair.2) entries).Sorted from
    step pairs [] List.Pairwise.nil
  intro pairs
  induction pairs with
  | nil => exact fun _ sorted => sorted
  | cons pair rest inductionHypothesis =>
      exact fun _ sorted => inductionHypothesis _ (sorted.insert pair.1 pair.2)

/-- A write changes nothing exactly when the value is stored under the key already. -/
theorem insert_eq_self_iff {entries : Entries α} (sorted : entries.Sorted) {key : String}
    {value : α} : entries.insert key value = entries ↔ entries.find? key = some value := by
  refine ⟨fun same => same ▸ find?_insert_self key value entries, fun found => ?_⟩
  induction entries with
  | nil => cases found
  | cons entry rest inductionHypothesis =>
      rcases entry with ⟨name, old⟩
      rcases List.pairwise_cons.mp sorted with ⟨least, restSorted⟩
      simp only [insert]
      split
      · next same =>
        subst same
        rw [find?_cons_self] at found
        rw [Option.some.inj found]
      · next different =>
        rw [find?_cons_of_ne different] at found
        have later : name < key := least key (mem_keys_of_mem (mem_of_find? found))
        rw [if_neg (lt_asymm later), inductionHypothesis restSorted found]

/-- Of two writes under one key the later one stays. -/
theorem insert_insert (key : String) (first second : α) (entries : Entries α) :
    (entries.insert key first).insert key second = entries.insert key second := by
  induction entries with
  | nil => simp [insert]
  | cons entry rest inductionHypothesis =>
      rcases entry with ⟨name, old⟩
      by_cases same : name = key
      · simp [insert, same]
      · by_cases less : key < name
        · simp [insert, same, less]
        · simp [insert, same, less, inductionHypothesis]

/-- A write under a key beyond all others goes to the end. -/
theorem insert_eq_concat {entries : Entries α} {key : String}
    (greatest : ∀ name ∈ entries.keys, name < key) (value : α) :
    entries.insert key value = entries ++ [(key, value)] := by
  induction entries with
  | nil => rfl
  | cons entry rest inductionHypothesis =>
      rcases entry with ⟨name, old⟩
      rcases List.forall_mem_cons.mp greatest with ⟨less, restLess⟩
      have less : name < key := less
      simp only [insert]
      rw [if_neg (ne_of_lt less), if_neg (not_lt.mpr (le_of_lt less)),
        inductionHypothesis restLess]
      rfl

/-- Pairs in key order already are the entries. -/
theorem ofPairs_of_sorted {entries : Entries α} (sorted : entries.Sorted) :
    ofPairs entries = entries := by
  suffices step : ∀ later earlier : Entries α, Sorted (earlier ++ later) →
      later.foldl (fun entries pair => entries.insert pair.1 pair.2) earlier = earlier ++ later from
    step entries [] sorted
  intro later
  induction later with
  | nil => exact fun earlier _ => (List.append_nil earlier).symm
  | cons pair rest inductionHypothesis =>
      intro earlier sorted
      have greatest : ∀ name ∈ keys earlier, name < pair.1 := by
        unfold Sorted keys at sorted
        rw [List.map_append, List.pairwise_append] at sorted
        exact fun name member => sorted.2.2 name member pair.1 List.mem_cons_self
      rw [List.append_cons] at sorted
      rw [List.foldl_cons, insert_eq_concat greatest, inductionHypothesis _ sorted,
        ← List.append_cons]

/-- A write under a key that is present leaves the keys of sorted entries alone. -/
theorem keys_insert_of_mem {entries : Entries α} (sorted : entries.Sorted) {key : String}
    (member : key ∈ entries.keys) (value : α) : (entries.insert key value).keys = entries.keys := by
  induction entries with
  | nil => cases member
  | cons entry rest inductionHypothesis =>
      rcases entry with ⟨name, old⟩
      rcases List.pairwise_cons.mp sorted with ⟨least, restSorted⟩
      simp only [insert]
      split
      · next same => simp [same]
      · next different =>
        have later : key ∈ keys rest := (List.mem_cons.mp member).resolve_left (Ne.symm different)
        rw [if_neg (not_lt.mpr (le_of_lt (least key later)))]
        exact congrArg (name :: ·) (inductionHypothesis restSorted later)

theorem mapValues_id (entries : Entries α) : mapValues id entries = entries :=
  List.map_id entries

theorem mapValues_eq_self_iff {f : α → α} {entries : Entries α} :
    mapValues f entries = entries ↔ ∀ entry ∈ entries, f entry.2 = entry.2 := by
  induction entries with
  | nil => simp [mapValues]
  | cons entry rest inductionHypothesis =>
      rw [List.forall_mem_cons, ← inductionHypothesis, mapValues, List.map_cons, List.cons.injEq,
        Prod.ext_iff]
      simp [mapValues]

/-- Changing the values before or after a write makes no difference. -/
theorem mapValues_insert (f : α → β) (key : String) (value : α) (entries : Entries α) :
    (entries.insert key value).mapValues f = (entries.mapValues f).insert key (f value) := by
  induction entries with
  | nil => rfl
  | cons entry rest inductionHypothesis =>
      rcases entry with ⟨name, old⟩
      change mapValues f (insert key value ((name, old) :: rest)) =
        insert key (f value) ((name, f old) :: mapValues f rest)
      simp only [insert]
      split
      · rfl
      · split
        · rfl
        · exact congrArg ((name, f old) :: ·) inductionHypothesis

theorem ofPairs_append (earlier later : List (String × α)) :
    ofPairs (earlier ++ later) =
      later.foldl (fun entries pair => entries.insert pair.1 pair.2) (ofPairs earlier) :=
  List.foldl_append

/-- Where no key is repeated, entries made of pairs find what the pairs find. -/
theorem find?_ofPairs {pairs : List (String × α)} (nodup : (keys pairs).Nodup) (key : String) :
    find? key (ofPairs pairs) = find? key pairs := by
  induction pairs using List.reverseRecOn with
  | nil => rfl
  | append_singleton earlier pair inductionHypothesis =>
      rcases pair with ⟨name, value⟩
      rw [keys_append, List.nodup_append] at nodup
      rw [ofPairs_append, List.foldl_cons, List.foldl_nil, find?_append]
      by_cases same : key = name
      · subst same
        have fresh : key ∉ keys earlier := fun member => nodup.2.2 _ member _ (.head _) rfl
        rw [find?_insert_self, find?_eq_none_iff.mpr fresh, find?_cons_self, Option.none_or]
      · rw [find?_insert_of_ne same, inductionHypothesis nodup.1, find?_cons_of_ne (Ne.symm same),
          find?_nil, Option.or_none]

theorem mem_of_mem_insert {key : String} {value : α} {entry : String × α} {entries : Entries α}
    (member : entry ∈ entries.insert key value) : entry = (key, value) ∨ entry ∈ entries := by
  induction entries with
  | nil => exact .inl (List.mem_singleton.mp member)
  | cons first rest inductionHypothesis =>
      rcases first with ⟨name, old⟩
      simp only [insert] at member
      split at member
      · rcases List.mem_cons.mp member with here | later
        · exact .inl here
        · exact .inr (List.mem_cons_of_mem _ later)
      · split at member
        · exact List.mem_cons.mp member
        · rcases List.mem_cons.mp member with here | later
          · exact .inr (here ▸ List.mem_cons_self)
          · exact (inductionHypothesis later).imp id (List.mem_cons_of_mem _)

theorem mem_of_mem_ofPairs {pairs : List (String × α)} {entry : String × α}
    (member : entry ∈ ofPairs pairs) : entry ∈ pairs := by
  suffices step : ∀ (pairs : List (String × α)) (entries : Entries α),
      entry ∈ pairs.foldl (fun entries pair => entries.insert pair.1 pair.2) entries →
        entry ∈ pairs ∨ entry ∈ entries from
    (step pairs [] member).resolve_right List.not_mem_nil
  intro pairs
  induction pairs with
  | nil => exact fun _ => .inr
  | cons pair rest inductionHypothesis =>
      intro entries member
      rcases inductionHypothesis _ member with later | earlier
      · exact .inl (List.mem_cons_of_mem _ later)
      · rcases mem_of_mem_insert earlier with here | before
        · exact .inl (here ▸ List.mem_cons_self)
        · exact .inr before

/-! ## Comparing -/

/-- Entries with the same keys in the same order, whose values are related one by one. -/
def Paired (R : α → β → Prop) (xs : Entries α) (ys : Entries β) : Prop :=
  xs.keys = ys.keys ∧ List.Forall₂ R xs.values ys.values

variable {R : α → β → Prop}

theorem paired_cons_iff {key other : String} {x : α} {y : β} {xs : Entries α} {ys : Entries β} :
    Paired R ((key, x) :: xs) ((other, y) :: ys) ↔ key = other ∧ R x y ∧ Paired R xs ys := by
  simp only [Paired, keys_cons, List.cons.injEq, values, List.map_cons, List.forall₂_cons]
  tauto

theorem paired_iff_forall₂ {xs : Entries α} {ys : Entries β} :
    Paired R xs ys ↔ List.Forall₂ (fun x y => x.1 = y.1 ∧ R x.2 y.2) xs ys := by
  induction xs generalizing ys with
  | nil => cases ys <;> simp [Paired, values, keys]
  | cons entry rest inductionHypothesis =>
      cases ys with
      | nil => simp [Paired, keys]
      | cons other tail =>
          rw [paired_cons_iff, List.forall₂_cons, inductionHypothesis, and_assoc]

/-- Entries with the same keys have as many values, so it is enough to relate those that stand at
the same place. -/
theorem paired_of_zip {xs : Entries α} {ys : Entries β} (sameKeys : xs.keys = ys.keys)
    (related : ∀ pair ∈ xs.values.zip ys.values, R pair.1 pair.2) : Paired R xs ys := by
  have lengths : xs.values.length = ys.values.length := by
    simpa [keys, values] using congrArg List.length sameKeys
  exact ⟨sameKeys, List.forall₂_iff_zip.mpr ⟨lengths, related _⟩⟩

/-- Entries are equal when their values are equal one by one. -/
theorem Paired.eq {xs ys : Entries α} (paired : Paired Eq xs ys) : xs = ys := by
  induction xs generalizing ys with
  | nil => exact (List.map_eq_nil_iff.mp paired.1.symm).symm
  | cons entry rest inductionHypothesis =>
      cases ys with
      | nil => cases paired.1
      | cons other tail =>
          rcases entry with ⟨name, x⟩
          rcases other with ⟨otherName, y⟩
          rcases paired_cons_iff.mp paired with ⟨rfl, rfl, tails⟩
          rw [inductionHypothesis tails]

/-- Under one key paired entries find related values, or both find nothing. -/
theorem Paired.find? {xs : Entries α} {ys : Entries β} (paired : Paired R xs ys) (key : String) :
    Option.Rel R (xs.find? key) (ys.find? key) := by
  induction xs generalizing ys with
  | nil =>
      cases ys with
      | nil => exact .none
      | cons other rest => cases paired.1
  | cons entry rest inductionHypothesis =>
      cases ys with
      | nil => cases paired.1
      | cons other tail =>
          rcases entry with ⟨name, x⟩
          rcases other with ⟨otherName, y⟩
          rcases paired_cons_iff.mp paired with ⟨rfl, related, tails⟩
          by_cases same : name = key
          · subst same
            rw [find?_cons_self, find?_cons_self]
            exact .some related
          · rw [find?_cons_of_ne same, find?_cons_of_ne same]
            exact inductionHypothesis tails

theorem Paired.find?_getD {xs : Entries α} {ys : Entries β} (paired : Paired R xs ys)
    (key : String) {x : α} {y : β} (missing : R x y) :
    R ((xs.find? key).getD x) ((ys.find? key).getD y) :=
  match xs.find? key, ys.find? key, paired.find? key with
  | _, _, .none => missing
  | _, _, .some related => related

theorem paired_refl {R : α → α → Prop} (refl : ∀ x, R x x) (entries : Entries α) :
    Paired R entries entries :=
  ⟨rfl, List.forall₂_same.mpr fun x _ => refl x⟩

theorem paired_mapValues_left {f : β → α} (related : ∀ y, R (f y) y) (entries : Entries β) :
    Paired R (entries.mapValues f) entries := by
  have changed : (entries.mapValues f).values = entries.values.map f := by
    simp [mapValues, values]
  refine ⟨keys_mapValues f entries, ?_⟩
  rw [changed, List.forall₂_map_left_iff]
  exact List.forall₂_same.mpr fun y _ => related y

/-- Related values may be written under one key on both sides. -/
theorem Paired.insert {xs : Entries α} {ys : Entries β} (paired : Paired R xs ys) (key : String)
    {x : α} {y : β} (related : R x y) : Paired R (xs.insert key x) (ys.insert key y) := by
  induction xs generalizing ys with
  | nil =>
      rw [List.map_eq_nil_iff.mp paired.1.symm]
      exact ⟨rfl, .cons related .nil⟩
  | cons entry rest inductionHypothesis =>
      cases ys with
      | nil => cases paired.1
      | cons other tail =>
          rcases entry with ⟨name, old⟩
          rcases other with ⟨otherName, otherOld⟩
          rcases paired_cons_iff.mp paired with ⟨rfl, relatedOld, tails⟩
          simp only [Entries.insert]
          split
          · exact paired_cons_iff.mpr ⟨rfl, related, tails⟩
          · split
            · exact paired_cons_iff.mpr ⟨rfl, related, paired⟩
            · exact paired_cons_iff.mpr ⟨rfl, relatedOld, inductionHypothesis tails⟩

/-- Entries with the same keys are paired when what is found under each key is related.
Repeated keys would hide a value from the look-up, so there must be none. -/
theorem paired_of_find? {xs : Entries α} {ys : Entries β} (keys : xs.keys = ys.keys)
    (nodup : xs.keys.Nodup)
    (related : ∀ key x y, xs.find? key = some x → ys.find? key = some y → R x y) :
    Paired R xs ys := by
  induction xs generalizing ys with
  | nil =>
      rw [List.map_eq_nil_iff.mp keys.symm]
      exact ⟨rfl, .nil⟩
  | cons entry rest inductionHypothesis =>
      cases ys with
      | nil => cases keys
      | cons other tail =>
          rcases entry with ⟨key, x⟩
          rcases other with ⟨otherKey, y⟩
          rcases List.cons.inj keys with ⟨sameKey, tailKeys⟩
          have sameKey : key = otherKey := sameKey
          subst sameKey
          rcases List.nodup_cons.mp nodup with ⟨fresh, restNodup⟩
          refine paired_cons_iff.mpr ⟨rfl, ?_, inductionHypothesis tailKeys restNodup ?_⟩
          · exact related key x y (find?_cons_self ..) (find?_cons_self ..)
          · intro name left right foundLeft foundRight
            have present : name ∈ Entries.keys rest :=
              find?_isSome_iff.mp (foundLeft ▸ rfl)
            have different : key ≠ name := fun same => fresh (same ▸ present)
            refine related name left right ?_ ?_
            · rwa [find?_cons_of_ne different]
            · rwa [find?_cons_of_ne different]

/-- Entries in key order are determined by what is found under each key. -/
theorem Sorted.ext {xs ys : Entries α} (xsSorted : xs.Sorted) (ysSorted : ys.Sorted)
    (same : ∀ key, xs.find? key = ys.find? key) : xs = ys := by
  have sameKeys : xs.keys = ys.keys := by
    refine List.Perm.eq_of_pairwise (fun _ _ _ _ => ?_) xsSorted ysSorted ?_
    · exact fun less more => absurd less (lt_asymm more)
    · refine (List.perm_ext_iff_of_nodup xsSorted.nodup ysSorted.nodup).mpr fun key => ?_
      rw [← find?_isSome_iff, ← find?_isSome_iff, same]
  refine Paired.eq (paired_of_find? sameKeys xsSorted.nodup fun key x y left right => ?_)
  exact Option.some.inj (left.symm.trans ((same key).trans right))

/-- Pairs under the keys of entries in key order make these entries, when each pair is found
there. -/
theorem ofPairs_eq_of_find? {pairs : List (String × α)} {entries : Entries α}
    (nodup : (keys pairs).Nodup) (sorted : entries.Sorted)
    (sameKeys : ∀ key, key ∈ keys pairs ↔ key ∈ entries.keys)
    (found : ∀ pair ∈ pairs, entries.find? pair.1 = some pair.2) : ofPairs pairs = entries := by
  refine (sorted_ofPairs pairs).ext sorted fun key => ?_
  rw [find?_ofPairs nodup]
  cases present : find? key pairs with
  | some value => exact (found _ (mem_of_find? present)).symm
  | none =>
      rw [find?_eq_none_iff, sameKeys] at present
      exact (find?_eq_none_iff.mpr present).symm

end Entries
end ProviderKit

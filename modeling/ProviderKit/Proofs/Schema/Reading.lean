import ProviderKit.Proofs.Json.Arrangement
import ProviderKit.Proofs.Value.Conformance
import ProviderKit.Schema.Document

/-!
# Readers that go by names

A record is read from the members of an object, each of which is picked by its name.  A reader
that finds a value in a document therefore finds it in every arrangement of the document, and so
does a reader of entries, since entries are put in key order.  The lemmas say this once for each
way of picking a member: one that must be there, one that may be missing, and one that may be
null as well.
-/

namespace ProviderKit
namespace Document

variable {α β : Type} {name : String} {members pairs : List (String × Json)} {written : Json}
  {surroundings : Surroundings}

/-! ## The members of a record -/

/-- The reader finds the value in every arrangement of the document. -/
def Reads (read : Json → Reading α) (written : Json) (value : α) : Prop :=
  ∀ document : Json, document.Arranges written → read document = some value

variable {read : Json → Reading α} {value missing : α}

theorem reads_of_leaf (noArray : ∀ items, written ≠ .array items)
    (noObject : ∀ members, written ≠ .object members) (found : read written = some value) :
    Reads read written value :=
  fun _ arranges => (arranges.eq_of_leaf noArray noObject).symm ▸ found

theorem reads_bool (b : Bool) : Reads readBool (.bool b) b :=
  reads_of_leaf nofun nofun rfl

theorem reads_text (text : String) : Reads readText (.string text) text :=
  reads_of_leaf nofun nofun rfl

theorem reads_nat {bound n : Nat} (below : n < bound) : Reads (readNat bound) (.int n) n := by
  refine reads_of_leaf nofun nofun ?_
  rw [Json.int, readNat, if_pos ⟨Int.natCast_nonneg n, Int.ofNat_lt.mpr below⟩, Int.toNat_natCast]

/-- A member is picked by its name, when no name is repeated. -/
theorem field?_eq_find? (nodup : (Entries.keys members).Nodup) (name : String) :
    field? name members = some (Entries.find? name members) := by
  induction members with
  | nil => rfl
  | cons member rest inductionHypothesis =>
      rcases member with ⟨other, json⟩
      rcases List.nodup_cons.mp nodup with ⟨fresh, restNodup⟩
      by_cases same : other = name
      · subst same
        have none : rest.filter (fun member => member.1 == other) = [] :=
          List.filter_eq_nil_iff.mpr fun member present found =>
            fresh (List.mem_map.mpr ⟨member, present, beq_iff_eq.mp found⟩)
        rw [field?, List.filter_cons_of_pos (by simp), none, Entries.find?_cons_self]
      · rw [Entries.find?_cons_of_ne same, ← inductionHypothesis restNodup, field?, field?,
          List.filter_cons_of_neg (by simpa using same)]

section Fields

variable (arrange : Json.MembersArrange members pairs)

include arrange

theorem fieldD_of_eq_none (absent : Entries.find? name pairs = none) :
    fieldD name members missing read = some missing := by
  rw [fieldD, field?_eq_find? arrange.nodup, arrange.eq_none absent]
  rfl

theorem fieldD_of_eq_some (present : Entries.find? name pairs = some written)
    (reads : Reads read written value) : fieldD name members missing read = some value := by
  rcases arrange.exists_eq_some present with ⟨json, found, arranges⟩
  rw [fieldD, field?_eq_find? arrange.nodup, found]
  exact reads json arranges

theorem required_of_eq_some (present : Entries.find? name pairs = some written)
    (reads : Reads read written value) : required name members read = some value := by
  rcases arrange.exists_eq_some present with ⟨json, found, arranges⟩
  rw [required, field?_eq_find? arrange.nodup, found]
  exact reads json arranges

/-- A member that is written when there is a value is read as that value, unless it is null. -/
theorem optional_of_eq_map (write : α → Json) {value : Option α}
    (written : Entries.find? name pairs = value.map write)
    (reads : ∀ given, value = some given → Reads read (write given) given) :
    optional name members read = some (value.filter fun given => !(write given).isNull) := by
  cases value with
  | none => exact fieldD_of_eq_none arrange written
  | some given =>
      refine fieldD_of_eq_some arrange written fun json arranges => ?_
      rw [arranges.isNull_eq, Option.filter_some]
      cases (write given).isNull with
      | true => rfl
      | false => exact congrArg (Option.map some) (reads given rfl json arranges)

end Fields

theorem filter_string (text : Option String) :
    (text.filter fun given => !(Json.string given).isNull) = text := by
  cases text <;> rfl

/-- A text that may be missing is read back. -/
theorem optional_text (arrange : Json.MembersArrange members pairs) {text : Option String}
    (written : Entries.find? name pairs = text.map Json.string) :
    optional name members readText = some text := by
  rw [optional_of_eq_map arrange Json.string written fun given _ => reads_text given, filter_string]

/-! ## Entries -/

def readEntry (read : Json → Reading α) (member : String × Json) : Reading (String × α) := do
  some (member.1, ← read member.2)

theorem readEntries_object (read : Json → Reading α) (members : List (String × Json)) :
    readEntries read (.object members) =
      (members.mapM (readEntry read)).map Entries.ofPairs := by
  rw [Option.map_eq_bind]
  rfl

/-- Entries are read one by one. -/
theorem mapM_entries {target : Entries α}
    (each : ∀ member ∈ members, ∃ value, read member.2 = some value ∧
      Entries.find? member.1 target = some value) :
    ∃ entries : List (String × α),
      members.mapM (readEntry read) = some entries ∧
      Entries.keys entries = Entries.keys members ∧
      ∀ entry ∈ entries, Entries.find? entry.1 target = some entry.2 := by
  induction members with
  | nil => exact ⟨[], rfl, rfl, nofun⟩
  | cons member rest inductionHypothesis =>
      rcases List.forall_mem_cons.mp each with ⟨⟨value, reads, found⟩, others⟩
      rcases inductionHypothesis others with ⟨entries, readsRest, keys, foundRest⟩
      refine ⟨(member.1, value) :: entries, ?_, congrArg (member.1 :: ·) keys,
        List.forall_mem_cons.mpr ⟨found, foundRest⟩⟩
      rw [List.mapM_cons, readsRest, readEntry, reads]
      rfl

section Entries

variable {write : β → Json} {result : β → α} {entries : Entries β}
  (reads : ∀ entry ∈ entries, Reads read (write entry.2) (result entry.2))

include reads

theorem exists_read (arrange : Json.MembersArrange members (Entries.mapValues write entries)) :
    ∀ member ∈ members, ∃ value, read member.2 = some value ∧
      Entries.find? member.1 (Entries.mapValues result entries) = some value := by
  intro member present
  have stored : member.1 ∈ Entries.keys entries := by
    rw [← Entries.keys_mapValues write, ← arrange.mem_keys_iff]
    exact Entries.mem_keys_of_mem present
  rcases Entries.exists_find? stored with ⟨source, sourceFound⟩
  have written : Entries.find? member.1 (Entries.mapValues write entries) =
      some (write source) := by
    rw [Entries.find?_mapValues, sourceFound, Option.map_some]
  rcases arrange.exists_eq_some written with ⟨json, found, arranges⟩
  cases Option.some.inj (found.symm.trans (Entries.find?_of_mem arrange.nodup present))
  refine ⟨result source, reads _ (Entries.mem_of_find? sourceFound) _ arranges, ?_⟩
  rw [Entries.find?_mapValues, sourceFound, Option.map_some]

/-- Entries are read back when each of them is. -/
theorem reads_entries (sorted : entries.Sorted) :
    Reads (readEntries read) (.object (Entries.mapValues write entries))
      (Entries.mapValues result entries) := by
  intro document arranges
  have writtenSorted : (Entries.mapValues write entries).Sorted :=
    (Entries.sorted_congr (Entries.keys_mapValues write entries)).mpr sorted
  rw [← Entries.ofPairs_of_sorted writtenSorted] at arranges
  rcases arranges.object writtenSorted.nodup with ⟨members, rfl, arrange⟩
  rcases mapM_entries (exists_read reads arrange) with ⟨found, reading, keys, agree⟩
  have resultSorted : (Entries.mapValues result entries).Sorted :=
    (Entries.sorted_congr (Entries.keys_mapValues result entries)).mpr sorted
  rw [readEntries_object, reading, Option.map_some]
  refine congrArg some (Entries.ofPairs_eq_of_find? (keys ▸ arrange.nodup) resultSorted ?_ agree)
  intro key
  rw [keys, arrange.mem_keys_iff, Entries.keys_mapValues, Entries.keys_mapValues]

end Entries

/-! ## Types -/

theorem readTypes_eq_mapM (surroundings : Surroundings) (members : List (String × Json)) :
    readTypes surroundings members = members.mapM (readEntry (readType surroundings)) := by
  induction members with
  | nil => rfl
  | cons member rest inductionHypothesis =>
      rw [readTypes, inductionHypothesis, List.mapM_cons, readEntry]
      cases readType surroundings member.2 <;> rfl

theorem readType_object (surroundings : Surroundings) (json : Json) :
    readType surroundings (.object [("object", json)]) =
      (readEntries (readType surroundings) json).map .object := by
  cases json with
  | object members =>
      rw [readEntries_object, ← readTypes_eq_mapM, Option.map_map]
      rfl
  | _ => rfl

theorem ofTypes_eq_mapValues (types : List (String × AttributeType)) :
    ofTypes types = Entries.mapValues ofType types := by
  induction types with
  | nil => rfl
  | cons entry rest inductionHypothesis =>
      rw [ofTypes, inductionHypothesis]
      rfl

/-- An object with one member is read as its reader reads what stands there. -/
theorem reads_of_single {word : String} (reads : ∀ json : Json, json.Arranges written →
      read (.object [(word, json)]) = some value) :
    Reads read (.object [(word, written)]) value := by
  intro document arranges
  have sorted : Entries.Sorted [(word, written)] := List.pairwise_singleton _ _
  rw [← Entries.ofPairs_of_sorted sorted] at arranges
  rcases arranges.object sorted.nodup with ⟨members, rfl, arrange⟩
  rcases arrange.eq_singleton with ⟨json, rfl, inner⟩
  exact reads json inner

/-- A type is read back, whatever surrounds it. -/
theorem reads_type {type : AttributeType} (wellFormed : type.WellFormed)
    (surroundings : Surroundings) : Reads (readType surroundings) (ofType type) type := by
  have collection {word : String} {element : AttributeType}
      {wrap : AttributeType → AttributeType}
      (unwraps : ∀ json, readType surroundings (.object [(word, json)]) =
        (readType surroundings json).map wrap)
      (inner : Reads (readType surroundings) (ofType element) element) :
      Reads (readType surroundings) (.object [(word, ofType element)]) (wrap element) :=
    reads_of_single fun json arranges => by rw [unwraps, inner json arranges, Option.map_some]
  induction wellFormed with
  | string | int64 | float64 | bool | dynamic => exact reads_of_leaf nofun nofun rfl
  | list _ inductionHypothesis => exact collection (fun _ => rfl) inductionHypothesis
  | set _ inductionHypothesis => exact collection (fun _ => rfl) inductionHypothesis
  | map _ inductionHypothesis => exact collection (fun _ => rfl) inductionHypothesis
  | @object types sorted _ inductionHypothesis =>
      rw [ofType, ofTypes_eq_mapValues]
      refine reads_of_single fun json arranges => ?_
      have inner : readEntries (readType surroundings) json = some (Entries.mapValues id types) :=
        reads_entries inductionHypothesis sorted json arranges
      rw [readType_object, inner, Entries.mapValues_id, Option.map_some]

end Document
end ProviderKit

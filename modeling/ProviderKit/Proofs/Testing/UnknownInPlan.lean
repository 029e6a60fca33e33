import ProviderKit.Proofs.Value.Marker
import ProviderKit.Proofs.Value.UnknownPaths
import ProviderKit.Testing.Tester

/-!
# What is unknown in a plan

A plan holds the document of the planned value, and a test that asks whether something is unknown in
it has the document read without its type.  The document does not tell a map from an object.  What
stands under a key of a map then stands under a name, so the path that has the key does not find it
any more, and a path that has a name in its place does.

Nothing else is lost: a set becomes a list, where the same indexes lead to the same elements, and a
string of a decoded value is not taken for unknown.  So the answers are right for all paths exactly
when nothing unknown stands inside a map.
-/

namespace ProviderKit

/-- The step that leads to the same part once a map has become an object. -/
def PathStep.named : PathStep → PathStep
  | .key word => .name word
  | step => step

/-- The path with a name in place of each key. -/
def Path.named (path : Path) : Path :=
  path.map PathStep.named

/-- No step of the path is a key. -/
def Path.Keyless (path : Path) : Prop :=
  ∀ word, .key word ∉ path

/-- What is read from the document of a value without its type. -/
def Value.retold (value : Value) : Value :=
  ofUntyped value.toJson

/-! ## Paths without keys -/

theorem PathStep.named_eq_self_iff {step : PathStep} :
    step.named = step ↔ ∀ word, step ≠ .key word := by
  cases step <;> simp [named]

namespace Path

variable {path : Path}

theorem named_eq_self_iff : path.named = path ↔ path.Keyless := by
  unfold named Keyless
  induction path with
  | nil => simp
  | cons step rest inductionHypothesis =>
      rw [List.map_cons, List.cons.injEq, inductionHypothesis, PathStep.named_eq_self_iff]
      simp only [List.mem_cons, not_or, forall_and, ne_comm]

end Path

/-! ## Documents read without a type -/

namespace Value

variable {value part found : Value} {step : PathStep} {path place other : Path}

theorem retold_list (elements : List Value) :
    (list elements).retold = list (elements.map retold) := by
  rw [retold, toJson, ofUntyped, toJsonItems_eq_map, ofUntypedItems_eq_map, List.map_map]
  rfl

theorem retold_set (elements : List Value) :
    (set elements).retold = list (elements.map retold) :=
  retold_list elements

theorem retold_object (attributes : List (String × Value)) :
    (object attributes).retold = object (Entries.mapValues retold attributes) := by
  rw [retold, toJson, ofUntyped, toJsonMembers_eq_map, ofUntypedMembers_eq_mapValues]
  simp only [Entries.mapValues, List.map_map]
  rfl

theorem retold_map (entries : List (String × Value)) :
    (map entries).retold = object (Entries.mapValues retold entries) :=
  retold_object entries

theorem retold_string {s : String} (ordinary : s ≠ unknownMarker) :
    (string s).retold = string s := by
  simp [retold, toJson, ofUntyped, ordinary]

/-- Nothing becomes unknown that was not, since no string has the text of the marker. -/
theorem retold_eq_unknown_iff (unmarked : value.Unmarked) :
    value.retold = unknown ↔ value = unknown := by
  cases unmarked with
  | unknown => exact iff_of_true rfl rfl
  | null | bool | number => exact iff_of_false nofun nofun
  | string ordinary => rw [retold_string ordinary]
  | list => simp [retold_list]
  | set => simp [retold_set]
  | map => simp [retold_map]
  | object => simp [retold_object]

/-- The parts stay, in their order, but for the names in place of keys. -/
theorem parts_retold (unmarked : value.Unmarked) :
    value.retold.parts = value.parts.map fun part => (part.1.named, part.2.retold) := by
  cases unmarked with
  | null | unknown | bool | number => rfl
  | string ordinary =>
      rw [retold_string ordinary]
      rfl
  | list => simp [retold_list, parts, List.zipIdx_map, PathStep.named, Function.comp_def]
  | set => simp [retold_set, parts, List.zipIdx_map, PathStep.named, Function.comp_def]
  | map =>
      simp [retold_map, parts, Entries.mapValues, PathStep.named, Function.comp_def]
  | object =>
      simp [retold_object, parts, Entries.mapValues, PathStep.named, Function.comp_def]

theorem Unmarked.of_mem_parts (unmarked : value.Unmarked) {part : PathStep × Value}
    (member : part ∈ value.parts) : part.2.Unmarked := by
  cases unmarked with
  | null | unknown | bool | number | string => cases member
  | list inner | set inner =>
      rcases List.mem_map.mp member with ⟨⟨element, index⟩, isElement, rfl⟩
      exact inner element (List.mem_of_getElem? (List.mem_zipIdx_iff_getElem?.mp isElement))
  | map inner | object inner =>
      rcases List.mem_map.mp member with ⟨entry, isEntry, rfl⟩
      exact inner entry isEntry

theorem KeyOrdered.retold (ordered : value.KeyOrdered) : value.retold.KeyOrdered := by
  induction ordered with
  | null => exact .null
  | unknown => exact .unknown
  | bool b => exact .bool b
  | number n => exact .number n
  | string s =>
      by_cases marked : s = unknownMarker
      · subst marked
        exact .unknown
      · rw [retold_string marked]
        exact .string s
  | list _ inductionHypothesis =>
      rw [retold_list]
      exact .list (List.forall_mem_map.mpr inductionHypothesis)
  | set _ inductionHypothesis =>
      rw [retold_set]
      exact .list (List.forall_mem_map.mpr inductionHypothesis)
  | map sorted _ inductionHypothesis =>
      rw [retold_map]
      exact .object ((Entries.sorted_congr (Entries.keys_mapValues _ _)).mpr sorted)
        (List.forall_mem_map.mpr inductionHypothesis)
  | object sorted _ inductionHypothesis =>
      rw [retold_object]
      exact .object ((Entries.sorted_congr (Entries.keys_mapValues _ _)).mpr sorted)
        (List.forall_mem_map.mpr inductionHypothesis)

/-- The same parts are unknown, but for the names in place of keys. -/
theorem unknownPathsFrom_retold (unmarked : value.Unmarked) (path : Path) :
    value.retold.unknownPathsFrom path.named = (value.unknownPathsFrom path).map Path.named := by
  induction value using parts_induct generalizing path with
  | step value inductionHypothesis =>
      by_cases known : value = unknown
      · subst known
        rfl
      have stillKnown : value.retold ≠ unknown := (retold_eq_unknown_iff unmarked).not.mpr known
      rw [unknownPathsFrom_eq_flatMap known, unknownPathsFrom_eq_flatMap stillKnown,
        parts_retold unmarked, List.flatMap_map, List.map_flatMap]
      refine List.flatMap_congr fun part member => ?_
      rw [← inductionHypothesis part member (unmarked.of_mem_parts member), Path.named, Path.named,
        List.map_append]
      rfl

theorem unknownPaths_retold (unmarked : value.Unmarked) :
    value.retold.unknownPaths = value.unknownPaths.map Path.named :=
  unknownPathsFrom_retold unmarked []

/-- What is read from the document is unknown below the place of something unknown, where this has
names in place of keys. -/
theorem getAt_retold_eq_unknown_iff (unmarked : value.Unmarked) (ordered : value.KeyOrdered) :
    value.retold.getAt path = .ok unknown ↔ ∃ place ∈ value.unknownPaths, place.named <+: path := by
  rw [getAt_eq_ok_iff, follow?_eq_unknown_iff]
  simp only [← mem_unknownPaths_iff ordered.retold, unknownPaths_retold unmarked, List.mem_map]
  constructor
  · rintro ⟨_, leads, place, member, rfl⟩
    exact ⟨place, member, leads⟩
  · rintro ⟨place, member, leads⟩
    exact ⟨place.named, leads, place, member, rfl⟩

/-! ## Places with and without keys -/

/-- A value has no part at a name next to one at a key. -/
theorem named_eq_self_of_part? (first : value.part? step = some part)
    (second : value.part? step.named = some found) : step.named = step := by
  cases step with
  | name | index => rfl
  | key word =>
      cases value with
      | map => cases second
      | _ => cases first

/-- Where both can be followed, a path with names in place of keys only leads to its own places. -/
theorem prefix_of_named_prefix (atOther : value.partAt? other = some part)
    (atPlace : value.partAt? place = some found) (leads : other.named <+: place) :
    other <+: place := by
  induction other generalizing value place with
  | nil => exact List.nil_prefix
  | cons step rest inductionHypothesis =>
      rcases leads with ⟨further, rfl⟩
      rcases partAt?_cons_eq_some_iff.mp atOther with ⟨inner, first, later⟩
      rcases partAt?_cons_eq_some_iff.mp atPlace with ⟨innerToo, firstToo, laterToo⟩
      have same := named_eq_self_of_part? first firstToo
      rw [same, first] at firstToo
      cases firstToo
      have inside := inductionHypothesis later laterToo (List.prefix_append _ _)
      exact List.cons_prefix_cons.mpr ⟨same.symm, inside⟩

/-- Nothing stands below something unknown. -/
theorem eq_of_prefix_of_unknown (isUnknown : value.partAt? other = some unknown)
    (atPlace : value.partAt? place = some found) (leads : other <+: place) : other = place := by
  rcases leads with ⟨rest, rfl⟩
  rw [partAt?_append, isUnknown] at atPlace
  cases rest with
  | nil => exact (List.append_nil other).symm
  | cons step rest => cases step <;> cases atPlace

/-- Something unknown is still found at its place when no key leads there. -/
theorem exists_named_prefix_iff_keyless (ordered : value.KeyOrdered)
    (member : place ∈ value.unknownPaths) :
    (∃ other ∈ value.unknownPaths, other.named <+: place) ↔ place.Keyless := by
  constructor
  · rintro ⟨other, isOther, leads⟩
    have atOther := (mem_unknownPaths_iff ordered).mp isOther
    have atPlace := (mem_unknownPaths_iff ordered).mp member
    -- The place that is told leads to the one that is asked for, and nothing stands below it.
    have leadsToo := prefix_of_named_prefix atOther atPlace leads
    rcases eq_of_prefix_of_unknown atOther atPlace leadsToo with rfl
    exact Path.named_eq_self_iff.mp (leads.eq_of_length (List.length_map _))
  · intro keyless
    exact ⟨place, member, (Path.named_eq_self_iff.mpr keyless).symm ▸ List.prefix_rfl⟩

end Value

/-! ## Plans -/

namespace PlannedChange

variable {plan : PlannedChange} {value : Value} {path : Path}

theorem isUnknown_iff (planned : plan.plannedState = value.toJson) :
    plan.isUnknown path = true ↔ value.retold.getAt path = .ok .unknown := by
  unfold isUnknown
  rw [planned, ← Value.retold]
  cases value.retold.getAt path with
  | error => simp
  | ok found => cases found <;> simp [Value.isUnknown]

/-- A plan shows as unknown what stands at or below the place of something unknown, with names in
place of keys.  A path to something unknown is told right exactly when it has no key, and all paths
are told right exactly when nothing unknown stands inside a map. -/
theorem unknown_is_told_iff_keyless {schema : Schema} {json : Json}
    (decoded : Value.ofJson schema.valueType json = .ok value) (ordered : value.KeyOrdered)
    (planned : plan.plannedState = value.toJson) :
    (∀ path, plan.isUnknown path = true ↔ ∃ place ∈ value.unknownPaths, place.named <+: path) ∧
    (∀ place ∈ value.unknownPaths, plan.isUnknown place = true ↔ place.Keyless) ∧
    ((∀ path, plan.isUnknown path = true ↔ value.getAt path = .ok .unknown) ↔
      ∀ place ∈ value.unknownPaths, place.Keyless) := by
  have unmarked := Value.unmarked_of_ofJson decoded
  have told : ∀ path, plan.isUnknown path = true ↔
      ∃ place ∈ value.unknownPaths, place.named <+: path := fun path =>
    (isUnknown_iff planned).trans (Value.getAt_retold_eq_unknown_iff unmarked ordered)
  have toldAtPlaces : ∀ place ∈ value.unknownPaths,
      (plan.isUnknown place = true ↔ place.Keyless) := fun place member =>
    (told place).trans (Value.exists_named_prefix_iff_keyless ordered member)
  have read : ∀ path, value.getAt path = .ok .unknown ↔
      ∃ place ∈ value.unknownPaths, place <+: path := by
    intro path
    rw [Value.getAt_eq_ok_iff, Value.follow?_eq_unknown_iff]
    simp only [Value.mem_unknownPaths_iff ordered, and_comm]
  refine ⟨told, toldAtPlaces, fun right place member => ?_, fun keyless path => ?_⟩
  · exact (toldAtPlaces place member).mp ((right place).mpr
      ((read place).mpr ⟨place, member, List.prefix_rfl⟩))
  · rw [told, read]
    refine exists_congr fun place => and_congr_right fun member => ?_
    rw [Path.named_eq_self_iff.mpr (keyless place member)]

/-- A volume with an identity of its own and tags. -/
def taggedSchema : Schema :=
  ⟨0, ⟨[("id", { type := .string, flags := { computed := true } }),
    ("tags", { type := .map .string, flags := { optional := true } })], [], none⟩⟩

/-- The plan of a volume, from its identity and the tag of its environment. -/
def taggedPlan (id environment : Value) : PlannedChange :=
  ⟨(Value.object [("id", id), ("tags", .map [("env", environment)])]).toJson, [], []⟩

/-- An unknown identity is told right next to known tags. -/
theorem unknown_identity_is_told :
    let volume := Value.object [("id", .unknown), ("tags", .map [("env", .string "test")])]
    let plan := taggedPlan .unknown (.string "test")
    Value.ofJson taggedSchema.valueType volume.toJson = .ok volume ∧ volume.KeyOrdered ∧
      plan.plannedState = volume.toJson ∧ volume.unknownPaths = [[.name "id"]] ∧
      ∀ path, plan.isUnknown path = true ↔ volume.getAt path = .ok .unknown := by
  intro volume plan
  have decoded : Value.ofJson taggedSchema.valueType volume.toJson = .ok volume := rfl
  have ordered : volume.KeyOrdered := Value.keyOrdered_of_toJson (Json.keyOrdered_iff.mpr rfl)
  have planned : plan.plannedState = volume.toJson := rfl
  have places : volume.unknownPaths = [[.name "id"]] := rfl
  refine ⟨decoded, ordered, planned, places, ?_⟩
  refine (unknown_is_told_iff_keyless decoded ordered planned).2.2.mpr fun place member => ?_
  rw [places, List.mem_singleton] at member
  subst member
  simp [Path.Keyless]

/-- An unknown tag is not told at its path, and is told at a path that does not lead to it. -/
theorem unknown_tag_is_not_told :
    let volume := Value.object [("id", .string "a"), ("tags", .map [("env", .unknown)])]
    let plan := taggedPlan (.string "a") .unknown
    let tag : Path := [.name "tags", .key "env"]
    let attr : Path := [.name "tags", .name "env"]
    Value.ofJson taggedSchema.valueType volume.toJson = .ok volume ∧
      plan.plannedState = volume.toJson ∧ tag ∈ volume.unknownPaths ∧
      volume.getAt tag = .ok .unknown ∧ plan.isUnknown tag = false ∧
      volume.getAt attr = .error (.invalidPath attr) ∧ plan.isUnknown attr = true :=
  ⟨rfl, rfl, List.mem_singleton_self _, rfl, rfl, rfl, rfl⟩

end PlannedChange
end ProviderKit

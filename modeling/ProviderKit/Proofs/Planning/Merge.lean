import ProviderKit.Proofs.Planning.Collection
import ProviderKit.Proofs.Planning.Gaps
import ProviderKit.Proofs.Planning.Settled
import ProviderKit.Proofs.Value.Equivalence
import ProviderKit.Proofs.Value.KeyOrder

/-!
# Both passes as one merge

Completing a plan takes two passes, each of which changes the planned value in place.  Together
they come to one merge of the configuration and the plan, which `Merged` states without passes:
attributes that the configuration leaves null get their default or become unknown, all others
stay, and the shape of the value is kept.  The merge is determined by this.  The problems that are
reported are those of the first pass, one for each place at which an invalid default would be
needed.
-/

namespace ProviderKit

/-! ## The merge -/

/-- What becomes of a planned attribute that is configured with a value: the default where nothing
is configured, unknown where the provider computes the value, and what is planned otherwise. -/
inductive Attribute.Merged (attr : Attribute) (configured planned : Value) : Value → Prop
  | default {document : Json} {value : Value} (gap : configured.isNull = true)
      (found : attr.defaultValue = some document)
      (decoded : Value.ofJson attr.type document = .ok value) : Merged attr configured planned value
  | unknown (gap : configured.isNull = true) (noDefault : attr.defaultValue = none)
      (computed : attr.flags.computed = true) : Merged attr configured planned .unknown
  | configured (present : configured.isNull = false) : Merged attr configured planned planned
  | invalid {document : Json} {error : ValueError} (found : attr.defaultValue = some document)
      (refused : Value.ofJson attr.type document = .error error) :
      Merged attr configured planned planned
  | plain (noDefault : attr.defaultValue = none) (notComputed : attr.flags.computed = false) :
      Merged attr configured planned planned

mutual

/-- What becomes of a planned value of a block.  Null and unknown stay, and an object keeps its
names. -/
inductive Block.Merged : Block → Value → Value → Value → Prop
  | null (block : Block) (config : Value) : Block.Merged block config .null .null
  | unknown (block : Block) (config : Value) : Block.Merged block config .unknown .unknown
  | object {block : Block} {config : Value} {planned result : List (String × Value)}
      (names : Entries.keys result = Entries.keys planned)
      (attributes : ∀ name attr, Entries.find? name block.attributes = some attr →
        attr.Merged (config.attributeNamed name) ((Value.object planned).attributeNamed name)
          ((Value.object result).attributeNamed name))
      (blocks : ∀ name nested, Entries.find? name block.blocks = some nested →
        NestedBlock.Merged nested (config.attributeNamed name)
          ((Value.object planned).attributeNamed name)
          ((Value.object result).attributeNamed name)) :
      Block.Merged block config (.object planned) (.object result)

/-- What becomes of the planned occurrences of a nested block.  Each is merged with its counterpart
in the configuration, which is at the same index, or under the same key, or null. -/
inductive NestedBlock.Merged : NestedBlock → Value → Value → Value → Prop
  | single {nested : NestedBlock} {configured planned result : Value}
      (mode : nested.mode = .single)
      (occurrence : Block.Merged nested.block configured planned result) :
      NestedBlock.Merged nested configured planned result
  | null {nested : NestedBlock} (configured : Value) (repeated : nested.mode ≠ .single) :
      NestedBlock.Merged nested configured .null .null
  | unknown {nested : NestedBlock} (configured : Value) (repeated : nested.mode ≠ .single) :
      NestedBlock.Merged nested configured .unknown .unknown
  | list {nested : NestedBlock} {configured : Value} {elements results : List Value}
      (mode : nested.mode = .list) (length : results.length = elements.length)
      (each : ∀ i element result, elements[i]? = some element → results[i]? = some result →
        Block.Merged nested.block (configured.elementOrNull i) element result) :
      NestedBlock.Merged nested configured (.list elements) (.list results)
  | set {nested : NestedBlock} {configured : Value} {elements results : List Value}
      (mode : nested.mode = .set) (length : results.length = elements.length)
      (each : ∀ i element result, elements[i]? = some element → results[i]? = some result →
        Block.Merged nested.block (configured.elementOrNull i) element result) :
      NestedBlock.Merged nested configured (.set elements) (.set results)
  | map {nested : NestedBlock} {configured : Value} {entries results : List (String × Value)}
      (mode : nested.mode = .map) (keys : Entries.keys results = Entries.keys entries)
      (each : ∀ key entry result, Entries.find? key entries = some entry →
        Entries.find? key results = some result →
          Block.Merged nested.block (configured.entryOrNull key) entry result) :
      NestedBlock.Merged nested configured (.map entries) (.map results)

end

namespace Attribute

variable {attr : Attribute} {configured planned result : Value}

private theorem filler?_of_default {document : Json}
    (found : attr.defaultValue = some document) :
    attr.filler? = (Value.ofJson attr.type document).toOption := by
  rw [filler?, found]

private theorem filler?_of_noDefault (noDefault : attr.defaultValue = none) :
    attr.filler? = if attr.flags.computed then some .unknown else none := by
  rw [filler?, noDefault]

/-- Both passes over one attribute are its merge. -/
theorem merged_iff : attr.Merged configured planned result ↔
    result = attr.completed configured planned := by
  constructor
  · intro merged
    cases merged with
    | default gap found decoded =>
        refine (completed_of_gap ?_ gap planned).symm
        rw [filler?_of_default found, decoded, Except.toOption]
    | unknown gap noDefault computed =>
        refine (completed_of_gap ?_ gap planned).symm
        rw [filler?_of_noDefault noDefault, if_pos computed]
    | configured present => exact (completed_of_configured present planned).symm
    | invalid found refused =>
        refine (completed_of_unfillable ?_ planned).symm
        rw [filler?_of_default found, refused, Except.toOption]
    | plain noDefault notComputed =>
        refine (completed_of_unfillable ?_ planned).symm
        rw [filler?_of_noDefault noDefault, notComputed]
        rfl
  · rintro rfl
    cases gap : configured.isNull with
    | false =>
        rw [completed_of_configured gap]
        exact .configured gap
    | true =>
        cases found : attr.defaultValue with
        | some document =>
            have fillable := filler?_of_default found
            cases decoded : Value.ofJson attr.type document with
            | ok value =>
                rw [decoded] at fillable
                rw [completed_of_gap fillable gap]
                exact .default gap found decoded
            | error problem =>
                rw [decoded] at fillable
                rw [completed_of_unfillable fillable]
                exact .invalid found decoded
        | none =>
            have fillable := filler?_of_noDefault found
            cases computed : attr.flags.computed with
            | true =>
                rw [computed, if_pos rfl] at fillable
                rw [completed_of_gap fillable gap]
                exact .unknown gap found computed
            | false =>
                rw [computed, if_neg Bool.false_ne_true] at fillable
                rw [completed_of_unfillable fillable]
                exact .plain found computed

end Attribute

/-! ## Two passes are a merge -/

namespace NestedBlock

variable {nested : NestedBlock} {configured planned result : Value}

/-- Elements are merged one by one when each of them is. -/
private theorem merged_elements_iff {block : Block} {elements : List Value} (configured : Value)
    (results : List Value) (inner : ∀ i, ∀ element ∈ elements, ∀ result,
      block.Merged (configured.elementOrNull i) element result ↔
        result = block.completed (configured.elementOrNull i) element) :
    (results.length = elements.length ∧
      ∀ i element result, elements[i]? = some element → results[i]? = some result →
        block.Merged (configured.elementOrNull i) element result) ↔
      results = elements.mapIdx fun i element =>
        block.completed (configured.elementOrNull i) element := by
  constructor
  · rintro ⟨length, each⟩
    refine List.ext_getElem (by simp [length]) fun i bound _ => ?_
    have bound' : i < elements.length := length ▸ bound
    rw [List.getElem_mapIdx]
    refine (inner i _ (List.getElem_mem bound') _).mp ?_
    exact each i _ _ (List.getElem?_eq_getElem bound') (List.getElem?_eq_getElem bound)
  · rintro rfl
    refine ⟨List.length_mapIdx, fun i element result present found => ?_⟩
    rw [List.getElem?_mapIdx, present] at found
    exact (inner i element (List.mem_of_getElem? present) result).mpr (Option.some.inj found).symm

/-- Entries are merged key by key when each of them is. -/
private theorem merged_entries_iff {block : Block} {entries : List (String × Value)}
    (configured : Value) (results : List (String × Value)) (nodup : (Entries.keys entries).Nodup)
    (inner : ∀ entry ∈ entries, ∀ result,
      block.Merged (configured.entryOrNull entry.1) entry.2 result ↔
        result = block.completed (configured.entryOrNull entry.1) entry.2) :
    (Entries.keys results = Entries.keys entries ∧
      ∀ key entry result, Entries.find? key entries = some entry →
        Entries.find? key results = some result →
          block.Merged (configured.entryOrNull key) entry result) ↔
      results = entries.map fun entry =>
        (entry.1, block.completed (configured.entryOrNull entry.1) entry.2) := by
  have found (key : String) := Entries.find?_map_with_key (fun key entry =>
    block.completed (configured.entryOrNull key) entry) key entries
  have keys := Entries.keys_map_with_key (fun key entry =>
    block.completed (configured.entryOrNull key) entry) entries
  constructor
  · rintro ⟨same, each⟩
    refine (Entries.paired_of_find? (same.trans keys.symm) (same ▸ nodup) ?_).eq
    intro key left right foundLeft foundRight
    rw [found key] at foundRight
    rcases Option.map_eq_some_iff.mp foundRight with ⟨entry, present, rfl⟩
    exact (inner _ (Entries.mem_of_find? present) _).mp (each key _ _ present foundLeft)
  · rintro rfl
    refine ⟨keys, fun key entry result present foundResult => ?_⟩
    rw [found key, present] at foundResult
    exact (inner _ (Entries.mem_of_find? present) result).mpr (Option.some.inj foundResult).symm

private theorem merged_single_iff (mode : nested.mode = .single) :
    nested.Merged configured planned result ↔ nested.block.Merged configured planned result := by
  constructor
  · intro merged
    cases merged with
    | single _ occurrence => exact occurrence
    | null _ repeated | unknown _ repeated => exact absurd mode repeated
    | list other | set other | map other => cases mode.symm.trans other
  · exact .single mode

private theorem merged_list_iff (mode : nested.mode = .list) {elements : List Value}
    (inner : ∀ i, ∀ element ∈ elements, ∀ result,
      nested.block.Merged (configured.elementOrNull i) element result ↔
        result = nested.block.completed (configured.elementOrNull i) element) :
    nested.Merged configured (.list elements) result ↔
      result = nested.completed configured (.list elements) := by
  have repeated : nested.mode ≠ .single := by simp [mode]
  rw [completed_list repeated]
  constructor
  · intro merged
    cases merged with
    | single other => exact absurd other repeated
    | list _ length each =>
        exact congrArg Value.list ((merged_elements_iff configured _ inner).mp ⟨length, each⟩)
  · rintro rfl
    rcases (merged_elements_iff configured _ inner).mpr rfl with ⟨length, each⟩
    exact .list mode length each

private theorem merged_set_iff (mode : nested.mode = .set) {elements : List Value}
    (inner : ∀ i, ∀ element ∈ elements, ∀ result,
      nested.block.Merged (configured.elementOrNull i) element result ↔
        result = nested.block.completed (configured.elementOrNull i) element) :
    nested.Merged configured (.set elements) result ↔
      result = nested.completed configured (.set elements) := by
  have repeated : nested.mode ≠ .single := by simp [mode]
  rw [completed_set repeated]
  constructor
  · intro merged
    cases merged with
    | single other => exact absurd other repeated
    | set _ length each =>
        exact congrArg Value.set ((merged_elements_iff configured _ inner).mp ⟨length, each⟩)
  · rintro rfl
    rcases (merged_elements_iff configured _ inner).mpr rfl with ⟨length, each⟩
    exact .set mode length each

private theorem merged_map_iff (mode : nested.mode = .map) {entries : List (String × Value)}
    (nodup : (Entries.keys entries).Nodup)
    (inner : ∀ entry ∈ entries, ∀ result,
      nested.block.Merged (configured.entryOrNull entry.1) entry.2 result ↔
        result = nested.block.completed (configured.entryOrNull entry.1) entry.2) :
    nested.Merged configured (.map entries) result ↔
      result = nested.completed configured (.map entries) := by
  have repeated : nested.mode ≠ .single := by simp [mode]
  rw [completed_map repeated]
  constructor
  · intro merged
    cases merged with
    | single other => exact absurd other repeated
    | map _ keys each =>
        exact congrArg Value.map ((merged_entries_iff configured _ nodup inner).mp ⟨keys, each⟩)
  · rintro rfl
    rcases (merged_entries_iff configured _ nodup inner).mpr rfl with ⟨keys, each⟩
    exact .map mode keys each

/-- Occurrences are merged exactly as the passes complete them when each of them is. -/
private theorem merged_iff
    (inner : ∀ configured planned result, Value.HasType nested.block.valueType planned →
      planned.KeyOrdered → (nested.block.Merged configured planned result ↔
        result = nested.block.completed configured planned))
    (typed : Value.HasType nested.valueType planned) (ordered : planned.KeyOrdered) :
    nested.Merged configured planned result ↔ result = nested.completed configured planned := by
  cases occurrences_of_hasType typed with
  | single mode typed =>
      rw [completed_single mode, merged_single_iff mode]
      exact inner configured planned result typed ordered
  | null repeated =>
      rw [completed_null]
      constructor
      · intro merged
        cases merged with
        | single mode => exact absurd mode repeated
        | null => rfl
      · rintro rfl
        exact .null configured repeated
  | unknown repeated =>
      rw [completed_unknown]
      constructor
      · intro merged
        cases merged with
        | single mode => exact absurd mode repeated
        | unknown => rfl
      · rintro rfl
        exact .unknown configured repeated
  | list mode each =>
      cases ordered with
      | list inOrder =>
          exact merged_list_iff mode fun i element member result =>
            inner _ element result (each element member) (inOrder element member)
  | set mode each =>
      cases ordered with
      | set inOrder =>
          exact merged_set_iff mode fun i element member result =>
            inner _ element result (each element member) (inOrder element member)
  | map mode each =>
      cases ordered with
      | map sorted inOrder =>
          exact merged_map_iff mode sorted.nodup fun entry member result =>
            inner _ entry.2 result (each entry member) (inOrder entry member)

end NestedBlock

namespace Block.WellFormed

variable {block : Block} {config planned result : Value}

/-- An object is merged as the passes complete it when its nested blocks are. -/
private theorem merged_object_iff (wellFormed : block.WellFormed)
    {entries : List (String × Value)} (covers : block.Covers entries)
    (nestedMerged : ∀ name nested result, Entries.find? name block.blocks = some nested →
      (nested.Merged (config.attributeNamed name) ((Value.object entries).attributeNamed name)
          result ↔
        result = nested.completed (config.attributeNamed name)
          ((Value.object entries).attributeNamed name))) :
    block.Merged config (.object entries) result ↔
      result = block.completed config (.object entries) := by
  have covered : block.Covers (block.filledEntries .unknowns config
      (block.filledEntries .defaults config entries)) :=
    wellFormed.covers_filledEntries (wellFormed.covers_filledEntries covers)
  have objects := block.completed_object config entries
  constructor
  · intro merged
    cases merged with
    | @object _ _ _ result names attributes blocks =>
        rw [objects]
        refine congrArg Value.object (wellFormed.object_ext (names.trans covers) covered ?_ ?_)
        · intro name attr found
          rw [← objects, wellFormed.attribute_completed covers found]
          exact Attribute.merged_iff.mp (attributes name attr found)
        · intro name nested found
          rw [← objects, wellFormed.nested_completed covers found]
          exact (nestedMerged name nested _ found).mp (blocks name nested found)
  · rintro rfl
    rw [objects]
    refine .object (covered.trans covers.symm) (fun name attr found => ?_)
      fun name nested found => ?_
    · rw [← objects, wellFormed.attribute_completed covers found]
      exact Attribute.merged_iff.mpr rfl
    · rw [← objects, wellFormed.nested_completed covers found]
      exact (nestedMerged name nested _ found).mpr rfl

/-- The merge of a planned value is the value that both passes make of it, and no other. -/
theorem merged_iff (wellFormed : block.WellFormed) (typed : Value.HasType block.valueType planned)
    (ordered : planned.KeyOrdered) :
    block.Merged config planned result ↔ result = block.completed config planned := by
  induction block, wellFormed using WellFormed.induct generalizing config planned result with
  | step block wellFormed inductionHypothesis =>
      rcases cases_of_hasType typed with rfl | rfl | ⟨entries, rfl, covers⟩
      · rw [completed_null]
        constructor
        · rintro ⟨⟩
          rfl
        · rintro rfl
          exact .null block config
      · rw [completed_unknown]
        constructor
        · rintro ⟨⟩
          rfl
        · rintro rfl
          exact .unknown block config
      · refine merged_object_iff wellFormed covers fun name nested result found => ?_
        have member := Entries.mem_of_find? found
        exact NestedBlock.merged_iff (fun _ _ _ => inductionHypothesis _ member)
          (wellFormed.hasType_nested typed found) (ordered.attributeNamed name)

end Block.WellFormed

/-! ## The problems of both passes -/

/-- A planned occurrence of a nested block, with its place among the occurrences and its counterpart
in the configuration. -/
structure Pairing where
  place : Path
  configured : Value
  planned : Value

namespace NestedBlock

/-- The planned occurrences of a nested block with their counterparts. -/
def pairings (nested : NestedBlock) (configured planned : Value) : List Pairing :=
  let items (elements : List Value) : List Pairing :=
    elements.zipIdx.map fun (element, i) => ⟨[.index i], configured.elementOrNull i, element⟩
  match nested.mode, planned with
  | .single, planned => [⟨[], configured, planned⟩]
  | _, .list elements => items elements
  | _, .set elements => items elements
  | _, .map entries =>
    entries.map fun (key, entry) => ⟨[.key key], configured.entryOrNull key, entry⟩
  | _, _ => []

variable {nested : NestedBlock} {pass : PlanPass} {configured planned : Value}

/-- The problems of a nested block are those of its occurrences in turn. -/
theorem complete_diagnostics_eq (path : Path) :
    (nested.complete pass path configured planned).diagnostics =
      (nested.pairings configured planned).flatMap fun pairing =>
        (nested.block.complete pass (path ++ pairing.place) pairing.configured
          pairing.planned).diagnostics := by
  rcases nested with ⟨block, mode, _, _⟩
  cases mode with
  | single => simp [complete, pairings]
  | _ =>
      cases planned with
      | list | set | map =>
          simp only [complete, pairings, Completion.map, Completion.sequence, List.flatMap_map]
          rfl
      | _ => rfl

/-- Different occurrences stand at different places. -/
theorem pairings_apart (ordered : planned.KeyOrdered) :
    (nested.pairings configured planned).Pairwise fun pairing other =>
      pairing.place.Apart other.place := by
  rcases nested with ⟨block, mode, _, _⟩
  cases mode with
  | single => exact List.pairwise_singleton _ _
  | _ =>
      cases ordered with
      | @list elements | @set elements => exact List.pairwise_map.mpr (Path.indexes_apart elements)
      | map sorted => exact List.pairwise_map.mpr (Path.keys_apart sorted.nodup)
      | _ => exact .nil

theorem keyOrdered_pairing (ordered : planned.KeyOrdered) {pairing : Pairing}
    (member : pairing ∈ nested.pairings configured planned) : pairing.planned.KeyOrdered := by
  have items {elements : List Value} (inner : ∀ element ∈ elements, element.KeyOrdered)
      (member : pairing ∈ elements.zipIdx.map fun (element, i) =>
        (⟨[.index i], configured.elementOrNull i, element⟩ : Pairing)) :
      pairing.planned.KeyOrdered := by
    rcases List.mem_map.mp member with ⟨⟨element, i⟩, isElement, rfl⟩
    exact inner element (List.mem_of_getElem? (List.mem_zipIdx_iff_getElem?.mp isElement))
  rcases nested with ⟨block, mode, _, _⟩
  cases mode with
  | single =>
      rcases List.mem_singleton.mp member with rfl
      exact ordered
  | _ =>
      cases ordered with
      | list inner | set inner => exact items inner member
      | map _ inner =>
          rcases List.mem_map.mp member with ⟨entry, isEntry, rfl⟩
          exact inner entry isEntry
      | _ => exact absurd member List.not_mem_nil

end NestedBlock

namespace Block

/-- A place at which a planned object of the block, or of a block nested in it, has an attribute,
with the value that this attribute is configured with. -/
inductive Occurrence : Block → Value → Value → Path → Attribute → Value → Prop
  | own {block : Block} {config : Value} {planned : List (String × Value)} {name : String}
      {attr : Attribute} (found : Entries.find? name block.attributes = some attr) :
      Occurrence block config (.object planned) [.name name] attr (config.attributeNamed name)
  | nested {block : Block} {config : Value} {planned : List (String × Value)} {name : String}
      {nested : NestedBlock} {pairing : Pairing} {rest : Path} {attr : Attribute}
      {configured : Value} (found : Entries.find? name block.blocks = some nested)
      (paired : pairing ∈ nested.pairings (config.attributeNamed name)
        ((Value.object planned).attributeNamed name))
      (inside : Occurrence nested.block pairing.configured pairing.planned rest attr configured) :
      Occurrence block config (.object planned) (.name name :: (pairing.place ++ rest)) attr
        configured

/-- An error with which a default is refused that is needed at a place. -/
def RefusesDefault (block : Block) (config planned : Value) (place : Path) (error : ValueError) :
    Prop :=
  ∃ attr configured document, block.Occurrence config planned place attr configured ∧
    configured.isNull = true ∧ attr.defaultValue = some document ∧
      Value.ofJson attr.type document = .error error

variable {block : Block} {pass : PlanPass} {path : Path} {config planned : Value}

/-- An error that a pass meets when it fills an attribute. -/
private def Refuses (block : Block) (pass : PlanPass) (config planned : Value) (place : Path)
    (error : ValueError) : Prop :=
  ∃ attr configured, block.Occurrence config planned place attr configured ∧
    attr.filling pass configured = some (.error error)

private theorem refuses_object_iff (wellFormed : block.WellFormed)
    {planned : List (String × Value)} {place : Path} {error : ValueError} :
    block.Refuses pass config (.object planned) place error ↔
      (∃ entry ∈ block.attributes, ∃ rest, place = [.name entry.1] ++ rest ∧ rest = [] ∧
        entry.2.filling pass (config.attributeNamed entry.1) = some (.error error)) ∨
      ∃ entry ∈ block.blocks, ∃ rest, place = [.name entry.1] ++ rest ∧
        ∃ pairing ∈ entry.2.pairings (config.attributeNamed entry.1)
            ((Value.object planned).attributeNamed entry.1),
          ∃ further, rest = pairing.place ++ further ∧
            entry.2.block.Refuses pass pairing.configured pairing.planned further error := by
  constructor
  · rintro ⟨attr, configured, occurrence, refused⟩
    cases occurrence with
    | own found =>
        exact .inl ⟨_, Entries.mem_of_find? found, [], rfl, rfl, refused⟩
    | nested found paired inside =>
        exact .inr ⟨_, Entries.mem_of_find? found, _, rfl, _, paired, _, rfl, _, _, inside, refused⟩
  · rintro (⟨entry, member, _, rfl, rfl, refused⟩ |
      ⟨entry, member, _, rfl, pairing, paired, further, rfl, attr, configured, inside, refused⟩)
    · exact ⟨entry.2, _, .own (Entries.find?_of_mem wellFormed.attributesNodup member), refused⟩
    · exact ⟨attr, configured,
        .nested (Entries.find?_of_mem wellFormed.blocksNodup member) paired inside, refused⟩

theorem completeAttributes_diagnostics_flatMap (attributes : List (String × Attribute))
    (planned : List (String × Value)) :
    (completeAttributes pass path config attributes planned).diagnostics =
      attributes.flatMap fun entry =>
        match entry.2.filling pass (config.attributeNamed entry.1) with
        | some (.error error) => [invalidDefault (path ++ [.name entry.1]) error]
        | _ => [] := by
  induction attributes generalizing planned with
  | nil => rfl
  | cons entry rest inductionHypothesis =>
      rcases entry with ⟨name, attr⟩
      rw [completeAttributes, List.flatMap_cons]
      rcases attr.filling pass (config.attributeNamed name) with _ | _ | _
      · exact inductionHypothesis planned
      · exact congrArg (_ :: ·) (inductionHypothesis planned)
      · exact inductionHypothesis _

/-- A pass reports one problem for each place where it meets an error. -/
private theorem WellFormed.collects_refused (wellFormed : block.WellFormed)
    (ordered : planned.KeyOrdered) (path : Path) :
    Collects invalidDefault path (block.Refuses pass config planned)
      (block.complete pass path config planned).diagnostics := by
  induction block, wellFormed using WellFormed.induct generalizing path config planned with
  | step block wellFormed inductionHypothesis =>
      cases planned with
      | object planned =>
          rw [wellFormed.complete_object_diagnostics, completeAttributes_diagnostics_flatMap]
          refine (Collects.members wellFormed.attributesNodup wellFormed.blocksNodup
            wellFormed.disjoint ?_ ?_).congr fun place error => (refuses_object_iff wellFormed).symm
          · intro entry _
            cases refused : entry.2.filling pass (config.attributeNamed entry.1) with
            | none => exact .none fun _ _ found => nomatch found.2
            | some result =>
                cases result with
                | ok value => exact .none fun _ _ found => nomatch found.2
                | error error =>
                    refine (Collects.here error).congr fun place other => ?_
                    rw [Option.some.injEq, Except.error.injEq, eq_comm (a := other)]
          · intro entry member
            rw [NestedBlock.complete_diagnostics_eq]
            have inOrder := ordered.attributeNamed entry.1
            refine .flatMap (NestedBlock.pairings_apart inOrder) fun pairing paired => ?_
            exact inductionHypothesis entry member (NestedBlock.keyOrdered_pairing inOrder paired) _
      | _ =>
          cases block
          exact .none fun place error ⟨_, _, occurrence, _⟩ => nomatch occurrence

/-- Filling in defaults meets exactly the errors of the defaults that are needed. -/
private theorem refuses_defaults_iff {place : Path} {error : ValueError} :
    block.Refuses .defaults config planned place error ↔
      block.RefusesDefault config planned place error := by
  constructor
  · rintro ⟨attr, configured, occurrence, refused⟩
    unfold Attribute.filling at refused
    split at refused
    · next gap =>
      cases found : attr.defaultValue with
      | none => simp [found] at refused
      | some document =>
          rw [found] at refused
          exact ⟨attr, configured, document, occurrence, gap, found, Option.some.inj refused⟩
    · cases refused
  · rintro ⟨attr, configured, document, occurrence, gap, found, refused⟩
    refine ⟨attr, configured, occurrence, ?_⟩
    unfold Attribute.filling
    rw [if_pos gap, found]
    exact congrArg some refused

/-- What becomes unknown needs no default. -/
private theorem not_refuses_unknowns (place : Path) (error : ValueError) :
    ¬ block.Refuses .unknowns config planned place error := by
  rintro ⟨attr, configured, _, refused⟩
  unfold Attribute.filling at refused
  split at refused
  · split at refused
    · next chosen => cases chosen
    · split at refused <;> cases refused
    · cases refused
  · cases refused

/-- Both passes together make the merge of the configuration and the plan.  They report one problem
for each place at which an invalid default is needed, and nothing else. -/
theorem passes_make_merge (wellFormed : block.WellFormed)
    (typed : Value.HasType block.valueType planned) (ordered : planned.KeyOrdered) (path : Path)
    (config : Value) :
    let first := block.complete .defaults path config planned
    let second := block.complete .unknowns path config first.result
    (∀ result, block.Merged config planned result ↔ result = second.result) ∧
      Collects invalidDefault path (block.RefusesDefault config planned) first.diagnostics ∧
      second.diagnostics = [] := by
  intro first second
  have filled : first.result = block.fill .defaults config planned := block.complete_result ..
  have made : second.result = block.completed config planned := by
    rw [completed, ← filled]
    exact block.complete_result ..
  refine ⟨fun result => ?_, ?_, ?_⟩
  · rw [made]
    exact wellFormed.merged_iff typed ordered
  · exact (wellFormed.collects_refused ordered path).congr fun _ _ => refuses_defaults_iff
  · change (block.complete .unknowns path config first.result).diagnostics = []
    rw [filled, wellFormed.complete_fill_diagnostics typed]
    exact (wellFormed.collects_refused ordered path).eq_nil not_refuses_unknowns

end Block

/-! A block of rules: each has an identifier that the provider computes, a mode with a default, and
a port whose default is not a number. -/

/-- The block with its rules in a list. -/
def filterBlock : Block :=
  ⟨[], [("rule", .ofMode .list ⟨[
    ("id", { type := .string, flags := { computed := true } }),
    ("mode",
      { type := .string, flags := { optional := true }, defaultValue := some (.string "tcp") }),
    ("port",
      { type := .int64, flags := { optional := true }, defaultValue := some (.string "any") })],
    [], none⟩)], none⟩

/-- A value of the block, from the identifier, the mode and the port of each rule. -/
def filterRules (rules : List (Value × Value × Value)) : Value :=
  .object [("rule", .list (rules.map fun (id, mode, port) =>
    .object [("id", id), ("mode", mode), ("port", port)]))]

theorem filterBlock_wellFormed : filterBlock.WellFormed := by
  have inOrder : ["id", "mode", "port"].Pairwise (· < ·) := by decide
  refine .intro (by simp [Entries.Sorted, filterBlock]) (by simp [Entries.Sorted, filterBlock])
    (by simp [filterBlock]) (by simp [filterBlock]) ?_
  simp only [filterBlock, List.forall_mem_singleton, NestedBlock.ofMode]
  exact .intro inOrder (by simp [Entries.Sorted]) (by simp)
    (by simp [AttributeType.WellFormed.string, AttributeType.WellFormed.int64]) (by simp)

/-- The second rule of the plan has no counterpart in the configuration. -/
theorem filter_rules_merged :
    let config := filterRules [(.null, .string "udp", .int 80)]
    let planned :=
      filterRules [(.null, .string "udp", .int 80), (.string "b", .string "udp", .null)]
    let first := filterBlock.complete .defaults [] config planned
    let second := filterBlock.complete .unknowns [] config first.result
    filterBlock.WellFormed ∧ Value.HasType filterBlock.valueType planned ∧ planned.KeyOrdered ∧
      (∀ result, filterBlock.Merged config planned result ↔ result = second.result) ∧
      Collects invalidDefault [] (filterBlock.RefusesDefault config planned) first.diagnostics ∧
      second.diagnostics = [] ∧
      second.result =
        filterRules [(.unknown, .string "udp", .int 80), (.unknown, .string "tcp", .null)] ∧
      first.diagnostics = [invalidDefault [.name "rule", .index 1, .name "port"]
        (.typeMismatch [] "int64" "string")] := by
  intro config planned first second
  have typed : Value.HasType filterBlock.valueType planned :=
    (Value.Decoded.conforms ⟨planned.toJson, rfl⟩).1
  have ordered : planned.KeyOrdered := Value.keyOrdered_of_toJson (Json.keyOrdered_iff.mpr rfl)
  rcases Block.passes_make_merge filterBlock_wellFormed typed ordered [] config with
    ⟨merged, reported, silent⟩
  exact ⟨filterBlock_wellFormed, typed, ordered, merged, reported, silent, rfl, rfl⟩

end ProviderKit

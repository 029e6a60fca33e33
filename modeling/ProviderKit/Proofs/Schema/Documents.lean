import ProviderKit.Proofs.Induction
import ProviderKit.Proofs.Schema.Reading

/-!
# Schemas read back from their documents

The document of a schema shares one object among several records: the flags of an attribute and
the attribute, a block and its repetition, the block and the version of a schema.  Each reader
picks its own members by name and finds them wherever they stand.  What a writer leaves out is
what a reader assumes for a member that is missing, with one exception: a default of null is
written, and a member that is null reads like one that is missing.
-/

namespace ProviderKit

/-- The attribute without its default, if the default is null. -/
def Attribute.withoutNullDefault (attr : Attribute) : Attribute :=
  { attr with defaultValue := attr.defaultValue.filter fun document => !document.isNull }

mutual

/-- The block without the defaults that are null, at every level. -/
def Block.withoutNullDefaults : Block → Block
  | ⟨attributes, blocks, description⟩ =>
    ⟨Entries.mapValues Attribute.withoutNullDefault attributes, blocksWithoutNullDefaults blocks,
      description⟩

def Block.blocksWithoutNullDefaults :
    List (String × NestedBlock) → List (String × NestedBlock)
  | [] => []
  | (name, ⟨block, mode, minItems, maxItems⟩) :: rest =>
    (name, ⟨block.withoutNullDefaults, mode, minItems, maxItems⟩) ::
      blocksWithoutNullDefaults rest

end

def NestedBlock.withoutNullDefaults (nested : NestedBlock) : NestedBlock :=
  { nested with block := nested.block.withoutNullDefaults }

def Schema.withoutNullDefaults (schema : Schema) : Schema :=
  { schema with block := schema.block.withoutNullDefaults }

namespace Block

theorem blocksWithoutNullDefaults_eq (blocks : List (String × NestedBlock)) :
    blocksWithoutNullDefaults blocks =
      Entries.mapValues NestedBlock.withoutNullDefaults blocks := by
  induction blocks with
  | nil => rfl
  | cons entry rest inductionHypothesis =>
      rcases entry with ⟨name, ⟨block, mode, minItems, maxItems⟩⟩
      rw [blocksWithoutNullDefaults, inductionHypothesis]
      rfl

/-- Attributes, nested blocks and the attributes of object types are in name order, and so are
the members of defaults, at every level. -/
inductive Ordered : Block → Prop
  | intro {block : Block} (attributesSorted : Entries.Sorted block.attributes)
      (blocksSorted : Entries.Sorted block.blocks)
      (types : ∀ entry ∈ block.attributes, entry.2.type.WellFormed)
      (defaults : ∀ entry ∈ block.attributes, ∀ document, entry.2.defaultValue = some document →
        document.KeyOrdered)
      (inner : ∀ entry ∈ block.blocks, Ordered entry.2.block) : Ordered block

/-- No default is null, at any level. -/
inductive DefaultsNonnull : Block → Prop
  | intro {block : Block}
      (attributes : ∀ entry ∈ block.attributes, entry.2.defaultValue ≠ some .null)
      (inner : ∀ entry ∈ block.blocks, DefaultsNonnull entry.2.block) : DefaultsNonnull block

end Block

namespace Document

variable {α β : Type} {name : String} {members pairs : List (String × Json)}
  {surroundings : Surroundings} {read : Json → Reading α}

/-! ## Attributes -/

@[simp] theorem find?_optionalMember (name other : String) (write : α → Json) (value : Option α) :
    Entries.find? name (optionalMember other write value) =
      if other = name then value.map write else none := by
  cases value with
  | none => rw [optionalMember, Entries.find?_nil, Option.map_none, ite_self]
  | some given => rfl

theorem keys_optionalMember (name : String) (write : α → Json) (value : Option α) :
    (Entries.keys (optionalMember name write value)).Sublist [name] := by
  cases value with
  | none => exact List.nil_sublist _
  | some given => exact List.Sublist.refl _

theorem keys_attributeMembers (attr : Attribute) :
    (Entries.keys (attributeMembers attr)).Sublist
      ["type", "required", "optional", "computed", "sensitive", "requires_replace", "description",
        "default", "deprecation_message"] := by
  rw [attributeMembers, Entries.keys_append, Entries.keys_append, Entries.keys_append]
  exact (((List.Sublist.refl _).append (keys_optionalMember _ _ _)).append
    (keys_optionalMember _ _ _)).append (keys_optionalMember _ _ _)

/-- An attribute is read back without its default, if that is null. -/
theorem reads_attribute {attr : Attribute} (wellFormed : attr.type.WellFormed)
    (surroundings : Surroundings) :
    Reads (readAttribute surroundings) (ofAttribute attr) attr.withoutNullDefault := by
  intro document arranges
  have nodup : (Entries.keys (attributeMembers attr)).Nodup :=
    (keys_attributeMembers attr).nodup (by decide)
  rcases arranges.object nodup with ⟨members, rfl, arrange⟩
  have flag {name : String} {b : Bool}
      (written : Entries.find? name (attributeMembers attr) = some (.bool b)) :
      required name members readBool = some b := required_of_eq_some arrange written (reads_bool b)
  have type : required "type" members (readType surroundings) = some attr.type :=
    required_of_eq_some arrange rfl (reads_type wellFormed surroundings)
  have flags : readFlags members = some attr.flags := by
    rw [readFlags, flag (b := attr.flags.required) rfl, flag (b := attr.flags.optional) rfl,
      flag (b := attr.flags.computed) rfl, flag (b := attr.flags.sensitive) rfl]
    rfl
  have requiresReplace : fieldD "requires_replace" members false readBool =
      some attr.requiresReplace := fieldD_of_eq_some arrange rfl (reads_bool _)
  have description : optional "description" members readText = some attr.description :=
    optional_text arrange (by
      simp [attributeMembers, Entries.find?])
  have message : optional "deprecation_message" members readText = some attr.deprecationMessage :=
    optional_text arrange (by
      simp [attributeMembers, Entries.find?])
  have default : optional "default" members (fun document => some document.inKeyOrder) =
      some (attr.defaultValue.filter fun document => !document.isNull) := by
    refine optional_of_eq_map arrange id ?_ fun given _ json arranges => ?_
    · simp [attributeMembers, Entries.find?]
    · exact congrArg some arranges.inKeyOrder_eq
  simp only [readAttribute, members?, Option.bind_eq_bind, Option.bind_some, type, flags,
    requiresReplace, description, message, default]
  rfl

/-! ## The readers of nested blocks -/

theorem readBlockItems_eq_mapM (surroundings : Surroundings) (items : List (String × Json)) :
    readBlockItems surroundings items = items.mapM (readEntry (readNestedBlock surroundings)) := by
  induction items with
  | nil => rfl
  | cons item rest inductionHypothesis =>
      rcases item with ⟨name, json⟩
      rw [List.mapM_cons, ← inductionHypothesis]
      cases json with
      | object members =>
          have nested : readNestedBlock surroundings (.object members) =
              nestedBlockOf surroundings members
                (blockOf .shared members (readBlocks .shared members)) := rfl
          rw [readBlockItems, readEntry, ← nested]
          cases readNestedBlock surroundings (.object members) <;> rfl
      | _ => rfl

theorem readNamedBlocks_eq_readEntries (surroundings : Surroundings) (json : Json) :
    readNamedBlocks surroundings json = readEntries (readNestedBlock surroundings) json := by
  cases json with
  | object items => rw [readNamedBlocks, readBlockItems_eq_mapM, readEntries_object]
  | _ => rfl

/-- The nested blocks of a block are read from a member of their own. -/
theorem readBlocks_eq_fieldD (surroundings : Surroundings) (members : List (String × Json)) :
    readBlocks surroundings members =
      fieldD "blocks" members [] (readEntries (readNestedBlock surroundings)) := by
  induction members with
  | nil => rfl
  | cons member rest inductionHypothesis =>
      rcases member with ⟨name, json⟩
      rw [readBlocks, readNamedBlocks_eq_readEntries, inductionHypothesis, fieldD, fieldD, field?,
        field?]
      by_cases same : name = "blocks"
      · subst same
        rw [if_pos rfl, List.filter_cons_of_pos (by simp)]
        cases others : rest.filter (fun member => member.1 == "blocks") with
        | nil =>
            have once : (rest.any fun member => member.1 == "blocks") = false :=
              List.any_eq_false.mpr (List.filter_eq_nil_iff.mp others)
            rw [once]
            rfl
        | cons other more =>
            have again : other ∈ rest.filter fun member => member.1 == "blocks" :=
              others ▸ List.mem_cons_self
            have repeated : (rest.any fun member => member.1 == "blocks") = true :=
              List.any_eq_true.mpr ⟨other, List.mem_filter.mp again⟩
            rw [repeated]
            rfl
      · rw [if_neg same, List.filter_cons_of_neg (by simpa using same)]

/-! ## Blocks -/

@[simp] theorem find?_entriesMember (name other : String) (entries : List (String × Json)) :
    Entries.find? name (entriesMember other entries) =
      if other = name ∧ entries ≠ [] then some (.object entries) else none := by
  cases entries with
  | nil => simp [entriesMember]
  | cons entry rest => simp [entriesMember, Entries.find?]

theorem keys_entriesMember (name : String) (entries : List (String × Json)) :
    (Entries.keys (entriesMember name entries)).Sublist [name] := by
  unfold entriesMember
  split
  · exact List.nil_sublist _
  · exact List.Sublist.refl _

theorem keys_blockMembers (block : Block) :
    (Entries.keys (blockMembers block)).Sublist ["attributes", "blocks", "description"] := by
  rcases block with ⟨attributes, blocks, description⟩
  rw [blockMembers, Entries.keys_append, Entries.keys_append]
  exact ((keys_entriesMember _ _).append (keys_entriesMember _ _)).append
    (keys_optionalMember _ _ _)

theorem nestedBlocks_eq_mapValues (blocks : List (String × NestedBlock)) :
    nestedBlocks blocks = Entries.mapValues ofNestedBlock blocks := by
  induction blocks with
  | nil => rfl
  | cons entry rest inductionHypothesis =>
      rcases entry with ⟨name, ⟨block, mode, minItems, maxItems⟩⟩
      rw [nestedBlocks, inductionHypothesis]
      rfl

/-- Members that are written when there are entries are read back as the entries. -/
theorem fieldD_entries (arrange : Json.MembersArrange members pairs) {write : β → Json}
    {result : β → α} {entries : Entries β} (sorted : entries.Sorted)
    (written : Entries.find? name pairs =
      Entries.find? name (entriesMember name (Entries.mapValues write entries)))
    (reads : ∀ entry ∈ entries, Reads read (write entry.2) (result entry.2)) :
    fieldD name members [] (readEntries read) = some (Entries.mapValues result entries) := by
  rw [find?_entriesMember] at written
  by_cases empty : entries = []
  · subst empty
    rw [if_neg fun both => both.2 rfl] at written
    exact fieldD_of_eq_none arrange written
  · have present : Entries.mapValues write entries ≠ [] := mt List.map_eq_nil_iff.mp empty
    rw [if_pos ⟨rfl, present⟩] at written
    exact fieldD_of_eq_some arrange written (reads_entries reads sorted)

/-- A record that shares its members with a block gives the block back, without the defaults
that are null, where it has the members of the block. -/
def BlockReadsBack (block : Block) : Prop :=
  ∀ surroundings members pairs, Json.MembersArrange members pairs →
    (∀ name, isBlockMember name = true →
      Entries.find? name pairs = Entries.find? name (blockMembers block)) →
    readBlockMembers surroundings members = some block.withoutNullDefaults

theorem find?_blockMembers_of_not {block : Block} (other : isBlockMember name = false) :
    Entries.find? name (blockMembers block) = none := by
  refine Entries.find?_eq_none_iff.mpr fun member => ?_
  have known := (keys_blockMembers block).subset member
  simp only [List.mem_cons, List.not_mem_nil, or_false] at known
  rcases known with rfl | rfl | rfl <;> cases other

theorem find?_repetitionMembers_of_block {mode : NestingMode} {minItems maxItems : UInt32}
    (known : isBlockMember name = true) :
    Entries.find? name (repetitionMembers mode minItems maxItems) = none := by
  refine Entries.find?_eq_none_iff.mpr fun member => ?_
  have others : ∀ other ∈ Entries.keys (repetitionMembers mode minItems maxItems),
      isBlockMember other = false := by
    simp [repetitionMembers, isBlockMember]
  exact Bool.eq_false_iff.mp (others name member) known

theorem reads_mode (mode : NestingMode) (surroundings : Surroundings) :
    Reads (readMode surroundings) (ofMode mode) mode := by
  cases mode <;> exact reads_of_leaf nofun nofun rfl

/-- A nested block is read back when its block is. -/
theorem reads_nestedBlock {nested : NestedBlock} (inner : BlockReadsBack nested.block)
    (surroundings : Surroundings) :
    Reads (readNestedBlock surroundings) (ofNestedBlock nested) nested.withoutNullDefaults := by
  intro document arranges
  let repetition := repetitionMembers nested.mode nested.minItems nested.maxItems
  have keys : (Entries.keys (blockMembers nested.block ++ repetition)).Sublist
      ["attributes", "blocks", "description", "nesting_mode", "min_items", "max_items"] := by
    rw [Entries.keys_append]
    exact (keys_blockMembers nested.block).append (List.Sublist.refl _)
  rcases arranges.object (keys.nodup (by decide)) with ⟨members, rfl, arrange⟩
  have block : readBlockMembers .shared members = some nested.block.withoutNullDefaults := by
    refine inner .shared members _ arrange fun name known => ?_
    rw [Entries.find?_append, find?_repetitionMembers_of_block known, Option.or_none]
  have found {name : String} {json : Json} (other : isBlockMember name = false)
      (written : Entries.find? name repetition = some json) :
      Entries.find? name (blockMembers nested.block ++ repetition) = some json := by
    rw [Entries.find?_append, find?_blockMembers_of_not other, Option.none_or, written]
  have mode : fieldD "nesting_mode" members .single (readMode surroundings) = some nested.mode :=
    fieldD_of_eq_some arrange (found rfl rfl) (reads_mode _ _)
  have minItems : fieldD "min_items" members 0 (readNat (2 ^ 32)) =
      some nested.minItems.toNat :=
    fieldD_of_eq_some arrange (found rfl rfl) (reads_nat nested.minItems.toNat_lt)
  have maxItems : fieldD "max_items" members 0 (readNat (2 ^ 32)) =
      some nested.maxItems.toNat :=
    fieldD_of_eq_some arrange (found rfl rfl) (reads_nat nested.maxItems.toNat_lt)
  simp only [readNestedBlock, nestedBlockOf, members?, Option.bind_eq_bind, Option.bind_some, block,
    mode, minItems, maxItems, UInt32.ofNat_toNat]
  rfl

/-- Every block is read back without the defaults that are null. -/
theorem blockReadsBack {block : Block} (ordered : block.Ordered) : BlockReadsBack block := by
  induction ordered with
  | @intro block attributesSorted blocksSorted types _ _ inductionHypothesis =>
      intro surroundings members pairs arrange same
      rcases block with ⟨attributes, blocks, description⟩
      have attributesRead : fieldD "attributes" members []
          (readEntries (readAttribute surroundings)) =
            some (Entries.mapValues Attribute.withoutNullDefault attributes) := by
        refine fieldD_entries arrange attributesSorted ?_ fun entry member =>
          reads_attribute (types entry member) surroundings
        rw [same _ rfl, blockMembers]
        simp
      have blocksRead : readBlocks surroundings members =
          some (Entries.mapValues NestedBlock.withoutNullDefaults blocks) := by
        rw [readBlocks_eq_fieldD]
        refine fieldD_entries arrange blocksSorted ?_ fun entry member =>
          reads_nestedBlock (inductionHypothesis entry member) surroundings
        rw [same _ rfl, blockMembers, nestedBlocks_eq_mapValues]
        simp
      have descriptionRead : optional "description" members readText = some description := by
        refine optional_text arrange ?_
        rw [same _ rfl, blockMembers]
        simp
      rw [readBlockMembers, blockOf, attributesRead, blocksRead, descriptionRead,
        Block.withoutNullDefaults, Block.blocksWithoutNullDefaults_eq]
      rfl

/-- A schema is read back without the defaults that are null. -/
theorem reads_schema {schema : Schema} (ordered : schema.block.Ordered) :
    Reads readSchema (ofSchema schema) schema.withoutNullDefaults := by
  intro document arranges
  have keys : (Entries.keys (("version", .int schema.version.toNat) ::
      blockMembers schema.block)).Sublist ["version", "attributes", "blocks", "description"] :=
    (keys_blockMembers schema.block).cons_cons "version"
  rcases arranges.object (keys.nodup (by decide)) with ⟨members, rfl, arrange⟩
  have version : fieldD "version" members 0 (readNat (2 ^ 64)) = some schema.version.toNat :=
    fieldD_of_eq_some arrange rfl (reads_nat schema.version.toNat_lt)
  have block : readBlockMembers .shared members = some schema.block.withoutNullDefaults := by
    refine blockReadsBack ordered .shared members _ arrange fun name known => ?_
    refine Entries.find?_cons_of_ne (fun same => ?_) _ _
    subst same
    cases known
  simp only [readSchema, members?, Option.bind_eq_bind, Option.bind_some, version, block,
    UInt64.ofNat_toNat]
  rfl

/-! ## Documents in key order -/

theorem keyOrdered_ofType {type : AttributeType} (wellFormed : type.WellFormed) :
    (ofType type).KeyOrdered := by
  have single {word : String} {json : Json} (inner : json.KeyOrdered) :
      (Json.object [(word, json)]).KeyOrdered :=
    .object (List.pairwise_singleton _ _) (List.forall_mem_singleton.mpr inner)
  induction wellFormed with
  | string | int64 | float64 | bool | dynamic => exact .string _
  | list _ inner | set _ inner | map _ inner => exact single inner
  | @object types sorted _ inductionHypothesis =>
      rw [ofType, ofTypes_eq_mapValues]
      refine single (.object ?_ ?_)
      · exact (Entries.sorted_congr (Entries.keys_mapValues ofType types)).mpr sorted
      · exact List.forall_mem_map.mpr inductionHypothesis

theorem keyOrdered_optionalMember {write : α → Json} {value : Option α}
    (each : ∀ given, value = some given → (write given).KeyOrdered) :
    ∀ member ∈ optionalMember name write value, member.2.KeyOrdered := by
  cases value with
  | none => exact nofun
  | some given => exact List.forall_mem_singleton.mpr (each given rfl)

theorem keyOrdered_entriesMember {write : β → Json} {entries : Entries β}
    (sorted : entries.Sorted) (each : ∀ entry ∈ entries, (write entry.2).KeyOrdered) :
    ∀ member ∈ entriesMember name (Entries.mapValues write entries), member.2.KeyOrdered := by
  unfold entriesMember
  split
  · exact nofun
  · refine List.forall_mem_singleton.mpr (.object ?_ (List.forall_mem_map.mpr each))
    exact (Entries.sorted_congr (Entries.keys_mapValues write entries)).mpr sorted

theorem keyOrdered_ofAttribute {attr : Attribute} (wellFormed : attr.type.WellFormed)
    (default : ∀ document, attr.defaultValue = some document → document.KeyOrdered) :
    (ofAttribute attr).KeyOrdered := by
  refine .ofPairs (List.forall_mem_append.mpr ⟨List.forall_mem_append.mpr
    ⟨List.forall_mem_append.mpr ⟨?_, ?_⟩, ?_⟩, ?_⟩)
  · simp [keyOrdered_ofType wellFormed, Json.KeyOrdered.bool]
  · exact keyOrdered_optionalMember fun _ _ => .string _
  · exact keyOrdered_optionalMember default
  · exact keyOrdered_optionalMember fun _ _ => .string _

theorem keyOrdered_blockMembers {block : Block} (ordered : block.Ordered) :
    ∀ member ∈ blockMembers block, member.2.KeyOrdered := by
  induction ordered with
  | @intro block attributesSorted blocksSorted types defaults _ inductionHypothesis =>
      rcases block with ⟨attributes, blocks, description⟩
      rw [blockMembers, nestedBlocks_eq_mapValues]
      refine List.forall_mem_append.mpr ⟨List.forall_mem_append.mpr ⟨?_, ?_⟩, ?_⟩
      · exact keyOrdered_entriesMember attributesSorted fun entry member =>
          keyOrdered_ofAttribute (types entry member) (defaults entry member)
      · refine keyOrdered_entriesMember blocksSorted fun entry member => .ofPairs ?_
        refine List.forall_mem_append.mpr ⟨inductionHypothesis entry member, ?_⟩
        have mode : (ofMode entry.2.mode).KeyOrdered := by
          cases entry.2.mode <;> exact .string _
        simp [repetitionMembers, mode, Json.int, Json.KeyOrdered.number]
      · exact keyOrdered_optionalMember fun _ _ => .string _

theorem keyOrdered_ofSchema {schema : Schema} (ordered : schema.block.Ordered) :
    (ofSchema schema).KeyOrdered :=
  .ofPairs (List.forall_mem_cons.mpr ⟨.number _, keyOrdered_blockMembers ordered⟩)

/-! ## Faithful documents -/

theorem withoutNullDefault_eq_self_iff {attr : Attribute} :
    attr.withoutNullDefault = attr ↔ attr.defaultValue ≠ some .null := by
  rcases attr with ⟨type, flags, description, requiresReplace, _ | document, message⟩
  · simp [Attribute.withoutNullDefault]
  · cases document <;> simp [Attribute.withoutNullDefault, Json.isNull]

/-- To take the defaults away that are null changes a block exactly when there is one. -/
theorem withoutNullDefaults_eq_self_iff {block : Block} :
    block.withoutNullDefaults = block ↔ block.DefaultsNonnull := by
  induction block using Block.induct with
  | step attributes blocks description inductionHypothesis =>
      have nested : ∀ entry ∈ blocks, entry.2.withoutNullDefaults = entry.2 ↔
          entry.2.block.DefaultsNonnull := by
        intro entry member
        rw [← inductionHypothesis entry member]
        rcases entry.2 with ⟨block, mode, minItems, maxItems⟩
        simp [NestedBlock.withoutNullDefaults]
      rw [Block.withoutNullDefaults, Block.blocksWithoutNullDefaults_eq, Block.mk.injEq,
        Entries.mapValues_eq_self_iff, Entries.mapValues_eq_self_iff]
      constructor
      · rintro ⟨attributesSame, blocksSame, _⟩
        refine .intro (fun entry member => ?_) fun entry member => ?_
        · exact withoutNullDefault_eq_self_iff.mp (attributesSame entry member)
        · exact (nested entry member).mp (blocksSame entry member)
      · rintro ⟨attributesNonnull, inner⟩
        refine ⟨fun entry member => ?_, fun entry member => ?_, rfl⟩
        · exact withoutNullDefault_eq_self_iff.mpr (attributesNonnull entry member)
        · exact (nested entry member).mpr (inner entry member)

/-- A text that a printer makes of the document is read alike, when it nests no deeper than a
reader allows. -/
theorem parseSchema?_compact {schema : Schema} (ordered : schema.block.Ordered) {document : Json}
    (arranges : document.Arranges (ofSchema schema))
    (readable : document.Readable Json.maxDepth) :
    parseSchema? document.compact = some schema.withoutNullDefaults := by
  rw [parseSchema?, readable.parseAsWritten_compact]
  exact reads_schema ordered document arranges

/-- The document of a schema, with the members of its objects in any order, is read as the schema
without the defaults that are null, and so the whole schema comes back exactly when none is. -/
theorem schema_reads_back {schema : Schema} (ordered : schema.block.Ordered) :
    readSchema (ofSchema schema) = some schema.withoutNullDefaults ∧
      (∀ document : Json, document.Arranges (ofSchema schema) →
        readSchema document = some schema.withoutNullDefaults ∧
        ∀ text, Json.parseAsWritten text = .ok document →
          parseSchema? text = some schema.withoutNullDefaults) ∧
      (readSchema (ofSchema schema) = some schema ↔ schema.block.DefaultsNonnull) := by
  have reads := reads_schema ordered
  have whole := reads _ (keyOrdered_ofSchema ordered).arranges
  refine ⟨whole, fun document arranges => ⟨reads document arranges, fun text parsed => ?_⟩, ?_⟩
  · rw [parseSchema?, parsed]
    exact reads document arranges
  · rw [whole, Option.some.injEq, ← withoutNullDefaults_eq_self_iff]
    rcases schema with ⟨version, block⟩
    simp [Schema.withoutNullDefaults]

/-- Gateways with an address and rules, all limits at their greatest, of which the address of a
gateway and the note of a rule have a default of null. -/
def gatewaySchema : Schema where
  version := 0xFFFFFFFFFFFFFFFF
  block :=
    { attributes :=
        [("address", {
          type := .object [("host", .string), ("port", .int64)]
          flags := { optional := true, computed := true }
          defaultValue := some .null })]
      blocks :=
        [("rule", {
          block :=
            { attributes :=
                [("note", {
                  type := .map .dynamic
                  flags := { optional := true }
                  description := some "What the rule is for."
                  defaultValue := some .null }),
                ("ports", {
                  type := .list .int64
                  flags := { optional := true, sensitive := true }
                  requiresReplace := true
                  defaultValue := some (.array [.int 80])
                  deprecationMessage := some "Use the address." })]
              blocks := []
              description := none }
          mode := .set
          minItems := 1
          maxItems := 0xFFFFFFFF })]
      description := some "A gateway." }

theorem gatewaySchema_ordered : gatewaySchema.block.Ordered := by
  have address : (AttributeType.object [("host", .string), ("port", .int64)]).WellFormed :=
    .object (List.pairwise_pair.mpr (by decide))
      (by simp [AttributeType.WellFormed.string, AttributeType.WellFormed.int64])
  refine .intro (List.pairwise_singleton _ _) (List.pairwise_singleton _ _)
    (List.forall_mem_singleton.mpr address) ?_ (List.forall_mem_singleton.mpr ?_)
  · simp [gatewaySchema, Json.KeyOrdered.null]
  · refine .intro (List.pairwise_pair.mpr (by decide)) .nil ?_ ?_ nofun
    · simp [AttributeType.WellFormed.map, AttributeType.WellFormed.list,
        AttributeType.WellFormed.dynamic, AttributeType.WellFormed.int64]
    · have ports : (Json.array [.int 80]).KeyOrdered :=
        .array (List.forall_mem_singleton.mpr (.number _))
      simp [ports, Json.KeyOrdered.null]

/-- The schema of a gateway comes back without two of its defaults. -/
theorem schema_reads_back_gateway :
    gatewaySchema.block.Ordered ∧
      readSchema (ofSchema gatewaySchema) = some gatewaySchema.withoutNullDefaults ∧
      readSchema (ofSchema gatewaySchema) ≠ some gatewaySchema := by
  have holds := schema_reads_back gatewaySchema_ordered
  refine ⟨gatewaySchema_ordered, holds.1, fun same => ?_⟩
  rcases holds.2.2.mp same with ⟨attributes, _⟩
  exact attributes _ List.mem_cons_self rfl

end Document
end ProviderKit

import ProviderKit.Proofs.Schema.Occurrences

/-!
# What validation reports

Validation reports the rules that a configuration breaks although it has the type of the schema, and
nothing else.  Wherever a block occurs, each of its attributes may break a rule, and each nested
block may be missing or occur too often or not often enough.  There is one diagnostic for each of
these, at the path of the attribute or of the nested block.

The diagnostics come in the order of the schema: at each level the attributes before the nested
blocks, both by name, and for a nested block first what is wrong with its number and then what is
wrong with its occurrences, one after the other.
-/

namespace ProviderKit

/-! ## Broken rules -/

/-- A rule that a value can break although it has its type. -/
inductive Breach where
  /-- A required attribute is null. -/
  | missingAttribute
  /-- An attribute is set that only the provider sets. -/
  | readOnlyAttribute
  /-- A deprecated attribute is set. -/
  | deprecatedAttribute (message : String)
  /-- A block that occurs at most once is needed and does not occur. -/
  | missingBlock
  /-- A block occurs less often than it has to. -/
  | tooFewBlocks (least count : Nat)
  /-- A block occurs more often than it may. -/
  | tooManyBlocks (greatest count : Nat)

/-- What is reported of a rule that is broken at a place. -/
def Breach.report (place : Path) : Breach → Diagnostic
  | missingAttribute =>
    .attributeError place "Missing Configuration for Required Attribute"
      ("Must set a configuration value for the " ++ place.display ++
        " attribute as the provider has marked it as required.")
  | readOnlyAttribute =>
    .attributeError place "Invalid Configuration for Read-Only Attribute"
      ("Cannot set value for the " ++ place.display ++
        " attribute as the provider has marked it as read-only. " ++
        "Remove the configuration line setting the value.")
  | deprecatedAttribute message => .attributeWarning place "Attribute Deprecated" message
  | missingBlock =>
    .attributeError place "Missing Configuration for Required Block"
      ("Must have a configuration value for the " ++ place.display ++ " block.")
  | tooFewBlocks least count =>
    .attributeError place "Invalid Block"
      ("Block " ++ place.display ++
        " must have a configuration value as the provider has marked it as required. " ++
        "At least " ++ Nat.repr least ++ " item(s) are required, got " ++ Nat.repr count ++ ".")
  | tooManyBlocks greatest count =>
    .attributeError place "Invalid Block"
      ("Block " ++ place.display ++ " allows at most " ++ Nat.repr greatest ++
        " item(s), got " ++ Nat.repr count ++ ".")

/-- The value of an attribute breaks a rule.  An unknown value is a value that is set. -/
inductive Attribute.Breaks (attr : Attribute) : Value → Breach → Prop
  | missing (required : attr.flags.required = true) : Breaks attr .null .missingAttribute
  | readOnly {value : Value} (set : value ≠ .null) (computed : attr.flags.isComputedOnly = true) :
      Breaks attr value .readOnlyAttribute
  | deprecated {value : Value} {message : String} (set : value ≠ .null)
      (settable : attr.flags.isComputedOnly = false)
      (marked : attr.deprecationMessage = some message) :
      Breaks attr value (.deprecatedAttribute message)

/-- How often a block that repeats occurs, when it is known. -/
def Value.count? : Value → Option Nat
  | .null => some 0
  | .list elements => some elements.length
  | .set elements => some elements.length
  | .map entries => some entries.length
  | _ => none

/-- The value of a nested block breaks a rule. -/
inductive NestedBlock.Breaks (nested : NestedBlock) : Value → Breach → Prop
  | missing (single : nested.mode = .single) (needed : 0 < nested.minItems.toNat) :
      Breaks nested .null .missingBlock
  | tooFew {value : Value} {count : Nat} (repeated : nested.mode ≠ .single)
      (counted : value.count? = some count) (few : count < nested.minItems.toNat) :
      Breaks nested value (.tooFewBlocks nested.minItems.toNat count)
  | tooMany {value : Value} {count : Nat} (repeated : nested.mode ≠ .single)
      (counted : value.count? = some count) (limited : 0 < nested.maxItems.toNat)
      (many : nested.maxItems.toNat < count) :
      Breaks nested value (.tooManyBlocks nested.maxItems.toNat count)

namespace Block

/-- What an object of the block has under a name breaks a rule. -/
inductive BreaksMember (block : Block) (object : Value) (name : String) (breach : Breach) : Prop
  | ofAttribute {attr : Attribute} (found : Entries.find? name block.attributes = some attr)
      (breaks : attr.Breaks (object.attributeNamed name) breach)
  | ofNested {nested : NestedBlock} (found : Entries.find? name block.blocks = some nested)
      (breaks : nested.Breaks (object.attributeNamed name) breach)

/-- A rule is broken at a place: under a name in an object that is an occurrence of a block. -/
inductive Breaks (block : Block) (value : Value) : Path → Breach → Prop
  | member {place : Path} {inner : Block} {occurrence : Value} {name : String} {breach : Breach}
      (occurs : block.Occurs value place inner occurrence)
      (breaks : inner.BreaksMember occurrence name breach) :
      Breaks block value (place.atName name) breach

/-! ## Their order -/

/-- One member of a block comes before another one: attributes before nested blocks, and both by
name. -/
inductive MemberBefore (block : Block) (name other : String) : Prop
  | attributes (isAttribute : name ∈ Entries.keys block.attributes)
      (isAttributeToo : other ∈ Entries.keys block.attributes) (earlier : name < other)
  | kinds (isAttribute : name ∈ Entries.keys block.attributes)
      (isNested : other ∈ Entries.keys block.blocks)
  | blocks (isNested : name ∈ Entries.keys block.blocks)
      (isNestedToo : other ∈ Entries.keys block.blocks) (earlier : name < other)

/-- One path comes before another one where the two part: at different members, at a nested block
of which the other one chooses an occurrence, at different occurrences, or in a nested block. -/
inductive Before : Block → Path → Path → Prop
  | members {block : Block} {name other : String} {rest rest' : Path}
      (earlier : block.MemberBefore name other) :
      Before block (.name name :: rest) (.name other :: rest')
  | limits {block : Block} {name : String} {step : PathStep} {rest : Path} :
      Before block [.name name] (.name name :: step :: rest)
  | occurrences {block : Block} {name : String} {step other : PathStep} {rest rest' : Path}
      (earlier : step.Before other) :
      Before block (.name name :: step :: rest) (.name name :: other :: rest')
  | inside {block : Block} {name : String} {nested : NestedBlock} {chosen rest rest' : Path}
      (found : Entries.find? name block.blocks = some nested)
      (chooses : nested.mode.Chooses chosen) (further : Before nested.block rest rest') :
      Before block (.name name :: (chosen ++ rest)) (.name name :: (chosen ++ rest'))

/-- One report comes before another one: by its place, and for the same nested block the least
number before the greatest one. -/
inductive ReportedBefore (block : Block) : Path × Breach → Path × Breach → Prop
  | places {place other : Path} {breach breach' : Breach} (earlier : block.Before place other) :
      ReportedBefore block (place, breach) (other, breach')
  | limits {place : Path} {least greatest count count' : Nat} :
      ReportedBefore block (place, .tooFewBlocks least count)
        (place, .tooManyBlocks greatest count')

end Block

/-! ## Attributes and limits -/

variable {order : Path × Breach → Path × Breach → Prop} {value : Value} {path : Path}

namespace Attribute

variable {attr : Attribute} {breach : Breach}

theorem breaks_null_iff :
    attr.Breaks .null breach ↔ breach = .missingAttribute ∧ attr.flags.required = true := by
  constructor
  · rintro (required | ⟨set⟩ | ⟨set⟩)
    · exact ⟨rfl, required⟩
    all_goals exact absurd rfl set
  · rintro ⟨rfl, required⟩
    exact .missing required

theorem breaks_computed_iff (set : value ≠ .null) (computed : attr.flags.isComputedOnly = true) :
    attr.Breaks value breach ↔ breach = .readOnlyAttribute := by
  constructor
  · rintro (_ | _ | ⟨_, settable⟩)
    · exact absurd rfl set
    · rfl
    · exact absurd computed (Bool.eq_false_iff.mp settable)
  · rintro rfl
    exact .readOnly set computed

theorem breaks_settable_iff (set : value ≠ .null) (settable : attr.flags.isComputedOnly = false) :
    attr.Breaks value breach ↔
      ∃ message, attr.deprecationMessage = some message ∧
        breach = .deprecatedAttribute message := by
  constructor
  · rintro (_ | ⟨_, computed⟩ | ⟨_, _, marked⟩)
    · exact absurd rfl set
    · exact absurd computed (Bool.eq_false_iff.mp settable)
    · exact ⟨_, marked, rfl⟩
  · rintro ⟨message, marked, rfl⟩
    exact .deprecated set settable marked

/-- An attribute breaks one rule at most, and it is reported. -/
theorem collects_breaks (attr : Attribute) (path : Path) (value : Value) :
    CollectsInOrder order Breach.report path
      (fun place breach => place = [] ∧ attr.Breaks value breach) (attr.problems path value) := by
  unfold problems
  by_cases null : value = .null
  · subst null
    refine (CollectsInOrder.hereWhen _ Breach.missingAttribute).congr fun place breach => ?_
    rw [breaks_null_iff]
  rw [if_neg (Value.isNull_iff.not.mpr null)]
  cases computed : attr.flags.isComputedOnly with
  | true =>
      refine (CollectsInOrder.here Breach.readOnlyAttribute).congr fun place breach => ?_
      rw [breaks_computed_iff null computed]
  | false =>
      simp only [breaks_settable_iff null computed, Bool.false_eq_true, if_false]
      cases attr.deprecationMessage with
      | none => exact .none (by simp)
      | some message =>
          refine (CollectsInOrder.here (Breach.deprecatedAttribute message)).congr ?_
          simp

end Attribute

namespace NestedBlock

variable {nested : NestedBlock}

def limits (nested : NestedBlock) : ItemLimits :=
  ⟨nested.minItems, nested.maxItems⟩

/-- A number of occurrences breaks no other rule than the two limits. -/
theorem collects_breaks_of_count (repeated : nested.mode ≠ .single) {count : Nat}
    (counted : value.count? = some count)
    (limitsBefore : ∀ least greatest count count',
      order ([], .tooFewBlocks least count) ([], .tooManyBlocks greatest count')) :
    CollectsInOrder order Breach.report path
      (fun place breach => place = [] ∧ nested.Breaks value breach)
      (nested.limits.problems path count) := by
  refine (CollectsInOrder.append
    (.hereWhen _ (Breach.tooFewBlocks nested.minItems.toNat count))
    (.hereWhen _ (Breach.tooManyBlocks nested.maxItems.toNat count)) ?_).congr ?_
  · rintro _ _ _ _ ⟨rfl, rfl, _⟩ ⟨rfl, rfl, _⟩
    exact limitsBefore _ _ _ _
  · intro place breach
    constructor
    · rintro (⟨rfl, rfl, few⟩ | ⟨rfl, rfl, limited, many⟩)
      · exact ⟨rfl, .tooFew repeated counted few⟩
      · exact ⟨rfl, .tooMany repeated counted limited many⟩
    · rintro ⟨rfl, single | ⟨_, countedToo, few⟩ | ⟨_, countedToo, limited, many⟩⟩
      · exact absurd single repeated
      all_goals cases counted.symm.trans countedToo
      · exact .inl ⟨rfl, rfl, few⟩
      · exact .inr ⟨rfl, rfl, limited, many⟩

/-- A block that occurs at most once breaks no other rule than that it is missing. -/
theorem collects_breaks_of_single (single : nested.mode = .single) :
    CollectsInOrder order Breach.report path
      (fun place breach => place = [] ∧ nested.Breaks value breach)
      (nested.limits.problemsOfValue nested.mode path value) := by
  by_cases null : value = .null
  · subst null
    rw [ItemLimits.problemsOfValue, if_pos single, ItemLimits.problemsOfMissing]
    refine (CollectsInOrder.hereWhen _ Breach.missingBlock).congr fun place breach => ?_
    refine and_congr_right fun _ => ⟨?_, ?_⟩
    · rintro ⟨rfl, needed⟩
      exact .missing single needed
    · rintro (⟨_, needed⟩ | repeated | repeated)
      · exact ⟨rfl, needed⟩
      all_goals exact absurd single repeated
  · have nothing : nested.limits.problemsOfValue nested.mode path value = [] := by
      rw [single]
      cases value <;> first | rfl | exact absurd rfl null
    rw [nothing]
    refine .none fun place breach => ?_
    rintro ⟨_, _ | repeated | repeated⟩
    · exact null rfl
    all_goals exact repeated single

theorem collects_breaks
    (limitsBefore : ∀ least greatest count count',
      order ([], .tooFewBlocks least count) ([], .tooManyBlocks greatest count')) :
    CollectsInOrder order Breach.report path
      (fun place breach => place = [] ∧ nested.Breaks value breach)
      (nested.limits.problemsOfValue nested.mode path value) := by
  by_cases single : nested.mode = .single
  · exact collects_breaks_of_single single
  cases counted : value.count? with
  | some count =>
      have same : nested.limits.problemsOfValue nested.mode path value =
          nested.limits.problems path count := by
        cases value <;> cases counted <;> exact if_neg single
      rw [same]
      exact collects_breaks_of_count single counted limitsBefore
  | none =>
      have nothing : nested.limits.problemsOfValue nested.mode path value = [] := by
        cases value <;> first | rfl | cases counted
      rw [nothing]
      refine .none fun place breach => ?_
      rintro ⟨_, isSingle | ⟨_, countedToo⟩ | ⟨_, countedToo⟩⟩
      · exact single isSingle
      all_goals cases counted.symm.trans countedToo

end NestedBlock

/-! ## Blocks -/

/-- What is reported of a nested block: its limits, and then its occurrences one by one. -/
def NestedBlock.problems (nested : NestedBlock) (path : Path) (value : Value) : Diagnostics :=
  nested.limits.problemsOfValue nested.mode path value ++
    (nested.mode.occurrences path value).flatMap fun occurrence =>
      nested.block.problems occurrence.1 occurrence.2

theorem Block.problemsOfBlocks_eq_flatMap (blocks : List (String × NestedBlock)) (path : Path)
    (value : Value) :
    problemsOfBlocks blocks path value = blocks.flatMap fun entry =>
      entry.2.problems (path ++ [.name entry.1]) (value.attributeNamed entry.1) := by
  induction blocks with
  | nil => rfl
  | cons entry rest inductionHypothesis =>
      rcases entry with ⟨name, ⟨inner, mode, least, greatest⟩⟩
      rw [problemsOfBlocks, inductionHypothesis]
      rfl

/-- The traversal of a block, member by member. -/
theorem Block.problems_eq (block : Block) (path : Path) (value : Value) :
    block.problems path value =
      if value.isObject then
        (block.attributes.flatMap fun entry =>
          entry.2.problems (path ++ [.name entry.1]) (value.attributeNamed entry.1)) ++
        block.blocks.flatMap fun entry =>
          entry.2.problems (path ++ [.name entry.1]) (value.attributeNamed entry.1)
      else [] := by
  rcases block with ⟨attributes, blocks, description⟩
  rw [problems, problemsOfBlocks_eq_flatMap]
  rfl

/-- A rule is broken by the occurrences of a nested block together, or below one of them. -/
def NestedBlock.BreaksBelow (nested : NestedBlock) (value : Value) (place : Path)
    (breach : Breach) : Prop :=
  place = [] ∧ nested.Breaks value breach ∨
    ∃ occurrence ∈ nested.mode.occurrences [] value, ∃ rest,
      place = occurrence.1 ++ rest ∧ nested.block.Breaks occurrence.2 rest breach

namespace Block

variable {block : Block} {place : Path} {breach : Breach} {name : String} {nested : NestedBlock}

namespace Breaks

theorem isObject (breaks : block.Breaks value place breach) : value.isObject = true := by
  cases breaks with
  | member occurs => exact occurs.isObject_of_occurs

theorem exists_eq_cons (breaks : block.Breaks value place breach) :
    ∃ step rest, place = step :: rest := by
  cases breaks with
  | member => exact List.exists_cons_of_ne_nil (List.append_ne_nil_of_right_ne_nil _ nofun)

end Breaks

/-- What is broken is broken below the name of an attribute or of a nested block. -/
theorem breaks_iff (wellFormed : block.WellFormed) (typed : Value.HasType block.valueType value)
    (ordered : value.KeyOrdered) (isObject : value.isObject = true) :
    block.Breaks value place breach ↔
      (∃ entry ∈ block.attributes, ∃ rest, place = [.name entry.1] ++ rest ∧ rest = [] ∧
        entry.2.Breaks (value.attributeNamed entry.1) breach) ∨
      ∃ entry ∈ block.blocks, ∃ rest, place = [.name entry.1] ++ rest ∧
        entry.2.BreaksBelow (value.attributeNamed entry.1) rest breach := by
  constructor
  · rintro ⟨occurs, breaks⟩
    rcases occurs.eq_or_within wellFormed typed ordered with
      ⟨rfl, rfl, rfl⟩ | ⟨name, nested, chosen, part, rest, found, member, rfl, inside⟩
    · cases breaks with
      | ofAttribute found breaks =>
          exact .inl ⟨_, Entries.mem_of_find? found, [], rfl, rfl, breaks⟩
      | ofNested found breaks =>
          exact .inr ⟨_, Entries.mem_of_find? found, [], rfl, .inl ⟨rfl, breaks⟩⟩
    · refine .inr ⟨_, Entries.mem_of_find? found, _, List.cons_append, .inr ?_⟩
      exact ⟨_, member, _, List.append_assoc .., .member inside breaks⟩
  · rintro (⟨entry, member, _, rfl, rfl, breaks⟩ |
      ⟨entry, member, _, rfl, ⟨rfl, breaks⟩ | ⟨occurrence, listed, _, rfl, ⟨occurs, breaks⟩⟩⟩)
    · have found := Entries.find?_of_mem wellFormed.attributesNodup member
      exact .member ⟨.here block, rfl, isObject⟩ (.ofAttribute found breaks)
    · have found := Entries.find?_of_mem wellFormed.blocksNodup member
      exact .member ⟨.here block, rfl, isObject⟩ (.ofNested found breaks)
    · have found := Entries.find?_of_mem wellFormed.blocksNodup member
      have outside := occurs.within wellFormed typed ordered isObject found listed
      have breaksToo := Breaks.member outside breaks
      simpa only [Path.atName, List.cons_append, List.append_assoc, List.nil_append]
        using breaksToo

theorem ReportedBefore.inside {chosen : Path} {one two : Path × Breach}
    (found : Entries.find? name block.blocks = some nested)
    (chooses : nested.mode.Chooses chosen) (before : nested.block.ReportedBefore one two) :
    block.ReportedBefore (.name name :: (chosen ++ one.1), one.2)
      (.name name :: (chosen ++ two.1), two.2) := by
  cases before with
  | places earlier => exact .places (.inside found chooses earlier)
  | limits => exact .limits

/-- What is reported of a nested block is what is broken below its name.  The limits come first,
since what is broken in an occurrence stands at a longer path. -/
theorem collects_breaks_of_nested (found : Entries.find? name block.blocks = some nested)
    (typed : Value.HasType nested.valueType value) (ordered : value.KeyOrdered)
    (each : ∀ occurrence ∈ nested.mode.occurrences [] value, ∀ path,
      CollectsInOrder nested.block.ReportedBefore Breach.report path
        (nested.block.Breaks occurrence.2) (nested.block.problems path occurrence.2)) :
    CollectsInOrder block.ReportedBefore Breach.report path
      (fun place breach => ∃ rest, place = [.name name] ++ rest ∧
        nested.BreaksBelow value rest breach)
      (nested.problems (path ++ [.name name]) value) := by
  have below := NestedBlock.occurrences_eq_map typed (path ++ [.name name])
  rw [NestedBlock.problems, below, List.flatMap_map]
  refine .within (.append (nested.collects_breaks fun _ _ _ _ => .limits)
    (.flatMap ?_ fun occurrence listed => ?_) ?_)
  · refine (NestedBlock.occurrences_ordered typed ordered).imp ?_
    rintro ⟨_, _⟩ ⟨_, _⟩ ⟨step, other, rfl, rfl, earlier⟩ _ _ _ _ ⟨rest, rfl, _⟩ ⟨rest', rfl, _⟩
    exact .places (.occurrences earlier)
  · have chooses := (NestedBlock.chosen_of_mem_occurrences typed ordered listed).1
    refine .within ((each occurrence listed _).imp fun one two before => ?_)
    have outside := before.inside found chooses
    exact outside
  · rintro _ _ _ _ ⟨rfl, _⟩ ⟨occurrence, _, further, rfl, breaks⟩
    rcases breaks.exists_eq_cons with ⟨step, rest, rfl⟩
    cases occurrence.1 <;> exact .places .limits

theorem WellFormed.attributes_before (wellFormed : block.WellFormed) :
    block.attributes.Pairwise fun entry other => block.MemberBefore entry.1 other.1 := by
  have sorted := List.pairwise_map.mp wellFormed.attributesSorted
  refine sorted.imp_of_mem fun member otherMember earlier => ?_
  exact .attributes (List.mem_map_of_mem member) (List.mem_map_of_mem otherMember) earlier

theorem WellFormed.blocks_before (wellFormed : block.WellFormed) :
    block.blocks.Pairwise fun entry other => block.MemberBefore entry.1 other.1 := by
  have sorted := List.pairwise_map.mp wellFormed.blocksSorted
  refine sorted.imp_of_mem fun member otherMember earlier => ?_
  exact .blocks (List.mem_map_of_mem member) (List.mem_map_of_mem otherMember) earlier

/-- The traversal reports what is broken, once each and in order. -/
theorem WellFormed.collects_breaks (wellFormed : block.WellFormed)
    (typed : Value.HasType block.valueType value) (ordered : value.KeyOrdered) (path : Path) :
    CollectsInOrder block.ReportedBefore Breach.report path (block.Breaks value)
      (block.problems path value) := by
  -- By induction on the block.  What is found in an occurrence is found further out behind the name
  -- of its block and the choice of the occurrence, and keeps its order there.
  induction block, wellFormed using WellFormed.induct generalizing value path with
  | step block wellFormed inductionHypothesis =>
      rw [problems_eq]
      split
      case isFalse noObject => exact .none fun _ _ breaks => noObject breaks.isObject
      next isObject =>
      refine (CollectsInOrder.append
        (.flatMap ?attributesInOrder fun entry _ => .within (entry.2.collects_breaks _ _))
        (.flatMap ?blocksInOrder ?eachBlock) ?attributesFirst).congr fun place breach =>
          (breaks_iff wellFormed typed ordered isObject).symm
      case attributesInOrder =>
        refine wellFormed.attributes_before.imp fun earlier => ?_
        rintro _ _ _ _ ⟨rest, rfl, _⟩ ⟨rest', rfl, _⟩
        exact .places (.members earlier)
      case blocksInOrder =>
        refine wellFormed.blocks_before.imp fun earlier => ?_
        rintro _ _ _ _ ⟨rest, rfl, _⟩ ⟨rest', rfl, _⟩
        exact .places (.members earlier)
      case eachBlock =>
        intro entry member
        have found := Entries.find?_of_mem wellFormed.blocksNodup member
        have occurrencesTyped := wellFormed.hasType_nested typed found
        have inOrder := ordered.attributeNamed entry.1
        refine collects_breaks_of_nested found occurrencesTyped inOrder fun occurrence listed => ?_
        rcases NestedBlock.hasType_of_mem_occurrences occurrencesTyped inOrder listed with
          ⟨typedInside, orderedInside⟩
        exact inductionHypothesis entry member typedInside orderedInside
      case attributesFirst =>
        rintro _ _ _ _ ⟨entry, member, rest, rfl, _⟩ ⟨other, otherMember, rest', rfl, _⟩
        exact .places (.members (.kinds (List.mem_map_of_mem member)
          (List.mem_map_of_mem otherMember)))

/-! ## Reports are told apart -/

theorem MemberBefore.ne {other : String} (wellFormed : block.WellFormed)
    (before : block.MemberBefore name other) : name ≠ other := by
  cases before with
  | attributes _ _ earlier | blocks _ _ earlier => exact ne_of_lt earlier
  | kinds isAttribute isNested =>
      rintro rfl
      exact wellFormed.disjoint name isAttribute isNested

theorem Before.ne {other : Path} (before : block.Before place other)
    (wellFormed : block.WellFormed) : place ≠ other := by
  induction before with
  | members earlier =>
      intro same
      exact earlier.ne wellFormed (PathStep.name.inj (List.cons.inj same).1)
  | limits => exact nofun
  | occurrences earlier =>
      intro same
      exact earlier.ne (List.cons.inj (List.cons.inj same).2).1
  | inside found _ _ inductionHypothesis =>
      intro same
      exact inductionHypothesis (wellFormed.nested found)
        (List.append_cancel_left (List.cons.inj same).2)

end Block

theorem Breach.path_report (place : Path) (breach : Breach) :
    (breach.report place).path = some place := by
  cases breach <;> rfl

/-- The two limits are told apart by what is said of them. -/
theorem Breach.report_tooFew_ne_tooMany (place : Path) (least greatest count count' : Nat) :
    (tooFewBlocks least count).report place ≠ (tooManyBlocks greatest count').report place := by
  intro same
  have details := congrArg (fun diagnostic => diagnostic.detail.toList) same
  simp [report, Diagnostic.attributeError, Diagnostic.error, Diagnostic.withAttribute] at details

theorem Block.ReportedBefore.report_ne {block : Block} {one two : Path × Breach}
    (before : block.ReportedBefore one two) (wellFormed : block.WellFormed) :
    one.2.report one.1 ≠ two.2.report two.1 := by
  cases before with
  | places earlier =>
      -- A report has the path of its place, so that reports from different places differ.
      intro same
      have places := congrArg Diagnostic.path same
      rw [Breach.path_report, Breach.path_report] at places
      exact earlier.ne wellFormed (Option.some.inj places)
  | limits => exact Breach.report_tooFew_ne_tooMany _ _ _ _ _

/-! ## The report -/

/-- The path of a violation leads to what breaks the rule, in the value and in its type. -/
theorem Block.Breaks.followed {block : Block} {place : Path} {breach : Breach}
    (breaks : block.Breaks value place breach) (wellFormed : block.WellFormed)
    (typed : Value.HasType block.valueType value) (ordered : value.KeyOrdered) :
    ∃ found type, value.getAt place = .ok found ∧
      block.valueType.partAt? place = some type ∧ Value.HasType type found := by
  cases breaks with
  | @member front inner occurrence name _ occurs breaks =>
      have inside := occurs.hasType wellFormed typed ordered
      have innerWellFormed := occurs.reaches.wellFormed wellFormed
      have atName : ∀ found, occurrence.part? (.name name) = some found →
          value.getAt (front.atName name) = .ok found := by
        intro found present
        refine Value.getAt_eq_ok_iff.mpr (Value.follow?_of_partAt? ?_)
        rw [Path.atName, Value.partAt?_append, occurs.found]
        exact Value.partAt?_cons_eq_some_iff.mpr ⟨found, present, rfl⟩
      rw [Path.atName, occurs.reaches.partAt?_valueType wellFormed]
      cases breaks with
      | ofAttribute declared =>
          exact ⟨_, _, atName _ (innerWellFormed.part?_attribute inside occurs.isObject declared),
            innerWellFormed.partAt?_attribute declared [],
            innerWellFormed.hasType_attribute inside declared⟩
      | ofNested declared =>
          exact ⟨_, _, atName _ (innerWellFormed.part?_nested inside occurs.isObject declared),
            innerWellFormed.partAt?_nested declared [],
            innerWellFormed.hasType_nested inside declared⟩

namespace Schema

variable {schema : Schema}

/-- Validation reports what is broken, each violation once and no others, in the order of the
schema.  Different violations are reported differently, and the path of each leads to a value of
the type that stands there. -/
theorem validation_reports_violations (wellFormed : schema.block.WellFormed)
    (typed : Value.HasType schema.valueType value) (ordered : value.KeyOrdered) :
    ∃ violations : List (Path × Breach),
      schema.validate value = violations.map (fun violation => violation.2.report violation.1) ∧
      (∀ place breach, (place, breach) ∈ violations ↔ schema.block.Breaks value place breach) ∧
      violations.Pairwise schema.block.ReportedBefore ∧
      (schema.validate value).Nodup ∧
      ∀ violation ∈ violations, ∃ found type, value.getAt violation.1 = .ok found ∧
        schema.valueType.partAt? violation.1 = some type ∧ Value.HasType type found := by
  rcases wellFormed.collects_breaks typed ordered [] with ⟨violations, inOrder, exact, reported⟩
  refine ⟨violations, reported, exact, inOrder, ?_, fun violation member => ?_⟩
  · rw [validate, reported]
    exact List.pairwise_map.mpr (inOrder.imp fun before => before.report_ne wellFormed)
  · exact ((exact _ _).mp member).followed wellFormed typed ordered

/-- A pool of servers with a limit and at least two named rules. -/
def poolSchema : Schema :=
  let port : Attribute :=
    { type := .int64, flags := { optional := true }, deprecationMessage := some "Use ports." }
  ⟨0, ⟨[("id", { type := .string, flags := { computed := true } }),
      ("name", { type := .string, flags := { required := true } })],
    [("limit", (NestedBlock.ofMode .single .empty).withMinItems 1),
      ("rule", (NestedBlock.ofMode .map ⟨[("port", port)], [], none⟩).withMinItems 2)], none⟩⟩

theorem poolSchema_wellFormed : poolSchema.block.WellFormed := by
  have attributesInOrder : ["id", "name"].Pairwise (· < ·) := by decide
  have blocksInOrder : ["limit", "rule"].Pairwise (· < ·) := by decide
  refine .intro attributesInOrder blocksInOrder (by decide) ?_ ?_
  · simp only [poolSchema, List.forall_mem_cons]
    exact ⟨.string, .string, fun _ member => absurd member List.not_mem_nil⟩
  · simp only [poolSchema, List.forall_mem_cons]
    exact ⟨.of_attributes .nil (fun _ member => absurd member List.not_mem_nil),
      .of_attributes (List.pairwise_singleton _ _) (List.forall_mem_singleton.mpr .int64),
      fun _ member => absurd member List.not_mem_nil⟩

/-- All kinds of rules but a greatest number are broken, one of them inside an occurrence. -/
theorem pool_violations_are_reported :
    let pool : Value := .object [("id", .string "p1"), ("limit", .null), ("name", .null),
      ("rule", .map [("web", .object [("port", .int 80)])])]
    let reported := poolSchema.validate pool
    poolSchema.block.WellFormed ∧ Value.HasType poolSchema.valueType pool ∧ pool.KeyOrdered ∧
      reported = [Breach.readOnlyAttribute.report [.name "id"],
        Breach.missingAttribute.report [.name "name"],
        Breach.missingBlock.report [.name "limit"],
        (Breach.tooFewBlocks 2 1).report [.name "rule"],
        (Breach.deprecatedAttribute "Use ports.").report
          [.name "rule", .key "web", .name "port"]] ∧
      reported.Nodup ∧
      ∃ violations : List (Path × Breach),
        reported = violations.map (fun violation => violation.2.report violation.1) ∧
        (∀ place breach, (place, breach) ∈ violations ↔ poolSchema.block.Breaks pool place breach) ∧
        violations.Pairwise poolSchema.block.ReportedBefore := by
  intro pool reported
  have decoded : Value.ofJson poolSchema.valueType pool.toJson = .ok pool := rfl
  have typed := (Value.conforms_of_decodeAt decoded).1
  have ordered : pool.KeyOrdered := Value.keyOrdered_of_toJson (Json.keyOrdered_iff.mpr rfl)
  rcases validation_reports_violations poolSchema_wellFormed typed ordered with
    ⟨violations, made, exact, inOrder, distinct, _⟩
  exact ⟨poolSchema_wellFormed, typed, ordered, rfl, distinct, violations, made, exact, inOrder⟩

end Schema
end ProviderKit

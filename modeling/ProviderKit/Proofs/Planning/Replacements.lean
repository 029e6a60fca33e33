import ProviderKit.Proofs.Planning.Collection
import ProviderKit.Proofs.Planning.Comparisons
import ProviderKit.Proofs.Schema.Occurrences
import ProviderKit.Proofs.Value.Equivalence

/-!
# Which changes replace a resource, exactly

Every path that is reported as a replacement ends at a marked attribute and can be followed in the
planned value, and none is reported twice.  Without nested blocks in sets, where occurrences have no
place of their own to be compared by, the report is also complete: it holds the path of every marked
attribute that is seen in both values, and differs.  What is seen below a missing block is null, but
there is nothing to be seen of an element or an entry that only one of the values has.
-/

namespace ProviderKit

namespace Value

/-- What is seen of a value at a path.  A name sees null where there is no object, while an index or
a key has to find a part. -/
def seen? : Path → Value → Option Value
  | [], value => some value
  | .name name :: rest, value => seen? rest (value.attributeNamed name)
  | step :: rest, value => (value.part? step).bind (seen? rest)

variable {value part : Value} {step : PathStep} {rest : Path}

theorem seen?_cons_of_chooses (chooses : ∀ word, step ≠ .name word) :
    value.seen? (step :: rest) = (value.part? step).bind (seen? rest) := by
  cases step with
  | name word => exact absurd rfl (chooses word)
  | key | index => rfl

/-- A planned element that is compared stands at its index. -/
theorem of_mem_changedPairs {xs ys : List Value} {pair : Nat × Value × Value}
    (member : pair ∈ changedPairs xs ys) : ys[pair.1]? = some pair.2.2 := by
  rcases List.mem_map.mp member with ⟨⟨⟨a, i⟩, b⟩, zipped, rfl⟩
  have added := (List.mem_filter.mp (List.of_mem_zip zipped).1).1
  exact List.mem_zipIdx_iff_getElem?.mp added

end Value

/-! ## The occurrences that are compared -/

namespace NestedBlock

open Value (part? elementAt? elementAt?_natCast elementAt?_eq_some_iff)

variable {nested : NestedBlock} {before after : Value} {comparison : Comparison}

private theorem pairwise_zip {α β : Type} {R : α → α → Prop} {xs : List α}
    (related : xs.Pairwise R) (ys : List β) : (xs.zip ys).Pairwise fun x y => R x.1 y.1 := by
  induction related generalizing ys with
  | nil => exact .nil
  | cons first _ inductionHypothesis =>
      cases ys with
      | nil => exact .nil
      | cons y ys =>
          refine .cons (fun pair member => ?_) (inductionHypothesis ys)
          exact first _ (List.of_mem_zip member).1

/-- Different comparisons stand at different places. -/
theorem compared_apart (ordered : after.KeyOrdered) :
    (nested.compared before after).Pairwise fun comparison other =>
      comparison.place.Apart other.place := by
  by_cases mode : nested.mode = .single
  · rw [compared_single mode]
    exact List.pairwise_singleton _ _
  rw [compared_of_repeated mode]
  split
  · next xs ys =>
    rw [Value.changedPairs, List.map_map]
    have added := (Path.indexes_apart ys).filter fun added => !xs.any fun b => b == added.1
    exact List.pairwise_map.mpr (pairwise_zip added _)
  · exact List.pairwise_map.mpr (Path.indexes_apart _)
  · next xs ys =>
    cases ordered with
    | map sorted =>
        refine (Path.keys_apart sorted.nodup).filterMap _ fun x y apart => ?_
        rintro comparison member other otherMember
        rcases Option.map_eq_some_iff.mp member with ⟨b, _, rfl⟩
        rcases Option.map_eq_some_iff.mp otherMember with ⟨b', _, rfl⟩
        exact apart
  · exact .nil

/-- An occurrence of a block that repeats is compared at the index or key that finds it in the
planned value.  Outside of sets this finds its counterpart in the prior value, too. -/
theorem of_mem_compared (repeated : nested.mode ≠ .single) (ordered : after.KeyOrdered)
    (member : comparison ∈ nested.compared before after) :
    ∃ step, comparison.place = [step] ∧ (∀ word, step ≠ .name word) ∧
      after.part? step = some comparison.planned ∧
        ((∃ xs, before = .set xs) ∨ before.part? step = some comparison.prior) := by
  rw [compared_of_repeated repeated] at member
  split at member
  · next xs ys =>
    rcases List.mem_map.mp member with ⟨pair, isPair, rfl⟩
    have found := (elementAt?_natCast ys pair.1).trans (Value.of_mem_changedPairs isPair)
    exact ⟨_, rfl, nofun, found, .inl ⟨xs, rfl⟩⟩
  · next xs ys =>
    rcases List.mem_map.mp member with ⟨⟨⟨b, a⟩, i⟩, isPair, rfl⟩
    have both := List.getElem?_zip_eq_some.mp (List.mem_zipIdx_iff_getElem?.mp isPair)
    exact ⟨_, rfl, nofun, (elementAt?_natCast ys i).trans both.2,
      .inr ((elementAt?_natCast xs i).trans both.1)⟩
  · rcases List.mem_filterMap.mp member with ⟨entry, isEntry, found⟩
    rcases Option.map_eq_some_iff.mp found with ⟨b, foundPrior, rfl⟩
    cases ordered with
    | map sorted =>
        exact ⟨_, rfl, nofun, Entries.find?_of_mem sorted.nodup isEntry, .inr foundPrior⟩
  · cases member

/-- What is compared is all occurrences at once, or one of them that an index or a key chooses. -/
theorem cases_of_mem_compared (ordered : after.KeyOrdered)
    (member : comparison ∈ nested.compared before after) :
    nested.mode = .single ∧ comparison = ⟨[], before, after⟩ ∨
      nested.mode ≠ .single ∧ ∃ step, comparison.place = [step] ∧ (∀ word, step ≠ .name word) ∧
        after.part? step = some comparison.planned := by
  by_cases mode : nested.mode = .single
  · rw [compared_single mode] at member
    exact .inl ⟨mode, List.mem_singleton.mp member⟩
  · rcases of_mem_compared mode ordered member with ⟨step, place, chooses, found, _⟩
    exact .inr ⟨mode, step, place, chooses, found⟩

theorem keyOrdered_of_mem_compared (ordered : after.KeyOrdered)
    (member : comparison ∈ nested.compared before after) : comparison.planned.KeyOrdered := by
  rcases cases_of_mem_compared ordered member with ⟨_, rfl⟩ | ⟨_, step, _, _, found⟩
  · exact ordered
  · exact ordered.part? found

theorem hasType_of_mem_compared (typed : Value.HasType nested.valueType after)
    (ordered : after.KeyOrdered) (member : comparison ∈ nested.compared before after) :
    Value.HasType nested.block.valueType comparison.planned := by
  rcases cases_of_mem_compared ordered member with ⟨mode, rfl⟩ | ⟨repeated, step, _, _, found⟩
  · rwa [valueType, mode] at typed
  · exact Value.hasType_part? typed repeated found

/-- Outside of sets, occurrences that the same step finds are compared. -/
theorem mem_compared_of_part? (repeated : nested.mode ≠ .single) (noSet : nested.mode ≠ .set)
    (priorTyped : Value.HasType nested.valueType before)
    (typed : Value.HasType nested.valueType after) {step : PathStep} {prior planned : Value}
    (foundPrior : before.part? step = some prior) (found : after.part? step = some planned) :
    ⟨[step], prior, planned⟩ ∈ nested.compared before after := by
  rw [compared_of_repeated repeated]
  cases occurrences_of_hasType typed with
  | single mode => exact absurd mode repeated
  | set mode => exact absurd mode noSet
  | null | unknown => cases found
  | @list ys mode =>
      cases occurrences_of_hasType priorTyped with
      | single mode => exact absurd mode repeated
      | set mode => exact absurd mode noSet
      | null | unknown => cases foundPrior
      | map other => cases mode.symm.trans other
      | @list xs =>
          cases step with
          | index index =>
              rcases elementAt?_eq_some_iff.mp found with ⟨i, rfl, present⟩
              rw [part?, elementAt?_natCast] at foundPrior
              refine List.mem_map.mpr ⟨((prior, planned), i), ?_, rfl⟩
              refine List.mem_zipIdx_iff_getElem?.mpr ?_
              exact List.getElem?_zip_eq_some.mpr ⟨foundPrior, present⟩
          | _ => cases found
  | @map ys mode =>
      cases occurrences_of_hasType priorTyped with
      | single mode => exact absurd mode repeated
      | set mode => exact absurd mode noSet
      | null | unknown => cases foundPrior
      | list other => cases mode.symm.trans other
      | @map xs =>
          cases step with
          | key key =>
              have foundPrior : Entries.find? key xs = some prior := foundPrior
              refine List.mem_filterMap.mpr ⟨(key, planned), Entries.mem_of_find? found, ?_⟩
              simp only [foundPrior, Option.map_some]
          | _ => cases found

end NestedBlock

/-! ## The attributes that are compared -/

namespace Block

/-- No nested block at any level repeats as a set. -/
inductive SetFree : Block → Prop
  | intro {block : Block} (modes : ∀ entry ∈ block.blocks, entry.2.mode ≠ .set)
      (inner : ∀ entry ∈ block.blocks, SetFree entry.2.block) : SetFree block

/-- A place at which an attribute is compared, with the values that it has before and after. -/
inductive Compared : Block → Value → Value → Path → Attribute → Value → Value → Prop
  | own {block : Block} {prior planned : Value} {name : String} {attr : Attribute}
      (found : Entries.find? name block.attributes = some attr) :
      Compared block prior planned [.name name] attr (prior.attributeNamed name)
        (planned.attributeNamed name)
  | nested {block : Block} {prior planned : Value} {name : String} {nested : NestedBlock}
      {comparison : Comparison} {rest : Path} {attr : Attribute} {before after : Value}
      (found : Entries.find? name block.blocks = some nested)
      (compared : comparison ∈ nested.compared (prior.attributeNamed name)
        (planned.attributeNamed name))
      (inside : Compared nested.block comparison.prior comparison.planned rest attr before after) :
      Compared block prior planned (.name name :: (comparison.place ++ rest)) attr before after

/-- A marked attribute that differs between the values that are compared at a place. -/
def Replaced (block : Block) (prior planned : Value) (place : Path) (attr : Attribute) : Prop :=
  ∃ before after, block.Compared prior planned place attr before after ∧
    attr.requiresReplace = true ∧ (before == after) = false

variable {block : Block} {prior planned before after : Value} {place : Path} {attr : Attribute}

theorem SetFree.nested (setFree : block.SetFree) {name : String} {nested : NestedBlock}
    (found : Entries.find? name block.blocks = some nested) :
    nested.mode ≠ .set ∧ nested.block.SetFree := by
  cases setFree with
  | intro modes inner =>
      have member := Entries.mem_of_find? found
      exact ⟨modes _ member, inner _ member⟩

/-- What is compared is named by its place. -/
theorem Compared.names (compared : block.Compared prior planned place attr before after)
    (wellFormed : block.WellFormed) (ordered : planned.KeyOrdered) : block.Names place attr := by
  induction compared with
  | own found => exact .own found
  | @nested block prior planned name nested comparison rest attr before after found compared _
      inductionHypothesis =>
      have absent := wellFormed.find?_attributes found
      have inOrder := ordered.attributeNamed name
      have inside := inductionHypothesis (wellFormed.nested found)
        (NestedBlock.keyOrdered_of_mem_compared inOrder compared)
      rcases NestedBlock.cases_of_mem_compared inOrder compared with
        ⟨mode, rfl⟩ | ⟨repeated, step, place, chooses, _⟩
      · exact .single absent found mode inside
      · rw [place]
        exact .repeated absent found repeated chooses inside

/-- Under the name of a member a path can be followed wherever it can be followed further in. -/
private theorem exists_follow?_name {name : String} {rest : Path}
    (typed : Value.HasType block.valueType planned)
    (declared : name ∈ Entries.keys block.memberTypes)
    (further : ∃ value, (planned.attributeNamed name).follow? rest = some value) :
    ∃ value, planned.follow? (.name name :: rest) = some value := by
  rcases cases_of_hasType typed with rfl | rfl | ⟨entries, rfl, covers⟩
  · exact ⟨.null, rfl⟩
  · exact ⟨.unknown, rfl⟩
  · rw [← covers] at declared
    rcases Entries.exists_find? declared with ⟨value, present⟩
    rw [Value.attributeNamed_object, present] at further
    rw [Value.follow?, present]
    exact further

/-- What is compared is found in the planned value. -/
theorem Compared.exists_follow? (compared : block.Compared prior planned place attr before after)
    (wellFormed : block.WellFormed) (typed : Value.HasType block.valueType planned)
    (ordered : planned.KeyOrdered) : ∃ value, planned.follow? place = some value := by
  induction compared with
  | own found =>
      have declared := wellFormed.find?_memberTypes_attribute found
      exact exists_follow?_name typed (Entries.find?_isSome_iff.mp (declared ▸ rfl)) ⟨_, rfl⟩
  | @nested block prior planned name nested comparison rest attr before after found compared _
      inductionHypothesis =>
      have declared := wellFormed.find?_memberTypes_nested found
      have occurrences := wellFormed.hasType_nested typed found
      have inOrder := ordered.attributeNamed name
      have inside := inductionHypothesis (wellFormed.nested found)
        (NestedBlock.hasType_of_mem_compared occurrences inOrder compared)
        (NestedBlock.keyOrdered_of_mem_compared inOrder compared)
      refine exists_follow?_name typed (Entries.find?_isSome_iff.mp (declared ▸ rfl)) ?_
      rcases NestedBlock.cases_of_mem_compared inOrder compared with
        ⟨mode, rfl⟩ | ⟨repeated, step, place, _, part⟩
      · exact inside
      · rw [place, List.singleton_append, Value.follow?_cons_of_part? part]
        exact inside

/-- Without sets, what is compared is what is seen at its place in both values. -/
theorem Compared.seen (compared : block.Compared prior planned place attr before after)
    (wellFormed : block.WellFormed) (setFree : block.SetFree)
    (priorTyped : Value.HasType block.valueType prior) (ordered : planned.KeyOrdered) :
    prior.seen? place = some before ∧ planned.seen? place = some after := by
  induction compared with
  | own => exact ⟨rfl, rfl⟩
  | @nested block prior planned name nested comparison rest attr before after found compared _
      inductionHypothesis =>
      have priorOccurrences := wellFormed.hasType_nested priorTyped found
      have inOrder := ordered.attributeNamed name
      have inside := fun priorTyped => inductionHypothesis (wellFormed.nested found)
        (setFree.nested found).2 priorTyped
        (NestedBlock.keyOrdered_of_mem_compared inOrder compared)
      by_cases mode : nested.mode = .single
      · rw [NestedBlock.compared_single mode] at compared
        rcases List.mem_singleton.mp compared with rfl
        rw [NestedBlock.valueType, mode] at priorOccurrences
        exact inside priorOccurrences
      · rcases NestedBlock.of_mem_compared mode inOrder compared with
          ⟨step, place, chooses, part, ⟨xs, same⟩ | priorPart⟩
        · -- The elements of sets are not compared by their place, but there are no sets.
          rw [same] at priorOccurrences
          cases NestedBlock.occurrences_of_hasType priorOccurrences with
          | single other => exact absurd other mode
          | set other => exact absurd other (setFree.nested found).1
        · have priorPartTyped := Value.hasType_part? priorOccurrences mode priorPart
          rw [place, List.singleton_append, Value.seen?, Value.seen?,
            Value.seen?_cons_of_chooses chooses, Value.seen?_cons_of_chooses chooses, priorPart,
            part]
          exact inside priorPartTyped

/-- Without sets, an attribute that its place names and both values show is compared. -/
theorem Names.compared (names : block.Names place attr) (wellFormed : block.WellFormed)
    (setFree : block.SetFree) (priorTyped : Value.HasType block.valueType prior)
    (typed : Value.HasType block.valueType planned) (seenPrior : prior.seen? place = some before)
    (seen : planned.seen? place = some after) :
    block.Compared prior planned place attr before after := by
  induction names generalizing prior planned with
  | own found =>
      cases seenPrior
      cases seen
      exact .own found
  | @single block name nested rest attr absent found mode _ inductionHypothesis =>
      have once : nested.valueType = nested.block.valueType := by
        rw [NestedBlock.valueType, mode]
        rfl
      have inside := inductionHypothesis (wellFormed.nested found) (setFree.nested found).2
        (once ▸ wellFormed.hasType_nested priorTyped found)
        (once ▸ wellFormed.hasType_nested typed found) seenPrior seen
      have whole : ⟨[], prior.attributeNamed name, planned.attributeNamed name⟩ ∈
          nested.compared (prior.attributeNamed name) (planned.attributeNamed name) := by
        rw [NestedBlock.compared_single mode]
        exact List.mem_singleton_self _
      exact .nested found whole inside
  | @repeated block name nested step rest attr absent found repeated chooses _
      inductionHypothesis =>
      rw [Value.seen?, Value.seen?_cons_of_chooses chooses] at seenPrior seen
      rcases Option.bind_eq_some_iff.mp seenPrior with ⟨priorPart, partPrior, seenPrior⟩
      rcases Option.bind_eq_some_iff.mp seen with ⟨part, partPlanned, seen⟩
      have priorOccurrences := wellFormed.hasType_nested priorTyped found
      have occurrences := wellFormed.hasType_nested typed found
      have inside := inductionHypothesis (wellFormed.nested found) (setFree.nested found).2
        (Value.hasType_part? priorOccurrences repeated partPrior)
        (Value.hasType_part? occurrences repeated partPlanned) seenPrior seen
      exact .nested found (NestedBlock.mem_compared_of_part? repeated (setFree.nested found).1
        priorOccurrences occurrences partPrior partPlanned) inside

/-! ## The report -/

private theorem replaced_iff (wellFormed : block.WellFormed) :
    block.Replaced prior planned place attr ↔
      (∃ entry ∈ block.attributes, ∃ rest, place = [.name entry.1] ++ rest ∧ rest = [] ∧
        attr = entry.2 ∧ entry.2.requiresReplace = true ∧
          (prior.attributeNamed entry.1 == planned.attributeNamed entry.1) = false) ∨
      ∃ entry ∈ block.blocks, ∃ rest, place = [.name entry.1] ++ rest ∧
        ∃ comparison ∈ entry.2.compared (prior.attributeNamed entry.1)
            (planned.attributeNamed entry.1),
          ∃ further, rest = comparison.place ++ further ∧
            entry.2.block.Replaced comparison.prior comparison.planned further attr := by
  constructor
  · rintro ⟨before, after, compared, marked, differ⟩
    cases compared with
    | own found => exact .inl ⟨_, Entries.mem_of_find? found, [], rfl, rfl, rfl, marked, differ⟩
    | nested found compared inside =>
        have member := Entries.mem_of_find? found
        exact .inr ⟨_, member, _, rfl, _, compared, _, rfl, before, after, inside, marked, differ⟩
  · rintro (⟨entry, member, _, rfl, rfl, rfl, marked, differ⟩ |
      ⟨entry, member, _, rfl, comparison, compared, further, rfl, before, after, inside, marked,
        differ⟩)
    · exact ⟨_, _, .own (Entries.find?_of_mem wellFormed.attributesNodup member), marked, differ⟩
    · have found := Entries.find?_of_mem wellFormed.blocksNodup member
      exact ⟨before, after, .nested found compared inside, marked, differ⟩

/-- The traversal reports one path for each marked attribute that differs. -/
theorem WellFormed.collects_replaced (wellFormed : block.WellFormed) (ordered : planned.KeyOrdered)
    (path : Path) :
    Collects (fun place _ => place) path (block.Replaced prior planned)
      (block.replacements path prior planned) := by
  induction block, wellFormed using WellFormed.induct generalizing path prior planned with
  | step block wellFormed inductionHypothesis =>
      rw [replacements_eq]
      refine (Collects.members wellFormed.attributesNodup wellFormed.blocksNodup
        wellFormed.disjoint ?_ ?_).congr fun place attr => (replaced_iff wellFormed).symm
      · intro entry _
        have chosen : (entry.2.requiresReplace &&
            !(prior.attributeNamed entry.1 == planned.attributeNamed entry.1)) = true ↔
            entry.2.requiresReplace = true ∧
              (prior.attributeNamed entry.1 == planned.attributeNamed entry.1) = false := by
          rw [Bool.and_eq_true_iff, Bool.not_eq_true']
        simp only
        split
        · next differs =>
          refine (Collects.here entry.2).congr fun place attr => ?_
          rw [and_iff_left (chosen.mp differs)]
        · next equal => exact .none fun _ _ found => equal (chosen.mpr found.2.2)
      · intro entry member
        have inOrder := ordered.attributeNamed entry.1
        refine .flatMap (NestedBlock.compared_apart inOrder) fun comparison compared => ?_
        exact inductionHypothesis entry member
          (NestedBlock.keyOrdered_of_mem_compared inOrder compared) _

end Block

/-- Paths that are distinct are all kept. -/
theorem Paths.toList_ofList {paths : List Path} (nodup : paths.Nodup) :
    (Paths.ofList paths).toList = paths := by
  suffices kept : ∀ (more : List Path) (before : Paths), (before.toList ++ more).Nodup →
      (before.extend more).toList = before.toList ++ more from kept paths .empty nodup
  intro more
  -- By induction on the paths that are still to come, whatever has been kept before.
  induction more with
  | nil => exact fun before _ => (List.append_nil _).symm
  | cons path rest inductionHypothesis =>
      intro before nodup
      have fresh : path ∉ before.toList := fun present =>
        (List.nodup_append.mp nodup).2.2 path present path List.mem_cons_self rfl
      have added : (before.append path).toList = before.toList ++ [path] := by
        rw [append, dif_neg fresh]
      rw [List.append_cons, ← added] at nodup ⊢
      exact inductionHypothesis (before.append path) nodup

namespace Schema

variable {schema : Schema} {prior planned : Value}

/-- What is reported is distinct as it is found.  Each path ends at a marked attribute and can be
followed in the planned value.  Without sets, the paths of all marked attributes are reported that
are seen before and after and differ. -/
theorem replacements_are_exact (wellFormed : schema.block.WellFormed)
    (priorTyped : Value.HasType schema.valueType prior)
    (typed : Value.HasType schema.valueType planned) (ordered : planned.KeyOrdered) :
    let reported := schema.block.replacements [] prior planned
    (schema.replacements prior planned).toList = reported ∧ reported.Nodup ∧
      (∀ path ∈ reported, (∃ attr, schema.EndsAt path attr ∧ attr.requiresReplace = true) ∧
        ∃ value, planned.getAt path = .ok value) ∧
      (schema.block.SetFree → ∀ path, path ∈ reported ↔ ∃ attr before after,
        schema.EndsAt path attr ∧ attr.requiresReplace = true ∧
          prior.seen? path = some before ∧ planned.seen? path = some after ∧
            (before == after) = false) := by
  intro reported
  have collects : Collects (fun place _ => place) [] (schema.block.Replaced prior planned)
      reported := wellFormed.collects_replaced ordered []
  have distinct : reported.Nodup := collects.nodup fun _ _ _ _ same => same
  refine ⟨Paths.toList_ofList distinct, distinct, fun path member => ?_, fun setFree path => ?_⟩
  · rcases collects.mem_iff.mp member with ⟨_, attr, ⟨before, after, compared, marked, _⟩, rfl⟩
    have ends := endsAt_iff.mpr (compared.names wellFormed ordered)
    rcases compared.exists_follow? wellFormed typed ordered with ⟨value, found⟩
    refine ⟨⟨attr, ends, marked⟩, value, ?_⟩
    rw [List.nil_append, Value.getAt, found]
  · rw [collects.mem_iff]
    constructor
    · rintro ⟨_, attr, ⟨before, after, compared, marked, differ⟩, rfl⟩
      have ends := endsAt_iff.mpr (compared.names wellFormed ordered)
      rcases compared.seen wellFormed setFree priorTyped ordered with ⟨seenPrior, seen⟩
      exact ⟨attr, before, after, ends, marked, seenPrior, seen, differ⟩
    · rintro ⟨attr, before, after, ends, marked, seenPrior, seen, differ⟩
      have compared := (endsAt_iff.mp ends).compared wellFormed setFree priorTyped typed seenPrior
        seen
      exact ⟨path, attr, ⟨before, after, compared, marked, differ⟩, List.nil_append path⟩

end Schema

/-! A cluster with a network, a list of nodes and volumes under their names, where every attribute
is marked. -/

/-- A block with one marked attribute. -/
def markedBlock (name : String) (type : AttributeType) : Block :=
  ⟨[(name, { type, flags := { optional := true }, requiresReplace := true })], [], none⟩

def clusterSchema : Schema where
  version := 0
  block :=
    { markedBlock "region" .string with
      blocks := [("network", .ofMode .single (markedBlock "cidr" .string)),
        ("node", .ofMode .list (markedBlock "kind" .string)),
        ("volume", .ofMode .map (markedBlock "size" .int64))] }

/-- A cluster in one region, from its network, the kinds of its nodes and the sizes of its
volumes. -/
def cluster (network : Value) (nodes : List String) (volumes : List (String × Int)) : Value :=
  .object [("network", network),
    ("node", .list (nodes.map fun kind => .object [("kind", .string kind)])),
    ("region", .string "north"),
    ("volume", .map (volumes.map fun (name, size) => (name, .object [("size", .int size)])))]

private theorem markedBlock_wellFormed {name : String} {type : AttributeType}
    (typed : type.WellFormed) : (markedBlock name type).WellFormed :=
  .of_attributes (List.pairwise_singleton _ _) (List.forall_mem_singleton.mpr typed)

private theorem markedBlock_setFree (name : String) (type : AttributeType) :
    (markedBlock name type).SetFree :=
  .intro (fun _ member => absurd member List.not_mem_nil)
    (fun _ member => absurd member List.not_mem_nil)

theorem clusterSchema_wellFormed : clusterSchema.block.WellFormed := by
  have inOrder : ["network", "node", "volume"].Pairwise (· < ·) := by decide
  refine .intro (List.pairwise_singleton _ _) inOrder (by decide)
    (List.forall_mem_singleton.mpr .string) ?_
  simp only [clusterSchema, List.forall_mem_cons]
  exact ⟨markedBlock_wellFormed .string, markedBlock_wellFormed .string,
    markedBlock_wellFormed .int64, fun _ member => absurd member List.not_mem_nil⟩

theorem clusterSchema_setFree : clusterSchema.block.SetFree := by
  refine .intro (by simp [clusterSchema, NestedBlock.ofMode]) ?_
  simp only [clusterSchema, List.forall_mem_cons]
  exact ⟨markedBlock_setFree _ _, markedBlock_setFree _ _, markedBlock_setFree _ _,
    fun _ member => absurd member List.not_mem_nil⟩

/-- A new network and another kind of node replace the cluster; a removed node and a new volume do
not. -/
theorem cluster_replacements :
    let prior := cluster .null ["small", "large"] [("data", 1)]
    let planned := cluster (.object [("cidr", .string "10.0.0.0/8")]) ["huge"]
      [("data", 1), ("logs", 2)]
    let reported := clusterSchema.block.replacements [] prior planned
    clusterSchema.block.WellFormed ∧ Value.HasType clusterSchema.valueType prior ∧
      Value.HasType clusterSchema.valueType planned ∧ planned.KeyOrdered ∧
      clusterSchema.block.SetFree ∧
      (clusterSchema.replacements prior planned).toList = reported ∧ reported.Nodup ∧
      (∀ path ∈ reported, (∃ attr, clusterSchema.EndsAt path attr ∧ attr.requiresReplace = true) ∧
        ∃ value, planned.getAt path = .ok value) ∧
      (∀ path, path ∈ reported ↔ ∃ attr before after,
        clusterSchema.EndsAt path attr ∧ attr.requiresReplace = true ∧
          prior.seen? path = some before ∧ planned.seen? path = some after ∧
            (before == after) = false) ∧
      reported = [[.name "network", .name "cidr"], [.name "node", .index 0, .name "kind"]] := by
  intro prior planned reported
  have priorTyped : Value.HasType clusterSchema.valueType prior :=
    (Value.Decoded.conforms ⟨prior.toJson, rfl⟩).1
  have typed : Value.HasType clusterSchema.valueType planned :=
    (Value.Decoded.conforms ⟨planned.toJson, rfl⟩).1
  have ordered : planned.KeyOrdered := Value.keyOrdered_of_toJson (Json.keyOrdered_iff.mpr rfl)
  rcases Schema.replacements_are_exact clusterSchema_wellFormed priorTyped typed ordered with
    ⟨kept, distinct, ends, complete⟩
  exact ⟨clusterSchema_wellFormed, priorTyped, typed, ordered, clusterSchema_setFree, kept,
    distinct, ends, complete clusterSchema_setFree, rfl⟩

end ProviderKit

import ProviderKit.Planning.Counterpart
import ProviderKit.Proofs.Value.Acceptance
import ProviderKit.Value.Access

/-!
# What a write does to a typed value

A write that reaches the end of its path changes one place and opens containers on the way.
Whether the value is still of its type afterwards is decided by three things alone: the path has
to lead through the type, what is written has to be accepted at the place it leads to, and no
set on the way may be left with a repetition.

The document of a value does not tell an object from a map, nor a list from a set.  A name and
a key therefore lead to the same place of a type, and a container opened for the wrong one of
the two does no harm.
-/

namespace ProviderKit

namespace AttributeType

/-- The type of what stands under a name or a key. -/
def named? (name : String) : AttributeType → Option AttributeType
  | map element => some element
  | object attributes => Entries.find? name attributes
  | dynamic => some dynamic
  | _ => none

def element? : AttributeType → Option AttributeType
  | list element => some element
  | set element => some element
  | dynamic => some dynamic
  | _ => none

/-- The type one step further in. -/
def member? (type : AttributeType) : PathStep → Option AttributeType
  | .name name => type.named? name
  | .key key => type.named? key
  | .index _ => type.element?

/-- The type of the place that a path leads to. -/
def at? (type : AttributeType) : Path → Option AttributeType
  | [] => some type
  | step :: rest => (type.member? step).bind fun inner => inner.at? rest

theorem WellFormed.member {type inner : AttributeType} (wellFormed : type.WellFormed)
    {step : PathStep} (found : type.member? step = some inner) : inner.WellFormed := by
  have named : ∀ name, type.named? name = some inner → inner.WellFormed := by
    intro name found
    cases wellFormed with
    | map element =>
        cases found
        exact element
    | object _ attributes => exact attributes _ (Entries.mem_of_find? found)
    | dynamic =>
        cases found
        exact .dynamic
    | _ => cases found
  cases step with
  | name name => exact named name found
  | key key => exact named key found
  | index index =>
      cases wellFormed with
      | list element =>
          cases found
          exact element
      | set element =>
          cases found
          exact element
      | dynamic =>
          cases found
          exact .dynamic
      | _ => cases found

theorem WellFormed.at? {type place : AttributeType} (wellFormed : type.WellFormed) {path : Path}
    (found : type.at? path = some place) : place.WellFormed := by
  induction path generalizing type with
  | nil =>
      cases found
      exact wellFormed
  | cons step rest inductionHypothesis =>
      rcases Option.bind_eq_some_iff.mp found with ⟨inner, leads, found⟩
      exact inductionHypothesis (wellFormed.member leads) found

end AttributeType

namespace Value

/-! ## Writes that reach their place -/

/-- A value that has the parts of a container: it is one already, or null and opened as one
without parts. -/
def Opens {α : Type} (container : List α → Value) (current : Value) (parts : List α) : Prop :=
  current = container parts ∨ current = null ∧ parts = []

/-- How a value turns into another one when a new value is written at a path. -/
inductive Writes (new : Value) : Path → Value → Value → Prop
  | here (current : Value) : Writes new [] current new
  | named {name : String} {rest : Path} {current after : Value}
      {attributes : List (String × Value)} (opens : Opens object current attributes)
      (inside : Writes new rest ((Entries.find? name attributes).getD null) after) :
      Writes new (.name name :: rest) current (object (Entries.insert name after attributes))
  | keyed {key : String} {rest : Path} {current after : Value}
      {entries : List (String × Value)} (opens : Opens map current entries)
      (inside : Writes new rest ((Entries.find? key entries).getD null) after) :
      Writes new (.key key :: rest) current (map (Entries.insert key after entries))
  | indexed {index : Int} {rest : Path} {current after : Value}
      {container : List Value → Value} {elements : List Value}
      (ordered : container = list ∨ container = set) (opens : Opens container current elements)
      (lower : 0 ≤ index) (upper : index ≤ elements.length)
      (inside : Writes new rest (elementAt elements index) after) :
      Writes new (.index index :: rest) current
        (container (putElement elements index.toNat after))

theorem writes_of_complete {new : Value} {path : Path} {current : Value}
    (complete : (writeAlong new path current).complete = true) :
    Writes new path current (writeAlong new path current).value := by
  induction path generalizing current with
  | nil => exact .here current
  | cons step rest inductionHypothesis =>
      cases step with
      | name name =>
          cases current with
          | null => exact .named (.inr ⟨rfl, rfl⟩) (inductionHypothesis complete)
          | object attributes => exact .named (.inl rfl) (inductionHypothesis complete)
          | _ => cases complete
      | key key =>
          cases current with
          | null => exact .keyed (.inr ⟨rfl, rfl⟩) (inductionHypothesis complete)
          | map entries => exact .keyed (.inl rfl) (inductionHypothesis complete)
          | _ => cases complete
      | index index =>
          have inside {container : List Value → Value} {elements : List Value}
              (ordered : container = list ∨ container = set)
              (opens : Opens container current elements)
              (same : writeAlong new (.index index :: rest) current =
                if 0 ≤ index ∧ index ≤ elements.length then
                  (writeAlong new rest (elementAt elements index)).within fun element =>
                    container (putElement elements index.toNat element)
                else ⟨container elements, false⟩) :
              Writes new (.index index :: rest) current
                (writeAlong new (.index index :: rest) current).value := by
            rw [same] at complete ⊢
            split at complete
            · next bounds =>
              rw [if_pos bounds]
              exact .indexed ordered opens bounds.1 bounds.2 (inductionHypothesis complete)
            · cases complete
          cases current with
          | null => exact inside (.inl rfl) (.inr ⟨rfl, rfl⟩) rfl
          | list elements => exact inside (.inl rfl) (.inl rfl) rfl
          | set elements => exact inside (.inr rfl) (.inl rfl) rfl
          | _ => cases complete

/-! ## The sets on the way -/

/-- No set that the path enters repeats a fully known element, as its type reads them. -/
def SetsApart (type : AttributeType) (path : Path) (value : Value) : Prop :=
  ∀ front step back element found, path = front ++ step :: back →
    type.at? front = some (.set element) → value.follow? front = some found →
      element.MeansApart (toJsonItems found.elements)

theorem setsApart_nil (type : AttributeType) (value : Value) : SetsApart type [] value := by
  intro front step back element found split
  cases front <;> cases split

theorem setsApart_cons_iff {type member : AttributeType} {step : PathStep} {rest : Path}
    {value inner : Value} (leads : type.member? step = some member)
    (through : ∀ front, value.follow? (step :: front) = inner.follow? front) :
    SetsApart type (step :: rest) value ↔
      (∀ element, type = .set element → element.MeansApart (toJsonItems value.elements)) ∧
        SetsApart member rest inner := by
  constructor
  · intro apart
    refine ⟨?_, ?_⟩
    · rintro element rfl
      exact apart [] step rest element value rfl rfl rfl
    · rintro front next back element found rfl further followed
      refine apart (step :: front) next back element found rfl ?_ ((through front).trans followed)
      rw [AttributeType.at?, leads]
      exact further
  · rintro ⟨here, further⟩ front next back element found split leadsOn followed
    cases front with
    | nil =>
        cases leadsOn
        cases followed
        exact here element rfl
    | cons first front =>
        rcases List.cons.inj split with ⟨rfl, rfl⟩
        rw [AttributeType.at?, leads] at leadsOn
        have followed := (through front).symm.trans followed
        exact further front next back element found rfl leadsOn followed

/-! ## Acceptance after one step -/

theorem find?_toJsonMembers (name : String) (entries : List (String × Value)) :
    (Entries.find? name (toJsonMembers entries)).getD .null =
      ((Entries.find? name entries).getD null).toJson := by
  rw [toJsonMembers_eq_map, Entries.find?_mapValues]
  cases Entries.find? name entries <;> rfl

section Members

variable {type element member : AttributeType} {types : List (String × AttributeType)}
  {entries : List (String × Value)} {name : String} {inner : Value}

theorem accepts_map_toJson_iff :
    (AttributeType.map element).Accepts (.object (toJsonMembers entries)) ↔
      ∀ entry ∈ entries, element.Accepts entry.2.toJson := by
  rw [AttributeType.accepts_map_iff, toJsonMembers_eq_map]
  exact List.forall_mem_map

theorem accepts_object_toJson_iff :
    (AttributeType.object types).Accepts (.object (toJsonMembers entries)) ↔
      (∀ name ∈ Entries.keys entries, name ∈ Entries.keys types) ∧
        ∀ entry ∈ types, entry.2.Accepts ((Entries.find? entry.1 entries).getD null).toJson := by
  rw [AttributeType.accepts_object_iff]
  simp only [find?_toJsonMembers]
  rw [toJsonMembers_eq_map, Entries.keys_mapValues]

/-- A name leads from an accepted object to an accepted member. -/
theorem accepts_named
    (before : entries = [] ∨ type.Accepts (.object (toJsonMembers entries)))
    (leads : type.named? name = some member) :
    member.Accepts ((Entries.find? name entries).getD null).toJson := by
  rcases before with rfl | before
  · exact member.accepts_null
  cases type with
  | map element =>
      cases leads
      cases found : Entries.find? name entries with
      | none => exact member.accepts_null
      | some value => exact accepts_map_toJson_iff.mp before _ (Entries.mem_of_find? found)
  | object types =>
      exact (accepts_object_toJson_iff.mp before).2 _ (Entries.mem_of_find? leads)
  | dynamic =>
      cases leads
      exact AttributeType.accepts_dynamic _
  | _ => cases leads

theorem accepts_insert_iff (wellFormed : type.WellFormed)
    (before : entries = [] ∨ type.Accepts (.object (toJsonMembers entries))) :
    type.Accepts (.object (toJsonMembers (Entries.insert name inner entries))) ↔
      ∃ member, type.named? name = some member ∧ member.Accepts inner.toJson := by
  have stored : (name, inner) ∈ Entries.insert name inner entries :=
    Entries.mem_of_find? (Entries.find?_insert_self name inner entries)
  cases type with
  | map element =>
      have others : ∀ entry ∈ entries, element.Accepts entry.2.toJson := by
        rcases before with rfl | before
        · simp
        · exact accepts_map_toJson_iff.mp before
      rw [accepts_map_toJson_iff]
      constructor
      · exact fun all => ⟨element, rfl, all _ stored⟩
      · rintro ⟨_, ⟨⟩, accepted⟩ entry member
        rcases Entries.mem_of_mem_insert member with rfl | old
        · exact accepted
        · exact others entry old
  | object types =>
      have others : (∀ name ∈ Entries.keys entries, name ∈ Entries.keys types) ∧
          ∀ entry ∈ types, entry.2.Accepts ((Entries.find? entry.1 entries).getD null).toJson := by
        rcases before with rfl | before
        · exact ⟨by simp, fun entry _ => entry.2.accepts_null⟩
        · exact accepts_object_toJson_iff.mp before
      cases wellFormed with
      | object sorted _ =>
          rw [accepts_object_toJson_iff]
          constructor
          · rintro ⟨declared, each⟩
            rcases Entries.exists_find? (declared name (Entries.mem_keys_of_mem stored)) with
              ⟨member, leads⟩
            have accepted := each _ (Entries.mem_of_find? leads)
            rw [Entries.find?_insert_self] at accepted
            exact ⟨member, leads, accepted⟩
          · rintro ⟨member, leads, accepted⟩
            refine ⟨fun other present => ?_, fun entry declared => ?_⟩
            · rcases (Entries.mem_keys_insert inner).mp present with rfl | old
              · exact Entries.mem_keys_of_mem (Entries.mem_of_find? leads)
              · exact others.1 other old
            · by_cases same : entry.1 = name
              · subst same
                have found := Entries.find?_of_mem sorted.nodup declared
                rw [Entries.find?_insert_self, Option.some.inj (found.symm.trans leads)]
                exact accepted
              · rw [Entries.find?_insert_of_ne same]
                exact others.2 entry declared
  | dynamic =>
      exact ⟨fun _ => ⟨_, rfl, AttributeType.accepts_dynamic _⟩,
        fun _ => AttributeType.accepts_dynamic _⟩
  | _ =>
      refine ⟨?_, by rintro ⟨_, ⟨⟩, _⟩⟩
      rintro ⟨value, decoded⟩
      unfold ofJson decodeAt at decoded
      cases decoded

/-- A type that leads on by a name is no set, so a member leaves no repetition behind. -/
theorem accepts_insert_apart_iff (wellFormed : type.WellFormed)
    (before : entries = [] ∨ type.Accepts (.object (toJsonMembers entries))) (items : List Json) :
    type.Accepts (.object (toJsonMembers (Entries.insert name inner entries))) ↔
      ∃ member, type.named? name = some member ∧ member.Accepts inner.toJson ∧
        ∀ element, type = .set element → element.MeansApart items := by
  refine (accepts_insert_iff wellFormed before).trans (exists_congr fun member => ?_)
  refine and_congr_right fun leads => (and_iff_left ?_).symm
  rintro element rfl
  cases leads

end Members

section Elements

variable {type member : AttributeType} {elements : List Value} {index : Nat} {inner : Value}

theorem accepts_list_toJson_iff :
    (AttributeType.list member).Accepts (.array (toJsonItems elements)) ↔
      ∀ element ∈ elements, member.Accepts element.toJson := by
  rw [AttributeType.accepts_list_iff, toJsonItems_eq_map]
  exact List.forall_mem_map

theorem accepts_set_toJson_iff :
    (AttributeType.set member).Accepts (.array (toJsonItems elements)) ↔
      (∀ element ∈ elements, member.Accepts element.toJson) ∧
        member.MeansApart (toJsonItems elements) := by
  rw [AttributeType.accepts_set_iff, toJsonItems_eq_map]
  exact and_congr_left' List.forall_mem_map

theorem forall_mem_putElement_iff {P : Value → Prop} (others : ∀ element ∈ elements, P element) :
    (∀ element ∈ putElement elements index inner, P element) ↔ P inner := by
  unfold putElement
  split
  · next inside =>
    refine ⟨fun all => all inner (List.mem_set inside inner), fun holds element found => ?_⟩
    rcases List.mem_or_eq_of_mem_set found with old | rfl
    · exact others element old
    · exact holds
  · rw [List.forall_mem_append, List.forall_mem_singleton]
    exact and_iff_right others

/-- An index leads from an accepted array to an accepted element. -/
theorem accepts_elementAt (before : elements = [] ∨ type.Accepts (.array (toJsonItems elements)))
    (leads : type.element? = some member) (index : Int) :
    member.Accepts (elementAt elements index).toJson := by
  have each : ∀ element ∈ elements, member.Accepts element.toJson := by
    rcases before with rfl | before
    · simp
    cases type with
    | list element =>
        cases leads
        exact accepts_list_toJson_iff.mp before
    | set element =>
        cases leads
        exact (accepts_set_toJson_iff.mp before).1
    | dynamic =>
        cases leads
        exact fun _ _ => AttributeType.accepts_dynamic _
    | _ => cases leads
  unfold elementAt
  split
  · exact member.accepts_null
  · cases found : elements[index.toNat]? with
    | none => exact member.accepts_null
    | some element => exact each element (List.mem_of_getElem? found)

theorem accepts_putElement_iff
    (before : elements = [] ∨ type.Accepts (.array (toJsonItems elements))) :
    let after := toJsonItems (putElement elements index inner)
    type.Accepts (.array after) ↔ ∃ member, type.element? = some member ∧
      member.Accepts inner.toJson ∧ ∀ element, type = .set element → element.MeansApart after := by
  intro after
  cases type with
  | list element =>
      have others : ∀ value ∈ elements, element.Accepts value.toJson := by
        rcases before with rfl | before
        · simp
        · exact accepts_list_toJson_iff.mp before
      rw [accepts_list_toJson_iff, forall_mem_putElement_iff others]
      exact ⟨fun accepted => ⟨element, rfl, accepted, nofun⟩,
        by rintro ⟨_, ⟨⟩, accepted, _⟩; exact accepted⟩
  | set element =>
      have others : ∀ value ∈ elements, element.Accepts value.toJson := by
        rcases before with rfl | before
        · simp
        · exact (accepts_set_toJson_iff.mp before).1
      rw [accepts_set_toJson_iff, forall_mem_putElement_iff others]
      constructor
      · rintro ⟨accepted, apart⟩
        exact ⟨element, rfl, accepted, by rintro _ ⟨⟩; exact apart⟩
      · rintro ⟨_, ⟨⟩, accepted, apart⟩
        exact ⟨accepted, apart element rfl⟩
  | dynamic =>
      exact ⟨fun _ => ⟨_, rfl, AttributeType.accepts_dynamic _, nofun⟩,
        fun _ => AttributeType.accepts_dynamic _⟩
  | _ =>
      refine ⟨?_, by rintro ⟨_, ⟨⟩, _⟩⟩
      rintro ⟨value, decoded⟩
      unfold ofJson decodeAt at decoded
      cases decoded

theorem elementAt_putElement (inner : Value) {index : Int} (lower : 0 ≤ index)
    (upper : index ≤ elements.length) :
    elementAt (putElement elements index.toNat inner) index = inner := by
  unfold elementAt putElement
  rw [if_neg (by omega)]
  split
  · next inside => rw [List.getElem?_set_self inside]; rfl
  · next outside =>
    have last : index.toNat = elements.length := by omega
    rw [last, List.getElem?_concat_length]
    rfl

end Elements

/-! ## Where a write has reached -/

/-- What has been written is found at the end of the path. -/
theorem Writes.follow?_eq {new current after : Value} {path : Path}
    (writes : Writes new path current after) : after.follow? path = some new := by
  induction writes with
  | here => rfl
  | named opens _ inductionHypothesis =>
      simp only [Value.follow?, Entries.find?_insert_self, Option.bind_some, inductionHypothesis]
  | keyed opens _ inductionHypothesis =>
      simp only [Value.follow?, Entries.find?_insert_self, Option.getD_some, inductionHypothesis]
  | @indexed index rest current after container elements ordered opens lower upper _
      inductionHypothesis =>
      have found := elementAt_putElement after lower upper
      rcases ordered with rfl | rfl
      · simp only [Value.follow?, found, inductionHypothesis]
      · simp only [Value.follow?, found, inductionHypothesis]

/-! ## Acceptance after a write -/

variable {new current after : Value} {type : AttributeType} {path rest : Path}
  {step : PathStep}

theorem Opens.accepts {α : Type} {container : List α → Value} {parts : List α}
    (opens : Opens container current parts) (before : type.Accepts current.toJson) :
    parts = [] ∨ type.Accepts (container parts).toJson := by
  rcases opens with rfl | ⟨_, empty⟩
  · exact .inr before
  · exact .inl empty

/-- A write one step further in is accepted at the step. -/
private theorem accepts_step_iff (inner : Value)
    (through : ∀ front, after.follow? (step :: front) = inner.follow? front)
    (outer : type.Accepts after.toJson ↔ ∃ member, type.member? step = some member ∧
      member.Accepts inner.toJson ∧
        ∀ element, type = .set element → element.MeansApart (toJsonItems after.elements))
    (further : ∀ member, type.member? step = some member → (member.Accepts inner.toJson ↔
      ∃ place, member.at? rest = some place ∧ place.Accepts new.toJson ∧
        SetsApart member rest inner)) :
    type.Accepts after.toJson ↔ ∃ place, type.at? (step :: rest) = some place ∧
      place.Accepts new.toJson ∧ SetsApart type (step :: rest) after := by
  rw [outer]
  constructor
  · rintro ⟨member, leads, accepted, apart⟩
    rcases (further member leads).mp accepted with ⟨place, found, written, apartFurther⟩
    refine ⟨place, ?_, written, (setsApart_cons_iff leads through).mpr ⟨apart, apartFurther⟩⟩
    rw [AttributeType.at?, leads]
    exact found
  · rintro ⟨place, found, written, apart⟩
    rcases Option.bind_eq_some_iff.mp found with ⟨member, leads, found⟩
    rcases (setsApart_cons_iff leads through).mp apart with ⟨here, apartFurther⟩
    exact ⟨member, leads, (further member leads).mpr ⟨place, found, written, apartFurther⟩, here⟩

/-- A write keeps a value of its type exactly when it leads to a place of the type, what is
written is accepted there, and the sets on the way are left without repetition. -/
theorem Writes.accepts_iff (writes : Writes new path current after) (wellFormed : type.WellFormed)
    (before : type.Accepts current.toJson) :
    type.Accepts after.toJson ↔ ∃ place, type.at? path = some place ∧
      place.Accepts new.toJson ∧ SetsApart type path after := by
  induction writes generalizing type with
  | here current =>
      refine ⟨fun accepted => ⟨type, rfl, accepted, setsApart_nil type new⟩, ?_⟩
      rintro ⟨_, ⟨⟩, accepted, _⟩
      exact accepted
  | @named name rest current inner attributes opens inside inductionHypothesis =>
      have parts := opens.accepts before
      refine accepts_step_iff inner (fun front => ?_) ?_ fun member leads =>
        inductionHypothesis (wellFormed.member leads) (accepts_named parts leads)
      · simp [Value.follow?]
      · exact accepts_insert_apart_iff wellFormed parts _
  | @keyed key rest current inner entries opens inside inductionHypothesis =>
      have parts := opens.accepts before
      refine accepts_step_iff inner (fun front => ?_) ?_ fun member leads =>
        inductionHypothesis (wellFormed.member leads) (accepts_named parts leads)
      · simp [Value.follow?]
      · exact accepts_insert_apart_iff wellFormed parts _
  | @indexed index rest current inner container elements ordered opens lower upper inside
      inductionHypothesis =>
      have document : ∀ parts, (container parts).toJson = .array (toJsonItems parts) := by
        rcases ordered with rfl | rfl <;> exact fun _ => rfl
      have kept : ∀ parts, (container parts).elements = parts := by
        rcases ordered with rfl | rfl <;> exact fun _ => rfl
      have parts := opens.accepts before
      rw [document] at parts
      refine accepts_step_iff inner (fun front => ?_) ?_ fun member leads =>
        inductionHypothesis (wellFormed.member leads) (accepts_elementAt parts leads index)
      · have found := elementAt_putElement inner lower upper
        rcases ordered with rfl | rfl <;> simp [Value.follow?, found]
      · rw [document, kept]
        exact accepts_putElement_iff parts

end Value
end ProviderKit

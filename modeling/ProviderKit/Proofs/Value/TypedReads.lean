import ProviderKit.Proofs.Success
import ProviderKit.Value.Read

/-!
# What a typed read keeps

A provider that reads an attribute in a shape and writes the result somewhere else has written what
it has read.  Null may be taken in by an optional shape, by an observed primitive, or by a shape
that leaves the value as it is, and unknown by the last two, but each of them gives it back.  The
one thing that is not kept is which elements were those of a set, because a list is read from
either.  Documents do not tell the two apart, so the document stays the same.

Two shapes are left out.  A double is also read from an integer, and need not be equal to it, and a
map is also read from an object.
-/

namespace ProviderKit

/-- A result comes from one value only, except that doubles are read from integers, too. -/
theorem Primitive.toValue_of_read {p : Primitive} (exact : p ≠ .float64) {path : Path}
    {found : Value} {result : p.Result} (success : p.read path found = .ok result) :
    p.toValue result = found := by
  cases p with
  | float64 => exact absurd rfl exact
  | string | bool =>
      cases found <;> cases success
      rfl
  | int64 =>
      cases found with
      | number n =>
          cases n with
          | float => cases success
          | int n =>
              simp only [read, extract?, Json.Number.asInt64?] at success
              cases inRange : Json.Number.inInt64? n with
              | none => simp [inRange] at success
              | some i =>
                  simp only [inRange] at success
                  cases success
                  rw [(Json.Number.inInt64?_eq_some_iff.mp inRange).2]
                  rfl
      | _ => cases success

namespace ReadShape

/-- The shape is made of values, texts, integers and truth values, of observed ones of the latter
three, and of optional shapes and lists of such. -/
inductive Faithful : ReadShape → Prop
  | value : Faithful .value
  | primitive {p : Primitive} (exact : p ≠ .float64) : Faithful (.primitive p)
  | observed {p : Primitive} (exact : p ≠ .float64) : Faithful (.observed p)
  | optional {shape : ReadShape} (inner : Faithful shape) : Faithful (.optional shape)
  | list {shape : ReadShape} (inner : Faithful shape) : Faithful (.list shape)

/-- The value with a list in place of every set that the shape reads as a list. -/
def withLists : ReadShape → Value → Value
  | list shape, .list elements => .list (elements.map shape.withLists)
  | list shape, .set elements => .list (elements.map shape.withLists)
  | optional shape, found => shape.withLists found
  | _, found => found

variable {shape : ReadShape} {path : Path} {found : Value}

theorem withLists_null (shape : ReadShape) : shape.withLists .null = .null := by
  induction shape with
  | optional _ inductionHypothesis => rwa [withLists]
  | _ => rw [withLists] <;> nofun

/-- A list has the document of the set that it stands for. -/
theorem toJson_withLists (shape : ReadShape) (found : Value) :
    (shape.withLists found).toJson = found.toJson := by
  induction shape generalizing found with
  | list shape inductionHypothesis =>
      cases found with
      | list elements | set elements =>
          simp only [withLists, Value.toJson, Value.toJsonItems_eq_map, List.map_map]
          refine congrArg Json.array (List.map_congr_left fun element _ => ?_)
          exact inductionHypothesis element
      | _ => rw [withLists] <;> nofun
  | optional shape inductionHypothesis =>
      rw [withLists]
      exact inductionHypothesis found
  | _ => rw [withLists] <;> nofun

theorem Faithful.isReversible (faithful : shape.Faithful) : shape.isReversible = true := by
  induction faithful with
  | optional _ inductionHypothesis | list _ inductionHypothesis => exact inductionHypothesis
  | _ => rfl

/-- Elements that are read together are read one by one. -/
theorem forall₂_of_readElements {α : Type} {read : Path → Value → Except ValueError α}
    {elements : List Value} {results : List α}
    (success : readElements read path elements = .ok results) :
    List.Forall₂ (fun element result => ∃ place, read place element = .ok result) elements
      results := by
  rw [← List.zipIdx_map_fst 0 elements, List.forall₂_map_left_iff]
  exact (mapM_eq_ok_iff.mp success).imp fun _ _ one => ⟨_, one⟩

/-- What has been read is turned back into the value, but for sets that were read as lists. -/
theorem Faithful.toValue_of_read (faithful : shape.Faithful) {result : shape.Result}
    (success : shape.read path found = .ok result) :
    shape.toValue result = shape.withLists found := by
  induction faithful generalizing path found with
  | value =>
      cases success
      rw [toValue, withLists] <;> nofun
  | primitive exact =>
      rw [toValue, withLists]
      · exact Primitive.toValue_of_read exact success
      all_goals nofun
  | observed exact =>
      cases found with
      | null | unknown =>
          cases success
          rw [withLists]
          · rfl
          all_goals nofun
      | _ =>
          rcases map_eq_ok success with ⟨inner, read, rfl⟩
          rw [withLists]
          · exact Primitive.toValue_of_read exact read
          all_goals nofun
  | @optional shape _ inductionHypothesis =>
      rw [withLists]
      cases found with
      | null =>
          cases success
          exact shape.withLists_null.symm
      | _ =>
          rcases map_eq_ok success with ⟨inner, read, rfl⟩
          exact inductionHypothesis read
  | @list shape _ inductionHypothesis =>
      have each {elements : List Value} {results : List shape.Result}
          (success : readElements shape.read path elements = .ok results) :
          results.map shape.toValue = elements.map shape.withLists := by
        rw [← List.forall₂_eq_eq_eq, List.forall₂_map_left_iff, List.forall₂_map_right_iff]
        exact (forall₂_of_readElements success).flip.imp fun _ _ ⟨_, one⟩ => inductionHypothesis one
      cases found with
      | list elements | set elements =>
          rw [toValue, withLists]
          exact congrArg Value.list (each success)
      | _ => cases success

/-- The result of a read is turned back into the value that was read, in which the sets that were
read as lists have become lists of the same elements.  Its document is the one of the value. -/
theorem read_result_is_turned_back (faithful : shape.Faithful) {result : shape.Result}
    (success : shape.read path found = .ok result) :
    shape.toValue? result = some (shape.withLists found) ∧
      (shape.withLists found).toJson = found.toJson := by
  refine ⟨?_, shape.toJson_withLists found⟩
  rw [toValue?, if_pos faithful.isReversible, faithful.toValue_of_read success]

/-- Nulls are taken in at two levels, and an inner set stays a set where values are read as they
are. -/
theorem groups_are_turned_back :
    let shape := ReadShape.list (.optional (.list .value))
    let found := Value.set [.null, .list [.int 1, .null], .set [.unknown, .set [.string "a"]]]
    let result : shape.Result :=
      [none, some [.int 1, .null], some [.unknown, .set [.string "a"]]]
    shape.Faithful ∧ shape.read [.name "groups"] found = .ok result ∧
      shape.toValue? result = some (.list [.null, .list [.int 1, .null],
        .list [.unknown, .set [.string "a"]]]) := by
  intro shape found result
  have faithful : shape.Faithful := .list (.optional (.list .value))
  have success : shape.read [.name "groups"] found = .ok result := rfl
  exact ⟨faithful, success, (read_result_is_turned_back faithful success).1⟩

end ReadShape
end ProviderKit

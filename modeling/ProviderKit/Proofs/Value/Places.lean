import ProviderKit.Proofs.Value.Blocked

/-!
# Places in a value

A place is where a path ends whose every step finds a part that is there.  A read goes further than
that, because below null and below an unknown value it no longer looks at the path, and a missing
entry or element reads as null.  It still is a read in stages: what is found along a path is read on
along the next one, wherever the first one ended.  What is read as unknown lies at a place that is
unknown, or below one.
-/

namespace ProviderKit
namespace Value

/-- The part at the end of a path, when every step finds one. -/
def partAt? : Path → Value → Option Value
  | [], value => some value
  | step :: rest, value => (value.part? step).bind (partAt? rest)

variable {value part found : Value} {step : PathStep} {path rest : Path} {error : ValueError}

theorem partAt?_cons_eq_some_iff :
    value.partAt? (step :: rest) = some found ↔
      ∃ part, value.part? step = some part ∧ part.partAt? rest = some found :=
  Option.bind_eq_some_iff

theorem partAt?_append (front rest : Path) (value : Value) :
    value.partAt? (front ++ rest) = (value.partAt? front).bind (partAt? rest) := by
  induction front generalizing value with
  | nil => rfl
  | cons step front inductionHypothesis =>
      rw [List.cons_append, partAt?, partAt?, Option.bind_assoc]
      exact Option.bind_congr fun part _ => inductionHypothesis part

/-! ## One step of a read -/

theorem follow?_null (path : Path) : null.follow? path = some null := by
  cases path <;> rfl

theorem follow?_unknown (path : Path) : unknown.follow? path = some unknown := by
  cases path <;> rfl

/-- A path goes on at the part that its first step finds. -/
theorem follow?_cons_of_part? (found : value.part? step = some part) :
    value.follow? (step :: rest) = part.follow? rest := by
  cases value <;> cases step <;> try cases found
  case object.name attributes name =>
    have found : Entries.find? name attributes = some part := found
    rw [follow?, found]
    rfl
  case map.key entries key =>
    have found : Entries.find? key entries = some part := found
    rw [follow?, found]
    rfl
  case list.index elements index | set.index elements index =>
    have found : elementAt? elements index = some part := found
    rw [follow?, elementAt_eq_getD, found]
    rfl

/-- A step that finds no part in a value that is not unknown reads null or fails. -/
theorem follow?_cons_of_missing (known : value ≠ unknown) (missing : value.part? step = none)
    (rest : Path) :
    value.follow? (step :: rest) = some null ∨ value.follow? (step :: rest) = none := by
  cases value with
  | unknown => exact absurd rfl known
  | null => exact .inl (follow?_null _)
  | bool | number | string => cases step <;> exact .inr rfl
  | object attributes =>
      cases step with
      | name name =>
          have missing : Entries.find? name attributes = none := missing
          rw [follow?, missing]
          exact .inr rfl
      | key | index => exact .inr rfl
  | map entries =>
      cases step with
      | key key =>
          have missing : Entries.find? key entries = none := missing
          rw [follow?, missing]
          exact .inl (follow?_null rest)
      | name | index => exact .inr rfl
  | list elements | set elements =>
      cases step with
      | index index =>
          have missing : elementAt? elements index = none := missing
          rw [follow?, elementAt_eq_getD, missing]
          exact .inl (follow?_null rest)
      | name | key => exact .inr rfl

/-- What stands at a place is read there. -/
theorem follow?_of_partAt? (found : value.partAt? path = some part) :
    value.follow? path = some part := by
  induction path generalizing value with
  | nil => exact found
  | cons step rest inductionHypothesis =>
      rcases partAt?_cons_eq_some_iff.mp found with ⟨inner, first, later⟩
      rw [follow?_cons_of_part? first]
      exact inductionHypothesis later

/-! ## Reads in stages -/

/-- Where the first path ends below null or an unknown value, the second one is not looked at
either. -/
theorem follow?_append (front back : Path) (value : Value) :
    value.follow? (front ++ back) = (value.follow? front).bind (follow? back) := by
  induction front generalizing value with
  | nil => rfl
  | cons step rest inductionHypothesis =>
      cases value with
      | null => rw [follow?_null, follow?_null, Option.bind_some, follow?_null]
      | unknown => rw [follow?_unknown, follow?_unknown, Option.bind_some, follow?_unknown]
      | bool | number | string => cases step <;> rfl
      | object attributes =>
          cases step with
          | name name =>
              rw [List.cons_append, follow?, follow?, Option.bind_assoc]
              exact Option.bind_congr fun attr _ => inductionHypothesis attr
          | key | index => rfl
      | map entries =>
          cases step with
          | key key => exact inductionHypothesis _
          | name | index => rfl
      | list elements | set elements =>
          cases step with
          | index index => exact inductionHypothesis _
          | name | key => rfl

theorem getAt_eq_ok_iff : value.getAt path = .ok found ↔ value.follow? path = some found := by
  unfold getAt
  cases value.follow? path <;> simp

theorem getAt_eq_error_iff :
    value.getAt path = .error error ↔ value.follow? path = none ∧ error = .invalidPath path := by
  unfold getAt
  cases value.follow? path <;> simp [eq_comm]

/-- Reading along one path after the other finds what reading along both at once finds.  It fails
when one of the two reads fails, and the error then names the whole path. -/
theorem read_along_both_is_read_in_stages (value : Value) (front back : Path) :
    (∀ found, value.getAt (front ++ back) = .ok found ↔
      ∃ inner, value.getAt front = .ok inner ∧ inner.getAt back = .ok found) ∧
    ∀ error, value.getAt (front ++ back) = .error error ↔
      error = .invalidPath (front ++ back) ∧
        (value.getAt front = .error (.invalidPath front) ∨
          ∃ inner, value.getAt front = .ok inner ∧
            inner.getAt back = .error (.invalidPath back)) := by
  simp only [getAt_eq_ok_iff, getAt_eq_error_iff, follow?_append, and_true]
  refine ⟨fun found => Option.bind_eq_some_iff, fun error => ?_⟩
  rw [and_comm]
  refine and_congr_right fun _ => ?_
  cases value.follow? front with
  | none => simp
  | some inner => simp

/-! ## Unknown reads -/

/-- What is read as unknown is unknown itself or stands below something unknown. -/
theorem follow?_eq_unknown_iff :
    value.follow? path = some unknown ↔
      ∃ front, front <+: path ∧ value.partAt? front = some unknown := by
  induction path generalizing value with
  | nil =>
      simp only [List.prefix_nil, exists_eq_left]
      exact Iff.rfl
  | cons step rest inductionHypothesis =>
      by_cases known : value = unknown
      · subst known
        exact iff_of_true (follow?_unknown _) ⟨[], List.nil_prefix, rfl⟩
      -- The value itself is known, so the path to the unknown part takes the first step.
      have further : (∃ front, front <+: step :: rest ∧ value.partAt? front = some unknown) ↔
          ∃ part, value.part? step = some part ∧
            ∃ front, front <+: rest ∧ part.partAt? front = some unknown := by
        constructor
        · rintro ⟨front, leads, atFront⟩
          rcases List.prefix_cons_iff.mp leads with rfl | ⟨further, rfl, leadsFurther⟩
          · exact absurd (Option.some.inj atFront) known
          · rcases partAt?_cons_eq_some_iff.mp atFront with ⟨part, first, later⟩
            exact ⟨part, first, further, leadsFurther, later⟩
        · rintro ⟨part, first, front, leads, later⟩
          exact ⟨step :: front, List.cons_prefix_cons.mpr ⟨rfl, leads⟩,
            partAt?_cons_eq_some_iff.mpr ⟨part, first, later⟩⟩
      rw [further]
      cases first : value.part? step with
      | some part =>
          rw [follow?_cons_of_part? first, inductionHypothesis]
          simp
      | none =>
          rcases follow?_cons_of_missing known first rest with absent | failed
          · simp [absent]
          · simp [failed]

end Value
end ProviderKit

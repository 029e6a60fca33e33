import ProviderKit.Proofs.Value.Places
import ProviderKit.Proofs.Value.Writing

/-!
# What a write leaves alone

A write that reaches the end of its path stores a value there, whatever has been written there
before, and whether it gets there does not depend on what it stores.  A read whose path leaves the
path of the write at a place that was there, and was not null, does not see the difference.  Null is
left out because a write turns it into a container of its own kind, and the same read that gave null
may fail afterwards.

One step of a write opens the container, which changes null only, and then stores the part that the
rest of the write makes.  The laws of both are stated for one step and carried along the path by
induction.
-/

namespace ProviderKit

namespace Path

/-- The steps that two paths have in common before they part. -/
def common : Path → Path → Path
  | step :: rest, other :: rest' => if step = other then step :: common rest rest' else []
  | _, _ => []

/-- The paths that both paths continue are those that the common steps continue. -/
theorem prefix_common_iff {front path other : Path} :
    front <+: common path other ↔ front <+: path ∧ front <+: other := by
  induction path generalizing front other with
  | nil => exact (and_iff_left_of_imp fun empty => (List.prefix_nil.mp empty) ▸ List.nil_prefix).symm
  | cons step rest inductionHypothesis =>
      cases other with
      | nil =>
          exact (and_iff_right_of_imp fun empty => (List.prefix_nil.mp empty) ▸ List.nil_prefix).symm
      | cons step' rest' =>
          by_cases same : step = step'
          · subst same
            rw [common, if_pos rfl]
            cases front with
            | nil => simp
            | cons first front =>
                simp only [List.cons_prefix_cons, inductionHypothesis]
                tauto
          · rw [common, if_neg same]
            cases front with
            | nil => simp
            | cons first front =>
                simp only [List.cons_prefix_cons, List.prefix_nil, reduceCtorEq, false_iff]
                rintro ⟨⟨rfl, _⟩, rfl, _⟩
                exact same rfl

end Path

namespace Value

variable {new other value current part inner node : Value} {step step' : PathStep}
  {path place rest : Path}

/-! ## Elements -/

section Elements

variable {elements : List Value} {index : Int}

theorem length_le_length_putElement (index : Nat) (part : Value) :
    elements.length ≤ (putElement elements index part).length := by
  unfold putElement
  split
  · exact List.length_set.ge
  · exact List.length_append ▸ Nat.le_add_right ..

theorem putElement_putElement (lower : 0 ≤ index) (upper : index ≤ elements.length)
    (first second : Value) :
    putElement (putElement elements index.toNat first) index.toNat second =
      putElement elements index.toNat second := by
  unfold putElement
  by_cases inside : index.toNat < elements.length
  · simp [inside]
  · have last : index.toNat = elements.length := by omega
    simp [last]

theorem elementAt?_putElement_of_ne {index' : Int} (lower : 0 ≤ index)
    (upper : index ≤ elements.length) (different : index' ≠ index) (part : Value) :
    elementAt? (putElement elements index.toNat part) index' = elementAt? elements index' := by
  unfold elementAt? putElement
  by_cases lower' : 0 ≤ index'
  · rw [if_pos lower', if_pos lower']
    have apart : index.toNat ≠ index'.toNat := by omega
    split
    · exact List.getElem?_set_ne apart
    · have last : index.toNat = elements.length := by omega
      grind
  · rw [if_neg lower', if_neg lower']

end Elements

/-! ## One step -/

/-- The container that a write with this step works on. -/
def openedFor (step : PathStep) (value : Value) : Value :=
  if value.isNull then containerFor step else value

/-- The part that a write with this step goes on at, null where there is none yet. -/
def entered (step : PathStep) (value : Value) : Value :=
  ((value.openedFor step).part? step).getD null

theorem openedFor_of_ne_null (present : value ≠ null) (step : PathStep) :
    value.openedFor step = value := by
  cases value with
  | null => exact absurd rfl present
  | _ => rfl

theorem HasRoom.ne_null (room : value.HasRoom step) : value ≠ null := by
  rintro rfl
  cases room

theorem HasRoom.openedFor (room : value.HasRoom step) : value.openedFor step = value :=
  openedFor_of_ne_null room.ne_null step

/-- What a step finds, it also has room for. -/
theorem hasRoom_of_part? (found : value.part? step = some part) : value.HasRoom step := by
  cases value <;> cases step <;> try cases found
  case object.name | map.key => trivial
  case list.index elements index | set.index elements index =>
    rcases elementAt?_eq_some_iff.mp found with ⟨i, rfl, present⟩
    have inside : i < elements.length := (List.getElem?_eq_some_iff.mp present).1
    exact ⟨Int.natCast_nonneg i, Int.ofNat_le.mpr inside.le⟩

theorem entered_of_part? (found : value.part? step = some part) : value.entered step = part := by
  rw [entered, (hasRoom_of_part? found).openedFor, found, Option.getD_some]

/-- A write opens the container and goes on inside it. -/
theorem writeAlong_cons_of_hasRoom (room : (current.openedFor step).HasRoom step) :
    writeAlong new (step :: rest) current =
      (writeAlong new rest (current.entered step)).within
        ((current.openedFor step).withPart step) := by
  have opened : writeAlong new (step :: rest) current =
      writeAlong new (step :: rest) (current.openedFor step) := by
    cases current <;> cases step <;> rfl
  rw [opened, writeAlong_of_hasRoom room]
  rfl

/-- A write reaches its end when the container has room and the rest of the write does. -/
theorem complete_writeAlong_cons_iff :
    (writeAlong new (step :: rest) current).complete = true ↔
      (current.openedFor step).HasRoom step ∧
        (writeAlong new rest (current.entered step)).complete = true := by
  by_cases room : (current.openedFor step).HasRoom step
  · rw [writeAlong_cons_of_hasRoom room]
    exact (and_iff_right room).symm
  · refine iff_of_false (fun complete => ?_) fun both => room both.1
    by_cases absent : current = null
    · subst absent
      cases step with
      | name | key => exact room trivial
      | index index =>
          have stopped : writeAlong new (.index index :: rest) null = ⟨list [], false⟩ :=
            if_neg room
          rw [stopped] at complete
          cases complete
    · rw [openedFor_of_ne_null absent] at room
      rw [writeAlong_of_not_hasRoom absent room] at complete
      cases complete

/-! ## One part stored -/

theorem HasRoom.withPart (room : value.HasRoom step) (part : Value) :
    (value.withPart step part).HasRoom step := by
  cases value <;> cases step <;> try cases room
  case object.name | map.key => trivial
  case list.index elements index lower upper | set.index elements index lower upper =>
    exact ⟨lower, upper.trans (Int.ofNat_le.mpr (length_le_length_putElement _ part))⟩

theorem part?_withPart (room : value.HasRoom step) (part : Value) :
    (value.withPart step part).part? step = some part := by
  cases value <;> cases step <;> try cases room
  case object.name | map.key => exact Entries.find?_insert_self ..
  case list.index elements index lower upper | set.index elements index lower upper =>
    exact (putElement_eq_self_iff lower).mp (putElement_putElement lower upper part part)

theorem withPart_withPart (room : value.HasRoom step) (first second : Value) :
    (value.withPart step first).withPart step second = value.withPart step second := by
  cases value <;> cases step <;> try cases room
  case object.name | map.key => simp only [withPart, Entries.insert_insert]
  case list.index elements index lower upper | set.index elements index lower upper =>
    simp only [withPart, putElement_putElement lower upper]

/-- A step to another part finds what it has found before, and fails where it has failed. -/
theorem follow?_withPart_of_ne (room : value.HasRoom step) (different : step' ≠ step)
    (part : Value) (rest : Path) :
    (value.withPart step part).follow? (step' :: rest) = value.follow? (step' :: rest) := by
  cases value <;> cases step <;> try cases room
  case object.name attributes name =>
    cases step' with
    | name name' =>
        have different : name' ≠ name := fun same => different (congrArg _ same)
        simp only [withPart, follow?, Entries.find?_insert_of_ne different]
    | key | index => rfl
  case map.key entries key =>
    cases step' with
    | key key' =>
        have different : key' ≠ key := fun same => different (congrArg _ same)
        simp only [withPart, follow?, Entries.find?_insert_of_ne different]
    | name | index => rfl
  case list.index elements index lower upper | set.index elements index lower upper =>
    cases step' with
    | index index' =>
        have different : index' ≠ index := fun same => different (congrArg _ same)
        simp only [withPart, follow?, elementAt_eq_getD,
          elementAt?_putElement_of_ne lower upper different]
    | name | key => rfl

/-! ## The whole path -/

/-- Whether a write reaches its end does not depend on what is written. -/
theorem complete_writeAlong_congr :
    (writeAlong new path current).complete = (writeAlong other path current).complete := by
  induction path generalizing current with
  | nil => rfl
  | cons step rest inductionHypothesis =>
      rw [Bool.eq_iff_iff, complete_writeAlong_cons_iff, complete_writeAlong_cons_iff,
        inductionHypothesis]

/-- A write to a place that is there reaches its end. -/
theorem complete_writeAlong_of_partAt? (found : current.partAt? path = some node) :
    (writeAlong new path current).complete = true := by
  induction path generalizing current with
  | nil => rfl
  | cons step rest inductionHypothesis =>
      rcases partAt?_cons_eq_some_iff.mp found with ⟨part, first, later⟩
      have room := hasRoom_of_part? first
      rw [complete_writeAlong_cons_iff, room.openedFor, entered_of_part? first]
      exact ⟨room, inductionHypothesis later⟩

/-- A second write at the path undoes the first one. -/
theorem writeAlong_writeAlong (complete : (writeAlong new path current).complete = true) :
    writeAlong other path (writeAlong new path current).value = writeAlong other path current := by
  induction path generalizing current with
  | nil => rfl
  | cons step rest inductionHypothesis =>
      rcases complete_writeAlong_cons_iff.mp complete with ⟨room, further⟩
      have stored : (writeAlong new (step :: rest) current).value =
          (current.openedFor step).withPart step (writeAlong new rest (current.entered step)).value :=
        congrArg Written.value (writeAlong_cons_of_hasRoom room)
      have reopened := room.withPart (writeAlong new rest (current.entered step)).value
      rw [stored, writeAlong_of_hasRoom reopened, part?_withPart room, Option.getD_some,
        inductionHypothesis further, writeAlong_cons_of_hasRoom room]
      simp only [Written.within, withPart_withPart room]

/-- A read along a path that leaves the path of the write at a place that was there finds what it
has found before, or fails as before. -/
theorem follow?_writeAlong_of_apart (complete : (writeAlong new path current).complete = true)
    (beyond : ¬ path <+: place) (before : ¬ place <+: path)
    (found : current.partAt? (Path.common path place) = some node) (present : node ≠ null) :
    (writeAlong new path current).value.follow? place = current.follow? place := by
  induction path generalizing current place with
  | nil => exact absurd List.nil_prefix beyond
  | cons step rest inductionHypothesis =>
      cases place with
      | nil => exact absurd List.nil_prefix before
      | cons step' rest' =>
          rcases complete_writeAlong_cons_iff.mp complete with ⟨room, further⟩
          rw [writeAlong_cons_of_hasRoom room]
          by_cases same : step = step'
          -- The first step is shared, and finds a part: the paths leave each other inside it.
          · subst same
            rw [Path.common, if_pos rfl, partAt?_cons_eq_some_iff] at found
            rcases found with ⟨part, first, later⟩
            rw [entered_of_part? first] at further
            rw [Written.within, follow?_cons_of_part? (part?_withPart room _),
              follow?_cons_of_part? first, entered_of_part? first]
            exact inductionHypothesis further
              (fun leads => beyond (List.cons_prefix_cons.mpr ⟨rfl, leads⟩))
              (fun leads => before (List.cons_prefix_cons.mpr ⟨rfl, leads⟩)) later
          -- They leave each other here, and nothing has been opened since the value is not null.
          · rw [Path.common, if_neg same] at found
            cases found
            rw [openedFor_of_ne_null present] at room ⊢
            exact follow?_withPart_of_ne room (Ne.symm same) _ rest'

theorem setAt_eq_ok_iff {after : Value} :
    value.setAt path new = (after, none) ↔
      (writeAlong new path value).complete = true ∧ (writeAlong new path value).value = after := by
  rw [setAt, Prod.mk.injEq, and_comm]
  cases (writeAlong new path value).complete <;> simp

/-- After a write without an error the new value is read at its path, another write there replaces
it as if it had not been, and a read whose path leaves that of the write at a place that was there
and not null gives what it has given before.  A place that is there can always be written. -/
theorem write_is_seen_at_its_path_only (value new : Value) (path : Path) :
    (∀ after, value.setAt path new = (after, none) →
      after.getAt path = .ok new ∧
      (∀ other, (after.setAt path other).2 = none ∧
        after.setAt path other = value.setAt path other) ∧
      ∀ place, ¬ path <+: place → ¬ place <+: path →
        ∀ node, value.partAt? (path.common place) = some node → node ≠ null →
          after.getAt place = value.getAt place) ∧
    ∀ node, value.partAt? path = some node →
      value.getAt path = .ok node ∧ (value.setAt path new).2 = none := by
  refine ⟨fun after written => ?_, fun node found => ⟨?_, ?_⟩⟩
  · rcases setAt_eq_ok_iff.mp written with ⟨complete, rfl⟩
    refine ⟨getAt_eq_ok_iff.mpr (writes_of_complete complete).follow?_eq, fun other => ?_,
      fun place beyond before node found present => ?_⟩
    · have again : (writeAlong other path value).complete = true :=
        complete_writeAlong_congr.trans complete
      simp only [setAt, writeAlong_writeAlong complete, again, if_true, and_self]
    · simp only [getAt, follow?_writeAlong_of_apart complete beyond before found present]
  · exact getAt_eq_ok_iff.mpr (follow?_of_partAt? found)
  · simp only [setAt, complete_writeAlong_of_partAt? found, if_true]

/-- Two rules, one of which has not been filled in. -/
def twoRules : Value :=
  .object [("rules", .list [.object [("port", .int 80)], .null]), ("tags", .null)]

/-- A write opens a third rule.  The port of the first one is still no entry of a map, and can be
written in turn. -/
theorem third_rule_is_seen_at_its_path_only :
    let third : Path := [.name "rules", .index 2, .name "port"]
    let first : Path := [.name "rules", .index 0, .name "port"]
    let entry : Path := [.name "rules", .index 0, .key "port"]
    let after : Value := .object [("rules", .list [.object [("port", .int 80)], .null,
      .object [("port", .int 443)]]), ("tags", .null)]
    twoRules.setAt third (.int 443) = (after, none) ∧ after.getAt third = .ok (.int 443) ∧
      after.setAt third .unknown = twoRules.setAt third .unknown ∧
      after.getAt entry = twoRules.getAt entry ∧
      twoRules.getAt entry = .error (.invalidPath entry) ∧
      twoRules.partAt? first = some (.int 80) ∧ (twoRules.setAt first (.int 8080)).2 = none := by
  intro third first entry after
  have written : twoRules.setAt third (.int 443) = (after, none) := rfl
  have shared : twoRules.partAt? (third.common entry) =
      some (.list [.object [("port", .int 80)], .null]) := rfl
  have there : twoRules.partAt? first = some (.int 80) := rfl
  rcases (write_is_seen_at_its_path_only twoRules (.int 443) third).1 after written with
    ⟨found, again, elsewhere⟩
  have kept := elsewhere entry (by decide) (by decide) _ shared nofun
  refine ⟨written, found, (again .unknown).2, kept, rfl, there, ?_⟩
  exact ((write_is_seen_at_its_path_only twoRules (.int 8080) first).2 _ there).2

end Value
end ProviderKit

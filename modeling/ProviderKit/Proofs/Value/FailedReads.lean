import ProviderKit.Proofs.Success
import ProviderKit.Proofs.Value.Places
import ProviderKit.Value.Read

/-!
# Typed reads that fail

A read that fails reports a path and says what is wrong there: the value is null or unknown, or it
is of another kind than the shape asks for.  The path is made on the way in, one step for each
container.  A list or a set is entered at an index and a map at a key, as a path through the value
would go.  An object that is read like a map is entered at a key, too, although its attributes
stand under names, and a step by a key finds nothing in an object.

What the error says is therefore true of the part that was read, but the reported path leads there
exactly when no object has been entered.
-/

namespace ProviderKit

/-- The step that a read reports where it enters a part. -/
def PathStep.keyed : PathStep → PathStep
  | .name word => .key word
  | step => step

/-- The path with a key in place of each name. -/
def Path.keyed (path : Path) : Path :=
  path.map PathStep.keyed

/-- No step of the path is a name. -/
def Path.Nameless (path : Path) : Prop :=
  ∀ word, .name word ∉ path

/-- What the error of a read says is true of a value. -/
def ValueError.Describes : ValueError → Value → Prop
  | .null _, found => found = .null
  | .unknown _, found => found = .unknown
  | .typeMismatch _ _ got, found => found.typeName = got
  | _, _ => False

/-- The error is true of a part of the value, and names the place of the part below a path, with
keys in place of names. -/
def ValueError.PointsInto (error : ValueError) (path : Path) (value : Value) : Prop :=
  ∃ place part, value.partAt? place = some part ∧ error.Describes part ∧
    error.path? = some (path ++ place.keyed)

/-! ## Paths with keys in place of names -/

theorem PathStep.keyed_eq_self_iff {step : PathStep} :
    step.keyed = step ↔ ∀ word, .name word ≠ step := by
  cases step <;> simp [keyed]

theorem Path.keyed_eq_self_iff {path : Path} : path.keyed = path ↔ path.Nameless := by
  have each : path.keyed = path ↔ ∀ step ∈ path, step.keyed = step := by
    conv_lhs => rw [keyed, ← List.map_id path, List.map_map]
    exact List.map_inj_left
  rw [each]
  simp only [PathStep.keyed_eq_self_iff]
  exact ⟨fun others word member => others _ member word rfl,
    fun nameless step member word same => nameless word (same ▸ member)⟩

namespace Value

variable {value part found : Value} {place : Path}

/-- No key leads into an object, so the path with keys can be followed only where there was no name
to replace. -/
theorem nameless_of_follow?_keyed (stands : value.partAt? place = some part)
    (followed : value.follow? place.keyed = some found) : place.Nameless := by
  rw [← Path.keyed_eq_self_iff]
  induction place generalizing value with
  | nil => rfl
  | cons step rest inductionHypothesis =>
      rcases partAt?_cons_eq_some_iff.mp stands with ⟨inner, first, later⟩
      have same : step.keyed = step := by
        cases step with
        | name word =>
            cases value with
            | object attributes => cases followed
            | _ => cases first
        | key | index => rfl
      rw [Path.keyed, List.map_cons, same, follow?_cons_of_part? first] at followed
      rw [Path.keyed, List.map_cons, same]
      exact congrArg (step :: ·) (inductionHypothesis later followed)

end Value

/-! ## Where a read fails -/

namespace ValueError.PointsInto

variable {error : ValueError} {path : Path} {value part : Value} {step : PathStep}

/-- The value itself is refused. -/
theorem here (describes : error.Describes value) (reported : error.path? = some path) :
    error.PointsInto path value :=
  ⟨[], value, rfl, describes, reported.trans (congrArg some (List.append_nil path).symm)⟩

/-- What points into a part points into the value. -/
theorem inside (found : value.part? step = some part)
    (inner : error.PointsInto (path ++ [step.keyed]) part) : error.PointsInto path value := by
  rcases inner with ⟨place, deepest, stands, describes, reported⟩
  refine ⟨step :: place, deepest, Value.partAt?_cons_eq_some_iff.mpr ⟨part, found, stands⟩,
    describes, ?_⟩
  rw [reported, Path.keyed, Path.keyed, List.map_cons, List.append_assoc, List.singleton_append]

end ValueError.PointsInto

variable {path : Path} {found : Value} {error : ValueError}

theorem Primitive.pointsInto_of_read {p : Primitive} (failure : p.read path found = .error error) :
    error.PointsInto path found := by
  cases found with
  | null | unknown =>
      cases failure
      exact .here rfl rfl
  | _ =>
      rw [read] at failure
      split at failure
      · cases failure
      · cases failure
        exact .here rfl rfl
      all_goals nofun

namespace ReadShape

variable {shape : ReadShape} {α : Type} {read : Path → Value → Except ValueError α}

/-- The elements of a list and of a set are read alike. -/
theorem pointsInto_of_readElements (ordered : found.KeyOrdered) {elements : List Value}
    (parts : ∀ index : Nat, found.part? (.index index) = elements[index]?)
    (each : ∀ {path part error}, part.KeyOrdered → read path part = .error error →
      error.PointsInto path part)
    (failure : readElements read path elements = .error error) : error.PointsInto path found := by
  rcases exists_mem_of_mapM_eq_error failure with ⟨⟨element, index⟩, member, failed⟩
  have stands : found.part? (.index index) = some element :=
    (parts index).trans (List.mem_zipIdx_iff_getElem?.mp member)
  exact .inside stands (each (ordered.part? stands) failed)

/-- The entries of a map and the attributes of an object are read alike, each at its key. -/
theorem pointsInto_of_readEntries (step : String → PathStep)
    (keyed : ∀ word, (step word).keyed = .key word) (ordered : found.KeyOrdered)
    {entries : List (String × Value)}
    (parts : ∀ word, found.part? (step word) = Entries.find? word entries)
    (nodup : (Entries.keys entries).Nodup)
    (each : ∀ {path part error}, part.KeyOrdered → read path part = .error error →
      error.PointsInto path part)
    (failure : readEntries read path entries = .error error) : error.PointsInto path found := by
  rcases exists_mem_of_mapM_eq_error failure with ⟨⟨word, entry⟩, member, failed⟩
  rcases bind_eq_error failed with failed | ⟨_, _, failed⟩
  · have stands : found.part? (step word) = some entry :=
      (parts word).trans (Entries.find?_of_mem nodup member)
    refine .inside stands (each (ordered.part? stands) ?_)
    rwa [keyed]
  · cases failed

/-- A read that fails points into the value that it was to read. -/
theorem pointsInto_of_read (ordered : found.KeyOrdered)
    (failure : shape.read path found = .error error) : error.PointsInto path found := by
  induction shape generalizing path found error with
  | value => cases failure
  | primitive p => exact Primitive.pointsInto_of_read failure
  | observed p =>
      cases found with
      | null | unknown => cases failure
      | _ => exact Primitive.pointsInto_of_read (map_eq_error failure)
  | optional shape inductionHypothesis =>
      cases found with
      | null => cases failure
      | _ => exact inductionHypothesis ordered (map_eq_error failure)
  | list shape inductionHypothesis =>
      cases found with
      | list elements | set elements =>
          exact pointsInto_of_readElements ordered (Value.elementAt?_natCast elements)
            inductionHypothesis failure
      | _ =>
          cases failure
          exact .here rfl rfl
  | map shape inductionHypothesis =>
      cases found with
      | map entries =>
          have nodup : (Entries.keys entries).Nodup := by
            cases ordered with | map sorted _ => exact sorted.nodup
          exact pointsInto_of_readEntries .key (fun _ => rfl) ordered (fun _ => rfl) nodup
            inductionHypothesis failure
      | object attributes =>
          have nodup : (Entries.keys attributes).Nodup := by
            cases ordered with | object sorted _ => exact sorted.nodup
          exact pointsInto_of_readEntries .name (fun _ => rfl) ordered (fun _ => rfl) nodup
            inductionHypothesis failure
      | _ =>
          cases failure
          exact .here rfl rfl

/-- A failed read reports the place of a part of which the error is true, below the path of the
read and with keys in place of names.  What it reports leads to such a part exactly when no object
has been entered. -/
theorem reported_path_leads_iff_nameless (ordered : found.KeyOrdered)
    (failure : shape.read path found = .error error) :
    ∃ place part, found.partAt? place = some part ∧ error.Describes part ∧
      error.path? = some (path ++ place.keyed) ∧
      ((∃ rest part, error.path? = some (path ++ rest) ∧ found.getAt rest = .ok part ∧
        error.Describes part) ↔ place.Nameless) := by
  rcases pointsInto_of_read ordered failure with ⟨place, part, stands, describes, reported⟩
  refine ⟨place, part, stands, describes, reported, ?_, fun nameless => ?_⟩
  · rintro ⟨rest, other, reportedToo, followed, _⟩
    have same : place.keyed = rest :=
      List.append_cancel_left (Option.some.inj (reported.symm.trans reportedToo))
    subst same
    exact Value.nameless_of_follow?_keyed stands (Value.getAt_eq_ok_iff.mp followed)
  · have leads := Value.getAt_eq_ok_iff.mpr (Value.follow?_of_partAt? stands)
    rw [Path.keyed_eq_self_iff.mpr nameless] at reported
    exact ⟨place, part, reported, leads, describes⟩

/-- The second port of a set inside a map is unknown, and the reported path leads there. -/
theorem unknown_port_is_reported :
    let shape := ReadShape.map (.list (.primitive .int64))
    let found := Value.map [("http", .list [.int 80]), ("tls", .set [.int 443, .unknown])]
    let error := ValueError.unknown [.name "ports", .key "tls", .index 1]
    found.KeyOrdered ∧ shape.read [.name "ports"] found = .error error ∧
      found.getAt [.key "tls", .index 1] = .ok .unknown ∧
      ∃ place part, found.partAt? place = some part ∧ error.Describes part ∧
        error.path? = some ([.name "ports"] ++ place.keyed) ∧ place.Nameless := by
  intro shape found error
  have ordered : found.KeyOrdered := Value.keyOrdered_of_toJson (Json.keyOrdered_iff.mpr rfl)
  have failure : shape.read [.name "ports"] found = .error error := rfl
  have leads : found.getAt [.key "tls", .index 1] = .ok .unknown := rfl
  rcases reported_path_leads_iff_nameless ordered failure with
    ⟨place, part, stands, describes, reported, iff⟩
  exact ⟨ordered, failure, leads, place, part, stands, describes, reported,
    iff.mp ⟨[.key "tls", .index 1], .unknown, rfl, leads, rfl⟩⟩

/-- An object of tags is read like a map.  Its null tag is reported at a key, where no path leads. -/
theorem null_tag_is_reported_at_key :
    let shape := ReadShape.map (.primitive .string)
    let found := Value.object [("env", .null)]
    let error := ValueError.null [.name "tags", .key "env"]
    shape.read [.name "tags"] found = .error error ∧
      found.getAt [.key "env"] = .error (.invalidPath [.key "env"]) ∧
      found.getAt [.name "env"] = .ok .null ∧
      ¬ ∃ rest part, error.path? = some ([.name "tags"] ++ rest) ∧ found.getAt rest = .ok part ∧
        error.Describes part := by
  refine ⟨rfl, rfl, rfl, ?_⟩
  rintro ⟨rest, part, reported, followed, _⟩
  have same : [.key "env"] = rest := (List.cons.inj (Option.some.inj reported)).2
  subst same
  cases followed

end ReadShape
end ProviderKit

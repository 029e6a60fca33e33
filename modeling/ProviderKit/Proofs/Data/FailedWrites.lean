import ProviderKit.Proofs.Data.Edits
import ProviderKit.Proofs.Value.Blocked

/-!
# What a failed write leaves behind

A callback that writes and gets an error back would like to find its data as it was.  Replacing the
whole value keeps this promise, because nothing is touched before the new value has been decoded,
and so does a write at a path whose value is rejected by the type of an attribute.  A write that
cannot follow its path to the end keeps it exactly when it was blocked before it had created
anything: the containers it has opened on the way are not taken back.
-/

namespace ProviderKit
namespace Data

variable {role : DataRole} {data : Data role} {path : Path} {value : Value}
  {writable : role ≠ .config}

/-- A write reports a problem when its value is rejected and when its path ends too early. -/
theorem of_set_failed (failed : (data.set path value writable).2 ≠ []) :
    (∃ error, conform data.schema path value = .error error) ∨
      ∃ conforming, conform data.schema path value = .ok conforming ∧
        (Value.writeAlong conforming path data.raw).complete = false := by
  cases checked : conform data.schema path value with
  | error error => exact .inl ⟨error, rfl⟩
  | ok conforming =>
      refine .inr ⟨conforming, rfl, ?_⟩
      cases reached : (Value.writeAlong conforming path data.raw).complete with
      | false => rfl
      | true => simp [set, checked, Value.setAt, reached] at failed

theorem set_of_rejected {error : ValueError}
    (rejected : conform data.schema path value = .error error) :
    (data.set path value writable).1 = data := by
  simp only [set, rejected]

theorem set_of_conforming {conforming : Value}
    (accepted : conform data.schema path value = .ok conforming) :
    (data.set path value writable).1 =
      { data with raw := (Value.writeAlong conforming path data.raw).value } := by
  simp only [set, accepted]
  rfl

/-- Replacing the whole value changes nothing unless there is a new one. -/
theorem setAll_of_failed {document : Except String Json}
    (failed : (data.setAll document writable).2 ≠ []) :
    (data.setAll document writable).1 = data := by
  unfold setAll at failed ⊢
  cases document with
  | error reason => rfl
  | ok json =>
      cases decoded : Value.ofJson data.schema.valueType json with
      | error error => simp only [decoded]
      | ok raw => simp [decoded] at failed

/-- A write that reports a problem keeps the data exactly when its value is rejected or its path is
blocked.  Replacing the whole value keeps the data whenever a problem is reported. -/
theorem failed_write_keeps_data_iff (writable : role ≠ .config) (ordered : data.raw.KeyOrdered)
    (path : Path) (value : Value) (document : Except String Json) :
    ((data.set path value writable).2 ≠ [] →
      ((data.set path value writable).1 = data ↔
        (∃ error, conform data.schema path value = .error error) ∨
          Value.Blocked path data.raw)) ∧
    ((data.setAll document writable).2 ≠ [] → (data.setAll document writable).1 = data) := by
  refine ⟨fun failed => ?_, setAll_of_failed⟩
  rcases of_set_failed failed with ⟨error, rejected⟩ | ⟨conforming, accepted, incomplete⟩
  · exact iff_of_true (set_of_rejected rejected) (.inl ⟨error, rejected⟩)
  · have kept := Value.writeAlong_value_eq_self_iff ordered incomplete
    rw [set_of_conforming accepted]
    constructor
    · intro same
      exact .inr (kept.mp (congrArg raw same))
    · rintro (⟨error, rejected⟩ | blocked)
      · cases accepted.symm.trans rejected
      · rw [kept.mpr blocked]

/-- A resource with ports that are not set yet. -/
def sizedState : State :=
  ⟨portsSchema, .object [("ports", .null), ("size", .int 3), ("tags", .null)]⟩

theorem sizedState_ordered : sizedState.raw.KeyOrdered :=
  Value.keyOrdered_of_toJson (Json.keyOrdered_iff.mpr rfl)

/-- A number has no elements to write to, and the state is as before. -/
theorem failed_write_keeps_size :
    (sizedState.set [.name "size", .index 0] (.int 4)).2 ≠ [] ∧
      (sizedState.set [.name "size", .index 0] (.int 4)).1 = sizedState := by
  have failed : (sizedState.set [.name "size", .index 0] (.int 4)).2 ≠ [] := by
    exact List.cons_ne_nil _ _
  have size : sizedState.raw.part? (.name "size") = some (.int 3) := rfl
  have blocked : Value.Blocked [.name "size", .index 0] sizedState.raw :=
    .inside size (.here nofun nofun)
  refine ⟨failed, ?_⟩
  exact ((failed_write_keeps_data_iff DataRole.state_ne_config sizedState_ordered _ _
    (.error "")).1 failed).mpr (.inr blocked)

/-- The ports are opened as an empty list before the index turns out to be too large.  The write is
reported as an error, and the empty list stays. -/
theorem failed_write_opens_ports :
    let path : Path := [.name "ports", .index 5]
    let written := sizedState.set path (.int 443)
    written.2 = [conversionError path (.invalidPath path)] ∧
      written.1.raw = .object [("ports", .list []), ("size", .int 3), ("tags", .null)] ∧
      written.1.raw ≠ sizedState.raw := by
  intro path written
  have opened : written.1.raw =
      .object [("ports", .list []), ("size", .int 3), ("tags", .null)] := rfl
  refine ⟨rfl, opened, ?_⟩
  rw [opened]
  exact nofun

end Data
end ProviderKit

import ProviderKit.Diagnostic

/-!
# Diagnostics on the wire

A diagnostic that is written is read back as it was, so a caller sees what a callback reported.
What is read may also have been written by someone else.  A severity that is not known is then
taken as an error, and the steps of a path that are without a selector are dropped; everything
else, and whether there is a path at all, is kept.  One reading settles the form of a diagnostic:
writing and reading it again changes nothing more.
-/

namespace ProviderKit

/-- The diagnostic as it is understood: every severity but two is that of an error, and the path
consists of the steps that have a selector. -/
def WireDiagnostic.understood (wire : WireDiagnostic) : WireDiagnostic :=
  { wire with
    severity := if wire.severity = 2 then 2 else 1
    path := wire.path.map fun path => path.filter Option.isSome }

theorem Severity.toWire_ofWire (number : Int) :
    (ofWire number).toWire = if number = 2 then 2 else 1 := by
  unfold ofWire
  split <;> rfl

/-- Reading a path drops the steps without a selector and keeps the others in order. -/
theorem Path.toWire_ofWire (wire : WirePath) : (ofWire wire).toWire = wire.filter Option.isSome := by
  induction wire with
  | nil => rfl
  | cons step rest inductionHypothesis =>
      cases step with
      | none => exact inductionHypothesis
      | some step => exact congrArg (some step :: ·) inductionHypothesis

namespace Diagnostic

theorem ofWire_toWire (diagnostic : Diagnostic) : ofWire diagnostic.toWire = diagnostic := by
  have path : (diagnostic.path.map Path.toWire).map Path.ofWire = diagnostic.path := by
    cases diagnostic.path with
    | none => rfl
    | some path => exact congrArg some (Path.ofWire_toWire path)
  rw [ofWire, toWire, path, Severity.ofWire_toWire]

/-- Whether there is a path can be told from the wire, even where the path is empty. -/
theorem toWire_path_eq_none_iff {diagnostic : Diagnostic} :
    diagnostic.toWire.path = none ↔ diagnostic.path = none :=
  Option.map_eq_none_iff

/-- Writing what was read gives the diagnostic as it was understood. -/
theorem toWire_ofWire (wire : WireDiagnostic) : (ofWire wire).toWire = wire.understood := by
  have path : (wire.path.map Path.ofWire).map Path.toWire =
      wire.path.map fun path => path.filter Option.isSome := by
    rw [Option.map_map]
    exact Option.map_congr fun path _ => Path.toWire_ofWire path
  rw [toWire, ofWire, path, Severity.toWire_ofWire, WireDiagnostic.understood]

theorem isError_ofWire {wire : WireDiagnostic} :
    (ofWire wire).isError = true ↔ wire.severity ≠ 2 := by
  rw [isError, ofWire, Severity.ofWire, beq_iff_eq]
  split
  · next warned => exact iff_of_false nofun fun other => other warned
  · next other => exact iff_of_true rfl other

end Diagnostic

namespace Diagnostics

/-- The wire carries diagnostics unchanged. -/
theorem ofWire_toWire (diagnostics : Diagnostics) :
    diagnostics.toWire.map Diagnostic.ofWire = diagnostics := by
  rw [toWire, List.map_map]
  exact List.map_id'' Diagnostic.ofWire_toWire diagnostics

theorem toWire_map_ofWire (wire : List WireDiagnostic) :
    toWire (wire.map Diagnostic.ofWire) = wire.map WireDiagnostic.understood := by
  rw [toWire, List.map_map]
  exact List.map_congr_left fun each _ => Diagnostic.toWire_ofWire each

/-- A call has failed if one of its diagnostics has another severity than that of a warning. -/
theorem hasError_map_ofWire {wire : List WireDiagnostic} :
    hasError (wire.map Diagnostic.ofWire) = true ↔ ∃ each ∈ wire, each.severity ≠ 2 := by
  rw [hasError, List.any_map, List.any_eq_true]
  exact exists_congr fun each => and_congr_right' Diagnostic.isError_ofWire

/-- Diagnostics are read back as they were written, an empty path as an empty path.  Reading and
writing those of someone else only turns their severities into known ones and drops the steps
without a selector, which happens once; and reading them loses no failure and invents none. -/
theorem survive_the_wire :
    (∀ diagnostics : Diagnostics, diagnostics.toWire.map Diagnostic.ofWire = diagnostics) ∧
    (∀ diagnostic : Diagnostic, diagnostic.toWire.path = none ↔ diagnostic.path = none) ∧
    ∀ wire : List WireDiagnostic,
      let read : Diagnostics := wire.map Diagnostic.ofWire
      read.toWire = wire.map WireDiagnostic.understood ∧
      toWire (read.toWire.map Diagnostic.ofWire) = read.toWire ∧
      (read.hasError = true ↔ ∃ each ∈ wire, each.severity ≠ 2) := by
  refine ⟨ofWire_toWire, fun _ => Diagnostic.toWire_path_eq_none_iff, fun wire => ?_⟩
  intro read
  have again : read.toWire.map Diagnostic.ofWire = read := ofWire_toWire read
  exact ⟨toWire_map_ofWire wire, congrArg toWire again, hasError_map_ofWire⟩

end Diagnostics
end ProviderKit

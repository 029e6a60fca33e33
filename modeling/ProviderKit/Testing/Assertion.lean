import ProviderKit.Testing.Tester

/-!
# Assertions

What a test expects of a plan or of diagnostics.  An assertion that fails gives a
message that shows what was there instead.
-/

namespace ProviderKit

/-- An expectation about a plan or about diagnostics. -/
inductive Assertion where
  /-- The resource is replaced. -/
  | planReplaces (plan : PlannedChange)
  /-- The resource is not replaced. -/
  | planUpdatesInPlace (plan : PlannedChange)
  /-- A change at a path replaces the resource. -/
  | requiresReplace (plan : PlannedChange) (path : Path)
  /-- There is no error. -/
  | noErrors (diagnostics : Diagnostics)
  /-- There is an error. -/
  | hasErrors (diagnostics : Diagnostics)
  /-- There is an error with a text in its summary or its detail. -/
  | errorContains (diagnostics : Diagnostics) (text : String)

namespace Assertion

/-- Whether a text occurs in another. -/
def occurs (sought : List Char) : List Char → Bool
  | [] => sought.isEmpty
  | c :: rest => sought.isPrefixOf (c :: rest) || occurs sought rest

/-- The paths that replace a resource, as they are shown. -/
def shownPaths (plan : PlannedChange) : String :=
  Text.quotedList (plan.requiresReplace.map Path.display)

/-- The summaries of errors, as they are shown. -/
def shownErrors (diagnostics : Diagnostics) : String :=
  Text.quotedList (diagnostics.errors.map Diagnostic.summary)

/-- Whether the expectation is met. -/
def holds : Assertion → Bool
  | planReplaces plan => plan.requiresReplacement
  | planUpdatesInPlace plan => !plan.requiresReplacement
  | requiresReplace plan path => plan.requiresReplace.contains path
  | noErrors diagnostics => !diagnostics.hasError
  | hasErrors diagnostics => diagnostics.hasError
  | errorContains diagnostics text =>
    diagnostics.errors.any fun diagnostic =>
      occurs text.toList diagnostic.summary.toList || occurs text.toList diagnostic.detail.toList

/-- What to say when the expectation is not met. -/
def failure : Assertion → String
  | planReplaces _ => "Expected plan to require replacement, but it does not"
  | planUpdatesInPlace plan =>
    "Expected plan to update in place, but it requires replacement of " ++ shownPaths plan
  | requiresReplace plan path =>
    "Expected '" ++ path.display ++ "' to require replacement. Replacement paths: " ++
      shownPaths plan
  | noErrors diagnostics =>
    "Expected no errors, but got " ++ Nat.repr diagnostics.errors.length ++ " error(s): " ++
      shownErrors diagnostics
  | hasErrors _ => "Expected at least one error, but got none"
  | errorContains diagnostics text =>
    "Expected an error containing '" ++ text ++ "', but no matching error found. Errors: " ++
      shownErrors diagnostics

def check (assertion : Assertion) : Except String Unit :=
  if assertion.holds then .ok () else .error assertion.failure

end Assertion
end ProviderKit

import ProviderKit.Provider.Error
import ProviderKit.Value.Error

/-!
# Failures of a test

An operation of a tester fails with the diagnostics of a response, with an error
around the callbacks, or because a document of the test does not fit the schema.
-/

namespace ProviderKit

/-- Why an operation of a tester failed. -/
inductive TestError where
  /-- All diagnostics of a response of which at least one is an error. -/
  | diagnostics (found : Diagnostics)
  | provider (error : ProviderError)
  | value (error : ValueError)
deriving DecidableEq

namespace TestError

def severityWord : Severity → String
  | .error => "Error"
  | .warning => "Warning"

/-- One diagnostic on a line of its own. -/
def line (diagnostic : Diagnostic) : String :=
  let detail := if diagnostic.detail.isEmpty then "" else ": " ++ diagnostic.detail
  let place := match diagnostic.path with
    | some path => " (at " ++ path.display ++ ")"
    | none => ""
  "  [" ++ severityWord diagnostic.severity ++ "] " ++ diagnostic.summary ++ detail ++ place ++ "\n"

def message : TestError → String
  | diagnostics found =>
    "Operation failed with " ++ Nat.repr found.length ++ " diagnostic(s):\n" ++
      String.join (found.map line)
  | provider error => "Provider error: " ++ error.message
  | value error => "Value error: " ++ error.message

end TestError
end ProviderKit

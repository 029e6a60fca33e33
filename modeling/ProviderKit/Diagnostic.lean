import ProviderKit.Path

/-!
# Diagnostics

A callback reports problems as a list of diagnostics, in the order in which they
arise.  A call has failed when one of them is an error.

On the wire the severity is a number.  Two means a warning, and every other
number is taken as an error, so that a problem is never lost because its
severity is not known.
-/

namespace ProviderKit

/-- How grave a problem is. -/
inductive Severity where
  /-- The operation cannot be completed. -/
  | error
  /-- The operation goes on, but the user should know. -/
  | warning
deriving DecidableEq

namespace Severity

def toWire : Severity → Int
  | error => 1
  | warning => 2

def ofWire (number : Int) : Severity :=
  if number = 2 then warning else error

theorem ofWire_toWire (severity : Severity) : ofWire severity.toWire = severity := by
  cases severity <;> rfl

end Severity

/-- A problem to report, and the attribute it concerns when there is one. -/
structure Diagnostic where
  severity : Severity
  summary : String
  detail : String
  path : Option Path := none
deriving DecidableEq

/-- A diagnostic as the protocol carries it. -/
structure WireDiagnostic where
  severity : Int
  summary : String
  detail : String
  path : Option WirePath
deriving DecidableEq

/-- Diagnostics in the order in which they arose. -/
abbrev Diagnostics := List Diagnostic

namespace Diagnostic

def error (summary detail : String) : Diagnostic :=
  { severity := .error, summary, detail }

def warning (summary detail : String) : Diagnostic :=
  { severity := .warning, summary, detail }

/-- The same problem at an attribute. -/
def withAttribute (diagnostic : Diagnostic) (path : Path) : Diagnostic :=
  { diagnostic with path := some path }

def attributeError (path : Path) (summary detail : String) : Diagnostic :=
  (error summary detail).withAttribute path

def attributeWarning (path : Path) (summary detail : String) : Diagnostic :=
  (warning summary detail).withAttribute path

def isError (diagnostic : Diagnostic) : Bool :=
  diagnostic.severity == .error

def toWire (diagnostic : Diagnostic) : WireDiagnostic where
  severity := diagnostic.severity.toWire
  summary := diagnostic.summary
  detail := diagnostic.detail
  path := diagnostic.path.map Path.toWire

def ofWire (wire : WireDiagnostic) : Diagnostic where
  severity := .ofWire wire.severity
  summary := wire.summary
  detail := wire.detail
  path := wire.path.map Path.ofWire

end Diagnostic

namespace Diagnostics

def hasError (diagnostics : Diagnostics) : Bool :=
  diagnostics.any Diagnostic.isError

def errors (diagnostics : Diagnostics) : Diagnostics :=
  diagnostics.filter Diagnostic.isError

def warnings (diagnostics : Diagnostics) : Diagnostics :=
  diagnostics.filter fun diagnostic => !diagnostic.isError

def toWire (diagnostics : Diagnostics) : List WireDiagnostic :=
  diagnostics.map Diagnostic.toWire

end Diagnostics
end ProviderKit

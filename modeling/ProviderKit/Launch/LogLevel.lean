import ProviderKit.Text.Blank

/-!
# Log levels

The host asks for a level of logging by a word, in letters of either case and with
blanks around it.  The word for output in JSON asks for everything.
-/

namespace ProviderKit

/-- How much is logged. -/
inductive LogLevel where
  | trace
  | debug
  | info
  | warn
  | error
deriving DecidableEq

namespace LogLevel

/-- The level that a host asks for; none for a word it does not know. -/
def ofRequest? (text : String) : Option LogLevel :=
  match String.ofList ((Text.trimBlanks text.toList).map Char.toUpper) with
  | "TRACE" => some trace
  | "JSON" => some trace
  | "DEBUG" => some debug
  | "INFO" => some info
  | "WARN" => some warn
  | "ERROR" => some error
  | _ => none

/-- The word for a level in a filter. -/
def directive : LogLevel → String
  | trace => "trace"
  | debug => "debug"
  | info => "info"
  | warn => "warn"
  | error => "error"

end LogLevel
end ProviderKit

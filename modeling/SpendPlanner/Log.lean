/-!
# Log lines

A log line is a severity and a list of parts, each either plain or sensitive.  Sensitive
parts are shown only when the reader of the log is allowed to see them; otherwise a fixed
mark stands in their place, so the shown line does not depend on them.
-/

namespace SpendPlanner

/-- A value that logs hide by default. -/
structure Sensitive (α : Type) where
  value : α

namespace Sensitive

/-- What stands in place of a hidden value. -/
def mark : String := "<redacted>"

/-- The value in a given format when values are revealed, and the mark otherwise. -/
def text (reveal : Bool) (format : α → String) (r : Sensitive α) : String :=
  if reveal then format r.value else mark

end Sensitive

/-- How serious a log line is. -/
inductive Severity where
  | debug
  | info
  | warn
  | error
  deriving DecidableEq

/-- The severity's name as it opens a line. -/
def Severity.name : Severity → String
  | debug => "DEBUG"
  | info => "INFO"
  | warn => "WARN"
  | error => "ERROR"

namespace Log

/-- A piece of a log line. -/
inductive Part where
  | plain (text : String)
  | sensitive (text : Sensitive String)

/-- The piece as shown. -/
def Part.text (reveal : Bool) : Part → String
  | plain s => s
  | sensitive r => r.text reveal id

/-- The sensitive piece holding a text. -/
def hidden (s : String) : Part := .sensitive ⟨s⟩

instance : Coe String Part := ⟨Part.plain⟩

/-- One line of the log. -/
structure Line where
  severity : Severity
  parts : List Part

/-- The line as shown, its severity first. -/
def Line.text (reveal : Bool) (line : Line) : String :=
  line.severity.name ++ " " ++ String.join (line.parts.map (·.text reveal))

end Log
end SpendPlanner

import FpgaPlacer.Diagnostic.Basic

/-!
# Rendering of diagnostics

A diagnostic is rendered as a header line with severity, code and message,
followed by one line for the subject and one for each note and help text.
With colour, the severity and code are wrapped in terminal escapes.
-/

namespace FpgaPlacer.Diagnostic

/-- The terminal colour of a severity. -/
def ansiColor : Severity → String
  | .error => "31"
  | .warning => "33"
  | .note => "36"
  | .help => "36"

/-- The severity and code of a diagnostic. -/
def header (color : Bool) (diagnostic : Diagnostic) : String :=
  let plain := diagnostic.severity.text ++ "[" ++ diagnostic.code.text ++ "]"
  if color then
    "\x1b[1;" ++ ansiColor diagnostic.severity ++ "m" ++ plain ++ "\x1b[0m"
  else plain

/-- The lines of a rendered diagnostic, without line ends. -/
def lines (color : Bool) (diagnostic : Diagnostic) : List String :=
  [diagnostic.header color ++ ": " ++ diagnostic.message] ++
    diagnostic.subject.toList.map ("  --> " ++ ·) ++
    diagnostic.notes.map ("   = note: " ++ ·) ++
    diagnostic.help.map ("   = help: " ++ ·)

/-- The text of a diagnostic. -/
def render (color : Bool) (diagnostic : Diagnostic) : String :=
  String.join ((diagnostic.lines color).map (· ++ "\n"))

end FpgaPlacer.Diagnostic

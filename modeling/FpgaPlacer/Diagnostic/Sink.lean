import FpgaPlacer.Diagnostic.Render

/-!
# Diagnostic sinks

A sink collects the diagnostics of a run in order.  Errors are counted when
they are emitted, and taking the diagnostics out does not reset the count.
-/

namespace FpgaPlacer

/-- Collected diagnostics and the number of errors ever emitted. -/
structure Sink where
  diagnostics : List Diagnostic
  errorCount : Nat
  deriving DecidableEq

namespace Sink

/-- The sink that nothing was emitted into. -/
def empty : Sink := ⟨[], 0⟩

/-- Appends a diagnostic. -/
def emit (sink : Sink) (diagnostic : Diagnostic) : Sink where
  diagnostics := sink.diagnostics ++ [diagnostic]
  errorCount := sink.errorCount + if diagnostic.severity = .error then 1 else 0

/-- Appends diagnostics in order. -/
def emitAll (sink : Sink) (diagnostics : List Diagnostic) : Sink :=
  diagnostics.foldl emit sink

/-- Whether an error was ever emitted. -/
def hasErrors (sink : Sink) : Bool := sink.errorCount > 0

/-- Takes all diagnostics out. -/
def takeAll (sink : Sink) : List Diagnostic × Sink :=
  (sink.diagnostics, { sink with diagnostics := [] })

/-- The severity of the most serious diagnostic. -/
def worst (sink : Sink) : Option Severity :=
  (sink.diagnostics.map Diagnostic.severity).foldl
    (fun worst severity => some (match worst with
      | none => severity
      | some worst => worst.worse severity)) none

/-- The text of all diagnostics. -/
def render (color : Bool) (sink : Sink) : String :=
  String.join (sink.diagnostics.map (Diagnostic.render color))

end Sink

end FpgaPlacer

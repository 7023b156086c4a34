import FpgaPlacer.Labelled

/-!
# Diagnostics

A diagnostic is a message with a severity, a stable code, optionally the
object it is about, and any number of notes and help lines.
-/

namespace FpgaPlacer

/-- How serious a diagnostic is, from least to most. -/
inductive Severity where
  | help
  | note
  | warning
  | error
  deriving DecidableEq

namespace Severity

/-- The word for a severity in rendered text. -/
def text : Severity → String
  | help => "help"
  | note => "note"
  | warning => "warning"
  | error => "error"

/-- The place of a severity in the order. -/
def rank : Severity → Nat
  | help => 0
  | note => 1
  | warning => 2
  | error => 3

instance : Ord Severity := ⟨fun left right => compare left.rank right.rank⟩

instance : Labelled Severity where
  all := [help, note, warning, error]
  label
    | help => "Help"
    | note => "Note"
    | warning => "Warning"
    | error => "Error"

/-- The more serious of two severities. -/
def worse (left right : Severity) : Severity :=
  if left.rank < right.rank then right else left

end Severity

/-- What a diagnostic code is about. -/
inductive Category where
  | placement
  | consistency
  | architecture
  | warning
  deriving DecidableEq

namespace Category

/-- The letter that codes of a category start with. -/
def letter : Category → Char
  | placement => 'P'
  | consistency => 'C'
  | architecture => 'A'
  | warning => 'W'

instance : Labelled Category where
  all := [placement, consistency, architecture, warning]
  label
    | placement => "Placement"
    | consistency => "Consistency"
    | architecture => "Architecture"
    | warning => "Warning"

end Category

/-- The stable code of a kind of diagnostic. -/
structure DiagnosticCode where
  category : Category
  number : UInt16
  deriving DecidableEq

/-- A decimal number with at least three digits. -/
def threeDigits (number : Nat) : String :=
  let digits := toString number
  String.ofList (List.replicate (3 - digits.length) '0') ++ digits

/-- The written form of a code, such as `P101`. -/
def DiagnosticCode.text (code : DiagnosticCode) : String :=
  String.singleton code.category.letter ++ threeDigits code.number.toNat

/-- A message about a design object. -/
structure Diagnostic where
  severity : Severity
  code : DiagnosticCode
  message : String
  subject : Option String
  notes : List String
  help : List String
  deriving DecidableEq

namespace Diagnostic

/-- A diagnostic without subject, notes and help. -/
def plain (severity : Severity) (category : Category) (number : UInt16)
    (message : String) : Diagnostic where
  severity
  code := ⟨category, number⟩
  message
  subject := none
  notes := []
  help := []

end Diagnostic

end FpgaPlacer

import FpgaPlacer.Diagnostic.Basic
import FpgaPlacer.Error.Design

/-!
# Diagnostics of design errors
-/

namespace FpgaPlacer.DesignError

/-- The stable code of an error. -/
def code : DesignError → DiagnosticCode
  | invariant _ => ⟨.consistency, 1⟩
  | internal _ => ⟨.consistency, 2⟩
  | noSuchBel .. => ⟨.placement, 101⟩
  | belTypeMismatch .. => ⟨.placement, 102⟩
  | belOccupied .. => ⟨.placement, 103⟩
  | unknownBelType _ => ⟨.placement, 104⟩
  | tooManyCells _ => ⟨.placement, 105⟩
  | noLegalBel .. => ⟨.placement, 106⟩
  | unknownCell _ => ⟨.placement, 107⟩
  | unknownNet _ => ⟨.placement, 108⟩
  | unknownPort .. => ⟨.placement, 109⟩
  | duplicateName .. => ⟨.placement, 110⟩

/-- The object that an error is about. -/
def subject : DesignError → Option String
  | noSuchBel cell _ => some s!"cell '{cell}'"
  | belTypeMismatch cell .. => some s!"cell '{cell}'"
  | belOccupied cell .. => some s!"cell '{cell}'"
  | noLegalBel cell _ => some s!"cell '{cell}'"
  | unknownBelType cellType => some s!"cell type '{cellType}'"
  | tooManyCells cellType => some s!"cell type '{cellType}'"
  | _ => none

/-- The explanations that go with an error. -/
def notes : DesignError → List String
  | invariant violation => ["condition: " ++ violation.condition]
  | _ => []

/-- The advice that goes with an error. -/
def help : DesignError → List String
  | tooManyCells _ =>
      ["target a larger device or reduce the number of cells of this type"]
  | _ => []

/-- The diagnostic that reports an error. -/
def diagnostic (error : DesignError) : Diagnostic where
  severity := .error
  code := error.code
  message := error.message
  subject := error.subject
  notes := error.notes
  help := error.help

end FpgaPlacer.DesignError

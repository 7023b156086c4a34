import FpgaPlacer.Error.Internal
import FpgaPlacer.Error.Violation

/-!
# Errors of design edits and of placement
-/

namespace FpgaPlacer

/-- What a net or cell table holds. -/
inductive RecordKind where
  | cell
  | net
  deriving DecidableEq

/-- The written name of a kind of record. -/
def RecordKind.text : RecordKind → String
  | cell => "cell"
  | net => "net"

/-- An error of the design graph, the checker or a placer.  Designs and
devices are named as they are displayed. -/
inductive DesignError where
  | invariant (violation : Violation)
  | internal (error : InternalError)
  | noSuchBel (cell bel : String)
  | belTypeMismatch (cell cellType bel belType : String)
  | belOccupied (cell bel occupant : String)
  | unknownBelType (cellType : String)
  | tooManyCells (cellType : String)
  | noLegalBel (cell cellType : String)
  | unknownCell (cell : String)
  | unknownNet (net : String)
  | unknownPort (cell port : String)
  | duplicateName (kind : RecordKind) (name : String)
  deriving DecidableEq

namespace DesignError

/-- Whether the error is a broken rule of the graph. -/
def isInvariant : DesignError → Bool
  | invariant _ => true
  | _ => false

/-- Whether the error is a defect of the caller. -/
def isInternal : DesignError → Bool
  | internal _ => true
  | _ => false

/-- The text of the error.  That of a broken rule ends with the condition, without the place
in the program where it is tested. -/
def message : DesignError → String
  | invariant violation =>
      s!"assertion failure: {violation.description} (`{violation.condition}`)"
  | internal error => error.message
  | noSuchBel cell bel =>
      s!"no bel named '{bel}' located for this chip (processing BEL attribute on '{cell}')"
  | belTypeMismatch cell cellType bel belType =>
      s!"bel '{bel}' of type '{belType}' does not match cell '{cell}' of type '{cellType}'"
  | belOccupied cell bel occupant =>
      s!"bel '{bel}' requested by cell '{cell}' is already bound to cell '{occupant}'"
  | unknownBelType cellType => s!"no bel of type '{cellType}' defined for this chip"
  | tooManyCells cellType => s!"too many '{cellType}' used in design"
  | noLegalBel cell cellType => s!"failed to place cell '{cell}' of type '{cellType}'"
  | unknownCell cell => s!"unknown cell '{cell}'"
  | unknownNet net => s!"unknown net '{net}'"
  | unknownPort cell port => s!"cell '{cell}' has no port '{port}'"
  | duplicateName kind name => s!"duplicate {kind.text} name '{name}'"

end DesignError

end FpgaPlacer

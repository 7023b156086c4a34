import FpgaPlacer.Handle

/-!
# Internal errors

Defects of a caller or of a device description, as opposed to problems of the
design being placed.
-/

namespace FpgaPlacer

/-- Which end of a pip. -/
inductive PipEnd where
  | source
  | destination
  deriving DecidableEq

/-- The written name of a pip end. -/
def PipEnd.text : PipEnd → String
  | source => "source"
  | destination => "destination"

/-- A defect of the caller rather than of the design. -/
inductive InternalError where
  | symbolOutOfRange (symbol : Symbol) (size : Nat)
  | portConnected (port cell : String)
  | netDriven (net : String)
  | belNameAmbiguous (bel : String)
  | belTypeUnmapped (belType bel : String)
  | pipEndUnknown (pipEnd : PipEnd) (wire : WireId) (pip : PipId)
  | other (description : String)
  deriving DecidableEq

namespace InternalError

/-- What went wrong. -/
def description : InternalError → String
  | symbolOutOfRange symbol size =>
      s!"symbol index {symbol.toNat} out of range (interner holds {size} strings)"
  | portConnected port cell => s!"port '{port}' of cell '{cell}' is already connected"
  | netDriven net => s!"net '{net}' already has a driver"
  | belNameAmbiguous bel => s!"bel '{bel}' does not look up to itself"
  | belTypeUnmapped belType bel =>
      s!"bel type '{belType}' of bel '{bel}' does not map back to itself"
  | pipEndUnknown pipEnd wire pip =>
      s!"{pipEnd.text} wire {wire.toNat} of pip {pip.toNat} is not an enumerated wire"
  | other text => text

/-- The full text of the error. -/
def message (error : InternalError) : String :=
  "internal error: " ++ error.description

end InternalError

end FpgaPlacer

import FpgaPlacer.Strength
import FpgaPlacer.Table

/-!
# Occupancy

Which cell holds each bel and which net holds each wire and pip.  The tables
are the only part of a fabric that placement and routing change.
-/

namespace FpgaPlacer

/-- The holder of a resource and how firmly it is held. -/
structure Binding where
  holder : Symbol
  strength : Strength
  deriving DecidableEq

/-- The holders of the bound resources of a fabric. -/
structure Occupancy where
  bels : Table .bel Binding
  wires : Table .wire Binding
  pips : Table .pip Binding

namespace Occupancy

/-- Nothing is bound. -/
def empty : Occupancy := ⟨.empty, .empty, .empty⟩

/-- The cell that holds a bel. -/
def cellAt (occupancy : Occupancy) (bel : BelId) : Option Symbol :=
  (occupancy.bels.get? bel).map Binding.holder

/-- The strength with which a bel is held. -/
def strengthAt (occupancy : Occupancy) (bel : BelId) : Strength :=
  ((occupancy.bels.get? bel).map Binding.strength).getD .unbound

/-- The net that holds a wire. -/
def netOnWire (occupancy : Occupancy) (wire : WireId) : Option Symbol :=
  (occupancy.wires.get? wire).map Binding.holder

/-- The net that holds a pip. -/
def netOnPip (occupancy : Occupancy) (pip : PipId) : Option Symbol :=
  (occupancy.pips.get? pip).map Binding.holder

/-- Records the holder of a bel. -/
def bindBel (occupancy : Occupancy) (bel : BelId) (cell : Symbol)
    (strength : Strength) : Occupancy :=
  { occupancy with bels := occupancy.bels.insert bel ⟨cell, strength⟩ }

/-- Frees a bel. -/
def unbindBel (occupancy : Occupancy) (bel : BelId) : Occupancy :=
  { occupancy with bels := occupancy.bels.erase bel }

/-- Records the holder of a wire. -/
def bindWire (occupancy : Occupancy) (wire : WireId) (net : Symbol)
    (strength : Strength) : Occupancy :=
  { occupancy with wires := occupancy.wires.insert wire ⟨net, strength⟩ }

/-- Frees a wire. -/
def unbindWire (occupancy : Occupancy) (wire : WireId) : Occupancy :=
  { occupancy with wires := occupancy.wires.erase wire }

/-- Records the holder of a pip. -/
def bindPip (occupancy : Occupancy) (pip : PipId) (net : Symbol)
    (strength : Strength) : Occupancy :=
  { occupancy with pips := occupancy.pips.insert pip ⟨net, strength⟩ }

/-- Frees a pip. -/
def unbindPip (occupancy : Occupancy) (pip : PipId) : Occupancy :=
  { occupancy with pips := occupancy.pips.erase pip }

end Occupancy

end FpgaPlacer

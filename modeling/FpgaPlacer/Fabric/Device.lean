import FpgaPlacer.Delay
import FpgaPlacer.Error.Edit
import FpgaPlacer.Fabric.Occupancy
import FpgaPlacer.Scalar

/-!
# Devices

A device describes everything about a fabric that does not change while a
design is placed: its resources, their names, types, positions, delays and
checksum terms.  A look-up answers `none` for a handle that the device did not
hand out.  A fabric is a device together with its occupancy.
-/

namespace FpgaPlacer

/-- The unchanging description of a fabric, with positions over `κ`. -/
structure Device (κ : Type) where
  family : String
  name : String
  /-- The bels in enumeration order. -/
  bels : List BelId
  wires : List WireId
  pips : List PipId
  belNamed : String → Option BelId
  belName : BelId → Option String
  belType : BelId → Option BelType
  typeNamed : String → Option BelType
  typeName : BelType → Option String
  /-- The wire of each pin of a bel; the inner `none` is a pin it lacks. -/
  pinWire : BelId → Option (String → Option WireId)
  position : BelId → Option (Position κ)
  pipSource : PipId → Option WireId
  pipTarget : PipId → Option WireId
  pipDelay : PipId → Option Delay
  wireDelay : WireId → Option Delay
  /-- The estimated delay between two bels, either of which may be unknown. -/
  predictDelay : Option BelId → Option BelId → Query Float
  /-- Whether a cell may be bound to a bel, as far as occupancy goes. -/
  available : Occupancy → BelId → Bool
  delayTerm : Float → UInt32
  belTerm : BelId → UInt32
  wireTerm : WireId → UInt32
  pipTerm : PipId → UInt32

/-- Whole picoseconds, half a picosecond rounding away from zero, reduced to
32 bits. -/
def picosecondTerm (ns : Float) : UInt32 :=
  (ns * 1000.0).round.toInt64.toUInt64.toUInt32

/-- The bels of a type, in enumeration order. -/
def Device.belsOfType {κ : Type} (device : Device κ) (belType : BelType) :
    List BelId :=
  device.bels.filter (fun bel => device.belType bel = some belType)

/-- A device and what occupies it. -/
structure Fabric (κ : Type) where
  device : Device κ
  occupancy : Occupancy

namespace Fabric

variable {κ : Type}

/-- The cell that holds a bel. -/
def cellAt (fabric : Fabric κ) (bel : BelId) : Option Symbol :=
  fabric.occupancy.cellAt bel

/-- The net that holds a wire. -/
def netOnWire (fabric : Fabric κ) (wire : WireId) : Option Symbol :=
  fabric.occupancy.netOnWire wire

/-- The net that holds a pip. -/
def netOnPip (fabric : Fabric κ) (pip : PipId) : Option Symbol :=
  fabric.occupancy.netOnPip pip

/-- Whether a cell may be bound to a bel. -/
def available (fabric : Fabric κ) (bel : BelId) : Bool :=
  fabric.device.available fabric.occupancy bel

/-- The name of a bel. -/
def belName (fabric : Fabric κ) (bel : BelId) : Query String :=
  .ofOption (.bel bel) (fabric.device.belName bel)

/-- The type of a bel. -/
def belType (fabric : Fabric κ) (bel : BelId) : Query BelType :=
  .ofOption (.bel bel) (fabric.device.belType bel)

/-- The name of a bel type. -/
def typeName (fabric : Fabric κ) (belType : BelType) : Query String :=
  .ofOption (.belType belType) (fabric.device.typeName belType)

/-- The wire of a pin of a bel, if the bel has the pin. -/
def pinWire (fabric : Fabric κ) (bel : BelId) (pin : String) :
    Query (Option WireId) :=
  .ofOption (.bel bel) ((fabric.device.pinWire bel).map (· pin))

/-- The position of a bel. -/
def position (fabric : Fabric κ) (bel : BelId) : Query (Position κ) :=
  .ofOption (.bel bel) (fabric.device.position bel)

/-- The wire that drives a pip. -/
def pipSource (fabric : Fabric κ) (pip : PipId) : Query WireId :=
  .ofOption (.pip pip) (fabric.device.pipSource pip)

/-- The wire that a pip drives. -/
def pipTarget (fabric : Fabric κ) (pip : PipId) : Query WireId :=
  .ofOption (.pip pip) (fabric.device.pipTarget pip)

/-- The delay through a pip. -/
def pipDelay (fabric : Fabric κ) (pip : PipId) : Query Delay :=
  .ofOption (.pip pip) (fabric.device.pipDelay pip)

/-- The delay along a wire. -/
def wireDelay (fabric : Fabric κ) (wire : WireId) : Query Delay :=
  .ofOption (.wire wire) (fabric.device.wireDelay wire)

/-- Changes what occupies the fabric. -/
def withOccupancy (fabric : Fabric κ) (change : Occupancy → Occupancy) :
    Fabric κ :=
  { fabric with occupancy := change fabric.occupancy }

end Fabric

end FpgaPlacer

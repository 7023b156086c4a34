import FpgaPlacer.Labelled
import FpgaPlacer.Strength
import FpgaPlacer.Table

/-!
# Nets, cells and ports

Records refer to each other by symbol.  A reference to a record that does not
exist is noticed when it is looked up, never before.
-/

namespace FpgaPlacer

/-- The attribute that fixes or records the bel of a cell. -/
def locationAttribute : String := "BEL"

/-- One end of a net: a port of a cell and the timing budget of the
connection in nanoseconds. -/
structure NetEnd where
  cell : Option Symbol
  port : Symbol
  budget : Float

namespace NetEnd

/-- The end at a port of a cell, without a budget. -/
def ofPort (cell port : Symbol) : NetEnd := ⟨some cell, port, 0.0⟩

/-- The end of a net that nothing drives. -/
def unconnected (port : Symbol) : NetEnd := ⟨none, port, 0.0⟩

/-- Whether the end is at exactly this port of this cell. -/
def isAt (netEnd : NetEnd) (cell port : Symbol) : Bool :=
  netEnd.cell == some cell && netEnd.port == port

end NetEnd

/-- How a wire of a routing tree is reached: through a pip, or as a root. -/
structure Hop where
  pip : Option PipId
  strength : Strength
  deriving DecidableEq

/-- A signal from one driver to any number of users. -/
structure Net where
  name : Symbol
  driver : NetEnd
  users : List NetEnd
  attrs : Table .name String
  wires : Table .wire Hop

/-- A net without driver, users and routing. -/
def Net.undriven (name placeholder : Symbol) : Net :=
  ⟨name, .unconnected placeholder, [], .empty, .empty⟩

/-- The direction of a port. -/
inductive Direction where
  | input
  | output
  | bidirectional
  deriving DecidableEq

/-- The checksum term of a direction. -/
def Direction.rank : Direction → UInt32
  | input => 0
  | output => 1
  | bidirectional => 2

instance : Labelled Direction where
  all := [.input, .output, .bidirectional]
  label
    | .input => "In"
    | .output => "Out"
    | .bidirectional => "InOut"

/-- A port of a cell. -/
structure Port where
  name : Symbol
  direction : Direction
  net : Option Symbol

/-- A cell of the netlist and its placement. -/
structure Cell where
  name : Symbol
  cellType : Symbol
  bel : Option BelId
  strength : Strength
  ports : Table .name Port
  pins : Table .name Symbol
  attrs : Table .name String
  params : Table .name String

namespace Cell

/-- An unplaced cell without ports. -/
def unplaced (name cellType : Symbol) : Cell :=
  ⟨name, cellType, none, .unbound, .empty, .empty, .empty, .empty⟩

/-- The bel pin that a port stands for. -/
def pinFor (cell : Cell) (port : Symbol) : Symbol :=
  (cell.pins.get? port).getD port

end Cell

end FpgaPlacer

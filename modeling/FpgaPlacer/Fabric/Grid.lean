import FpgaPlacer.Fabric.Device

/-!
# Grid devices

A grid is a synthetic device built resource by resource: bels at integer
coordinates, wires and pips with fixed delays, and bel pins attached to wires.
Resources are numbered in the order in which they are added, and the delay
between two bels is estimated as `base + unit * Manhattan distance`.  Numbers
have 32 bits, so a grid stands for a device as long as it has fewer than
`2 ^ 32` bels, wires and pips.
-/

namespace FpgaPlacer

/-- A bel of a grid. -/
structure GridBel where
  name : String
  belType : BelType
  x : Int
  y : Int
  /-- The attached pins, the most recent attachment first. -/
  pins : List (String × WireId)

/-- A wire of a grid. -/
structure GridWire where
  name : String
  delay : Delay

/-- A pip of a grid. -/
structure GridPip where
  source : WireId
  target : WireId
  delay : Delay

/-- A device given by its resources. -/
structure Grid where
  name : String
  typeNames : List String
  bels : Array GridBel
  wires : Array GridWire
  pips : Array GridPip
  baseDelay : Float
  unitDelay : Float

namespace Grid

/-- A grid without resources. -/
def empty (name : String) : Grid where
  name
  typeNames := []
  bels := #[]
  wires := #[]
  pips := #[]
  baseDelay := 0.0
  unitDelay := 0.1

/-- Sets the estimate of delays between bels. -/
def withDelayModel (grid : Grid) (baseDelay unitDelay : Float) : Grid :=
  { grid with baseDelay, unitDelay }

/-- The type of a name, registered at the end when it is new. -/
def registerType (grid : Grid) (typeName : String) : BelType × Grid :=
  (.ofNat (grid.typeNames.idxOf typeName),
    if typeName ∈ grid.typeNames then grid
    else { grid with typeNames := grid.typeNames ++ [typeName] })

/-- Adds a bel of the named type at a coordinate. -/
def addBel (grid : Grid) (name typeName : String) (x y : Int) : BelId × Grid :=
  let (belType, grid) := grid.registerType typeName
  (.ofNat grid.bels.size,
    { grid with bels := grid.bels.push ⟨name, belType, x, y, []⟩ })

/-- Adds a wire with the same delay at every corner. -/
def addWire (grid : Grid) (name : String) (delay : Float) : WireId × Grid :=
  (.ofNat grid.wires.size,
    { grid with wires := grid.wires.push ⟨name, .uniform delay⟩ })

/-- Adds a pip with the same delay at every corner. -/
def addPip (grid : Grid) (source target : WireId) (delay : Float) :
    PipId × Grid :=
  (.ofNat grid.pips.size,
    { grid with pips := grid.pips.push ⟨source, target, .uniform delay⟩ })

/-- Attaches a pin of a bel to a wire, replacing an earlier attachment. -/
def addPin (grid : Grid) (bel : BelId) (pin : String) (wire : WireId) :
    Query Grid :=
  if known : bel.toNat < grid.bels.size then
    let record := grid.bels[bel.toNat]
    let record := { record with pins := (pin, wire) :: record.pins }
    .ok { grid with bels := grid.bels.set bel.toNat record }
  else .error (.bel bel)

/-- The name of the bel of a uniform grid at a coordinate. -/
def uniformBelName (typeName : String) (x y : Nat) : String :=
  s!"X{x}/Y{y}/{typeName}"

/-- Adds one row of bels, from left to right. -/
def addRow (width : Nat) (typeName : String) (grid : Grid) (y : Nat) : Grid :=
  (List.range width).foldl
    (fun grid x => (grid.addBel (uniformBelName typeName x y) typeName x y).2) grid

/-- A rectangle with one bel per coordinate, row by row. -/
def uniform (name : String) (width height : Nat) (typeName : String) : Grid :=
  (List.range height).foldl (addRow width typeName) (empty name)

/-- The bel of a handle. -/
def bel? (grid : Grid) (bel : BelId) : Option GridBel :=
  grid.bels[bel.toNat]?

/-- The wire of a handle. -/
def wire? (grid : Grid) (wire : WireId) : Option GridWire :=
  grid.wires[wire.toNat]?

/-- The pip of a handle. -/
def pip? (grid : Grid) (pip : PipId) : Option GridPip :=
  grid.pips[pip.toNat]?

/-- The coordinate of a bel. -/
def location (grid : Grid) (bel : BelId) : Query (Int × Int) :=
  .ofOption (.bel bel) ((grid.bel? bel).map (fun record => (record.x, record.y)))

/-- The bel of a name; the last one added under the name is meant. -/
def belNamed (grid : Grid) (name : String) : Option BelId :=
  let names := grid.bels.toList.map GridBel.name
  (names.reverse.idxOf? name).map (fun fromEnd => .ofNat (names.length - 1 - fromEnd))

/-- The bel type of a name. -/
def typeNamed (grid : Grid) (typeName : String) : Option BelType :=
  (grid.typeNames.idxOf? typeName).map .ofNat

/-- The number of grid steps between two bels. -/
def distance (grid : Grid) : Option BelId → Option BelId → Query Nat
  | some driver, some sink => do
      let (driverX, driverY) ← grid.location driver
      let (sinkX, sinkY) ← grid.location sink
      return (driverX - sinkX).natAbs + (driverY - sinkY).natAbs
  | _, _ => .ok 0

/-- The estimated delay of a connection that is not fully routed. -/
def predictDelay (grid : Grid) (driver sink : Option BelId) : Query Float := do
  let distance ← grid.distance driver sink
  return grid.baseDelay + grid.unitDelay * Float.ofNat distance

/-- The grid as a device. -/
def device (κ : Type) [Scalar κ] (grid : Grid) : Device κ where
  family := "grid"
  name := grid.name
  bels := Handle.range .bel grid.bels.size
  wires := Handle.range .wire grid.wires.size
  pips := Handle.range .pip grid.pips.size
  belNamed := grid.belNamed
  belName := fun bel => (grid.bel? bel).map GridBel.name
  belType := fun bel => (grid.bel? bel).map GridBel.belType
  typeNamed := grid.typeNamed
  typeName := fun belType => grid.typeNames[belType.toNat]?
  pinWire := fun bel =>
    (grid.bel? bel).map (fun record pin => record.pins.lookup pin)
  position := fun bel =>
    (grid.bel? bel).map
      (fun record => (Scalar.ofInt record.x, Scalar.ofInt record.y))
  pipSource := fun pip => (grid.pip? pip).map GridPip.source
  pipTarget := fun pip => (grid.pip? pip).map GridPip.target
  pipDelay := fun pip => (grid.pip? pip).map GridPip.delay
  wireDelay := fun wire => (grid.wire? wire).map GridWire.delay
  predictDelay := grid.predictDelay
  available := fun occupancy bel => (occupancy.cellAt bel).isNone
  delayTerm := picosecondTerm
  belTerm := Handle.raw
  wireTerm := Handle.raw
  pipTerm := Handle.raw

end Grid

end FpgaPlacer

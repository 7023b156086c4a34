import FpgaPlacer.Fabric.Grid

/-!
# Views of a grid

One grid can be presented as several devices.  Every view has the resources of
the grid and the same binding tables; they differ in delays, positions,
availability, type names and checksum terms.
-/

namespace FpgaPlacer

/-- How a grid is presented. -/
inductive GridView where
  /-- The grid itself. -/
  | full
  /-- Without delays of wires and pips. -/
  | bare
  /-- Without delays, and with no type name known. -/
  | untyped
  /-- With aliases of type names, reserved bels, stretched positions, spread
  delays and scrambled checksum terms. -/
  | skewed
  deriving DecidableEq

namespace GridView

/-- The prefix that marks an alias of a type name. -/
def aliasMark : String := "ALIAS_"

/-- A type name without one leading alias mark. -/
def dropAlias (typeName : String) : String :=
  if typeName.startsWith aliasMark then (typeName.drop aliasMark.length).toString
  else typeName

/-- Whether a skewed view keeps a bel for itself. -/
def reserved (bel : BelId) : Bool := bel.toNat % 5 = 4

/-- A delay that vanishes at the fast corner and doubles at the slow one. -/
def spread (delay : Delay) : Delay :=
  ⟨0.0, delay.max, delay.max + delay.max⟩

/-- Whole nanoseconds, truncated and reduced to 32 bits. -/
def nanosecondTerm (ns : Float) : UInt32 :=
  ns.toInt64.toUInt64.toUInt32

/-- The device that a view of a grid presents. -/
def device (grid : Grid) : GridView → Device Float32
  | full => grid.device Float32
  | bare =>
      { grid.device Float32 with
        family := "minimal"
        pipDelay := fun _ => some .zero
        wireDelay := fun _ => some .zero }
  | untyped =>
      { grid.device Float32 with
        family := "minimal"
        typeNamed := fun _ => none
        pipDelay := fun _ => some .zero
        wireDelay := fun _ => some .zero }
  | skewed =>
      { grid.device Float32 with
        family := "custom"
        typeNamed := fun typeName => grid.typeNamed (dropAlias typeName)
        available := fun occupancy bel =>
          !reserved bel && (occupancy.cellAt bel).isNone
        position := fun bel =>
          (grid.bel? bel).map (fun record =>
            (Float32.ofInt record.y * 2.0, Float32.ofInt record.x / 2.0))
        pipDelay := fun pip => (grid.pip? pip).map (fun record => spread record.delay)
        wireDelay := fun wire => (grid.wire? wire).map (fun record => spread record.delay)
        delayTerm := nanosecondTerm
        belTerm := fun bel => bel.raw * 2654435761 + 1
        wireTerm := fun wire => wire.raw ^^^ 0xA5A5A5A5
        pipTerm := fun pip => ~~~ pip.raw }

end GridView

end FpgaPlacer

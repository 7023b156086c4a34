import FpgaPlacer.Design.Basic

/-!
# Amending single records

Amendments write one record and nothing else: neither the records it refers
to nor the fabric are kept in step.  Each is `none` when its record does not
exist.
-/

namespace FpgaPlacer.Design

/-- Changes the record of a cell. -/
def amendCell (design : Design) (cell : Symbol) (change : Cell → Cell) :
    Option Design := do
  let record ← design.cells.get? cell
  some (design.setCell cell (change record))

/-- Changes the record of a net. -/
def amendNet (design : Design) (net : Symbol) (change : Net → Net) :
    Option Design := do
  let record ← design.nets.get? net
  some (design.setNet net (change record))

/-- Changes the record of a port. -/
def amendPort (design : Design) (cell port : Symbol) (change : Port → Port) :
    Option Design := do
  let record ← design.cells.get? cell
  let portRecord ← record.ports.get? port
  some (design.setCell cell
    { record with ports := record.ports.insert port (change portRecord) })

/-- Drops a port of a cell and tells whether the cell had it. -/
def dropPort (design : Design) (cell port : Symbol) : Option (Bool × Design) := do
  let record ← design.cells.get? cell
  some (record.ports.contains port,
    design.setCell cell { record with ports := record.ports.erase port })

/-- Drops the user of a net at a place in its user list. -/
def dropUser (design : Design) (net : Symbol) (place : Nat) : Option Design := do
  let record ← design.nets.get? net
  if place < record.users.length then
    some (design.setNet net { record with users := record.users.eraseIdx place })
  else none

end FpgaPlacer.Design

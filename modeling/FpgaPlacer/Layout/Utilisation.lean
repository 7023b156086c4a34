import FpgaPlacer.Layout.Basic

/-!
# Utilisation

How many cells of each type the design has, against the bels that the device
has for them.
-/

namespace FpgaPlacer

/-- The use of one cell type. -/
structure TypeUsage where
  cellType : String
  used : Nat
  available : Nat
  deriving DecidableEq

/-- Whether the design needs more bels than the device has. -/
def TypeUsage.isOver (usage : TypeUsage) : Bool := usage.used > usage.available

/-- Distinct texts in increasing order. -/
def sortedDistinct (texts : List String) : List String :=
  texts.eraseDups.mergeSort (fun left right => left ≤ right)

namespace Layout

variable {κ : Type}

/-- The displayed type of a cell. -/
def typeNameOf (design : Design) (cell : Cell) : String :=
  design.display cell.cellType

/-- The use of a cell type. -/
def usageOf (layout : Layout κ) (cellType : String) : TypeUsage where
  cellType
  used := layout.design.cells.values.countP (typeNameOf layout.design · = cellType)
  available :=
    match layout.fabric.device.typeNamed cellType with
    | some belType => (layout.fabric.device.belsOfType belType).length
    | none => 0

/-- The use of every cell type of the design, in increasing order of name. -/
def utilisation (layout : Layout κ) : List TypeUsage :=
  (sortedDistinct (layout.design.cells.values.map (typeNameOf layout.design))).map
    layout.usageOf

end Layout

end FpgaPlacer

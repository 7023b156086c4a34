import FpgaPlacer.Layout.Basic

/-!
# Fixed locations

Every cell with a location attribute is bound to the bel that the attribute
names, in the order of the cell table.  A cell that is already there is left
alone, so running the pass again only validates it.
-/

namespace FpgaPlacer

/-- The bel type that a cell type stands for on a device. -/
def Layout.typeFor {κ : Type} (layout : Layout κ) (cellType : Symbol) :
    Except DesignError BelType :=
  let typeName := layout.design.display cellType
  match layout.fabric.device.typeNamed typeName with
  | some belType => .ok belType
  | none => .error (.unknownBelType typeName)

namespace Constraints

variable {κ : Type}

/-- The bel that a location names, provided it exists and has the type of the
cell. -/
def target (layout : Layout κ) (cellName : String) (cell : Cell)
    (location : String) : Except (Stop DesignError) BelId := do
  match layout.fabric.device.belNamed location with
  | none => throw (.failed (.noSuchBel cellName location))
  | some bel =>
      let belType ← (layout.fabric.belType bel).stop
      if (layout.typeFor cell.cellType).toOption = some belType then
        return bel
      let typeName ← (layout.fabric.typeName belType).stop
      throw (.failed (.belTypeMismatch cellName
        (layout.design.display cell.cellType) location typeName))

/-- Binds one cell to its fixed location and tells whether it has one. -/
def placeCell (key cell : Symbol) : LayoutEdit κ Bool := do
  let layout ← get
  match layout.design.cells.get? cell with
  | none => Edit.fail (.unknownCell (layout.design.display cell))
  | some record =>
    match record.attrs.get? key with
    | none => return false
    | some location =>
      let name := layout.design.display cell
      let bel ← Edit.reading (fun layout => target layout name record location)
      if record.bel = some bel then
        return true
      match layout.fabric.cellAt bel with
      | some occupant =>
          Edit.fail (.belOccupied name location (layout.design.display occupant))
      | none =>
          Layout.unbindBel cell
          Layout.bindBel cell bel .user
          return true

/-- Binds the given cells in order; the answer lists those with a fixed
location. -/
def placeCells (key : Symbol) : List Symbol → LayoutEdit κ (List Symbol)
  | [] => return []
  | cell :: rest => do
      let placed ← placeCell key cell
      let others ← placeCells key rest
      return if placed then cell :: others else others

/-- Binds every cell with a location attribute to the bel it names. -/
def place : LayoutEdit κ (List Symbol) := do
  let key ← modifyGet (·.intern locationAttribute)
  let layout ← get
  placeCells key layout.design.cells.keys

end Constraints

/-- Binds a cell to a bel and records the name of the bel as its location. -/
def Layout.bindAndAnnotate {κ : Type} (cell : Symbol) (bel : BelId)
    (strength : Strength) : LayoutEdit κ Unit := do
  Layout.bindBel cell bel strength
  let key ← modifyGet (·.intern locationAttribute)
  let belName ← Edit.reading (fun layout => (layout.fabric.belName bel).stop)
  modify (fun layout =>
    match layout.design.cells.get? cell with
    | none => layout
    | some record =>
        let attrs := record.attrs.insert key belName
        { layout with design := layout.design.setCell cell { record with attrs } })

end FpgaPlacer

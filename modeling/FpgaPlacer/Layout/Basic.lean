import FpgaPlacer.Design.Basic
import FpgaPlacer.Fabric.Device

/-!
# Layouts

A layout is a design together with the fabric it is placed on.  The edits here
bind and release bels, wires and pips in both at once; an edit that fails
changes neither.
-/

namespace FpgaPlacer

/-- A design on a fabric. -/
structure Layout (κ : Type) where
  design : Design
  fabric : Fabric κ

/-- An edit of a layout. -/
abbrev LayoutEdit (κ α : Type) := Edit DesignError (Layout κ) α

namespace Layout

variable {κ : Type}

/-- The symbol of a name, together with the layout that knows it. -/
def intern (layout : Layout κ) (text : String) : Symbol × Layout κ :=
  let (symbol, design) := layout.design.intern text
  (symbol, { layout with design })

/-- Frees the bel that a cell record names, if it names one. -/
def releaseBel (occupancy : Occupancy) (cell : Cell) : Occupancy :=
  match cell.bel with
  | some bel => occupancy.unbindBel bel
  | none => occupancy

/-- Binds a cell to a bel.  A bel the cell already holds is released first. -/
def bindBel (cell : Symbol) (bel : BelId) (strength : Strength) :
    LayoutEdit κ Unit := fun layout =>
  match layout.design.cells.get? cell with
  | none => .error (.failed (.unknownCell (layout.design.display cell))) layout
  | some record =>
      .ok ()
        { design := layout.design.setCell cell { record with bel := some bel, strength }
          fabric := layout.fabric.withOccupancy (fun occupancy =>
            (releaseBel occupancy record).bindBel bel cell strength) }

/-- Releases the bel of a cell, if it holds one. -/
def unbindBel (cell : Symbol) : LayoutEdit κ Unit := fun layout =>
  match layout.design.cells.get? cell with
  | none => .error (.failed (.unknownCell (layout.design.display cell))) layout
  | some record =>
      .ok ()
        { design :=
            layout.design.setCell cell { record with bel := none, strength := .unbound }
          fabric := layout.fabric.withOccupancy (releaseBel · record) }

/-- Binds a wire to a net as a root of its routing tree. -/
def bindWire (net : Symbol) (wire : WireId) (strength : Strength) :
    LayoutEdit κ Unit := fun layout =>
  match layout.design.nets.get? net with
  | none => .error (.failed (.unknownNet (layout.design.display net))) layout
  | some record =>
      let wires := record.wires.insert wire ⟨none, strength⟩
      .ok ()
        { design := layout.design.setNet net { record with wires }
          fabric := layout.fabric.withOccupancy (·.bindWire wire net strength) }

/-- Binds a pip and the wire it drives to a net. -/
def bindPip (net : Symbol) (pip : PipId) (strength : Strength) :
    LayoutEdit κ Unit := fun layout =>
  match layout.fabric.pipTarget pip with
  | .error fault => .error (.fault fault) layout
  | .ok wire =>
    match layout.design.nets.get? net with
    | none => .error (.failed (.unknownNet (layout.design.display net))) layout
    | some record =>
        let wires := record.wires.insert wire ⟨some pip, strength⟩
        .ok ()
          { design := layout.design.setNet net { record with wires }
            fabric := layout.fabric.withOccupancy (fun occupancy =>
              (occupancy.bindWire wire net strength).bindPip pip net strength) }

/-- Frees the pip of a hop, if it has one. -/
def releasePip (occupancy : Occupancy) (hop : Hop) : Occupancy :=
  match hop.pip with
  | some pip => occupancy.unbindPip pip
  | none => occupancy

/-- Removes a wire, and the pip reaching it, from the routing tree of a net. -/
def unbindWire (net : Symbol) (wire : WireId) : LayoutEdit κ Unit := fun layout =>
  match layout.design.nets.get? net with
  | none => .error (.failed (.unknownNet (layout.design.display net))) layout
  | some record =>
    match record.wires.get? wire with
    | none => .ok () layout
    | some hop =>
        let wires := record.wires.erase wire
        .ok ()
          { design := layout.design.setNet net { record with wires }
            fabric := layout.fabric.withOccupancy (fun occupancy =>
              (releasePip occupancy hop).unbindWire wire) }

end Layout

end FpgaPlacer

import FpgaPlacer.Placement.Constraints
import FpgaPlacer.Proofs.BelBinding
import FpgaPlacer.Proofs.InternedNames

/-!
# Assigning a bel to a cell

`Layout.assigned` is the layout in which a cell has been bound to a bel and its
location attribute names that bel.  Both placers change a layout only by
assigning bels to cells.
-/

namespace FpgaPlacer

variable {κ : Type}

namespace Design

/-- The symbol of the location attribute. -/
def locationKey (design : Design) : Symbol := (design.intern locationAttribute).1

/-- The name of the location attribute has been interned. -/
def KnowsLocation (design : Design) : Prop :=
  locationAttribute ∈ design.names.strings

theorem knowsLocation_intern (design : Design) :
    (design.intern locationAttribute).2.KnowsLocation :=
  Interner.mem_add ..

theorem locationKey_intern (design : Design) :
    (design.intern locationAttribute).2.locationKey = design.locationKey :=
  Interner.intern_add ..

theorem locationKey_congr {left right : Design}
    (names : right.names = left.names) : right.locationKey = left.locationKey := by
  simp only [locationKey, intern, names]

theorem KnowsLocation.intern_eq {design : Design}
    (knows : design.KnowsLocation) :
    (design.intern locationAttribute).2 = design := by
  have same := Interner.add_of_mem knows
  simp only [Design.intern, Interner.intern]
  rw [same]

end Design

namespace Layout

theorem typeFor_congr {left right : Layout κ}
    (names : right.design.names = left.design.names)
    (device : right.fabric.device = left.fabric.device) (cellType : Symbol) :
    right.typeFor cellType = left.typeFor cellType := by
  simp only [typeFor, Design.display, names, device]

/-- The layout after a cell has been bound to a bel and annotated with the name
of the bel. -/
def assigned (layout : Layout κ) (cell : Symbol) (record : Cell) (bel : BelId)
    (strength : Strength) (text : String) : Layout κ where
  design := (layout.design.intern locationAttribute).2.setCell cell
    { record with
      bel := some bel, strength
      attrs := record.attrs.insert layout.design.locationKey text }
  fabric := layout.fabric.withOccupancy (fun occupancy =>
    (releaseBel occupancy record).bindBel bel cell strength)

theorem bindAndAnnotate_of_named {layout : Layout κ} {cell : Symbol}
    {record : Cell} {bel : BelId} {text : String}
    (found : layout.design.cells.get? cell = some record)
    (named : layout.fabric.device.belName bel = some text)
    (strength : Strength) :
    bindAndAnnotate cell bel strength layout =
      .ok () (layout.assigned cell record bel strength text) := by
  have asked : (((layout.bound cell record bel strength).intern
      locationAttribute).2.fabric.belName bel).stop =
        (.ok text : Except (Stop DesignError) String) := by
    change (Query.ofOption _ (layout.fabric.device.belName bel)).stop = _
    rw [named]
    rfl
  have stored : ((layout.bound cell record bel strength).intern
      locationAttribute).2.design.cells.get? cell =
        some { record with bel := some bel, strength } := by
    change (layout.bound cell record bel strength).design.cells.get? cell = _
    rw [get?_cells_bound, if_pos rfl]
  rw [bindAndAnnotate, Edit.bind_of_ok (bindBel_of_found found bel strength),
    Edit.bind_modifyGet, Edit.bind_reading, asked]
  dsimp only
  rw [Edit.modify_run]
  simp only [stored]
  simp [assigned, bound, Layout.intern, Design.intern, Design.locationKey,
    Design.setCell, Table.insert_insert]

theorem bindAndAnnotate_of_unnamed {layout : Layout κ} {cell : Symbol}
    {record : Cell} {bel : BelId}
    (found : layout.design.cells.get? cell = some record)
    (unnamed : layout.fabric.device.belName bel = none) (strength : Strength) :
    bindAndAnnotate cell bel strength layout =
      .error (.fault (.bel bel))
        ((layout.bound cell record bel strength).intern locationAttribute).2 := by
  have asked : (((layout.bound cell record bel strength).intern
      locationAttribute).2.fabric.belName bel).stop =
        (.error (.fault (.bel bel)) : Except (Stop DesignError) String) := by
    change (Query.ofOption _ (layout.fabric.device.belName bel)).stop = _
    rw [unnamed]
    rfl
  rw [bindAndAnnotate, Edit.bind_of_ok (bindBel_of_found found bel strength),
    Edit.bind_modifyGet, Edit.bind_reading, asked]

theorem bindAndAnnotate_of_absent {layout : Layout κ} {cell : Symbol}
    (absent : layout.design.cells.get? cell = none) (bel : BelId)
    (strength : Strength) :
    bindAndAnnotate cell bel strength layout =
      .error (.failed (.unknownCell (layout.design.display cell))) layout :=
  Edit.bind_of_error (bindBel_of_absent absent bel strength)

@[simp] theorem get?_cells_assigned (layout : Layout κ) (cell query : Symbol)
    (record : Cell) (bel : BelId) (strength : Strength) (text : String) :
    (layout.assigned cell record bel strength text).design.cells.get? query =
      if query = cell then
        some { record with
          bel := some bel, strength
          attrs := record.attrs.insert layout.design.locationKey text }
      else layout.design.cells.get? query :=
  Design.get?_cells_setCell ..

@[simp] theorem get?_bels_assigned (layout : Layout κ) (cell : Symbol)
    (record : Cell) (bel query : BelId) (strength : Strength) (text : String) :
    (layout.assigned cell record bel strength text).fabric.occupancy.bels.get?
        query =
      if query = bel then some ⟨cell, strength⟩
      else if record.bel = some query then none
      else layout.fabric.occupancy.bels.get? query := by
  simp [assigned, Fabric.withOccupancy, Occupancy.bindBel]

/-- An assignment is a binding followed by an annotation. -/
theorem assigned_released (layout : Layout κ) (cell : Symbol) (record : Cell)
    (bel : BelId) (strength : Strength) (text : String) :
    (layout.released cell record).assigned cell
        { record with bel := none, strength := .unbound } bel strength text =
      layout.assigned cell record bel strength text := by
  simp [released, assigned, Design.setCell, Design.intern, Table.insert_insert,
    Fabric.withOccupancy, releaseBel, Design.locationKey]

/-- The fabric reports the cell at its bel, if it has one. -/
def Owns (layout : Layout κ) (cell : Symbol) : Prop :=
  ∀ ⦃record bel⦄, layout.design.cells.get? cell = some record →
    record.bel = some bel → layout.fabric.cellAt bel = some cell

theorem Seated.owns {layout : Layout κ} (seated : layout.Seated) (cell : Symbol) :
    layout.Owns cell := by
  intro record bel found placed
  exact seated.occupant found placed

/-- A bel that is free once a cell has been released was free before, or held by
that cell. -/
theorem Owns.freeFor {layout : Layout κ} {cell : Symbol} {record : Cell}
    {bel : BelId} (owns : layout.Owns cell)
    (found : layout.design.cells.get? cell = some record)
    (vacant : (layout.released cell record).fabric.cellAt bel = none) :
    FreeFor cell (layout.fabric.cellAt bel) := by
  rw [cellAt_released] at vacant
  split at vacant
  · rename_i own
    exact .inr (owns found own)
  · exact .inl vacant

theorem Consistent.intern {layout : Layout κ} (consistent : layout.Consistent)
    (text : String) : (layout.intern text).2.Consistent :=
  consistent.of_same rfl rfl rfl

theorem Consistent.assigned {layout : Layout κ} (consistent : layout.Consistent)
    {cell : Symbol} {record : Cell}
    (found : layout.design.cells.get? cell = some record) {bel : BelId}
    (free : FreeFor cell (layout.fabric.cellAt bel)) (strength : Strength)
    (text : String) :
    (layout.assigned cell record bel strength text).Consistent := by
  have bound := (consistent.intern locationAttribute).bound found free strength
  have annotated : layout.assigned cell record bel strength text =
      { (layout.intern locationAttribute).2.bound cell record bel strength with
        design := ((layout.intern locationAttribute).2.bound cell record bel
          strength).design.setCell cell
            { record with
              bel := some bel, strength
              attrs := record.attrs.insert layout.design.locationKey text } } := by
    simp [Layout.assigned, Layout.bound, Layout.intern, Design.intern,
      Design.setCell, Table.insert_insert]
  have stored : ((layout.intern locationAttribute).2.bound cell record bel
      strength).design.cells.get? cell =
        some { record with bel := some bel, strength } := by
    rw [get?_cells_bound, if_pos rfl]
  rw [annotated]
  constructor
  · have name := consistent.filed.cell found
    exact bound.filed.setCell name
  · exact bound.routed.of_same rfl rfl rfl rfl
  · apply bound.seated.setCell
    intro query placed
    exact bound.seated.occupant stored placed
  · exact bound.connected.setCell stored rfl

end Layout

end FpgaPlacer

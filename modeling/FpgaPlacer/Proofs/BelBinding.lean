import FpgaPlacer.Proofs.PassingCheck
import FpgaPlacer.Proofs.TableViews

/-!
# Binding and releasing bels

`Layout.bound` and `Layout.released` are the layouts that the two bel edits
lead to.  Releasing keeps a layout consistent, and so does binding to a bel
that no other cell holds.
-/

namespace FpgaPlacer

variable {κ : Type}

namespace Layout

/-- A resource is free or already held by the given cell or net. -/
def FreeFor (user : Symbol) (holder : Option Symbol) : Prop :=
  holder = none ∨ holder = some user

theorem FreeFor.eq {user other : Symbol} {holder : Option Symbol}
    (free : FreeFor user holder) (held : holder = some other) : other = user := by
  rcases free with empty | own
  · rw [empty] at held
    cases held
  · rw [own] at held
    exact (Option.some.inj held).symm

def released (layout : Layout κ) (cell : Symbol) (record : Cell) : Layout κ where
  design :=
    layout.design.setCell cell { record with bel := none, strength := .unbound }
  fabric := layout.fabric.withOccupancy (releaseBel · record)

def bound (layout : Layout κ) (cell : Symbol) (record : Cell) (bel : BelId)
    (strength : Strength) : Layout κ where
  design := layout.design.setCell cell { record with bel := some bel, strength }
  fabric := layout.fabric.withOccupancy (fun occupancy =>
    (releaseBel occupancy record).bindBel bel cell strength)

theorem unbindBel_of_found {layout : Layout κ} {cell : Symbol} {record : Cell}
    (found : layout.design.cells.get? cell = some record) :
    unbindBel cell layout = .ok () (layout.released cell record) := by
  simp [unbindBel, found, released]

theorem bindBel_of_found {layout : Layout κ} {cell : Symbol} {record : Cell}
    (found : layout.design.cells.get? cell = some record) (bel : BelId)
    (strength : Strength) :
    bindBel cell bel strength layout =
      .ok () (layout.bound cell record bel strength) := by
  simp [bindBel, found, bound]

theorem unbindBel_of_absent {layout : Layout κ} {cell : Symbol}
    (absent : layout.design.cells.get? cell = none) :
    unbindBel cell layout =
      .error (.failed (.unknownCell (layout.design.display cell))) layout := by
  simp [unbindBel, absent]

theorem bindBel_of_absent {layout : Layout κ} {cell : Symbol}
    (absent : layout.design.cells.get? cell = none) (bel : BelId)
    (strength : Strength) :
    bindBel cell bel strength layout =
      .error (.failed (.unknownCell (layout.design.display cell))) layout := by
  simp [bindBel, absent]

@[simp] theorem get?_cells_released (layout : Layout κ) (cell query : Symbol)
    (record : Cell) :
    (layout.released cell record).design.cells.get? query =
      if query = cell then some { record with bel := none, strength := .unbound }
      else layout.design.cells.get? query :=
  Design.get?_cells_setCell ..

@[simp] theorem get?_cells_bound (layout : Layout κ) (cell query : Symbol)
    (record : Cell) (bel : BelId) (strength : Strength) :
    (layout.bound cell record bel strength).design.cells.get? query =
      if query = cell then some { record with bel := some bel, strength }
      else layout.design.cells.get? query :=
  Design.get?_cells_setCell ..

@[simp] theorem cellAt_released (layout : Layout κ) (cell : Symbol)
    (record : Cell) (query : BelId) :
    (layout.released cell record).fabric.cellAt query =
      if record.bel = some query then none else layout.fabric.cellAt query :=
  cellAt_releaseBel ..

@[simp] theorem cellAt_bound (layout : Layout κ) (cell : Symbol) (record : Cell)
    (bel query : BelId) (strength : Strength) :
    (layout.bound cell record bel strength).fabric.cellAt query =
      if query = bel then some cell
      else if record.bel = some query then none
      else layout.fabric.cellAt query := by
  simp [bound, Fabric.cellAt, Fabric.withOccupancy]

/-- Releasing first and binding then is the same as binding. -/
theorem bound_released (layout : Layout κ) (cell : Symbol) (record : Cell)
    (bel : BelId) (strength : Strength) :
    (layout.released cell record).bound cell
        { record with bel := none, strength := .unbound } bel strength =
      layout.bound cell record bel strength := by
  simp [released, bound, Design.setCell, Table.insert_insert,
    Fabric.withOccupancy, releaseBel]

end Layout

/-! ## What the edits keep -/

namespace Design

theorem Filed.setCell {design : Design} (filed : design.Filed) {cell : Symbol}
    {record : Cell} (name : record.name = cell) :
    (design.setCell cell record).Filed := by
  constructor
  · exact filed.net
  · intro key other found
    rw [get?_cells_setCell] at found
    split at found
    · rename_i same
      cases found
      exact name.trans same.symm
    · exact filed.cell found

theorem Filed.setNet {design : Design} (filed : design.Filed) {net : Symbol}
    {record : Net} (name : record.name = net) :
    (design.setNet net record).Filed := by
  constructor
  · intro key other found
    rw [get?_nets_setNet] at found
    split at found
    · rename_i same
      cases found
      exact name.trans same.symm
    · exact filed.net found
  · exact filed.cell

theorem Filed.of_same {before after : Design} (filed : before.Filed)
    (nets : after.nets = before.nets) (cells : after.cells = before.cells) :
    after.Filed := by
  constructor
  · rw [nets]
    exact filed.net
  · rw [cells]
    exact filed.cell

theorem Connected.of_same {before after : Design} (connected : before.Connected)
    (nets : after.nets = before.nets) (cells : after.cells = before.cells) :
    after.Connected := by
  constructor
  rw [nets, cells]
  exact connected.net

theorem Connected.setCell {design : Design} (connected : design.Connected)
    {cell : Symbol} {old new : Cell} (found : design.cells.get? cell = some old)
    (ports : new.ports = old.ports) : (design.setCell cell new).Connected := by
  constructor
  intro key other portKey port netKey present has joined
  rw [get?_cells_setCell] at present
  split at present
  · rename_i same
    cases present
    subst same
    exact connected.net found (ports ▸ has) joined
  · exact connected.net present has joined

end Design

namespace Layout

/-- Routing depends only on the nets, the device and the occupied wires and
pips. -/
theorem Routed.of_same {before after : Layout κ} (routed : before.Routed)
    (nets : after.design.nets = before.design.nets)
    (device : after.fabric.device = before.fabric.device)
    (wires : after.fabric.occupancy.wires = before.fabric.occupancy.wires)
    (pips : after.fabric.occupancy.pips = before.fabric.occupancy.pips) :
    after.Routed := by
  have onWire : after.fabric.netOnWire = before.fabric.netOnWire := by
    funext wire
    simp [Fabric.netOnWire, Occupancy.netOnWire, wires]
  have onPip : after.fabric.netOnPip = before.fabric.netOnPip := by
    funext pip
    simp [Fabric.netOnPip, Occupancy.netOnPip, pips]
  have target : after.fabric.pipTarget = before.fabric.pipTarget := by
    funext pip
    simp [Fabric.pipTarget, device]
  constructor
  · rw [nets, onWire]
    exact routed.wire
  · rw [nets, target]
    exact routed.target
  · rw [nets, onPip]
    exact routed.pip
  · rw [nets, device, onWire]
    exact routed.holder

theorem Seated.of_same {before after : Layout κ} (seated : before.Seated)
    (cells : after.design.cells = before.design.cells)
    (bels : after.fabric.occupancy.bels = before.fabric.occupancy.bels) :
    after.Seated := by
  have onBel : after.fabric.cellAt = before.fabric.cellAt := by
    funext bel
    simp [Fabric.cellAt, Occupancy.cellAt, bels]
  constructor
  rw [cells, onBel]
  exact seated.occupant

/-- The check does not look at names and random numbers. -/
theorem Consistent.of_same {before after : Layout κ}
    (consistent : before.Consistent)
    (nets : after.design.nets = before.design.nets)
    (cells : after.design.cells = before.design.cells)
    (fabric : after.fabric = before.fabric) : after.Consistent where
  filed := consistent.filed.of_same nets cells
  routed := by
    apply consistent.routed.of_same nets
    · rw [fabric]
    · rw [fabric]
    · rw [fabric]
  seated := by
    apply consistent.seated.of_same cells
    rw [fabric]
  connected := consistent.connected.of_same nets cells

theorem Seated.setCell {layout : Layout κ} (seated : layout.Seated)
    {cell : Symbol} {record : Cell}
    (seat : ∀ bel, record.bel = some bel →
      layout.fabric.cellAt bel = some cell) :
    ({ layout with design := layout.design.setCell cell record } :
      Layout κ).Seated := by
  constructor
  intro key other bel present placed
  rw [Design.get?_cells_setCell] at present
  split at present
  · rename_i same
    cases present
    rw [same]
    exact seat bel placed
  · exact seated.occupant present placed

theorem Seated.released {layout : Layout κ} (seated : layout.Seated)
    {cell : Symbol} {record : Cell}
    (found : layout.design.cells.get? cell = some record) :
    (layout.released cell record).Seated := by
  constructor
  intro key other bel present placed
  rw [get?_cells_released] at present
  split at present
  · cases present
    simp at placed
  · rename_i different
    have onBel := seated.occupant present placed
    have elsewhere : record.bel ≠ some bel := by
      intro shared
      exact different (seated.eq_of_bel present found placed shared)
    rw [cellAt_released, if_neg elsewhere]
    exact onBel

theorem Seated.bound {layout : Layout κ} (seated : layout.Seated)
    {cell : Symbol} {record : Cell}
    (found : layout.design.cells.get? cell = some record) {bel : BelId}
    (free : FreeFor cell (layout.fabric.cellAt bel)) (strength : Strength) :
    (layout.bound cell record bel strength).Seated := by
  constructor
  intro key other held present placed
  rw [get?_cells_bound] at present
  split at present
  · rename_i same
    cases present
    cases placed
    rw [cellAt_bound, if_pos rfl, same]
  · rename_i different
    have onBel := seated.occupant present placed
    have elsewhere : record.bel ≠ some held := by
      intro shared
      exact different (seated.eq_of_bel present found placed shared)
    have notTarget : held ≠ bel := by
      rintro rfl
      exact different (free.eq onBel)
    rw [cellAt_bound, if_neg notTarget, if_neg elsewhere]
    exact onBel

theorem Consistent.released {layout : Layout κ} (consistent : layout.Consistent)
    {cell : Symbol} {record : Cell}
    (found : layout.design.cells.get? cell = some record) :
    (layout.released cell record).Consistent where
  filed := by
    have name := consistent.filed.cell found
    exact consistent.filed.setCell name
  routed := consistent.routed.of_same rfl rfl (wires_releaseBel ..)
    (pips_releaseBel ..)
  seated := consistent.seated.released found
  connected := consistent.connected.setCell found rfl

theorem Consistent.bound {layout : Layout κ} (consistent : layout.Consistent)
    {cell : Symbol} {record : Cell}
    (found : layout.design.cells.get? cell = some record) {bel : BelId}
    (free : FreeFor cell (layout.fabric.cellAt bel)) (strength : Strength) :
    (layout.bound cell record bel strength).Consistent where
  filed := by
    have name := consistent.filed.cell found
    exact consistent.filed.setCell name
  routed := consistent.routed.of_same rfl rfl (wires_releaseBel ..)
    (pips_releaseBel ..)
  seated := consistent.seated.bound found free strength
  connected := consistent.connected.setCell found rfl

end Layout

end FpgaPlacer

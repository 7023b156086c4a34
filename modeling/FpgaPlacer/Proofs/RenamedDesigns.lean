import FpgaPlacer.Proofs.CarriedTables

/-!
# Designs that differ in their symbols

Two layouts of one design can differ in the symbols of their names, because
other names were interned in between.  As long as the symbols keep their order,
what a placer reads is the same in both, and what it writes leaves two layouts
that still correspond.  The location attribute has a symbol of its own in
either layout, which need not have been interned before placement starts.
-/

namespace FpgaPlacer

variable {κ : Type}

/-! ## What is renamed -/

section Records

variable (renames : Renaming)

structure NetEnd.Renamed (source target : NetEnd) : Prop where
  cell : Option.Rel renames.Carries source.cell target.cell
  port : renames.Carries source.port target.port
  budget : target.budget = source.budget

/-- The net with its symbols renamed. -/
structure Net.Renamed (source target : Net) : Prop where
  name : renames.Carries source.name target.name
  driver : source.driver.Renamed renames target.driver
  users : List.Forall₂ (NetEnd.Renamed renames) source.users target.users
  attrs : source.attrs.Carried renames Eq target.attrs
  wires : target.wires = source.wires

structure Port.Renamed (source target : Port) : Prop where
  name : renames.Carries source.name target.name
  direction : target.direction = source.direction
  net : Option.Rel renames.Carries source.net target.net

structure Cell.Renamed (source target : Cell) : Prop where
  name : renames.Carries source.name target.name
  cellType : renames.Carries source.cellType target.cellType
  bel : target.bel = source.bel
  strength : target.strength = source.strength
  ports : source.ports.Carried renames (Port.Renamed renames) target.ports
  pins : source.pins.Carried renames renames.Carries target.pins
  attrs : source.attrs.Carried renames Eq target.attrs
  params : source.params.Carried renames Eq target.params

/-- Two designs that differ in their symbols only.  Every symbol that is carried over
has a string, and the strings are the same.  There is room for the symbol of the
location attribute. -/
structure Design.Renamed (source target : Design) : Prop where
  names : ∀ {symbol image}, renames.Carries symbol image →
    ∃ text, source.names.resolve? symbol = some text ∧
      target.names.resolve? image = some text
  nets : source.nets.Carried renames (Net.Renamed renames) target.nets
  cells : source.cells.Carried renames (Cell.Renamed renames) target.cells
  random : target.random = source.random
  sourceRoom : (source.names.add locationAttribute).size ≤ UInt32.size
  targetRoom : (target.names.add locationAttribute).size ≤ UInt32.size

end Records

/-! ## What placement sees -/

section Views

variable (renames : Renaming)

/-- What placement reads of a net. -/
structure Net.Alike (source target : Net) : Prop where
  driver : Option.Rel renames.Carries source.driver.cell target.driver.cell
  users : List.Forall₂ (Option.Rel renames.Carries) (source.users.map NetEnd.cell)
    (target.users.map NetEnd.cell)

/-- What placement reads of a cell, given the two symbols of the location attribute. -/
structure Cell.Alike (keys : Symbol × Symbol) (source target : Cell) : Prop where
  cellType : renames.Carries source.cellType target.cellType
  bel : target.bel = source.bel
  strength : target.strength = source.strength
  nets : List.Forall₂ (fun left right => Option.Rel renames.Carries left.net right.net)
    source.ports.values target.ports.values
  location : target.attrs.get? keys.2 = source.attrs.get? keys.1

/-- Corresponding cells hold with the same strength. -/
structure Binding.Alike (source target : Binding) : Prop where
  holder : renames.Carries source.holder target.holder
  strength : target.strength = source.strength

/-- Each bel is held by corresponding cells; the wires and pips stay as they are. -/
structure Occupancy.Alike (source target : Occupancy) : Prop where
  bels : ∀ bel, Option.Rel (Binding.Alike renames) (source.bels.get? bel)
    (target.bels.get? bel)
  wires : target.wires = source.wires
  pips : target.pips = source.pips

end Views

/-- The same bels are held with the same strengths, and the same wires and pips by the
same nets. -/
structure Occupancy.SameHeld (left right : Occupancy) : Prop where
  bels : ∀ bel, (left.bels.get? bel).map Binding.strength =
    (right.bels.get? bel).map Binding.strength
  wires : left.wires = right.wires
  pips : left.pips = right.pips

/-- Which bels are available does not depend on the symbols of the cells that hold
bels. -/
def Device.Impartial (device : Device κ) : Prop :=
  ∀ {left right : Occupancy}, left.SameHeld right → ∀ bel,
    device.available left bel = device.available right bel

theorem Occupancy.SameHeld.isNone_cellAt {left right : Occupancy}
    (same : left.SameHeld right) (bel : BelId) :
    (left.cellAt bel).isNone = (right.cellAt bel).isNone := by
  have held := congrArg Option.isNone (same.bels bel)
  simpa only [Occupancy.cellAt, Option.isNone_map] using held

theorem Grid.impartial [Scalar κ] (grid : Grid) : (grid.device κ).Impartial :=
  fun same bel => same.isNone_cellAt bel

theorem GridView.impartial (grid : Grid) (view : GridView) :
    (view.device grid).Impartial := by
  intro left right same bel
  have vacant := same.isNone_cellAt bel
  cases view with
  | full => exact vacant
  | bare => exact vacant
  | untyped => exact vacant
  | skewed => exact congrArg (!GridView.reserved bel && ·) vacant

variable {renames : Renaming} {keys : Symbol × Symbol}

theorem Net.Renamed.alike {source target : Net} (renamed : source.Renamed renames target) :
    source.Alike renames target := by
  constructor
  · exact renamed.driver.cell
  · apply List.forall₂_map_left_iff.mpr
    apply List.forall₂_map_right_iff.mpr
    exact renamed.users.imp fun _ _ user => user.cell

namespace Design

variable {source target : Design}

theorem Renamed.locationKey_iff (renamed : source.Renamed renames target)
    {symbol image : Symbol} (carries : renames.Carries symbol image) :
    symbol = source.locationKey ↔ image = target.locationKey := by
  obtain ⟨text, resolved, image_resolved⟩ := renamed.names carries
  have here := Interner.eq_intern_iff resolved renamed.sourceRoom
  have there := Interner.eq_intern_iff image_resolved renamed.targetRoom
  exact here.trans there.symm

/-- The location attribute has the same value in corresponding tables, whether or not
its name has a symbol yet. -/
theorem Renamed.location (renamed : source.Renamed renames target)
    {left right : Table .name String} (carried : left.Carried renames Eq right) :
    right.get? target.locationKey = left.get? source.locationKey := by
  by_cases known : renames.known source.locationKey
  · have carries : renames.Carries source.locationKey (renames.map source.locationKey) :=
      ⟨known, rfl⟩
    have values := carried.get? carries
    rw [(renamed.locationKey_iff carries).mp rfl] at values
    generalize left.get? source.locationKey = value,
      right.get? target.locationKey = other at values
    cases values with
    | none => rfl
    | some same => rw [same]
  · have absent : left.get? source.locationKey = none := by
      cases found : left.get? source.locationKey with
      | none => rfl
      | some value =>
          have listed := Table.mem_keys_iff.mpr ⟨value, found⟩
          have all := (Renaming.forall₂_carries_iff.mp carried.keys).1
          exact absurd (all _ listed) known
    have unnamed : right.get? target.locationKey = none := by
      cases found : right.get? target.locationKey with
      | none => rfl
      | some value =>
          obtain ⟨symbol, carries, -⟩ := carried.source_of_get? found
          have same := (renamed.locationKey_iff carries).mpr rfl
          exact absurd (same ▸ carries.known) known
    rw [absent, unnamed]

theorem Renamed.cellAlike (renamed : source.Renamed renames target) {left right : Cell}
    (cell : left.Renamed renames right) :
    left.Alike renames (source.locationKey, target.locationKey) right where
  cellType := cell.cellType
  bel := cell.bel
  strength := cell.strength
  nets := cell.ports.values.imp fun _ _ port => port.net
  location := renamed.location cell.attrs

end Design

/-! ## Layouts that placement sees alike -/

/-- Two layouts in which placement sees the same thing; both know their symbol of the
location attribute. -/
structure Layout.Alike (renames : Renaming) (keys : Symbol × Symbol)
    (source target : Layout κ) : Prop where
  device : target.fabric.device = source.fabric.device
  impartial : source.fabric.device.Impartial
  occupancy : source.fabric.occupancy.Alike renames target.fabric.occupancy
  random : target.design.random = source.design.random
  names : ∀ {symbol image}, renames.Carries symbol image →
    ∃ text, source.design.names.resolve? symbol = some text ∧
      target.design.names.resolve? image = some text
  sourceKnows : source.design.KnowsLocation
  targetKnows : target.design.KnowsLocation
  sourceKey : source.design.locationKey = keys.1
  targetKey : target.design.locationKey = keys.2
  nets : source.design.nets.Carried renames (Net.Alike renames) target.design.nets
  cells : source.design.cells.Carried renames (Cell.Alike renames keys)
    target.design.cells

/-- Two layouts of one design that differ in their symbols, on the same fabric with
nothing bound. -/
structure Layout.Renamed (renames : Renaming) (source target : Layout κ) : Prop where
  design : source.design.Renamed renames target.design
  fabric : target.fabric = source.fabric
  unbound : source.fabric.occupancy = .empty

/-- Once the location attribute has its symbol, placement sees the same thing. -/
theorem Layout.Renamed.alike {source target : Layout κ}
    (renamed : Layout.Renamed renames source target)
    (impartial : source.fabric.device.Impartial) :
    Layout.Alike renames (source.design.locationKey, target.design.locationKey)
      (source.intern locationAttribute).2 (target.intern locationAttribute).2 := by
  constructor
  · exact congrArg Fabric.device renamed.fabric
  · exact impartial
  · have occupied : (target.intern locationAttribute).2.fabric.occupancy =
        (source.intern locationAttribute).2.fabric.occupancy :=
      congrArg Fabric.occupancy renamed.fabric
    have free : (source.intern locationAttribute).2.fabric.occupancy = .empty :=
      renamed.unbound
    rw [occupied, free]
    exact ⟨fun _ => .none, rfl, rfl⟩
  · exact renamed.design.random
  · intro symbol image carries
    obtain ⟨text, resolved, image_resolved⟩ := renamed.design.names carries
    exact ⟨text, Interner.resolve?_add resolved _,
      Interner.resolve?_add image_resolved _⟩
  · exact source.design.knowsLocation_intern
  · exact target.design.knowsLocation_intern
  · exact source.design.locationKey_intern
  · exact target.design.locationKey_intern
  · exact renamed.design.nets.imp fun _ _ net => net.alike
  · exact renamed.design.cells.imp fun _ _ cell => renamed.design.cellAlike cell

/-! ## Reading -/

namespace Layout.Alike

variable {source target : Layout κ} (alike : Layout.Alike renames keys source target)
  {symbol image : Symbol} (carries : renames.Carries symbol image)

include alike

section Names

include carries

theorem display : target.design.display image = source.design.display symbol := by
  obtain ⟨text, resolved, image_resolved⟩ := alike.names carries
  simp only [Design.display, Interner.display, resolved, image_resolved]

theorem typeFor : target.typeFor image = source.typeFor symbol := by
  unfold Layout.typeFor
  rw [alike.display carries, alike.device]

end Names

theorem belOf {cell other : Option Symbol} (related : Option.Rel renames.Carries cell other) :
    target.design.belOf other = source.design.belOf cell := by
  cases related with
  | none => rfl
  | some carries =>
      have found := alike.cells.get? carries
      simp only [Design.belOf, Option.bind_eq_bind, Option.bind_some]
      generalize source.design.cells.get? _ = record,
        target.design.cells.get? _ = copy at found
      cases found with
      | none => rfl
      | some cell => exact cell.bel

theorem cellAt (bel : BelId) :
    Option.Rel renames.Carries (source.fabric.cellAt bel) (target.fabric.cellAt bel) := by
  have bound := alike.occupancy.bels bel
  simp only [Fabric.cellAt, Occupancy.cellAt]
  generalize source.fabric.occupancy.bels.get? bel = binding,
    target.fabric.occupancy.bels.get? bel = copy at bound
  cases bound with
  | none => exact .none
  | some related => exact .some related.holder

theorem sameHeld : target.fabric.occupancy.SameHeld source.fabric.occupancy := by
  refine ⟨?_, alike.occupancy.wires, alike.occupancy.pips⟩
  intro bel
  have bound := alike.occupancy.bels bel
  generalize source.fabric.occupancy.bels.get? bel = binding,
    target.fabric.occupancy.bels.get? bel = copy at bound
  cases bound with
  | none => rfl
  | some related => exact congrArg some related.strength

theorem available (bel : BelId) :
    target.fabric.available bel = source.fabric.available bel := by
  unfold Fabric.available
  rw [alike.device]
  exact alike.impartial alike.sameHeld bel

include carries

theorem cell_cases :
    source.design.cells.get? symbol = none ∧ target.design.cells.get? image = none ∨
      ∃ record copy, source.design.cells.get? symbol = some record ∧
        target.design.cells.get? image = some copy ∧ record.Alike renames keys copy := by
  have found := alike.cells.get? carries
  generalize source.design.cells.get? symbol = record,
    target.design.cells.get? image = copy at found
  cases found with
  | none => exact .inl ⟨rfl, rfl⟩
  | some cell => exact .inr ⟨_, _, rfl, rfl, cell⟩

end Layout.Alike

/-! ## Writing -/

namespace Occupancy.Alike

variable {source target : Occupancy} (alike : source.Alike renames target)

include alike

theorem releaseBel {record copy : Cell} (same : copy.bel = record.bel) :
    (Layout.releaseBel source record).Alike renames
      (Layout.releaseBel target copy) := by
  constructor
  · intro bel
    rw [Layout.get?_bels_releaseBel, Layout.get?_bels_releaseBel, same]
    split
    · exact .none
    · exact alike.bels bel
  · rw [Layout.wires_releaseBel, Layout.wires_releaseBel]
    exact alike.wires
  · rw [Layout.pips_releaseBel, Layout.pips_releaseBel]
    exact alike.pips

theorem bindBel {symbol image : Symbol} (carries : renames.Carries symbol image)
    (bel : BelId) (strength : Strength) :
    (source.bindBel bel symbol strength).Alike renames
      (target.bindBel bel image strength) := by
  refine ⟨?_, alike.wires, alike.pips⟩
  intro query
  simp only [Occupancy.bindBel, Table.get?_insert]
  split
  · exact .some ⟨carries, rfl⟩
  · exact alike.bels query

end Occupancy.Alike

namespace Layout.Alike

variable {source target : Layout κ} (alike : Layout.Alike renames keys source target)
  {symbol image : Symbol} (carries : renames.Carries symbol image) {record copy : Cell}

include alike

theorem withRandom (random : Generator) :
    Layout.Alike renames keys (source.withRandom random) (target.withRandom random) :=
  { alike with random := rfl }

include carries

/-- Corresponding records are stored, and the occupancy is changed alike. -/
theorem replaced {before after : Occupancy} (occupancy : before.Alike renames after)
    (cell : record.Alike renames keys copy) :
    Layout.Alike renames keys
      ⟨source.design.setCell symbol record, ⟨source.fabric.device, before⟩⟩
      ⟨target.design.setCell image copy, ⟨target.fabric.device, after⟩⟩ :=
  { alike with
    occupancy
    cells := alike.cells.insert carries cell }

variable (cell : record.Alike renames keys copy)

include cell

theorem released :
    Layout.Alike renames keys (source.released symbol record) (target.released image copy) :=
  alike.replaced carries (alike.occupancy.releaseBel cell.bel)
    ⟨cell.cellType, rfl, rfl, cell.nets, cell.location⟩

theorem bound (bel : BelId) (strength : Strength) :
    Layout.Alike renames keys (source.bound symbol record bel strength)
      (target.bound image copy bel strength) :=
  alike.replaced carries ((alike.occupancy.releaseBel cell.bel).bindBel carries bel strength)
    ⟨cell.cellType, rfl, rfl, cell.nets, cell.location⟩

theorem assigned (bel : BelId) (strength : Strength) (text : String) :
    Layout.Alike renames keys (source.assigned symbol record bel strength text)
      (target.assigned image copy bel strength text) := by
  unfold Layout.assigned
  rw [alike.sourceKnows.intern_eq, alike.targetKnows.intern_eq, alike.sourceKey,
    alike.targetKey]
  apply alike.replaced carries
  · exact (alike.occupancy.releaseBel cell.bel).bindBel carries bel strength
  · refine ⟨cell.cellType, rfl, rfl, cell.nets, ?_⟩
    simp

end Layout.Alike

end FpgaPlacer

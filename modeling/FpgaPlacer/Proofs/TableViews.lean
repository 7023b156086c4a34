import FpgaPlacer.Layout.Basic

/-!
# Look-ups after an update

One equation for each update of a design or of an occupancy and each look-up
that the update can reach.  Look-ups out of its reach are unchanged by
definition.  Updates of different records commute, one that stores what is there
changes nothing, and binding a free resource is undone by freeing it.
-/

namespace FpgaPlacer

namespace Table

variable {kind : HandleKind} {α : Type}

theorem insert_insert (table : Table kind α) (key : Handle kind)
    (first second : α) :
    (table.insert key first).insert key second = table.insert key second :=
  ext_get? (fun query => by
    by_cases same : query = key <;> simp [same])

theorem insert_erase (table : Table kind α) (key : Handle kind) (value : α) :
    (table.erase key).insert key value = table.insert key value :=
  ext_get? (fun query => by
    by_cases same : query = key <;> simp [same])

theorem erase_insert_self (table : Table kind α) (key : Handle kind)
    (value : α) : (table.insert key value).erase key = table.erase key :=
  ext_get? (fun query => by
    by_cases same : query = key <;> simp [same])

theorem get?_insert_cases {table : Table kind α} {key query : Handle kind}
    {value stored : α}
    (found : (table.insert key value).get? query = some stored) :
    query = key ∧ stored = value ∨ table.get? query = some stored := by
  rw [get?_insert] at found
  split at found
  · rename_i same
    exact .inl ⟨same, (Option.some.inj found).symm⟩
  · exact .inr found

theorem mem_keys_iff {table : Table kind α} {key : Handle kind} :
    key ∈ table.keys ↔ ∃ value, table.get? key = some value := by
  simp only [keys, List.mem_map, Prod.exists, exists_and_right,
    exists_eq_right, mem_toList_iff]

theorem nodup_keys (table : Table kind α) : table.keys.Nodup := by
  rw [keys, List.Nodup, List.pairwise_map]
  exact table.sorted.imp Handle.ne_of_lt

end Table

namespace Design

@[simp] theorem get?_cells_setCell (design : Design) (cell query : Symbol)
    (record : Cell) :
    (design.setCell cell record).cells.get? query =
      if query = cell then some record else design.cells.get? query :=
  Table.get?_insert ..

@[simp] theorem get?_nets_setNet (design : Design) (net query : Symbol)
    (record : Net) :
    (design.setNet net record).nets.get? query =
      if query = net then some record else design.nets.get? query :=
  Table.get?_insert ..

theorem belOf_of_found {design : Design} {cell : Symbol} {record : Cell}
    (found : design.cells.get? cell = some record) :
    design.belOf (some cell) = record.bel :=
  congrArg (fun stored => stored.bind Cell.bel) found

@[simp] theorem nets_setCell (design : Design) (cell : Symbol) (record : Cell) :
    (design.setCell cell record).nets = design.nets := rfl

@[simp] theorem nets_intern (design : Design) (text : String) :
    (design.intern text).2.nets = design.nets := rfl

@[simp] theorem cells_intern (design : Design) (text : String) :
    (design.intern text).2.cells = design.cells := rfl

theorem setCell_setCell (design : Design) (cell : Symbol) (first second : Cell) :
    (design.setCell cell first).setCell cell second = design.setCell cell second := by
  simp [setCell, Table.insert_insert]

theorem setNet_setNet (design : Design) (net : Symbol) (first second : Net) :
    (design.setNet net first).setNet net second = design.setNet net second := by
  simp [setNet, Table.insert_insert]

theorem setCell_get? {design : Design} {cell : Symbol} {record : Cell}
    (found : design.cells.get? cell = some record) :
    design.setCell cell record = design := by
  simp [setCell, Table.insert_get? found]

theorem setNet_get? {design : Design} {net : Symbol} {record : Net}
    (known : design.nets.get? net = some record) :
    design.setNet net record = design := by
  simp [setNet, Table.insert_get? known]

theorem setCell_comm (design : Design) {first second : Symbol}
    (different : first ≠ second) (firstRecord secondRecord : Cell) :
    (design.setCell first firstRecord).setCell second secondRecord =
      (design.setCell second secondRecord).setCell first firstRecord := by
  simp [setCell, Table.insert_comm _ different]

theorem setNet_comm (design : Design) {first second : Symbol}
    (different : first ≠ second) (firstRecord secondRecord : Net) :
    (design.setNet first firstRecord).setNet second secondRecord =
      (design.setNet second secondRecord).setNet first firstRecord := by
  simp [setNet, Table.insert_comm _ different]

end Design

namespace Occupancy

theorem ext_tables {left right : Occupancy} (bels : left.bels = right.bels)
    (wires : left.wires = right.wires) (pips : left.pips = right.pips) :
    left = right := by
  cases left
  cases right
  cases bels
  cases wires
  cases pips
  rfl

@[simp] theorem cellAt_bindBel (occupancy : Occupancy) (bel query : BelId)
    (cell : Symbol) (strength : Strength) :
    (occupancy.bindBel bel cell strength).cellAt query =
      if query = bel then some cell else occupancy.cellAt query := by
  by_cases same : query = bel <;> simp [cellAt, bindBel, same]

@[simp] theorem netOnWire_bindWire (occupancy : Occupancy) (wire query : WireId)
    (net : Symbol) (strength : Strength) :
    (occupancy.bindWire wire net strength).netOnWire query =
      if query = wire then some net else occupancy.netOnWire query := by
  by_cases same : query = wire <;> simp [netOnWire, bindWire, same]

@[simp] theorem netOnWire_unbindWire (occupancy : Occupancy)
    (wire query : WireId) :
    (occupancy.unbindWire wire).netOnWire query =
      if query = wire then none else occupancy.netOnWire query := by
  by_cases same : query = wire <;> simp [netOnWire, unbindWire, same]

@[simp] theorem netOnPip_bindPip (occupancy : Occupancy) (pip query : PipId)
    (net : Symbol) (strength : Strength) :
    (occupancy.bindPip pip net strength).netOnPip query =
      if query = pip then some net else occupancy.netOnPip query := by
  by_cases same : query = pip <;> simp [netOnPip, bindPip, same]

@[simp] theorem netOnPip_unbindPip (occupancy : Occupancy) (pip query : PipId) :
    (occupancy.unbindPip pip).netOnPip query =
      if query = pip then none else occupancy.netOnPip query := by
  by_cases same : query = pip <;> simp [netOnPip, unbindPip, same]

section Undo

variable {occupancy : Occupancy}

theorem unbindBel_bindBel {bel : BelId} (free : occupancy.cellAt bel = none)
    (cell : Symbol) (strength : Strength) :
    (occupancy.bindBel bel cell strength).unbindBel bel = occupancy := by
  have absent : occupancy.bels.get? bel = none := Option.map_eq_none_iff.mp free
  simp [bindBel, unbindBel, Table.erase_insert absent]

theorem unbindWire_bindWire {wire : WireId} (free : occupancy.netOnWire wire = none)
    (net : Symbol) (strength : Strength) :
    (occupancy.bindWire wire net strength).unbindWire wire = occupancy := by
  have absent : occupancy.wires.get? wire = none := Option.map_eq_none_iff.mp free
  simp [bindWire, unbindWire, Table.erase_insert absent]

theorem unbindPip_bindPip {pip : PipId} (free : occupancy.netOnPip pip = none)
    (net : Symbol) (strength : Strength) :
    (occupancy.bindPip pip net strength).unbindPip pip = occupancy := by
  have absent : occupancy.pips.get? pip = none := Option.map_eq_none_iff.mp free
  simp [bindPip, unbindPip, Table.erase_insert absent]

end Undo

end Occupancy

namespace Layout

@[simp] theorem get?_bels_releaseBel (occupancy : Occupancy) (cell : Cell)
    (query : BelId) :
    (releaseBel occupancy cell).bels.get? query =
      if cell.bel = some query then none else occupancy.bels.get? query := by
  cases held : cell.bel with
  | none => simp [releaseBel, held]
  | some bel => simp [releaseBel, held, Occupancy.unbindBel, eq_comm]

@[simp] theorem cellAt_releaseBel (occupancy : Occupancy) (cell : Cell)
    (query : BelId) :
    (releaseBel occupancy cell).cellAt query =
      if cell.bel = some query then none else occupancy.cellAt query := by
  by_cases held : cell.bel = some query <;> simp [Occupancy.cellAt, held]

@[simp] theorem wires_releaseBel (occupancy : Occupancy) (cell : Cell) :
    (releaseBel occupancy cell).wires = occupancy.wires := by
  cases held : cell.bel <;> simp [releaseBel, held, Occupancy.unbindBel]

@[simp] theorem pips_releaseBel (occupancy : Occupancy) (cell : Cell) :
    (releaseBel occupancy cell).pips = occupancy.pips := by
  cases held : cell.bel <;> simp [releaseBel, held, Occupancy.unbindBel]

@[simp] theorem netOnWire_releasePip (occupancy : Occupancy) (hop : Hop)
    (query : WireId) :
    (releasePip occupancy hop).netOnWire query = occupancy.netOnWire query := by
  cases reached : hop.pip with
  | none => simp [releasePip, reached]
  | some pip =>
      simp only [releasePip, reached]
      rfl

@[simp] theorem netOnPip_releasePip (occupancy : Occupancy) (hop : Hop)
    (query : PipId) :
    (releasePip occupancy hop).netOnPip query =
      if hop.pip = some query then none else occupancy.netOnPip query := by
  cases reached : hop.pip <;> simp [releasePip, reached, eq_comm]

end Layout

end FpgaPlacer

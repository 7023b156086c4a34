import FpgaPlacer.Proofs.Mixing
import FpgaPlacer.Proofs.ReachableLayouts

/-!
# The checksum detects every change of one term

A record is hashed as a chain of 32-bit terms.  The relations here list, record
by record, the ways in which exactly one term of a design can change; a term
deep inside a table is reached through the entry that holds it.  Each such
change alters the term list of its record in one place, and the difference is
carried through every enclosing chain and sum up to the checksum.
-/

namespace FpgaPlacer

variable {κ : Type}

namespace Checksum

/-! ## Changes of one term -/

/-- The bytes that a text contributes. -/
def bytes (text : String) : List UInt8 := text.toUTF8.data.toList

/-- One byte of a text has changed. -/
def ByteChange (old new : String) : Prop :=
  Replaced (· ≠ ·) (bytes old) (bytes new)

section Changes

variable (device : Device κ)

/-- The term of a pip that may be absent. -/
def pipTerm (pip : Option PipId) : UInt32 :=
  (pip.map device.pipTerm).getD absent

/-- The term of a bel that may be absent. -/
def belTerm (bel : Option BelId) : UInt32 :=
  (bel.map device.belTerm).getD absent

inductive EndChange (netEnd : NetEnd) : NetEnd → Prop where
  | cell {old new : Symbol} (present : netEnd.cell = some old)
      (differs : old ≠ new) : EndChange netEnd { netEnd with cell := some new }
  | port {port : Symbol} (differs : netEnd.port ≠ port) :
      EndChange netEnd { netEnd with port }
  | budget {budget : Float}
      (differs : device.delayTerm netEnd.budget ≠ device.delayTerm budget) :
      EndChange netEnd { netEnd with budget }

inductive HopChange (hop : Hop) : Hop → Prop where
  | pip {pip : Option PipId} (differs : pipTerm device hop.pip ≠ pipTerm device pip) :
      HopChange hop { hop with pip }
  | strength {strength : Strength} (differs : hop.strength ≠ strength) :
      HopChange hop { hop with strength }

inductive NetChange (net : Net) : Net → Prop where
  | name {name : Symbol} (differs : net.name ≠ name) :
      NetChange net { net with name }
  | driver {driver : NetEnd} (change : EndChange device net.driver driver) :
      NetChange net { net with driver }
  | user {users : List NetEnd} (change : Replaced (EndChange device) net.users users) :
      NetChange net { net with users }
  | attr {attrs : Table .name String} (change : net.attrs.Alters ByteChange attrs) :
      NetChange net { net with attrs }
  | hop {wires : Table .wire Hop} (change : net.wires.Alters (HopChange device) wires) :
      NetChange net { net with wires }

inductive PortChange (port : Port) : Port → Prop where
  | name {name : Symbol} (differs : port.name ≠ name) :
      PortChange port { port with name }
  | direction {direction : Direction} (differs : port.direction ≠ direction) :
      PortChange port { port with direction }
  | net {old new : Symbol} (present : port.net = some old) (differs : old ≠ new) :
      PortChange port { port with net := some new }

inductive CellChange (cell : Cell) : Cell → Prop where
  | name {name : Symbol} (differs : cell.name ≠ name) :
      CellChange cell { cell with name }
  | cellType {cellType : Symbol} (differs : cell.cellType ≠ cellType) :
      CellChange cell { cell with cellType }
  | bel {bel : Option BelId} (differs : belTerm device cell.bel ≠ belTerm device bel) :
      CellChange cell { cell with bel }
  | strength {strength : Strength} (differs : cell.strength ≠ strength) :
      CellChange cell { cell with strength }
  | port {ports : Table .name Port} (change : cell.ports.Alters PortChange ports) :
      CellChange cell { cell with ports }
  | attr {attrs : Table .name String} (change : cell.attrs.Alters ByteChange attrs) :
      CellChange cell { cell with attrs }
  | param {params : Table .name String}
      (change : cell.params.Alters ByteChange params) :
      CellChange cell { cell with params }
  | pin {pins : Table .name Symbol} (change : cell.pins.Alters (· ≠ ·) pins) :
      CellChange cell { cell with pins }

/-- The two designs differ in one term of one net or of one cell. -/
inductive TermChange (old new : Design) : Prop where
  | net (change : old.nets.Alters (NetChange device) new.nets)
      (cells : new.cells = old.cells)
  | cell (change : old.cells.Alters (CellChange device) new.cells)
      (nets : new.nets = old.nets)

end Changes

/-! ## From a term to the hash of its record -/

theorem raw_ne {kind : HandleKind} {left right : Handle kind}
    (differs : left ≠ right) : left.raw ≠ right.raw := by
  cases left
  cases right
  exact fun same => differs (congrArg Handle.mk same)

theorem strengthRank_ne {left right : Strength} (differs : left ≠ right) :
    left.rank ≠ right.rank := by
  intro same
  cases left <;> cases right <;> first | exact differs rfl | cases same

theorem directionRank_ne {left right : Direction} (differs : left ≠ right) :
    left.rank ≠ right.rank := by
  intro same
  cases left <;> cases right <;> first | exact differs rfl | cases same

theorem chain_ne_of_replaced {before after : List UInt32}
    (replaced : Replaced (· ≠ ·) before after) : chain before ≠ chain after :=
  mixAll_ne_of_replaced replaced

theorem textEntry_ne (key : Symbol) {old new : String}
    (change : ByteChange old new) : textEntry (key, old) ≠ textEntry (key, new) := by
  apply chain_ne_of_replaced
  apply Replaced.later
  apply change.map
  intro left right differs same
  exact differs (UInt8.toUInt32_inj.mp same)

theorem pinEntry_ne (key : Symbol) {old new : Symbol} (differs : old ≠ new) :
    pinEntry (key, old) ≠ pinEntry (key, new) :=
  chain_ne_of_replaced (.later _ (.here (raw_ne differs) []))

theorem portEntry_ne (key : Symbol) {old new : Port} (change : PortChange old new) :
    portEntry (key, old) ≠ portEntry (key, new) := by
  apply chain_ne_of_replaced
  cases change with
  | name differs =>
      have names : Replaced (· ≠ ·) [key.raw, old.name.raw] [key.raw, _] :=
        .later _ (.here (raw_ne differs) [])
      exact (names.append_right _).append_right _
  | direction differs =>
      have ranks : Replaced (· ≠ ·) [old.direction.rank] [_] :=
        .here (directionRank_ne differs) []
      exact ranks.append_left _
  | @net oldNet newNet present differs =>
      have nets : Replaced (· ≠ ·) (optional old.net) (optional (some newNet)) := by
        rw [present]
        exact .here (raw_ne differs) []
      exact (nets.append_left _).append_right _

variable {device : Device κ}

theorem endTerms_replaced {old new : NetEnd} (change : EndChange device old new) :
    Replaced (· ≠ ·) (netEnd device old) (netEnd device new) := by
  cases change with
  | @cell oldCell newCell present differs =>
      have cells : Replaced (· ≠ ·) (optional old.cell) (optional (some newCell)) := by
        rw [present]
        exact .here (raw_ne differs) []
      exact cells.append_right _
  | port differs =>
      have ports : Replaced (· ≠ ·) [old.port.raw, device.delayTerm old.budget]
          [_, device.delayTerm old.budget] :=
        .here (raw_ne differs) _
      exact ports.append_left _
  | budget differs =>
      have budgets : Replaced (· ≠ ·) [old.port.raw, device.delayTerm old.budget]
          [old.port.raw, _] :=
        .later _ (.here differs [])
      exact budgets.append_left _

theorem hopEntry_ne (wire : WireId) {old new : Hop} (change : HopChange device old new) :
    hopEntry device (wire, old) ≠ hopEntry device (wire, new) := by
  apply chain_ne_of_replaced
  apply Replaced.later
  cases change with
  | pip differs => exact .here differs _
  | strength differs => exact .later _ (.here (strengthRank_ne differs) [])

theorem netEntry_ne (key : Symbol) {old new : Net} (change : NetChange device old new) :
    netEntry device (key, old) ≠ netEntry device (key, new) := by
  apply chain_ne_of_replaced
  cases change with
  | name differs =>
      have names : Replaced (· ≠ ·) [key.raw, old.name.raw] [key.raw, _] :=
        .later _ (.here (raw_ne differs) [])
      exact ((names.append_right _).append_right _).append_right _
  | driver change =>
      have ends := endTerms_replaced change
      exact ((ends.append_left _).append_right _).append_right _
  | user change =>
      have ends := change.flatMap (fun _ _ => endTerms_replaced)
      exact (ends.append_left _).append_right _
  | attr change =>
      have sums := unordered_ne_of_alters change (fun key _ _ => textEntry_ne key)
      exact (Replaced.here sums _).append_left _
  | hop change =>
      have sums := unordered_ne_of_alters change (fun wire _ _ => hopEntry_ne wire)
      exact (Replaced.later _ (.here sums [])).append_left _

theorem cellEntry_ne (key : Symbol) {old new : Cell}
    (change : CellChange device old new) :
    cellEntry device (key, old) ≠ cellEntry device (key, new) := by
  apply chain_ne_of_replaced
  apply Replaced.later
  cases change with
  | name differs => exact .here (raw_ne differs) _
  | cellType differs => exact .later _ (.here (raw_ne differs) _)
  | port change =>
      have sums := unordered_ne_of_alters change (fun key _ _ => portEntry_ne key)
      exact .later _ (.later _ (.here sums _))
  | attr change =>
      have sums := unordered_ne_of_alters change (fun key _ _ => textEntry_ne key)
      exact .later _ (.later _ (.later _ (.here sums _)))
  | param change =>
      have sums := unordered_ne_of_alters change (fun key _ _ => textEntry_ne key)
      exact .later _ (.later _ (.later _ (.later _ (.here sums _))))
  | bel differs =>
      exact .later _ (.later _ (.later _ (.later _ (.later _ (.here differs _)))))
  | strength differs =>
      have ranks := strengthRank_ne differs
      exact .later _ (.later _ (.later _ (.later _ (.later _ (.later _
        (.here ranks _))))))
  | pin change =>
      have sums := unordered_ne_of_alters change (fun key _ _ => pinEntry_ne key)
      exact .later _ (.later _ (.later _ (.later _ (.later _ (.later _ (.later _
        (.here sums _)))))))

end Checksum

namespace Layout

open Checksum

/-! ## From a record to the checksum -/

theorem checksum_ne_of_termChange {left right : Layout κ}
    (device : right.fabric.device = left.fabric.device)
    (change : TermChange left.fabric.device left.design right.design) :
    right.checksum ≠ left.checksum := by
  rw [checksum, checksum, device]
  apply Ne.symm
  apply mixAll_ne_of_replaced
  cases change with
  | net change cells =>
      have sums := unordered_ne_of_alters change (fun key _ _ => netEntry_ne key)
      rw [cells]
      exact .here sums _
  | cell change nets =>
      have sums := unordered_ne_of_alters change (fun key _ _ => cellEntry_ne key)
      rw [nets]
      exact .later _ (.here sums [])

/-- On a grid the term of a bel is its number, which differs from the mark of an
unplaced cell. -/
theorem belTerm_grid_ne_absent [Scalar κ] (grid : Grid) {bel : BelId}
    (below : bel.toNat < 2 ^ 32 - 1) :
    belTerm (grid.device κ) none ≠ belTerm (grid.device κ) (some bel) := by
  intro same
  have number : absent = bel.raw := same
  rw [Handle.toNat, ← number] at below
  exact absurd below (by decide)

/-- Two layouts on one device whose designs differ in exactly one term have
different checksums.  On a grid this covers the placement of an unplaced cell
on any bel, with nothing else changed. -/
theorem checksum_sensitive [Scalar κ] :
    (∀ left right : Layout κ, right.fabric.device = left.fabric.device →
      TermChange left.fabric.device left.design right.design →
      right.checksum ≠ left.checksum) ∧
    (∀ (grid : Grid) (left right : Layout κ) (cell : Symbol) (record : Cell)
        (bel : BelId), left.fabric.device = grid.device κ →
      right.fabric.device = left.fabric.device →
      left.design.cells.get? cell = some record → record.bel = none →
      bel.toNat < 2 ^ 32 - 1 →
      right.design = left.design.setCell cell { record with bel := some bel } →
      right.checksum ≠ left.checksum) := by
  constructor
  · intro left right device change
    exact checksum_ne_of_termChange device change
  · intro grid left right cell record bel onGrid device found unplaced below placed
    apply checksum_ne_of_termChange device
    rw [placed, onGrid]
    refine .cell ⟨cell, record, _, found, ?_, rfl⟩ rfl
    apply CellChange.bel
    rw [unplaced]
    exact belTerm_grid_ne_absent grid below

/-- A design of one cell, with one attribute, on a device with one bel. -/
def labelled (text : String) (bel : Option BelId) : Layout Int :=
  { fresh tinyDevice with
    design := Design.empty.setCell ⟨1⟩
      { Cell.unplaced ⟨1⟩ ⟨2⟩ with bel, attrs := Table.empty.insert ⟨3⟩ text } }

/-- A changed byte is detected, and so is the placement of the cell. -/
theorem checksum_sensitive_of_labelled :
    (labelled "B1" none).checksum ≠ (labelled "B0" none).checksum ∧
      (labelled "B0" (some ⟨0⟩)).checksum ≠ (labelled "B0" none).checksum := by
  constructor
  · have lastByte : ByteChange "B0" "B1" := .later 66 (.here (by decide) [])
    have attrs : (Table.empty.insert ⟨3⟩ "B0").Alters ByteChange
        (Table.empty.insert ⟨3⟩ "B1" : Table .name String) :=
      ⟨⟨3⟩, "B0", "B1", rfl, lastByte, rfl⟩
    exact checksum_sensitive.1 (labelled "B0" none) (labelled "B1" none) rfl
      (.cell ⟨⟨1⟩, _, _, rfl, .attr attrs, rfl⟩ rfl)
  · exact checksum_sensitive.2 _ (labelled "B0" none) (labelled "B0" (some ⟨0⟩))
      ⟨1⟩ _ ⟨0⟩ rfl rfl rfl rfl (by decide) rfl

end Layout

end FpgaPlacer

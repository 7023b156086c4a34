import FpgaPlacer.Proofs.CheapestBels

/-!
# Moves that fail

A move takes the cell off its bel before anything else can fail.  A cell that does not
exist cannot be taken off, so that error leaves no trace.  Every other error leaves the
cell without a bel, also the one about a cell type that the device does not know.
Nothing else changes, and a layout that passes the check still passes it.
-/

namespace FpgaPlacer.Layout

variable {κ : Type}

/-- The second layout is the first one with a cell taken off the bel that it held. -/
structure TakenOff (cell : Symbol) (record : Cell) (before after : Layout κ) :
    Prop where
  cells : ∀ query, after.design.cells.get? query =
    if query = cell then some { record with bel := none, strength := .unbound }
    else before.design.cells.get? query
  nets : after.design.nets = before.design.nets
  names : after.design.names = before.design.names
  random : after.design.random = before.design.random
  seed : after.design.seed = before.design.seed
  device : after.fabric.device = before.fabric.device
  own : ∀ bel, record.bel = some bel →
    before.fabric.cellAt bel = some cell ∧ after.fabric.cellAt bel = none
  bels : ∀ bel, record.bel ≠ some bel →
    after.fabric.occupancy.bels.get? bel = before.fabric.occupancy.bels.get? bel
  wires : after.fabric.occupancy.wires = before.fabric.occupancy.wires
  pips : after.fabric.occupancy.pips = before.fabric.occupancy.pips

section Released

variable {layout : Layout κ} {cell : Symbol} {record : Cell}
  (found : layout.design.cells.get? cell = some record)

include found

theorem takenOff_released (seated : layout.Seated) :
    TakenOff cell record layout (layout.released cell record) where
  cells query := get?_cells_released layout cell query record
  nets := rfl
  names := rfl
  random := rfl
  seed := rfl
  device := rfl
  own bel held := by
    refine ⟨seated.occupant found held, ?_⟩
    rw [cellAt_released, if_pos held]
  bels bel elsewhere := by
    cases held : record.bel with
    | none => simp [released, Fabric.withOccupancy, releaseBel, held]
    | some own =>
        have different : bel ≠ own := fun same => elsewhere (same ▸ held)
        simp [released, Fabric.withOccupancy, releaseBel, held, Occupancy.unbindBel,
          different]
  wires := wires_releaseBel ..
  pips := pips_releaseBel ..

/-- Only a cell that had neither a bel nor a strength is left as it was. -/
theorem released_eq_self_iff :
    layout.released cell record = layout ↔
      record.bel = none ∧ record.strength = .unbound := by
  constructor
  · intro same
    have stored := get?_cells_released layout cell cell record
    rw [same, found, if_pos rfl] at stored
    have placement := Option.some.inj stored
    exact ⟨congrArg Cell.bel placement, congrArg Cell.strength placement⟩
  · rintro ⟨unplaced, unbound⟩
    have same : { record with bel := none, strength := .unbound } = record := by
      rw [← unplaced, ← unbound]
    simp [released, same, Design.setCell_get? found, Fabric.withOccupancy, releaseBel, unplaced]

end Released

end FpgaPlacer.Layout

namespace FpgaPlacer.Greedy

open Layout

variable {κ : Type} [Scalar κ]

/-- The errors of a move, the reason for each, and the layout that it leaves. -/
inductive FailedMove (rule : LegalityRule κ) (cell : Symbol) (layout : Layout κ) :
    DesignError → Layout κ → Prop where
  | unknownCell (absent : layout.design.cells.get? cell = none) :
      FailedMove rule cell layout (.unknownCell (layout.design.display cell)) layout
  | unknownType {record : Cell} {reached : Layout κ}
      (found : layout.design.cells.get? cell = some record)
      (unmapped : layout.fabric.device.typeNamed
        (layout.design.display record.cellType) = none)
      (off : TakenOff cell record layout reached) :
      FailedMove rule cell layout
        (.unknownBelType (layout.design.display record.cellType)) reached
  | noLegalBel {record : Cell} {belType : BelType} {reached : Layout κ}
      (found : layout.design.cells.get? cell = some record)
      (typed : layout.typeFor record.cellType = .ok belType)
      (none : candidates rule reached belType cell = [])
      (off : TakenOff cell record layout reached) :
      FailedMove rule cell layout
        (.noLegalBel (layout.design.display cell)
          (layout.design.display record.cellType)) reached

theorem choose_eq_failed {rule : LegalityRule κ} {options : PlaceOptions}
    {cell : Symbol} {record : Cell} {layout : Layout κ} {error : DesignError}
    (failed : choose rule options cell record layout = .error (.failed error)) :
    (layout.fabric.device.typeNamed (layout.design.display record.cellType) = none ∧
        error = .unknownBelType (layout.design.display record.cellType)) ∨
      ∃ belType, layout.typeFor record.cellType = .ok belType ∧
        candidates rule layout belType cell = [] ∧
        error = .noLegalBel (layout.design.display cell)
          (layout.design.display record.cellType) := by
  cases typed : layout.typeFor record.cellType with
  | error reason =>
      left
      simp only [choose, typed] at failed
      cases failed
      simp only [typeFor] at typed
      split at typed
      · cases typed
      · rename_i unmapped
        cases typed
        exact ⟨unmapped, rfl⟩
  | ok belType =>
      right
      by_cases none : candidates rule layout belType cell = []
      · have searched : choose rule options cell record layout = _ :=
          choose_of_no_candidate typed none
        cases searched.symm.trans failed
        exact ⟨belType, rfl, none, rfl⟩
      · cases priced : withCosts layout options.fanoutLimit record
            (candidates rule layout belType cell) with
        | error fault =>
            simp only [choose, typed] at failed
            rw [priced] at failed
            cases failed
        | ok offers =>
            have offered : offers ≠ [] := fun empty =>
              none (by rw [← bels_withCosts priced, empty]; rfl)
            obtain ⟨bel, chosen, -⟩ := choose_of_offers typed priced offered
            cases chosen.symm.trans failed

/-- A move that fails in a layout that passes the check leaves one that passes too,
and differs from it in the cell's placement at most.  It leaves the very same layout
exactly if there is no such cell, or none that was placed. -/
theorem placeCell_failure {layout reached : Layout κ} (passes : layout.check = .ok ())
    {rule : LegalityRule κ} {options : PlaceOptions} {cell : Symbol}
    {error : DesignError}
    (failed : placeCell rule options cell layout = .error (.failed error) reached) :
    FailedMove rule cell layout error reached ∧
      (reached = layout ↔
        ∀ record, layout.design.cells.get? cell = some record →
          record.bel = none ∧ record.strength = .unbound) ∧
      reached.check = .ok () := by
  have consistent := check_eq_ok_iff.mp passes
  have ways := placeCell_run rule options cell layout
  rw [failed] at ways
  cases ways with
  | unknown absent =>
      refine ⟨.unknownCell absent, ?_, passes⟩
      exact iff_of_true rfl (fun record found => by cases absent.symm.trans found)
  | @refused record stop found refusal =>
      have off := takenOff_released found consistent.seated
      refine ⟨?_, ?_, check_eq_ok_iff.mpr (consistent.released found)⟩
      · rcases choose_eq_failed refusal with ⟨unmapped, rfl⟩ |
          ⟨belType, typed, none, rfl⟩
        · exact .unknownType found unmapped off
        · exact .noLegalBel found typed none off
      · rw [released_eq_self_iff found]
        constructor
        · intro unplaced other present
          cases found.symm.trans present
          exact unplaced
        · intro unplaced
          exact unplaced record found

/-- A cell of a type that the device does not have, bound to a bel all the same. -/
def mistyped : Layout Int :=
  GraphCall.run [.createCell "a" "DSP", .bindBel ⟨1⟩ ⟨0⟩ .strong]
    (.fresh ((Grid.uniform "g" 2 1 "LUT").device Int))

theorem unplaced_by_unknownType :
    mistyped.check = .ok () ∧
      mistyped.design.belOf (some ⟨1⟩) = some ⟨0⟩ ∧
      mistyped.fabric.cellAt ⟨0⟩ = some ⟨1⟩ ∧
      ∃ reached, placeCell .anyBel .default ⟨1⟩ mistyped =
          .error (.failed (.unknownBelType "DSP")) reached ∧
        reached.design.belOf (some ⟨1⟩) = none ∧
        reached.fabric.cellAt ⟨0⟩ = none := by
  refine ⟨by decide +kernel, by decide +kernel, by decide +kernel, _, rfl, ?_, ?_⟩
  · decide +kernel
  · decide +kernel

/-- Apart from that the layout is as it was. -/
theorem placeCell_failure_of_mistyped :
    ∃ reached, placeCell .anyBel .default ⟨1⟩ mistyped =
        .error (.failed (.unknownBelType "DSP")) reached ∧
      FailedMove .anyBel ⟨1⟩ mistyped (.unknownBelType "DSP") reached ∧
      reached ≠ mistyped ∧ reached.check = .ok () := by
  have passes : mistyped.check = .ok () := by decide +kernel
  have placed : (mistyped.design.cells.get? ⟨1⟩).bind Cell.bel = some ⟨0⟩ := by
    decide +kernel
  obtain ⟨record, found, held⟩ := Option.bind_eq_some_iff.mp placed
  obtain ⟨move, same, passesStill⟩ := placeCell_failure passes
    (rfl : placeCell .anyBel .default ⟨1⟩ mistyped =
      .error (.failed (.unknownBelType "DSP")) _)
  refine ⟨_, rfl, move, ?_, passesStill⟩
  intro unchanged
  obtain ⟨unplaced, -⟩ := same.mp unchanged record found
  cases unplaced.symm.trans held

end FpgaPlacer.Greedy

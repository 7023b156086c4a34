import FpgaPlacer.Fabric.GridView
import FpgaPlacer.Placement.FirstFit
import FpgaPlacer.Placement.Greedy
import FpgaPlacer.Proofs.CellAssignment

/-!
# What the placers do to one cell

For each operation on one cell a relation lists the ways in which it can end,
with the layout that it leaves behind.  All that is proved about the placers
rests on these lists.
-/

namespace FpgaPlacer

variable {κ : Type}

/-- A bel that a cell may be bound to is held by no cell. -/
def Device.AvailableIsFree (device : Device κ) : Prop :=
  ∀ occupancy bel, device.available occupancy bel = true →
    occupancy.cellAt bel = none

theorem Grid.availableIsFree [Scalar κ] (grid : Grid) :
    (grid.device κ).AvailableIsFree := by
  intro occupancy bel available
  exact Option.isNone_iff_eq_none.mp available

theorem GridView.availableIsFree (grid : Grid) (view : GridView) :
    (view.device grid).AvailableIsFree := by
  cases view with
  | full => exact @Grid.availableIsFree Float32 _ grid
  | bare => exact @Grid.availableIsFree Float32 _ grid
  | untyped => exact @Grid.availableIsFree Float32 _ grid
  | skewed =>
      intro occupancy bel available
      simp only [GridView.device, Bool.and_eq_true] at available
      exact Option.isNone_iff_eq_none.mp available.2

namespace Layout

/-- A free bel of the type that a cell type stands for. -/
structure Suits (layout : Layout κ) (cellType : Symbol) (bel : BelId) :
    Prop where
  vacant : layout.fabric.cellAt bel = none
  typed : ∃ belType, layout.typeFor cellType = .ok belType ∧
    layout.fabric.device.belType bel = some belType

theorem Suits.released {layout : Layout κ} {cellType : Symbol} {bel : BelId}
    (suits : layout.Suits cellType bel) (cell : Symbol) (record : Cell) :
    (layout.released cell record).Suits cellType bel := by
  constructor
  · rw [cellAt_released, suits.vacant]
    exact ite_self none
  · exact suits.typed

/-- The ways in which binding and annotating a cell can end. -/
inductive AnnotationRun (cell : Symbol) (bel : BelId) (strength : Strength)
    (layout : Layout κ) :
    EStateM.Result (Stop DesignError) (Layout κ) Unit → Prop where
  | unknown (absent : layout.design.cells.get? cell = none) :
      AnnotationRun cell bel strength layout
        (.error (.failed (.unknownCell (layout.design.display cell))) layout)
  | unnamed {record : Cell}
      (found : layout.design.cells.get? cell = some record)
      (nameless : layout.fabric.device.belName bel = none) :
      AnnotationRun cell bel strength layout
        (.error (.fault (.bel bel))
          ((layout.bound cell record bel strength).intern locationAttribute).2)
  | assigned {record : Cell} {text : String}
      (found : layout.design.cells.get? cell = some record)
      (named : layout.fabric.device.belName bel = some text) :
      AnnotationRun cell bel strength layout
        (.ok () (layout.assigned cell record bel strength text))

theorem bindAndAnnotate_run (cell : Symbol) (bel : BelId) (strength : Strength)
    (layout : Layout κ) :
    AnnotationRun cell bel strength layout
      (bindAndAnnotate cell bel strength layout) := by
  cases found : layout.design.cells.get? cell with
  | none =>
      rw [bindAndAnnotate_of_absent found]
      exact .unknown found
  | some record =>
      cases named : layout.fabric.device.belName bel with
      | none =>
          rw [bindAndAnnotate_of_unnamed found named]
          exact .unnamed found named
      | some text =>
          rw [bindAndAnnotate_of_named found named]
          exact .assigned found named

end Layout

namespace Constraints

theorem target_eq_ok {layout : Layout κ} {cellName location : String}
    {record : Cell} {bel : BelId}
    (aimed : target layout cellName record location = .ok bel) :
    layout.fabric.device.belNamed location = some bel ∧
      ∃ belType, layout.typeFor record.cellType = .ok belType ∧
        layout.fabric.device.belType bel = some belType := by
  unfold target at aimed
  split at aimed
  · cases aimed
  · rename_i site located
    obtain ⟨belType, asked, rest⟩ := checked_bind_eq_ok_iff.mp aimed
    have typed := Query.stop_eq_ok_iff.mp asked
    split at rest
    · rename_i fits
      cases rest
      refine ⟨located, belType, ?_, ?_⟩
      · exact checked_toOption_eq_some_iff.mp fits
      · exact Query.ofOption_eq_ok_iff.mp typed
    · obtain ⟨typeName, -, failed⟩ := checked_bind_eq_ok_iff.mp rest
      cases failed

/-- The ways in which binding a cell to its fixed location can end. -/
inductive CellRun (key cell : Symbol) (layout : Layout κ) :
    EStateM.Result (Stop DesignError) (Layout κ) Bool → Prop where
  | stopped (stop : Stop DesignError) :
      CellRun key cell layout (.error stop layout)
  | unlocated {record : Cell}
      (found : layout.design.cells.get? cell = some record)
      (free : record.attrs.get? key = none) :
      CellRun key cell layout (.ok false layout)
  | kept {record : Cell} {location : String} {bel : BelId}
      (found : layout.design.cells.get? cell = some record)
      (located : record.attrs.get? key = some location)
      (aimed : target layout (layout.design.display cell) record location = .ok bel)
      (there : record.bel = some bel) :
      CellRun key cell layout (.ok true layout)
  | moved {record : Cell} {location : String} {bel : BelId}
      (found : layout.design.cells.get? cell = some record)
      (located : record.attrs.get? key = some location)
      (aimed : target layout (layout.design.display cell) record location = .ok bel)
      (vacant : layout.fabric.cellAt bel = none) :
      CellRun key cell layout (.ok true (layout.bound cell record bel .user))

theorem placeCell_run (key cell : Symbol) (layout : Layout κ) :
    CellRun key cell layout (placeCell key cell layout) := by
  unfold placeCell
  rw [Edit.bind_get]
  cases found : layout.design.cells.get? cell with
  | none => exact .stopped _
  | some record =>
      dsimp only
      cases located : record.attrs.get? key with
      | none => exact .unlocated found located
      | some location =>
          dsimp only
          rw [Edit.bind_reading]
          cases aimed : target layout (layout.design.display cell) record
              location with
          | error stop => exact .stopped stop
          | ok bel =>
              dsimp only
              split
              · rename_i there
                exact .kept found located aimed there
              · cases vacant : layout.fabric.cellAt bel with
                | some occupant => exact .stopped _
                | none =>
                    have released := Layout.unbindBel_of_found found
                    have bare : (layout.released cell record).design.cells.get?
                        cell = some { record with bel := none, strength := .unbound } := by
                      rw [Layout.get?_cells_released, if_pos rfl]
                    have bound := Layout.bindBel_of_found bare bel .user
                    rw [Layout.bound_released] at bound
                    dsimp only
                    rw [Edit.bind_of_ok released, Edit.bind_of_ok bound]
                    exact .moved found located aimed vacant

end Constraints

namespace FirstFit

theorem nextFit_eq_some {accepts : BelId → Bool} {bels rest : List BelId}
    {bel : BelId} (next : nextFit accepts bels = some (bel, rest)) :
    accepts bel = true := by
  induction bels with
  | nil => cases next
  | cons candidate others induction =>
      simp only [nextFit] at next
      split at next
      · rename_i accepted
        cases next
        exact accepted
      · exact induction next

theorem nextFit_ahead {accepts : BelId → Bool} {bels rest : List BelId}
    {bel : BelId} (next : nextFit accepts bels = some (bel, rest)) :
    (∀ other ∈ bel :: rest, other ∈ bels) ∧
      ∀ other ∈ bels, accepts other = true → other = bel ∨ other ∈ rest := by
  induction bels with
  | nil => cases next
  | cons first others induction =>
      rw [nextFit] at next
      split at next
      · cases next
        exact ⟨fun _ member => member, fun _ member _ => List.mem_cons.mp member⟩
      · rename_i refused
        obtain ⟨inside, ahead⟩ := induction next
        constructor
        · intro other member
          exact List.mem_cons_of_mem first (inside other member)
        · intro other member accepted
          rcases List.mem_cons.mp member with rfl | later
          · exact absurd accepted refused
          · exact ahead other later accepted

end FirstFit

namespace Greedy

variable [Scalar κ]

theorem bels_withCosts {layout : Layout κ} {fanoutLimit : Nat} {cell : Cell}
    {bels : List BelId} {priced : List (BelId × κ)}
    (answer : withCosts layout fanoutLimit cell bels = .ok priced) :
    priced.map Prod.fst = bels := by
  induction bels generalizing priced with
  | nil =>
      cases answer
      rfl
  | cons bel rest induction =>
      obtain ⟨position, -, answer⟩ := checked_bind_eq_ok_iff.mp answer
      obtain ⟨cost, -, answer⟩ := checked_bind_eq_ok_iff.mp answer
      obtain ⟨others, priced, answer⟩ := checked_bind_eq_ok_iff.mp answer
      cases answer
      rw [List.map_cons, induction priced]

theorem cheapestFrom_mem (tieBreak : TieBreak) (best : BelId × κ)
    (rest : List (BelId × κ)) :
    cheapestFrom tieBreak best rest ∈ best :: rest := by
  induction rest generalizing best with
  | nil => exact List.mem_singleton_self best
  | cons candidate rest induction =>
      by_cases replaced : replaces tieBreak candidate.2 best.2
      · rw [cheapestFrom, if_pos replaced]
        apply List.mem_cons_of_mem
        exact induction candidate
      · rw [cheapestFrom, if_neg replaced]
        rcases List.mem_cons.mp (induction best) with same | later
        · rw [same]
          exact List.mem_cons_self
        · apply List.mem_cons_of_mem
          exact List.mem_cons_of_mem candidate later

theorem cheapest_mem {tieBreak : TieBreak} {priced : List (BelId × κ)}
    {bel : BelId} (chosen : cheapest tieBreak priced = some bel) :
    bel ∈ priced.map Prod.fst := by
  cases priced with
  | nil => cases chosen
  | cons candidate rest =>
      cases chosen
      exact List.mem_map_of_mem (cheapestFrom_mem tieBreak candidate rest)

omit [Scalar κ] in
theorem mem_candidates_iff {rule : LegalityRule κ} {layout : Layout κ}
    {belType : BelType} {cell : Symbol} {bel : BelId} :
    bel ∈ candidates rule layout belType cell ↔
      bel ∈ layout.fabric.device.bels ∧
        layout.fabric.device.belType bel = some belType ∧
        layout.fabric.available bel = true ∧ rule layout cell bel = true := by
  rw [candidates, List.mem_filter, Device.belsOfType, List.mem_filter,
    decide_eq_true_eq, Bool.and_eq_true, and_assoc]

theorem candidate_of_choose {rule : LegalityRule κ} {options : PlaceOptions}
    {cell : Symbol} {record : Cell} {layout : Layout κ} {bel : BelId}
    (chosen : choose rule options cell record layout = .ok bel) :
    ∃ belType, layout.typeFor record.cellType = .ok belType ∧
      bel ∈ candidates rule layout belType cell := by
  unfold choose at chosen
  split at chosen
  · cases chosen
  · rename_i belType typed
    obtain ⟨priced, asked, answer⟩ := checked_bind_eq_ok_iff.mp chosen
    have costs := bels_withCosts (Query.stop_eq_ok_iff.mp asked)
    split at answer
    · rename_i best cheapest
      cases answer
      have member := cheapest_mem cheapest
      rw [costs] at member
      exact ⟨belType, typed, member⟩
    · cases answer

theorem choose_suits {rule : LegalityRule κ} {options : PlaceOptions}
    {cell : Symbol} {record : Cell} {layout : Layout κ} {bel : BelId}
    (free : layout.fabric.device.AvailableIsFree)
    (chosen : choose rule options cell record layout = .ok bel) :
    layout.Suits record.cellType bel := by
  obtain ⟨belType, typed, candidate⟩ := candidate_of_choose chosen
  obtain ⟨-, fits, available, -⟩ := mem_candidates_iff.mp candidate
  constructor
  · exact free layout.fabric.occupancy bel available
  · exact ⟨belType, typed, fits⟩

/-- The ways in which moving a cell to its cheapest bel can end. -/
inductive CellRun (rule : LegalityRule κ) (options : PlaceOptions)
    (cell : Symbol) (layout : Layout κ) :
    EStateM.Result (Stop DesignError) (Layout κ) Bool → Prop where
  | unknown (absent : layout.design.cells.get? cell = none) :
      CellRun rule options cell layout
        (.error (.failed (.unknownCell (layout.design.display cell))) layout)
  | refused {record : Cell} {stop : Stop DesignError}
      (found : layout.design.cells.get? cell = some record)
      (failed : choose rule options cell record (layout.released cell record) =
        .error stop) :
      CellRun rule options cell layout (.error stop (layout.released cell record))
  | unnamed {record : Cell} {bel : BelId}
      (found : layout.design.cells.get? cell = some record)
      (chosen : choose rule options cell record (layout.released cell record) =
        .ok bel)
      (nameless : layout.fabric.device.belName bel = none) :
      CellRun rule options cell layout
        (.error (.fault (.bel bel))
          ((layout.bound cell record bel .weak).intern locationAttribute).2)
  | assigned {record : Cell} {bel : BelId} {text : String}
      (found : layout.design.cells.get? cell = some record)
      (chosen : choose rule options cell record (layout.released cell record) =
        .ok bel)
      (named : layout.fabric.device.belName bel = some text) :
      CellRun rule options cell layout
        (.ok (decide (record.bel ≠ some bel))
          (layout.assigned cell record bel .weak text))

theorem placeCell_run (rule : LegalityRule κ) (options : PlaceOptions)
    (cell : Symbol) (layout : Layout κ) :
    CellRun rule options cell layout (placeCell rule options cell layout) := by
  unfold placeCell
  rw [Edit.bind_get]
  cases found : layout.design.cells.get? cell with
  | none => exact .unknown found
  | some record =>
      have released := Layout.unbindBel_of_found found
      have bare : (layout.released cell record).design.cells.get? cell =
          some { record with bel := none, strength := .unbound } := by
        rw [Layout.get?_cells_released, if_pos rfl]
      dsimp only
      rw [Edit.bind_of_ok released, Edit.bind_reading]
      cases chosen : choose rule options cell record
          (layout.released cell record) with
      | error stop => exact .refused found chosen
      | ok bel =>
          dsimp only
          cases named : layout.fabric.device.belName bel with
          | none =>
              have faulted := Layout.bindAndAnnotate_of_unnamed bare named .weak
              rw [Layout.bound_released] at faulted
              rw [Edit.bind_of_error faulted]
              exact .unnamed found chosen named
          | some text =>
              have assigned := Layout.bindAndAnnotate_of_named bare named .weak
              rw [Layout.assigned_released] at assigned
              rw [Edit.bind_of_ok assigned]
              exact .assigned found chosen named

/-- A move succeeds exactly when a bel can be chosen and has a name. -/
theorem placeCell_eq_ok_iff {rule : LegalityRule κ} {options : PlaceOptions}
    {cell : Symbol} {before after : Layout κ} {moved : Bool} :
    placeCell rule options cell before = .ok moved after ↔
      ∃ record bel text, before.design.cells.get? cell = some record ∧
        choose rule options cell record (before.released cell record) = .ok bel ∧
        before.fabric.device.belName bel = some text ∧
        moved = decide (record.bel ≠ some bel) ∧
        after = before.assigned cell record bel .weak text := by
  have ways := placeCell_run rule options cell before
  generalize placeCell rule options cell before = result at ways
  cases ways with
  | unknown absent => simp [absent]
  | refused found failed => simp [found, failed]
  | unnamed found chosen nameless => simp [found, chosen, nameless]
  | assigned found chosen named => simp [found, chosen, named, eq_comm]

end Greedy

end FpgaPlacer

import FpgaPlacer.Proofs.PlacementSteps

/-!
# Runs of assignments

A placer that succeeds has assigned bels to cells, one after the other.  The
relations here describe such runs without saying which placer made them: what
stays as it was, and that an assigned cell ends up on a bel of its type, known
to the fabric and named by its location attribute.
-/

namespace FpgaPlacer

variable {κ : Type}

namespace Layout

/-! ## What stays -/

/-- The two layouts have the same device, names and cell types, and agree on
the records of all but the given cells. -/
structure Touches (cells : List Symbol) (before after : Layout κ) : Prop where
  device : after.fabric.device = before.fabric.device
  names : after.design.names = before.design.names
  types : ∀ cell, (after.design.cells.get? cell).map Cell.cellType =
    (before.design.cells.get? cell).map Cell.cellType
  others : ∀ cell, cell ∉ cells →
    after.design.cells.get? cell = before.design.cells.get? cell

namespace Touches

variable {cells more : List Symbol} {before middle after : Layout κ}

theorem refl (cells : List Symbol) (layout : Layout κ) :
    Touches cells layout layout :=
  ⟨rfl, rfl, fun _ => rfl, fun _ _ => rfl⟩

/-- A layout in which one cell has been replaced by one of the same type. -/
theorem single {cell : Symbol} {old new : Cell}
    (device : after.fabric.device = before.fabric.device)
    (names : after.design.names = before.design.names)
    (found : before.design.cells.get? cell = some old)
    (sameType : new.cellType = old.cellType)
    (stored : ∀ query, after.design.cells.get? query =
      if query = cell then some new else before.design.cells.get? query) :
    Touches [cell] before after := by
  constructor
  · exact device
  · exact names
  · intro query
    rw [stored]
    split
    · rename_i same
      rw [same, found, Option.map_some, Option.map_some, sameType]
    · rfl
  · intro query outside
    rw [List.mem_singleton] at outside
    rw [stored, if_neg outside]

theorem append (first : Touches cells before middle)
    (second : Touches more middle after) :
    Touches (cells ++ more) before after := by
  constructor
  · rw [second.device, first.device]
  · rw [second.names, first.names]
  · intro cell
    rw [second.types, first.types]
  · intro cell outside
    rw [List.mem_append, not_or] at outside
    rw [second.others cell outside.2, first.others cell outside.1]

theorem typeFor (touches : Touches cells before after) (cellType : Symbol) :
    after.typeFor cellType = before.typeFor cellType :=
  typeFor_congr touches.names touches.device cellType

theorem locationKey (touches : Touches cells before after) :
    after.design.locationKey = before.design.locationKey :=
  Design.locationKey_congr touches.names

theorem knows (touches : Touches cells before after)
    (knows : before.design.KnowsLocation) : after.design.KnowsLocation := by
  rw [Design.KnowsLocation, touches.names]
  exact knows

theorem found (touches : Touches cells before after) {cell : Symbol}
    {record : Cell} (present : after.design.cells.get? cell = some record) :
    ∃ old, before.design.cells.get? cell = some old ∧
      old.cellType = record.cellType := by
  have types := touches.types cell
  rw [present] at types
  exact Option.map_eq_some_iff.mp types.symm

theorem kept (touches : Touches cells before after) {cell : Symbol}
    {record : Cell} (found : before.design.cells.get? cell = some record) :
    ∃ new, after.design.cells.get? cell = some new ∧
      new.cellType = record.cellType := by
  have types := touches.types cell
  rw [found] at types
  exact Option.map_eq_some_iff.mp types

end Touches

/-- What the placers rely on once the constraint pass has begun. -/
structure Ready (layout : Layout κ) : Prop where
  free : layout.fabric.device.AvailableIsFree
  knows : layout.design.KnowsLocation

theorem Ready.touches {cells : List Symbol} {before after : Layout κ}
    (ready : before.Ready) (touches : Touches cells before after) :
    after.Ready := by
  constructor
  · rw [touches.device]
    exact ready.free
  · exact touches.knows ready.knows

/-! ## One assignment -/

/-- The cell is on a bel of its type, by the choice of a placer: the fabric
reports it there, and its location attribute names the bel. -/
inductive Settled (layout : Layout κ) (cell : Symbol) : Prop where
  | intro {record : Cell} {bel : BelId} {belType : BelType} {text : String}
      (found : layout.design.cells.get? cell = some record)
      (placed : record.bel = some bel)
      (weak : record.strength = .weak)
      (occupied : layout.fabric.occupancy.bels.get? bel = some ⟨cell, .weak⟩)
      (typed : layout.typeFor record.cellType = .ok belType)
      (fits : layout.fabric.device.belType bel = some belType)
      (named : layout.fabric.device.belName bel = some text)
      (annotated : record.attrs.get? layout.design.locationKey = some text) :
      Settled layout cell

/-- The cell goes to a free bel of its type. -/
inductive Assigns (cell : Symbol) (before : Layout κ) : Layout κ → Prop where
  | intro {record : Cell} {bel : BelId} {text : String}
      (knows : before.design.KnowsLocation)
      (found : before.design.cells.get? cell = some record)
      (suits : (before.released cell record).Suits record.cellType bel)
      (named : before.fabric.device.belName bel = some text) :
      Assigns cell before (before.assigned cell record bel .weak text)

theorem Settled.owns {layout : Layout κ} {cell : Symbol}
    (settled : layout.Settled cell) : layout.Owns cell := by
  cases settled with
  | @intro record bel belType text found placed weak occupied typed fits named
      annotated =>
      intro other held present holds
      rw [found] at present
      cases present
      rw [placed] at holds
      cases holds
      rw [Fabric.cellAt, Occupancy.cellAt, occupied]
      rfl

theorem Assigns.touches {cell : Symbol} {before after : Layout κ}
    (step : Assigns cell before after) : Touches [cell] before after := by
  cases step with
  | @intro record bel text knows found suits named =>
      have names := congrArg Design.names knows.intern_eq
      have stored := fun query =>
        get?_cells_assigned before cell query record bel .weak text
      refine Touches.single ?_ ?_ found ?_ stored
      · rfl
      · exact names
      · rfl

theorem Assigns.settled {cell : Symbol} {before after : Layout κ}
    (step : Assigns cell before after) : after.Settled cell := by
  have touches := step.touches
  cases step with
  | @intro record bel text knows found suits named =>
      obtain ⟨belType, typed, fits⟩ := suits.typed
      have stored := get?_cells_assigned before cell cell record bel .weak text
      rw [if_pos rfl] at stored
      apply Settled.intro stored rfl rfl
      · rw [get?_bels_assigned, if_pos rfl]
      · rw [touches.typeFor]
        exact typed
      · exact fits
      · exact named
      · rw [touches.locationKey, Table.get?_insert, if_pos rfl]

private theorem occupant_assigned {before : Layout κ} {cell other : Symbol}
    {record : Cell} {bel : BelId}
    (found : before.design.cells.get? cell = some record)
    (owns : before.Owns cell) (different : other ≠ cell)
    (vacant : (before.released cell record).fabric.cellAt bel = none)
    {query : BelId} {strength : Strength}
    (occupied : before.fabric.occupancy.bels.get? query =
      some ⟨other, strength⟩) (text : String) :
    (before.assigned cell record bel .weak text).fabric.occupancy.bels.get?
      query = some ⟨other, strength⟩ := by
  have holder : before.fabric.cellAt query = some other := by
    rw [Fabric.cellAt, Occupancy.cellAt, occupied]
    rfl
  have notReleased : record.bel ≠ some query := by
    intro placed
    have own := owns found placed
    rw [holder] at own
    exact different (Option.some.inj own)
  have notTaken : query ≠ bel := by
    rintro rfl
    rw [cellAt_released, if_neg notReleased, holder] at vacant
    cases vacant
  rw [get?_bels_assigned, if_neg notTaken, if_neg notReleased]
  exact occupied

theorem Settled.assigns {cell other : Symbol} {before after : Layout κ}
    (settled : before.Settled other) (different : other ≠ cell)
    (owns : before.Owns cell) (step : Assigns cell before after) :
    after.Settled other := by
  have touches := step.touches
  cases step with
  | @intro record bel text knows found suits named =>
      cases settled with
      | intro present placed weak occupied typed fits named annotated =>
          have stored := touches.others _
            (mt List.mem_singleton.mp different)
          rw [present] at stored
          apply Settled.intro stored placed weak
          · exact occupant_assigned found owns different suits.vacant occupied _
          · rw [touches.typeFor]
            exact typed
          · exact fits
          · exact named
          · rw [touches.locationKey]
            exact annotated

theorem Owns.assigns {cell other : Symbol} {before after : Layout κ}
    (owns : before.Owns other) (different : other ≠ cell)
    (ownsCell : before.Owns cell) (step : Assigns cell before after) :
    after.Owns other := by
  have touches := step.touches
  intro held query present placed
  rw [touches.others _ (mt List.mem_singleton.mp different)] at present
  have holder := owns present placed
  cases step with
  | @intro record bel text knows found suits named =>
      obtain ⟨binding, occupied, same⟩ := Option.map_eq_some_iff.mp holder
      obtain ⟨occupant, strength⟩ := binding
      cases same
      have kept := occupant_assigned found ownsCell different suits.vacant
        occupied text
      rw [Fabric.cellAt, Occupancy.cellAt, kept]
      rfl

/-! ## Many assignments -/

def withRandom (layout : Layout κ) (random : Generator) : Layout κ :=
  { layout with design := { layout.design with random } }

/-- The given cells are assigned in turn, each perhaps many times.  Random
numbers may be drawn in between. -/
inductive Assignments : List Symbol → Layout κ → Layout κ → Prop where
  | nil (layout : Layout κ) : Assignments [] layout layout
  | draw {cells : List Symbol} {before after : Layout κ} (random : Generator)
      (rest : Assignments cells (before.withRandom random) after) :
      Assignments cells before after
  | cons {cell : Symbol} {cells : List Symbol} {before middle after : Layout κ}
      (first : Assigns cell before middle)
      (rest : Assignments cells middle after) :
      Assignments (cell :: cells) before after

theorem Ready.withRandom {layout : Layout κ} (ready : layout.Ready)
    (random : Generator) : (layout.withRandom random).Ready :=
  ⟨ready.free, ready.knows⟩

theorem Settled.withRandom {layout : Layout κ} {cell : Symbol}
    (settled : layout.Settled cell) (random : Generator) :
    (layout.withRandom random).Settled cell := by
  cases settled with
  | intro found placed weak occupied typed fits named annotated =>
      exact .intro found placed weak occupied typed fits named annotated

namespace Assignments

variable {cells : List Symbol} {before after : Layout κ}

theorem touches (run : Assignments cells before after) :
    Touches cells before after := by
  induction run with
  | nil layout => exact .refl [] layout
  | draw random rest induction =>
      exact ⟨induction.device, induction.names, induction.types,
        induction.others⟩
  | cons step rest induction => exact step.touches.append induction

/-- When the fabric reports the cells of a run where they are, each of them ends
up settled, and so does every cell that was settled before. -/
theorem settled {group : Symbol → Prop} (run : Assignments cells before after)
    (inside : ∀ cell ∈ cells, group cell)
    (owns : ∀ cell, group cell → before.Owns cell) {cell : Symbol}
    (reached : cell ∈ cells ∨ before.Settled cell) : after.Settled cell := by
  induction run with
  | nil layout =>
      rcases reached with none | settled
      · cases none
      · exact settled
  | draw random rest induction =>
      apply induction inside owns
      exact reached.imp_right (fun settled => settled.withRandom random)
  | @cons first cells before middle after step rest induction =>
      have ownsFirst := owns first (inside first List.mem_cons_self)
      apply induction
      · intro other later
        exact inside other (List.mem_cons_of_mem first later)
      · intro other grouped
        by_cases same : other = first
        · rw [same]
          exact step.settled.owns
        · exact (owns other grouped).assigns same ownsFirst step
      · by_cases same : cell = first
        · rw [same]
          exact .inr step.settled
        · rcases reached with inCells | settled
          · exact .inl ((List.mem_cons.mp inCells).resolve_left same)
          · exact .inr (settled.assigns same ownsFirst step)

end Assignments

end Layout

end FpgaPlacer

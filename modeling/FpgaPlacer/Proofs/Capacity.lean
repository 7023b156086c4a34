import Mathlib.Data.Finset.Card
import FpgaPlacer.Proofs.SuccessfulRuns

/-!
# Capacity

A layout is feasible when every cell without a bel has a bel type and no type
is asked for by more cells than it has available bels.  Putting such a cell on
such a bel takes one from either side, so feasibility neither arises nor
vanishes along a run, and a layout in which every cell is placed is feasible.
-/

namespace FpgaPlacer

variable {κ : Type}

/-- Whether a bel is available depends on who holds it, and on nothing else of
the occupancy; a held bel is not available. -/
structure Device.LocalAvailability (device : Device κ) : Prop where
  free : device.AvailableIsFree
  own : ∀ {left right : Occupancy} {bel},
    left.bels.get? bel = right.bels.get? bel →
    device.available left bel = device.available right bel

/-- The device knows the name and the position of every bel it has a type
for. -/
structure Device.Described (device : Device κ) : Prop where
  name : ∀ {bel belType}, device.belType bel = some belType →
    ∃ text, device.belName bel = some text
  position : ∀ {bel belType}, device.belType bel = some belType →
    ∃ place, device.position bel = some place

theorem Grid.localAvailability [Scalar κ] (grid : Grid) :
    (grid.device κ).LocalAvailability := by
  refine ⟨Grid.availableIsFree grid, ?_⟩
  intro left right bel same
  simp only [Grid.device, Occupancy.cellAt, same]

theorem Grid.described [Scalar κ] (grid : Grid) : (grid.device κ).Described := by
  constructor
  · intro bel belType typed
    obtain ⟨record, known, -⟩ := Option.map_eq_some_iff.mp typed
    exact ⟨record.name, Option.map_eq_some_iff.mpr ⟨record, known, rfl⟩⟩
  · intro bel belType typed
    obtain ⟨record, known, -⟩ := Option.map_eq_some_iff.mp typed
    exact ⟨_, Option.map_eq_some_iff.mpr ⟨record, known, rfl⟩⟩

theorem GridView.localAvailability (grid : Grid) (view : GridView) :
    (view.device grid).LocalAvailability := by
  refine ⟨GridView.availableIsFree grid view, ?_⟩
  intro left right bel same
  cases view with
  | full => exact (@Grid.localAvailability Float32 _ grid).own same
  | bare => exact (@Grid.localAvailability Float32 _ grid).own same
  | untyped => exact (@Grid.localAvailability Float32 _ grid).own same
  | skewed => simp only [GridView.device, Occupancy.cellAt, same]

theorem GridView.described (grid : Grid) (view : GridView) :
    (view.device grid).Described := by
  have grids := @Grid.described Float32 _ grid
  cases view with
  | full => exact grids
  | bare => exact ⟨grids.name, grids.position⟩
  | untyped => exact ⟨grids.name, grids.position⟩
  | skewed =>
      refine ⟨grids.name, ?_⟩
      intro bel belType typed
      obtain ⟨record, known, -⟩ := Option.map_eq_some_iff.mp typed
      exact ⟨_, Option.map_eq_some_iff.mpr ⟨record, known, rfl⟩⟩

namespace Layout

/-- The available bels of a type. -/
def openings (layout : Layout κ) (belType : BelType) : Finset BelId :=
  ((layout.fabric.device.belsOfType belType).filter
    layout.fabric.available).toFinset

/-- The cells without a bel whose cell type stands for a bel type. -/
def awaiting (layout : Layout κ) (belType : BelType) : Finset Symbol :=
  (((FirstFit.unplaced layout.design).filter (fun entry =>
    (layout.typeFor entry.2.cellType).toOption = some belType)).map
      Prod.fst).toFinset

/-- Every cell without a bel has a bel type, and no type has fewer available
bels than cells asking for it. -/
structure Feasible (layout : Layout κ) : Prop where
  typed : ∀ {cell record}, layout.design.cells.get? cell = some record →
    record.bel = none → ∃ belType, layout.typeFor record.cellType = .ok belType
  fits : ∀ belType,
    (layout.awaiting belType).card ≤ (layout.openings belType).card

theorem mem_openings {layout : Layout κ} {belType : BelType} {bel : BelId} :
    bel ∈ layout.openings belType ↔
      bel ∈ layout.fabric.device.bels ∧
        layout.fabric.device.belType bel = some belType ∧
        layout.fabric.available bel = true := by
  rw [openings, List.mem_toFinset, List.mem_filter, Device.belsOfType,
    List.mem_filter, decide_eq_true_eq, and_assoc]

theorem mem_awaiting {layout : Layout κ} {belType : BelType} {cell : Symbol} :
    cell ∈ layout.awaiting belType ↔
      ∃ record, layout.design.cells.get? cell = some record ∧
        record.bel = none ∧ layout.typeFor record.cellType = .ok belType := by
  rw [awaiting, List.mem_toFinset, List.mem_map]
  constructor
  · rintro ⟨⟨key, record⟩, member, rfl⟩
    obtain ⟨listed, typed⟩ := List.mem_filter.mp member
    obtain ⟨found, bare⟩ := FirstFit.mem_unplaced_iff.mp listed
    have asked := checked_toOption_eq_some_iff.mp (of_decide_eq_true typed)
    exact ⟨record, found, bare, asked⟩
  · rintro ⟨record, found, bare, typed⟩
    have listed := FirstFit.mem_unplaced_iff.mpr ⟨found, bare⟩
    have asked := decide_eq_true (checked_toOption_eq_some_iff.mpr typed)
    exact ⟨(cell, record), List.mem_filter.mpr ⟨listed, asked⟩, rfl⟩

theorem openings_unique {layout : Layout κ} {bel : BelId} {left right : BelType}
    (inLeft : bel ∈ layout.openings left) (inRight : bel ∈ layout.openings right) :
    left = right := by
  obtain ⟨-, fits, -⟩ := mem_openings.mp inLeft
  obtain ⟨-, fitsToo, -⟩ := mem_openings.mp inRight
  rw [fits] at fitsToo
  exact Option.some.inj fitsToo

theorem awaiting_unique {layout : Layout κ} {cell : Symbol}
    {left right : BelType} (inLeft : cell ∈ layout.awaiting left)
    (inRight : cell ∈ layout.awaiting right) : left = right := by
  obtain ⟨record, found, -, typed⟩ := mem_awaiting.mp inLeft
  obtain ⟨other, foundToo, -, typedToo⟩ := mem_awaiting.mp inRight
  rw [found] at foundToo
  cases foundToo
  rw [typed] at typedToo
  exact Except.ok.inj typedToo

/-- Where every cell has a bel, nothing is asked for. -/
theorem feasible_of_placed {layout : Layout κ}
    (placed : ∀ cell record, layout.design.cells.get? cell = some record →
      record.bel ≠ none) : layout.Feasible := by
  constructor
  · intro cell record found bare
    exact absurd bare (placed cell record found)
  · intro belType
    have nobody : layout.awaiting belType = ∅ := by
      apply Finset.eq_empty_of_forall_notMem
      intro cell member
      obtain ⟨record, found, bare, -⟩ := mem_awaiting.mp member
      exact placed cell record found bare
    rw [nobody, Finset.card_empty]
    exact Nat.zero_le _

/-- A cell that asks for a type finds an opening in a feasible layout. -/
theorem Feasible.opening {layout : Layout κ} (feasible : layout.Feasible)
    {cell : Symbol} {belType : BelType} (waits : cell ∈ layout.awaiting belType) :
    ∃ bel, bel ∈ layout.openings belType := by
  have some_waiting := Finset.card_pos.mpr ⟨cell, waits⟩
  have enough := feasible.fits belType
  exact Finset.card_pos.mp (Nat.lt_of_lt_of_le some_waiting enough)

/-! ## Filling an opening -/

/-- A cell without a bel goes to an available bel of its type. -/
inductive Fills (cell : Symbol) (bel : BelId) (before : Layout κ) :
    Layout κ → Prop where
  | intro {record : Cell} {belType : BelType} {text : String}
      (knows : before.design.KnowsLocation)
      (found : before.design.cells.get? cell = some record)
      (bare : record.bel = none)
      (typed : before.typeFor record.cellType = .ok belType)
      (opening : bel ∈ before.openings belType)
      (named : before.fabric.device.belName bel = some text) :
      Fills cell bel before (before.assigned cell record bel .weak text)

namespace Fills

variable {cell : Symbol} {bel : BelId} {before after : Layout κ}

theorem assigns (fills : Fills cell bel before after)
    (free : before.fabric.device.AvailableIsFree) :
    Assigns cell before after := by
  cases fills with
  | @intro record belType text knows found bare typed opening named =>
      obtain ⟨-, fits, available⟩ := mem_openings.mp opening
      have suits : before.Suits record.cellType bel :=
        ⟨free _ bel available, belType, typed, fits⟩
      exact .intro knows found (suits.released cell record) named

theorem awaiting (fills : Fills cell bel before after)
    (free : before.fabric.device.AvailableIsFree) (belType : BelType) :
    after.awaiting belType = (before.awaiting belType).erase cell := by
  have touches := (fills.assigns free).touches
  ext query
  rw [Finset.mem_erase, mem_awaiting, mem_awaiting]
  by_cases same : query = cell
  · cases fills with
    | @intro record belType text knows found bare typed opening named =>
        simp [same]
  · have kept := touches.others query (mt List.mem_singleton.mp same)
    simp only [kept, touches.typeFor, ne_eq, same, not_false_eq_true, true_and]

theorem stillAwaiting (fills : Fills cell bel before after)
    (free : before.fabric.device.AvailableIsFree) {belType : BelType}
    {others : List Symbol} (outside : cell ∉ others)
    (waits : ∀ other ∈ others, other ∈ before.awaiting belType) :
    ∀ other ∈ others, other ∈ after.awaiting belType := by
  intro other member
  rw [fills.awaiting free]
  apply Finset.mem_erase_of_ne_of_mem
  · exact fun same => outside (same ▸ member)
  · exact waits other member

theorem stillBare (fills : Fills cell bel before after) {query : Symbol}
    {record : Cell} (present : after.design.cells.get? query = some record)
    (bare : record.bel = none) :
    query ≠ cell ∧ before.design.cells.get? query = some record := by
  cases fills with
  | intro knows found unplaced typed opening named =>
      rw [get?_cells_assigned] at present
      split at present
      · cases present
        cases bare
      · rename_i other
        exact ⟨other, present⟩

theorem available_iff (fills : Fills cell bel before after)
    (isLocal : before.fabric.device.LocalAvailability) (query : BelId) :
    after.fabric.available query = true ↔
      query ≠ bel ∧ before.fabric.available query = true := by
  cases fills with
  | @intro record asked text knows found bare typed opening named =>
      have held := get?_bels_assigned before cell record bel query .weak text
      by_cases same : query = bel
      · have taken : (before.assigned cell record bel .weak text).fabric.available
            query ≠ true := by
          intro available
          have vacant := isLocal.free _ query available
          rw [if_pos same] at held
          rw [Occupancy.cellAt, held] at vacant
          cases vacant
        simp [same, same ▸ taken]
      · rw [if_neg same, bare, if_neg (Option.some_ne_none query).symm] at held
        have available : (before.assigned cell record bel .weak text).fabric.available
            query = before.fabric.available query := isLocal.own held
        rw [available]
        exact (and_iff_right same).symm

/-- One available bel is used up, of the type that the cell asked for. -/
theorem openings (fills : Fills cell bel before after)
    (isLocal : before.fabric.device.LocalAvailability) :
    ∃ asked, cell ∈ before.awaiting asked ∧ bel ∈ before.openings asked ∧
      ∀ belType, after.openings belType = (before.openings belType).erase bel := by
  have device := (fills.assigns isLocal.free).touches.device
  have available := fills.available_iff isLocal
  cases fills with
  | @intro record asked text knows found bare typed opening named =>
      refine ⟨asked, mem_awaiting.mpr ⟨record, found, bare, typed⟩,
        opening, ?_⟩
      intro belType
      ext query
      rw [Finset.mem_erase, mem_openings, mem_openings, available, device]
      constructor
      · rintro ⟨enumerated, fits, other, stillOpen⟩
        exact ⟨other, enumerated, fits, stillOpen⟩
      · rintro ⟨other, enumerated, fits, stillOpen⟩
        exact ⟨enumerated, fits, other, stillOpen⟩

/-- Both sides of a type lose one, or neither does. -/
theorem fits_iff (fills : Fills cell bel before after)
    (isLocal : before.fabric.device.LocalAvailability) (belType : BelType) :
    (after.awaiting belType).card ≤ (after.openings belType).card ↔
      (before.awaiting belType).card ≤ (before.openings belType).card := by
  obtain ⟨asked, waits, opening, openings⟩ := fills.openings isLocal
  rw [fills.awaiting isLocal.free, openings]
  by_cases same : belType = asked
  · rw [same, Finset.card_erase_of_mem waits, Finset.card_erase_of_mem opening]
    have someWaiting := Finset.card_pos.mpr ⟨cell, waits⟩
    have someOpen := Finset.card_pos.mpr ⟨bel, opening⟩
    omega
  · have notWaiting : cell ∉ before.awaiting belType :=
      fun waitsToo => same (awaiting_unique waitsToo waits)
    have notOpen : bel ∉ before.openings belType :=
      fun openToo => same (openings_unique openToo opening)
    rw [Finset.erase_eq_of_notMem notWaiting, Finset.erase_eq_of_notMem notOpen]

/-- Filling an opening changes nothing about feasibility. -/
theorem feasible_iff (fills : Fills cell bel before after)
    (isLocal : before.fabric.device.LocalAvailability) :
    after.Feasible ↔ before.Feasible := by
  have touches := (fills.assigns isLocal.free).touches
  constructor
  · intro feasible
    refine ⟨?_, fun belType =>
      (fills.fits_iff isLocal belType).mp (feasible.fits belType)⟩
    intro query record found bare
    by_cases same : query = cell
    · obtain ⟨asked, waits, -, -⟩ := fills.openings isLocal
      obtain ⟨own, present, -, typed⟩ := mem_awaiting.mp waits
      rw [same, present] at found
      cases found
      exact ⟨asked, typed⟩
    · have kept := touches.others query (mt List.mem_singleton.mp same)
      obtain ⟨belType, typed⟩ := feasible.typed (kept.trans found) bare
      exact ⟨belType, touches.typeFor record.cellType ▸ typed⟩
  · intro feasible
    refine ⟨?_, fun belType =>
      (fills.fits_iff isLocal belType).mpr (feasible.fits belType)⟩
    intro query record present bare
    obtain ⟨-, found⟩ := fills.stillBare present bare
    obtain ⟨belType, typed⟩ := feasible.typed found bare
    exact ⟨belType, (touches.typeFor record.cellType).trans typed⟩

end Fills

/-- The given cells are put on openings, one after the other. -/
inductive Fillings : List Symbol → Layout κ → Layout κ → Prop where
  | nil (layout : Layout κ) : Fillings [] layout layout
  | cons {cell : Symbol} {bel : BelId} {cells : List Symbol}
      {before middle after : Layout κ} (first : Fills cell bel before middle)
      (rest : Fillings cells middle after) :
      Fillings (cell :: cells) before after

namespace Fillings

variable {cells more : List Symbol} {before middle after : Layout κ}

theorem single {cell : Symbol} {bel : BelId} (step : Fills cell bel before after) :
    Fillings [cell] before after :=
  .cons step (.nil after)

theorem append (first : Fillings cells before middle)
    (second : Fillings more middle after) :
    Fillings (cells ++ more) before after := by
  induction first with
  | nil => exact second
  | cons step rest induction => exact .cons step (induction second)

theorem touches (run : Fillings cells before after)
    (free : before.fabric.device.AvailableIsFree) :
    Touches cells before after := by
  induction run with
  | nil layout => exact .refl [] layout
  | cons step rest induction =>
      have first := (step.assigns free).touches
      apply first.append
      apply induction
      rw [first.device]
      exact free

theorem feasible_iff (run : Fillings cells before after)
    (isLocal : before.fabric.device.LocalAvailability) :
    after.Feasible ↔ before.Feasible := by
  induction run with
  | nil => exact Iff.rfl
  | cons step rest induction =>
      have device := (step.assigns isLocal.free).touches.device
      exact (induction (device ▸ isLocal)).trans (step.feasible_iff isLocal)

theorem awaiting (run : Fillings cells before after)
    (free : before.fabric.device.AvailableIsFree) {cell : Symbol}
    {belType : BelType} (outside : cell ∉ cells)
    (waits : cell ∈ before.awaiting belType) : cell ∈ after.awaiting belType := by
  have touches := run.touches free
  rw [mem_awaiting] at waits ⊢
  obtain ⟨record, found, bare, typed⟩ := waits
  refine ⟨record, (touches.others cell outside).trans found, bare, ?_⟩
  rw [touches.typeFor]
  exact typed

theorem unplaced (run : Fillings cells before after)
    (free : before.fabric.device.AvailableIsFree) {cell : Symbol}
    {record : Cell} (present : after.design.cells.get? cell = some record)
    (bare : record.bel = none) :
    cell ∉ cells ∧ before.design.cells.get? cell = some record := by
  induction run with
  | nil => exact ⟨List.not_mem_nil, present⟩
  | @cons first bel cells before middle after step rest induction =>
      have touches := (step.assigns free).touches
      obtain ⟨later, stored⟩ := induction (touches.device ▸ free) present
      obtain ⟨other, found⟩ := step.stillBare stored bare
      refine ⟨?_, found⟩
      rw [List.mem_cons, not_or]
      exact ⟨other, later⟩

theorem feasible (run : Fillings cells before after)
    (isLocal : before.fabric.device.LocalAvailability)
    (all : ∀ cell record, before.design.cells.get? cell = some record →
      record.bel = none → cell ∈ cells) : before.Feasible := by
  rw [← run.feasible_iff isLocal]
  apply feasible_of_placed
  intro cell record present bare
  obtain ⟨outside, found⟩ := run.unplaced isLocal.free present bare
  exact outside (all cell record found bare)

end Fillings

/-- The ways in which a run over cells without a bel can end: the cells that it
visits are put on openings, or it stops in want of something. -/
inductive FillRun {α : Type} (able : Prop) (visits : α → List Symbol)
    (layout : Layout κ) :
    EStateM.Result (Stop DesignError) (Layout κ) α → Prop where
  | filled {answer : α} {after : Layout κ}
      (run : Fillings (visits answer) layout after) :
      FillRun able visits layout (.ok answer after)
  | stuck {stop : Stop DesignError} {reached : Layout κ} (unable : ¬ able) :
      FillRun able visits layout (.error stop reached)

theorem FillRun.bind {α β : Type} {able : Prop} {visits : α → List Symbol}
    {whole : β → List Symbol} {first : LayoutEdit κ α}
    {next : α → LayoutEdit κ β} {layout state : Layout κ}
    (start : FillRun able visits layout (first state))
    (rest : ∀ answer middle, Fillings (visits answer) layout middle →
      FillRun able whole layout (next answer middle)) :
    FillRun able whole layout ((first >>= next) state) := by
  cases run : first state with
  | ok answer middle =>
      rw [run] at start
      rw [Edit.bind_of_ok run]
      cases start with
      | filled fillings => exact rest answer middle fillings
  | error stop reached =>
      rw [run] at start
      rw [Edit.bind_of_error run]
      cases start with
      | stuck unable => exact .stuck unable

/-- A run may follow on fillings that keep what it wants. -/
theorem FillRun.after {α : Type} {able later : Prop} {visits : α → List Symbol}
    {cells : List Symbol} {layout middle : Layout κ}
    {result : EStateM.Result (Stop DesignError) (Layout κ) α}
    (rest : FillRun later visits middle result)
    (first : Fillings cells layout middle) (kept : able → later) :
    FillRun able (fun answer => cells ++ visits answer) layout result := by
  cases rest with
  | filled run => exact .filled (first.append run)
  | stuck unable => exact .stuck (mt kept unable)

end Layout

end FpgaPlacer

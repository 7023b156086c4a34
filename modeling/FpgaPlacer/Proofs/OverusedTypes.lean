import Mathlib.Algebra.BigOperators.Group.List.Lemmas
import Mathlib.Algebra.GroupWithZero.Nat
import FpgaPlacer.Proofs.FaultlessPlacement
import FpgaPlacer.Proofs.RepeatedPlacement

/-!
# Over-used types

The report of the utilisation counts the cells of a type against the enumerated
bels that it stands for.  A successful placement has all of these cells on bels
of that kind, no two on one, so a type with more cells than bels rules it out.
The report itself is sorted by type and misses no cell.

The report shows the types as they are read before the constraint pass interns
the name of the location attribute; a type whose symbol has no name until then
is shown, and counted, as another one.
-/

namespace FpgaPlacer

variable {κ : Type}

/-! ## Complete devices -/

/-- Every bel is of a type that has a name. -/
def Grid.Registered (grid : Grid) : Prop :=
  ∀ record ∈ grid.bels, record.belType.toNat < grid.typeNames.length

theorem Grid.complete [Scalar κ] {grid : Grid} (registered : grid.Registered) :
    (grid.device κ).Complete := by
  refine ⟨grid.described, ?_, ?_, ?_⟩
  · intro text bel named
    obtain ⟨fromEnd, found, rfl⟩ := Option.map_eq_some_iff.mp named
    have inside : fromEnd < grid.bels.size := by
      have bounded := (List.idxOf?_eq_some_iff.mp found).1
      simpa using bounded
    refine Handle.mem_range_iff.mpr (Nat.lt_of_le_of_lt (Handle.toNat_ofNat_le _) ?_)
    simp
    omega
  · intro bel listed
    have bounded : bel.toNat < grid.bels.size := Handle.mem_range_iff.mp listed
    exact ⟨grid.bels[bel.toNat].belType, by simp [Grid.device, Grid.bel?, bounded]⟩
  · intro bel belType typed
    obtain ⟨record, there, rfl⟩ := Option.map_eq_some_iff.mp typed
    have known := registered record (Array.mem_of_getElem? there)
    exact ⟨grid.typeNames[record.belType.toNat], List.getElem?_eq_getElem known⟩

theorem GridView.complete {grid : Grid} (registered : grid.Registered)
    (view : GridView) : (view.device grid).Complete := by
  have described := view.described grid
  have grids := @Grid.complete Float32 _ grid registered
  cases view with
  | full => exact grids
  | bare => exact ⟨described, grids.listed, grids.typed, grids.typeName⟩
  | untyped => exact ⟨described, grids.listed, grids.typed, grids.typeName⟩
  | skewed => exact ⟨described, grids.listed, grids.typed, grids.typeName⟩

theorem Grid.registered_empty (name : String) : (empty name).Registered := by
  simp [Registered, empty]

theorem Grid.Registered.addBel {grid : Grid} (registered : grid.Registered)
    (name typeName : String) (x y : Int) :
    (grid.addBel name typeName x y).2.Registered := by
  by_cases known : typeName ∈ grid.typeNames
  · intro record member
    simp only [Grid.addBel, registerType, known, if_true, Array.mem_push] at member ⊢
    obtain old | rfl := member
    · exact registered record old
    · exact Nat.lt_of_le_of_lt (Handle.toNat_ofNat_le _) (List.idxOf_lt_length_iff.mpr known)
  · intro record member
    simp only [Grid.addBel, registerType, known, if_false, Array.mem_push,
      List.length_append, List.length_singleton] at member ⊢
    obtain old | rfl := member
    · exact Nat.lt_succ_of_lt (registered record old)
    · apply Nat.lt_succ_of_le
      exact (Handle.toNat_ofNat_le _).trans List.idxOf_le_length

/-- A uniform grid has what the empty grid has and every bel keeps that is added at its place,
row by row. -/
theorem Grid.uniform_induction {motive : Nat → Grid → Prop} {name typeName : String}
    {width : Nat} (start : motive 0 (empty name))
    (step : ∀ {grid : Grid} {x y : Nat}, x < width → motive (y * width + x) grid →
      motive (y * width + x + 1) (grid.addBel (uniformBelName typeName x y) typeName x y).2)
    (height : Nat) : motive (height * width) (uniform name width height typeName) := by
  have row {grid : Grid} {y : Nat} (holds : motive (y * width) grid) (places : Nat)
      (within : places ≤ width) :
      motive (y * width + places) ((List.range places).foldl (fun grid x =>
        (grid.addBel (uniformBelName typeName x y) typeName x y).2) grid) := by
    induction places with
    | zero => exact holds
    | succ x induction =>
        rw [List.range_succ, List.foldl_append]
        exact step within (induction (Nat.le_of_succ_le within))
  induction height with
  | zero =>
      rw [Nat.zero_mul]
      exact start
  | succ y induction =>
      rw [uniform, List.range_succ, List.foldl_append, Nat.succ_mul]
      exact row induction width (Nat.le_refl width)

theorem Grid.registered_uniform (name : String) (width height : Nat)
    (typeName : String) : (uniform name width height typeName).Registered :=
  uniform_induction (motive := fun _ grid => grid.Registered) (registered_empty name)
    (fun _ registered => registered.addBel _ typeName _ _) height

/-! ## The report -/

namespace Layout

theorem used_usageOf (layout : Layout κ) (typeName : String) :
    (layout.usageOf typeName).used =
      (layout.design.cells.values.map (typeNameOf layout.design)).count typeName := by
  rw [usageOf, List.count, List.countP_map]
  congr 1

theorem map_cellType_utilisation (layout : Layout κ) :
    layout.utilisation.map TypeUsage.cellType =
      sortedDistinct (layout.design.cells.values.map (typeNameOf layout.design)) := by
  simp [utilisation, usageOf, Function.comp_def]

theorem sum_count_sortedDistinct (texts : List String) :
    ((sortedDistinct texts).map (texts.count ·)).sum = texts.length := by
  have same : (sortedDistinct texts).Perm texts.dedup := by
    apply (List.perm_ext_iff_of_nodup (FirstFit.nodup_sortedDistinct texts)
      texts.nodup_dedup).mpr
    intro text
    rw [FirstFit.mem_sortedDistinct, List.mem_dedup]
  rw [(same.map _).sum_eq]
  exact List.sum_map_count_dedup_eq_length texts

theorem sum_used_utilisation (layout : Layout κ) :
    (layout.utilisation.map TypeUsage.used).sum = layout.design.cells.size := by
  have counts := sum_count_sortedDistinct
    (layout.design.cells.values.map (typeNameOf layout.design))
  rw [List.length_map, Table.values, List.length_map] at counts
  rw [Table.size, ← counts, utilisation, List.map_map]
  congr 1
  apply List.map_congr_left
  intro typeName _
  exact layout.used_usageOf typeName

/-! ## Cells on bels of their types -/

/-- The bel is enumerated and of the type that the cell type stands for. -/
def Accommodates (layout : Layout κ) (cellType : Symbol) (bel : BelId) : Prop :=
  bel ∈ layout.fabric.device.bels ∧
    ∃ belType, layout.typeFor cellType = .ok belType ∧
      layout.fabric.device.belType bel = some belType

/-- Every placed cell is on an enumerated bel of its type. -/
structure Housed (layout : Layout κ) : Prop where
  bel : ∀ {cell record bel}, layout.design.cells.get? cell = some record →
    record.bel = some bel → layout.Accommodates record.cellType bel

/-- Every cell that is placed without a location attribute is on an enumerated bel of
its type. -/
structure PlacedByType (layout : Layout κ) : Prop where
  bel : ∀ {cell record bel}, layout.design.cells.get? cell = some record →
    record.attrs.get? layout.design.locationKey = none → record.bel = some bel →
    layout.Accommodates record.cellType bel

/-- No type of a cell is shown as another text once the name of the location attribute
has been interned. -/
structure TypesShown (layout : Layout κ) : Prop where
  display : ∀ {cell record}, layout.design.cells.get? cell = some record →
    (layout.design.intern locationAttribute).2.display record.cellType =
      layout.design.display record.cellType

theorem typesShown_of_named {layout : Layout κ}
    (named : ∀ {cell record}, layout.design.cells.get? cell = some record →
      record.cellType.toNat < layout.design.names.size) : layout.TypesShown := by
  constructor
  intro cell record found
  obtain ⟨text, here⟩ : ∃ text, layout.design.names.resolve? record.cellType = some text :=
    ⟨_, List.getElem?_eq_getElem (named found)⟩
  have there := Interner.resolve?_add here locationAttribute
  simp only [Design.display, Design.intern, Interner.intern, Interner.display, here, there]

theorem Housed.located {layout : Layout κ} (housed : layout.Housed)
    (described : layout.fabric.device.Described) : layout.Located := by
  constructor
  intro cell record bel found placed
  obtain ⟨-, belType, -, fits⟩ := housed.bel found placed
  exact described.position fits

theorem Housed.moves {picks : Picks κ} (ofType : picks.OfType) {cell : Symbol}
    {before after : Layout κ} (housed : before.Housed)
    (knows : before.design.KnowsLocation) (move : Moves picks cell before after) :
    after.Housed := by
  have touches := move.touches knows
  constructor
  intro query record bel present placed
  rw [Accommodates, touches.device, touches.typeFor]
  by_cases same : query = cell
  · cases move with
    | @intro old chosen text found picked named =>
        have accommodated : before.Accommodates old.cellType chosen := ofType picked
        rw [get?_cells_assigned, if_pos same] at present
        cases present
        cases placed
        exact accommodated
  · rw [move.others same] at present
    exact housed.bel present placed

theorem Finishes.housed {picks : Picks κ} (ofType : picks.OfType)
    {before after : Layout κ} (finishes : Finishes picks before after)
    (housed : before.Housed) (knows : before.design.KnowsLocation) :
    after.Housed := by
  obtain ⟨visits, run, -⟩ := finishes
  let holds (layout : Layout κ) : Prop := layout.Housed ∧ layout.design.KnowsLocation
  have both : holds after := by
    apply run.keeps
    · exact fun random holds => ⟨⟨holds.1.bel⟩, holds.2⟩
    · intro cell one two holds move
      exact ⟨holds.1.moves ofType holds.2 move, (move.touches holds.2).knows holds.2⟩
    · exact ⟨housed, knows⟩
  exact both.1

/-- The constraint pass houses the cells that it fixes and leaves the others alone. -/
theorem housed_of_constraints {layout middle : Layout κ} {located : List Symbol}
    (complete : layout.fabric.device.Complete) (byType : layout.PlacedByType)
    (shown : layout.TypesShown)
    (pass : Constraints.place layout = .ok located middle) : middle.Housed := by
  obtain ⟨-, fixes⟩ := Constraints.place_fixes pass
  have device : middle.fabric.device = layout.fabric.device := fixes.touches.device
  constructor
  intro cell record bel present placed
  by_cases fixed : cell ∈ located
  · obtain ⟨old, -, answered, arrives⟩ := fixes.located cell (fixes.inside cell fixed)
    obtain ⟨location, carries⟩ := Option.ne_none_iff_exists'.mp (answered.mp fixed)
    obtain ⟨current, target, belType, found, there, named, typed, fits⟩ :=
      arrives location carries
    cases present.symm.trans found
    cases placed.symm.trans there
    rw [device] at named
    exact ⟨device ▸ complete.listed named, belType, typed, fits⟩
  · have found : layout.design.cells.get? cell = some record :=
      (fixes.touches.others cell fixed).symm.trans present
    obtain ⟨old, stored, answered, -⟩ :=
      fixes.located cell (Table.mem_keys_iff.mpr ⟨record, found⟩)
    cases stored.symm.trans found
    have free : record.attrs.get? layout.design.locationKey = none := by
      by_contra carries
      exact fixed (answered.mpr carries)
    obtain ⟨enumerated, belType, typed, fits⟩ := byType.bel found free placed
    refine ⟨device ▸ enumerated, belType, ?_, device ▸ fits⟩
    have sameType : (layout.intern locationAttribute).2.typeFor record.cellType =
        layout.typeFor record.cellType := by
      simp only [typeFor, Layout.intern, shown.display found]
    rw [fixes.touches.typeFor, sameType]
    exact typed

/-! ## Counting -/

def entriesOf (design : Design) (typeName : String) : List (Symbol × Cell) :=
  design.cells.toList.filter fun entry => typeNameOf design entry.2 = typeName

theorem used_eq_length (layout : Layout κ) (typeName : String) :
    (layout.usageOf typeName).used = (entriesOf layout.design typeName).length := by
  rw [usageOf, Table.values, List.countP_map, List.countP_eq_length_filter]
  rfl

theorem nodup_entriesOf (design : Design) (typeName : String) :
    (entriesOf design typeName).Nodup :=
  ((Table.nodup_keys design.cells).of_map _).filter _

section Seats

variable {before after : Layout κ}

theorem CompletelyPlaced.record_of_entry (complete : CompletelyPlaced before after)
    {entry : Symbol × Cell} (member : entry ∈ before.design.cells.toList) :
    ∃ record bel, after.design.cells.get? entry.1 = some record ∧
      record.bel = some bel ∧ record.cellType = entry.2.cellType := by
  have kept := complete.types entry.1
  rw [Table.mem_toList_iff.mp member] at kept
  obtain ⟨record, present, sameType⟩ := Option.map_eq_some_iff.mp kept
  obtain ⟨bel, placed⟩ := complete.placed present
  exact ⟨record, bel, present, placed, sameType⟩

theorem CompletelyPlaced.eq_of_belOf (complete : CompletelyPlaced before after)
    {left right : Symbol × Cell} (leftMember : left ∈ before.design.cells.toList)
    (rightMember : right ∈ before.design.cells.toList)
    (same : after.design.belOf (some left.1) = after.design.belOf (some right.1)) :
    left = right := by
  obtain ⟨leftRecord, leftBel, leftFound, leftPlaced, -⟩ :=
    complete.record_of_entry leftMember
  obtain ⟨rightRecord, rightBel, rightFound, rightPlaced, -⟩ :=
    complete.record_of_entry rightMember
  rw [Design.belOf_of_found leftFound, Design.belOf_of_found rightFound,
    rightPlaced] at same
  have sameKey := complete.exclusive leftFound rightFound same rightPlaced
  have leftStored := Table.mem_toList_iff.mp leftMember
  rw [sameKey, Table.mem_toList_iff.mp rightMember] at leftStored
  exact Prod.ext sameKey (Option.some.inj leftStored).symm

variable (complete : CompletelyPlaced before after) (housed : after.Housed)
  (device : after.fabric.device = before.fabric.device)
  (shown : ∀ {cell record}, before.design.cells.get? cell = some record →
    after.design.display record.cellType = before.design.display record.cellType)
  {typeName : String}

include complete housed device shown

theorem CompletelyPlaced.bel_of_entry {entry : Symbol × Cell}
    (member : entry ∈ entriesOf before.design typeName) :
    ∃ belType, before.fabric.device.typeNamed typeName = some belType ∧
      after.design.belOf (some entry.1) ∈
        (before.fabric.device.belsOfType belType).map some := by
  obtain ⟨listed, ofType⟩ := List.mem_filter.mp member
  have found := Table.mem_toList_iff.mp listed
  obtain ⟨record, bel, present, placed, sameType⟩ := complete.record_of_entry listed
  obtain ⟨enumerated, belType, typed, fits⟩ := housed.bel present placed
  have named := FirstFit.typeFor_eq_ok_iff.mp typed
  rw [sameType, shown found, device] at named
  refine ⟨belType, of_decide_eq_true ofType ▸ named, ?_⟩
  rw [Design.belOf_of_found present, placed]
  apply List.mem_map_of_mem
  exact List.mem_filter.mpr ⟨device ▸ enumerated, decide_eq_true (device ▸ fits)⟩

/-- The cells of a type are on different bels of its kind, so there are no more of them
than of these bels. -/
theorem CompletelyPlaced.used_le_available (typeName : String) :
    (before.usageOf typeName).used ≤ (before.usageOf typeName).available := by
  have seat {entry : Symbol × Cell} (member : entry ∈ entriesOf before.design typeName) :=
    complete.bel_of_entry housed device shown member
  rw [used_eq_length]
  cases kind : before.fabric.device.typeNamed typeName with
  | none =>
      have nobody : entriesOf before.design typeName = [] := by
        apply List.eq_nil_iff_forall_not_mem.mpr
        intro entry member
        obtain ⟨belType, named, -⟩ := seat member
        cases kind.symm.trans named
      rw [nobody]
      exact Nat.zero_le _
  | some belType =>
      let bels := (entriesOf before.design typeName).map fun entry =>
        after.design.belOf (some entry.1)
      have distinct : bels.Nodup := by
        apply List.Nodup.map_on _ (nodup_entriesOf before.design typeName)
        intro left leftMember right rightMember
        exact complete.eq_of_belOf (List.mem_filter.mp leftMember).1
          (List.mem_filter.mp rightMember).1
      have inside : bels ⊆ (before.fabric.device.belsOfType belType).map some := by
        intro place member
        obtain ⟨entry, ofType, rfl⟩ := List.mem_map.mp member
        obtain ⟨other, named, there⟩ := seat ofType
        cases kind.symm.trans named
        exact there
      have fewer := (List.subperm_of_subset distinct inside).length_le
      simpa [bels, usageOf, kind] using fewer

end Seats

/-- What the report relies on: available bels are free, the device describes what it
lists, the check passes, and cells that are placed without a location are on bels of
their types. -/
structure Reportable (layout : Layout κ) : Prop where
  free : layout.fabric.device.AvailableIsFree
  complete : layout.fabric.device.Complete
  passes : layout.check = .ok ()
  byType : layout.PlacedByType
  shown : layout.TypesShown

theorem Finishes.used_le_available {picks : Picks κ} {before middle after : Layout κ}
    {located : List Symbol} (finishes : Finishes picks middle after)
    (reportable : before.Reportable)
    (pass : Constraints.place before = .ok located middle) (ofType : picks.OfType)
    (suits : ∀ {layout : Layout κ} {cell record bel},
      layout.fabric.device.AvailableIsFree → picks layout cell record bel →
      (layout.released cell record).Suits record.cellType bel)
    (final : Keeps before after) (typeName : String) :
    (before.usageOf typeName).used ≤ (before.usageOf typeName).available := by
  have consistent := check_eq_ok_iff.mp reportable.passes
  obtain ⟨ready, fixes⟩ := Constraints.place_ok reportable.free pass
  have complete := (finishes.completes ready suits).completelyPlaced reportable.free
    consistent (final.consistent reportable.free consistent) pass
  have housed := finishes.housed ofType (housed_of_constraints reportable.complete
    reportable.byType reportable.shown pass) ready.knows
  obtain ⟨visits, run, -⟩ := finishes
  have names := (run.touches ready.knows).names.trans fixes.touches.names
  apply complete.used_le_available housed final.device
  intro cell record found
  rw [← reportable.shown.display found, Design.display, names]
  rfl

theorem Reportable.located {layout middle : Layout κ} {placed : List Symbol}
    (reportable : layout.Reportable)
    (pass : Constraints.place layout = .ok placed middle) : middle.Located := by
  have housed := housed_of_constraints reportable.complete reportable.byType
    reportable.shown pass
  obtain ⟨-, fixes⟩ := Constraints.place_fixes pass
  apply housed.located
  rw [fixes.touches.device]
  exact reportable.complete.toDescribed

/-- A placer that comes to no fault, and has placed every cell when it succeeds, ends
with an error when a type is over-used. -/
theorem Reportable.error_of_excess {picks : Picks κ} {layout : Layout κ}
    {edit : LayoutEdit κ Unit} {typeName : String} (reportable : layout.Reportable)
    (excess : (layout.usageOf typeName).available < (layout.usageOf typeName).used)
    (ended : Edit.EndsWell (LocatedOn layout.fabric.device) (edit layout))
    (finishes : ∀ {reached}, edit layout = .ok () reached →
      ∃ placed middle, Constraints.place layout = .ok placed middle ∧
        Finishes picks middle reached)
    (keeps : Keeps layout (edit.after layout)) (ofType : picks.OfType)
    (suits : ∀ {layout : Layout κ} {cell record bel},
      layout.fabric.device.AvailableIsFree → picks layout cell record bel →
      (layout.released cell record).Suits record.cellType bel) :
    ∃ error, edit.outcome layout = .error (.failed error) := by
  apply ended.outcome
  intro _ reached run
  obtain ⟨placed, middle, pass, finish⟩ := finishes run
  rw [Edit.after_of_ok run] at keeps
  have fits := finish.used_le_available reportable pass ofType suits keeps typeName
  exact absurd excess (Nat.not_lt.mpr fits)

/-- A type that the report shows as over-used makes both placers fail with an error,
whatever the rule and the options.  The report lists the types of the cells in
increasing order, each of them once, and counts every cell. -/
theorem overuse_report [Scalar κ] (layout : Layout κ) :
    (layout.Reportable → ∀ usage ∈ layout.utilisation, usage.isOver = true →
      ∀ (rule : LegalityRule κ) (options : PlaceOptions),
        (∃ error, (FirstFit.place rule).outcome layout = .error (.failed error)) ∧
          ∃ error, (Greedy.place rule options).outcome layout =
            .error (.failed error)) ∧
      (layout.utilisation.map TypeUsage.cellType).Pairwise (· < ·) ∧
      (∀ {cell record}, layout.design.cells.get? cell = some record →
        (layout.utilisation.map TypeUsage.cellType).count
          (typeNameOf layout.design record) = 1) ∧
      (layout.utilisation.map TypeUsage.used).sum = layout.design.cells.size := by
  refine ⟨?_, ?_, ?_, layout.sum_used_utilisation⟩
  · intro reportable usage member isOver rule options
    obtain ⟨typeName, -, rfl⟩ := List.mem_map.mp member
    have excess := of_decide_eq_true isOver
    constructor
    · apply reportable.error_of_excess excess
      · exact FirstFit.endsWell_place reportable.complete rule reportable.located
      · exact FirstFit.place_finishes
      · exact FirstFit.keeps_place rule layout
      · exact FirstFit.picks_ofType rule
      · exact FirstFit.suits_of_picks
    · apply reportable.error_of_excess excess
      · exact Greedy.endsWell_place reportable.complete rule options reportable.located
      · exact Greedy.place_finishes
      · exact Greedy.keeps_place rule options layout
      · exact Greedy.picks_ofType rule options
      · exact Greedy.suits_of_picks
  · rw [map_cellType_utilisation]
    exact FirstFit.pairwise_sortedDistinct _
  · intro cell record found
    rw [map_cellType_utilisation]
    apply List.count_eq_one_of_mem (FirstFit.nodup_sortedDistinct _)
    apply FirstFit.mem_sortedDistinct.mpr
    apply List.mem_map_of_mem
    exact List.mem_map_of_mem (Table.mem_toList_iff.mpr found)

theorem placedByType_of_bare {layout : Layout κ}
    (bare : ∀ entry ∈ layout.design.cells.toList, entry.2.bel = none) :
    layout.PlacedByType := by
  constructor
  intro cell record bel found _ placed
  rw [bare _ (Table.mem_toList_iff.mpr found)] at placed
  cases placed

/-- Two cells of one type on a grid with one bel. -/
def crowded : Layout Int :=
  twoCells ((Grid.uniform "g" 1 1 "LUT").device Int)

/-- Neither placer finds room for both cells. -/
theorem overuse_report_of_crowded :
    (∃ error, (FirstFit.place .anyBel).outcome crowded = .error (.failed error)) ∧
      ∃ error, (Greedy.place .anyBel ⟨7, true, 2, .preferFirst⟩).outcome crowded =
        .error (.failed error) := by
  have free : crowded.fabric.device.AvailableIsFree :=
    Grid.availableIsFree (Grid.uniform "g" 1 1 "LUT")
  have complete : crowded.fabric.device.Complete :=
    Grid.complete (Grid.registered_uniform "g" 1 1 "LUT")
  have passes : crowded.check = .ok () := by decide +kernel
  have named : ∀ entry ∈ crowded.design.cells.toList,
      entry.2.cellType.toNat < crowded.design.names.size := by decide
  have shown : crowded.TypesShown := by
    apply typesShown_of_named
    intro cell record found
    exact named _ (Table.mem_toList_iff.mpr found)
  have reportable : crowded.Reportable :=
    ⟨free, complete, passes, placedByType_of_bare (by decide), shown⟩
  have listed : (⟨"LUT", 2, 1⟩ : TypeUsage) ∈ crowded.utilisation := by
    decide +kernel
  exact (overuse_report crowded).1 reportable _ listed rfl .anyBel
    ⟨7, true, 2, .preferFirst⟩

/-- A cell of a type whose symbol has no name yet, on a grid with one bel. -/
def unnamedType : Layout Int :=
  let grid := ((Grid.empty "g").addBel "B0" "BEL" 0 0).2
  let layout := (fresh (grid.device Int)).editDesign (Design.createCell "a" "LUT")
  { layout with design := layout.design.setCell ⟨1⟩ (.unplaced ⟨1⟩ ⟨3⟩) }

/-- The location attribute is the next name to be interned, so the type that was
reported as over-used has a bel after all. -/
theorem unnamedType_overused_yet_placed :
    unnamedType.fabric.device.AvailableIsFree ∧
      unnamedType.fabric.device.Complete ∧ unnamedType.check = .ok () ∧
      unnamedType.PlacedByType ∧
      (∃ usage ∈ unnamedType.utilisation, usage.isOver = true) ∧
      (FirstFit.place .anyBel).outcome unnamedType = .ok () ∧
      (Greedy.place .anyBel .default).outcome unnamedType = .ok () := by
  have registered : ((Grid.empty "g").addBel "B0" "BEL" 0 0).2.Registered :=
    (Grid.registered_empty "g").addBel "B0" "BEL" 0 0
  have free : unnamedType.fabric.device.AvailableIsFree :=
    Grid.availableIsFree ((Grid.empty "g").addBel "B0" "BEL" 0 0).2
  have listed : (⟨"<symbol 3>", 1, 0⟩ : TypeUsage) ∈ unnamedType.utilisation := by
    decide +kernel
  have passes : unnamedType.check = .ok () := by decide +kernel
  exact ⟨free, Grid.complete registered, passes, placedByType_of_bare (by decide),
    ⟨_, listed, rfl⟩, by decide +kernel, by decide +kernel⟩

end Layout

end FpgaPlacer

import FpgaPlacer.Proofs.ImprovementPasses
import FpgaPlacer.Proofs.PassOrders
import FpgaPlacer.Proofs.RecordedSteps

/-!
# What placement leaves alone

However a run of a placer ends, the graph and its routing stay, and a cell may
change its bel, strength and location attribute only.  The constraint pass
moves the cells with a location attribute and changes no attribute; once it has
succeeded, only the cells that it has left without a bel are handled.  So a
cell that was placed before the run, or has been fixed by it, is never touched
again.
-/

namespace FpgaPlacer

variable {κ : Type}

namespace Layout

/-- The same graph and routing on the same device; a cell may differ in how it is
placed and in its location attribute. -/
structure Frame (before after : Layout κ) : Prop where
  device : after.fabric.device = before.fabric.device
  locationKey : after.design.locationKey = before.design.locationKey
  nets : after.design.nets = before.design.nets
  wires : after.fabric.occupancy.wires = before.fabric.occupancy.wires
  pips : after.fabric.occupancy.pips = before.fabric.occupancy.pips
  cells : ∀ cell,
    (after.design.cells.get? cell).map (·.unseated before.design.locationKey) =
      (before.design.cells.get? cell).map (·.unseated before.design.locationKey)

theorem Frame.refl (layout : Layout κ) : Frame layout layout :=
  ⟨rfl, rfl, rfl, rfl, rfl, fun _ => rfl⟩

theorem Frame.trans {one two three : Layout κ} (first : Frame one two)
    (second : Frame two three) : Frame one three := by
  constructor
  · exact second.device.trans first.device
  · exact second.locationKey.trans first.locationKey
  · exact second.nets.trans first.nets
  · exact second.wires.trans first.wires
  · exact second.pips.trans first.pips
  · intro cell
    have later := second.cells cell
    rw [first.locationKey] at later
    exact later.trans (first.cells cell)

theorem Frame.cells_of_replaced {before after : Layout κ} {cell : Symbol}
    {old new : Cell} (found : before.design.cells.get? cell = some old)
    (same : new.unseated before.design.locationKey =
      old.unseated before.design.locationKey)
    (stored : ∀ query, after.design.cells.get? query =
      if query = cell then some new else before.design.cells.get? query)
    (query : Symbol) :
    (after.design.cells.get? query).map (·.unseated before.design.locationKey) =
      (before.design.cells.get? query).map (·.unseated before.design.locationKey) := by
  rw [stored]
  split
  · rename_i here
    rw [here, found, Option.map_some, Option.map_some, same]
  · rfl

section Steps

variable {layout : Layout κ} {cell : Symbol} {record : Cell}
  (found : layout.design.cells.get? cell = some record)

theorem frame_interned (layout : Layout κ) :
    Frame layout (layout.intern locationAttribute).2 :=
  ⟨rfl, layout.design.locationKey_intern, rfl, rfl, rfl, fun _ => rfl⟩

include found

theorem frame_released : Frame layout (layout.released cell record) := by
  refine ⟨rfl, rfl, rfl, wires_releaseBel .., pips_releaseBel .., ?_⟩
  apply Frame.cells_of_replaced found _ fun query => get?_cells_released ..
  rfl

theorem frame_bound (bel : BelId) (strength : Strength) :
    Frame layout (layout.bound cell record bel strength) := by
  refine ⟨rfl, rfl, rfl, wires_releaseBel .., pips_releaseBel .., ?_⟩
  apply Frame.cells_of_replaced found _ fun query => get?_cells_bound ..
  rfl

theorem frame_annotated (text : String) :
    Frame layout (layout.annotated cell record text) := by
  refine ⟨rfl, rfl, rfl, rfl, rfl, ?_⟩
  apply Frame.cells_of_replaced found _ fun query => Design.get?_cells_setCell ..
  simp [Cell.unseated, Table.erase_insert_self]

end Steps

/-! ## The constraint pass -/

/-- Every attribute stays, and so does everything about the cells without a location
attribute. -/
structure Relocates (before after : Layout κ) : Prop extends Frame before after where
  attrs : ∀ cell, (after.design.cells.get? cell).map Cell.attrs =
    (before.design.cells.get? cell).map Cell.attrs
  unlocated : ∀ {cell record}, before.design.cells.get? cell = some record →
    record.attrs.get? before.design.locationKey = none →
    after.design.cells.get? cell = some record

theorem Relocates.refl (layout : Layout κ) : Relocates layout layout :=
  { Frame.refl layout with
    attrs := fun _ => rfl
    unlocated := fun found _ => found }

theorem Relocates.trans {one two three : Layout κ} (first : Relocates one two)
    (second : Relocates two three) : Relocates one three := by
  refine ⟨first.toFrame.trans second.toFrame, ?_, ?_⟩
  · exact fun cell => (second.attrs cell).trans (first.attrs cell)
  · intro cell record found free
    apply second.unlocated (first.unlocated found free)
    rw [first.locationKey]
    exact free

end Layout

open Layout

namespace Constraints

theorem relocates_placeCell {key : Symbol} {layout : Layout κ}
    (known : layout.design.locationKey = key) (cell : Symbol) :
    Relocates layout ((placeCell key cell).after layout) := by
  have run := placeCell_run key cell layout
  generalize ended : placeCell key cell layout = result at run
  cases run with
  | stopped stop =>
      rw [Edit.after_of_error ended]
      exact .refl layout
  | unlocated found free =>
      rw [Edit.after_of_ok ended]
      exact .refl layout
  | kept found located aimed there =>
      rw [Edit.after_of_ok ended]
      exact .refl layout
  | @moved record location bel found located aimed vacant =>
      rw [Edit.after_of_ok ended]
      refine ⟨frame_bound found bel .user, ?_, ?_⟩
      · intro query
        rw [get?_cells_bound]
        split
        · rename_i here
          rw [here, found]
          rfl
        · rfl
      · intro other stored present free
        have different : other ≠ cell := by
          intro here
          rw [here, found] at present
          cases present
          rw [known, located] at free
          cases free
        rw [get?_cells_bound, if_neg different]
        exact present

theorem relocates_placeCells {key : Symbol} (cells : List Symbol)
    {layout : Layout κ} (known : layout.design.locationKey = key) :
    Relocates layout ((placeCells key cells).after layout) := by
  induction cells generalizing layout with
  | nil => exact .refl layout
  | cons cell rest induction =>
      have first := relocates_placeCell known cell
      apply Edit.after_bind Relocates Relocates.trans first
      intro placed middle run
      rw [Edit.after_of_ok run] at first
      apply Edit.after_bind Relocates Relocates.trans
      · exact induction (first.locationKey.trans known)
      · intro others reached _
        exact .refl reached

/-- The constraint pass changes no attribute and leaves the cells without a location
alone, however it ends. -/
theorem relocates_place (layout : Layout κ) :
    Relocates layout (place.after layout) := by
  apply Edit.after_bind Relocates Relocates.trans
  · exact ⟨frame_interned layout, fun _ => rfl, fun found _ => found⟩
  · intro key middle interned
    cases interned
    exact relocates_placeCells _ layout.design.locationKey_intern

end Constraints

/-! ## After the constraint pass -/

namespace Layout

/-- The records of the cells outside a group stay. -/
structure Spares (group : Symbol → Prop) (before after : Layout κ) : Prop
    extends Frame before after where
  others : ∀ cell, ¬ group cell →
    after.design.cells.get? cell = before.design.cells.get? cell

theorem Frame.spares {group : Symbol → Prop} {before after : Layout κ} {cell : Symbol}
    {record : Cell} (frame : Frame before after) (grouped : group cell)
    (stored : ∀ query, after.design.cells.get? query =
      if query = cell then some record else before.design.cells.get? query) :
    Spares group before after := by
  refine ⟨frame, ?_⟩
  intro other outside
  have different : other ≠ cell := fun same => outside (same ▸ grouped)
  rw [stored, if_neg different]

theorem respects_spares (rule : LegalityRule κ) (group : Symbol → Prop) :
    Respects (Spares group) rule group := by
  constructor
  · exact fun layout => ⟨.refl layout, fun _ _ => rfl⟩
  · intro one two three first second
    refine ⟨first.toFrame.trans second.toFrame, ?_⟩
    intro cell outside
    exact (second.others cell outside).trans (first.others cell outside)
  · exact fun layout random => ⟨⟨rfl, rfl, rfl, rfl, rfl, fun _ => rfl⟩, fun _ _ => rfl⟩
  · exact fun layout => ⟨frame_interned layout, fun _ _ => rfl⟩
  · intro layout cell record grouped found
    exact (frame_released found).spares grouped fun query => get?_cells_released ..
  · intro layout cell record bel grouped found _ _
    exact (frame_bound found bel .weak).spares grouped fun query => get?_cells_bound ..
  · intro layout cell record text grouped found
    exact (frame_annotated found text).spares grouped
      fun query => Design.get?_cells_setCell ..

/-- What no placement touches. -/
structure Untouched (before after : Layout κ) : Prop extends Frame before after where
  /-- A cell that was placed without a location attribute stays as it was. -/
  placed : ∀ {cell record bel}, before.design.cells.get? cell = some record →
    record.attrs.get? before.design.locationKey = none → record.bel = some bel →
    after.design.cells.get? cell = some record
  /-- A cell with a location attribute keeps its attributes. -/
  located : ∀ {cell record location}, before.design.cells.get? cell = some record →
    record.attrs.get? before.design.locationKey = some location →
    ∃ kept, after.design.cells.get? cell = some kept ∧ kept.attrs = record.attrs

theorem Relocates.untouched {before after : Layout κ}
    (relocates : Relocates before after) : Untouched before after := by
  refine ⟨relocates.toFrame, ?_, ?_⟩
  · exact fun found free _ => relocates.unlocated found free
  · intro cell record location found located
    have attrs := relocates.attrs cell
    rw [found] at attrs
    exact Option.map_eq_some_iff.mp attrs

/-- The cells without a bel are the group of cells that a placer handles. -/
def Bare (layout : Layout κ) (cell : Symbol) : Prop :=
  layout.design.belOf (some cell) = none

variable {layout middle reached : Layout κ} {placed : List Symbol}

/-- Once the constraint pass has succeeded, a cell with a location attribute is on
the bel of that name and outside of the group. -/
theorem seated_of_located (pass : Constraints.place layout = .ok placed middle)
    {cell : Symbol} {record : Cell} {location : String}
    (found : layout.design.cells.get? cell = some record)
    (located : record.attrs.get? layout.design.locationKey = some location) :
    ∃ seated bel, middle.design.cells.get? cell = some seated ∧
      seated.bel = some bel ∧ seated.attrs = record.attrs ∧
      layout.fabric.device.belNamed location = some bel ∧ ¬ middle.Bare cell := by
  have relocates := Constraints.relocates_place layout
  rw [Edit.after_of_ok pass] at relocates
  obtain ⟨-, fixes⟩ := Constraints.place_fixes pass
  have listed := Table.mem_keys_iff.mpr ⟨record, found⟩
  obtain ⟨stored, present, -, arrives⟩ := fixes.located cell listed
  cases present.symm.trans found
  obtain ⟨seated, bel, -, there, onBel, named, -⟩ := arrives location located
  obtain ⟨kept, same, attrs⟩ := relocates.untouched.located found located
  cases there.symm.trans same
  rw [relocates.device] at named
  refine ⟨seated, bel, there, onBel, attrs, named, ?_⟩
  rw [Bare, Design.belOf_of_found there, onBel]
  exact nofun

/-- What the constraint pass and then the moves of the remaining cells leave alone. -/
theorem Spares.untouched (spares : Spares middle.Bare middle reached)
    (pass : Constraints.place layout = .ok placed middle) :
    Untouched layout reached := by
  have relocates := Constraints.relocates_place layout
  rw [Edit.after_of_ok pass] at relocates
  refine ⟨relocates.toFrame.trans spares.toFrame, ?_, ?_⟩
  · intro cell record bel found free onBel
    have kept := relocates.unlocated found free
    rw [spares.others cell]
    · exact kept
    · rw [Bare, Design.belOf_of_found kept, onBel]
      exact nofun
  · intro cell record location found located
    obtain ⟨seated, bel, there, -, attrs, -, notBare⟩ :=
      seated_of_located pass found located
    refine ⟨seated, ?_, attrs⟩
    rw [spares.others cell notBare]
    exact there

end Layout

/-! ## Whole runs -/

namespace Recording

/-- A layout that the run notes, or the one that it ends in. -/
def Visits (recorded : RecordingEdit κ Unit) (layout reached : Layout κ) : Prop :=
  reached ∈ (recorded.after ⟨layout, []⟩).notes ∨
    reached = (recorded.after ⟨layout, []⟩).layout

/-- The recorded runs are the runs of the edit with notes.  What no placement touches
is the same in every layout visited, and a cell with a location attribute is on the
bel of that name in each of them once the constraint pass has succeeded. -/
structure Spared (recorded : RecordingEdit κ Unit) (edit : LayoutEdit κ Unit)
    (layout : Layout κ) : Prop where
  mirrors : Mirrors recorded edit
  untouched : ∀ {reached}, Visits recorded layout reached → layout.Untouched reached
  final : layout.Untouched (edit.after layout)
  unmoved : ∀ {located middle}, Constraints.place layout = .ok located middle →
    ∀ {cell record location}, layout.design.cells.get? cell = some record →
    record.attrs.get? layout.design.locationKey = some location →
    ∃ seated bel, seated.bel = some bel ∧
      layout.fabric.device.belNamed location = some bel ∧
      ∀ {reached}, Visits recorded layout reached →
        reached.design.cells.get? cell = some seated

theorem Throughout.related_of_visits {related : Layout κ → Layout κ → Prop}
    {recorded : RecordingEdit κ Unit} {layout middle reached : Layout κ}
    (through : Throughout related ⟨middle, []⟩ (recorded.after ⟨layout, []⟩))
    (visits : Visits recorded layout reached) : related middle reached := by
  obtain noted | rfl := visits
  · exact (through.noted reached noted).resolve_left nofun
  · exact through.last

/-- It is enough to look at what follows the constraint pass. -/
theorem Mirrors.spared {recorded : RecordingEdit κ Unit} {edit : LayoutEdit κ Unit}
    {layout : Layout κ} (mirrors : Mirrors recorded edit)
    (stopped : ∀ {stop reached}, Constraints.place layout = .error stop reached →
      recorded.after ⟨layout, []⟩ = ⟨reached, []⟩)
    (continued : ∀ {located middle}, Constraints.place layout = .ok located middle →
      Throughout (Spares middle.Bare) ⟨middle, []⟩ (recorded.after ⟨layout, []⟩)) :
    Spared recorded edit layout := by
  have untouched {reached : Layout κ} (visits : Visits recorded layout reached) :
      layout.Untouched reached := by
    cases pass : Constraints.place layout with
    | error stop middle =>
        have relocates := Constraints.relocates_place layout
        rw [Edit.after_of_error pass] at relocates
        rw [Visits, stopped pass] at visits
        obtain noted | rfl := visits
        · cases noted
        · exact relocates.untouched
    | ok located middle =>
        exact ((continued pass).related_of_visits visits).untouched pass
  refine ⟨mirrors, untouched, ?_, ?_⟩
  · rw [← mirrors.layout_after ⟨layout, []⟩]
    exact untouched (.inr rfl)
  · intro located middle pass cell record location found carries
    obtain ⟨seated, bel, there, onBel, -, named, notBare⟩ :=
      seated_of_located pass found carries
    refine ⟨seated, bel, onBel, named, ?_⟩
    intro reached visits
    rw [((continued pass).related_of_visits visits).others cell notBare]
    exact there

end Recording

open Recording

namespace Layout

/-- What placement may touch, and which cells the improvement passes place again. -/
theorem spared_by_placement [Scalar κ] (layout : Layout κ) (rule : LegalityRule κ)
    (options : PlaceOptions) :
    Spared (FirstFit.recorded rule) (FirstFit.place rule) layout ∧
      Spared (Greedy.recorded rule options) (Greedy.place rule options) layout ∧
      ∃ orders,
        Greedy.PassRun rule options layout orders (Greedy.place rule options layout) ∧
          ∀ order ∈ orders, order.Nodup ∧
            ∀ cell, cell ∈ order ↔ Greedy.AutoPlaced layout cell := by
  have covers (middle : Layout κ) : middle.Covers middle.Bare := fun _ bare => bare
  refine ⟨?_, ?_, Greedy.place_passRun rule options layout⟩
  · apply (FirstFit.mirrors_recorded rule).spared
    · exact FirstFit.after_recorded_of_stopped rule
    · intro located middle pass
      exact (respects_spares rule middle.Bare).throughout_firstFit pass (covers middle)
  · apply (Greedy.mirrors_recorded rule options).spared
    · exact Greedy.after_recorded_of_stopped rule options
    · intro located middle pass
      exact (respects_spares rule middle.Bare).throughout_greedy options pass
        (covers middle)

/-- The fixed cell is on its bel whenever a run of the greedy placer is looked at. -/
theorem spared_by_placement_of_halfFixed :
    Constraints.place halfFixed = .ok [⟨1⟩] (Constraints.place.after halfFixed) ∧
      ∀ reached, Visits (Greedy.recorded .anyBel .default) halfFixed reached →
        ∃ record, reached.design.cells.get? ⟨1⟩ = some record ∧
          record.bel = some ⟨1⟩ := by
  have pass : Constraints.place halfFixed =
      .ok [⟨1⟩] (Constraints.place.after halfFixed) := rfl
  have fixed : halfFixed.design.cells.get? ⟨1⟩ = some
      { Cell.unplaced ⟨1⟩ ⟨2⟩ with
        attrs := Table.empty.insert halfFixed.design.locationKey "B1" } := rfl
  obtain ⟨-, greedy, -⟩ := spared_by_placement halfFixed .anyBel .default
  obtain ⟨seated, bel, onBel, named, stays⟩ := greedy.unmoved pass fixed
    ((Table.get?_insert ..).trans (if_pos rfl))
  have second : halfFixed.fabric.device.belNamed "B1" = some ⟨1⟩ := rfl
  cases named.symm.trans second
  exact ⟨pass, fun _ visits => ⟨seated, stays visits, onBel⟩⟩

end Layout

end FpgaPlacer

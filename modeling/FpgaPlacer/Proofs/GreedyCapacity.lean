import FpgaPlacer.Proofs.FirstFitCapacity
import FpgaPlacer.Proofs.ImprovementPasses

/-!
# Greedy placement succeeds within capacity

The first placement of a cell needs an opening and the positions of the placed
cells around it.  The improvement passes that follow never fail, so they need
nothing more.
-/

namespace FpgaPlacer

variable {κ : Type}

namespace Layout

/-- Every placed cell is on a bel whose position the device knows. -/
structure Located (layout : Layout κ) : Prop where
  position : ∀ {cell record bel}, layout.design.cells.get? cell = some record →
    record.bel = some bel →
    ∃ place, layout.fabric.device.position bel = some place

/-- Releasing a cell without a bel opens and closes nothing. -/
theorem openings_released {layout : Layout κ} {cell : Symbol} {record : Cell}
    (bare : record.bel = none) (belType : BelType) :
    (layout.released cell record).openings belType = layout.openings belType := by
  have fabric : (layout.released cell record).fabric = layout.fabric := by
    simp only [released, releaseBel, bare, Fabric.withOccupancy]
  rw [openings, fabric, openings]

theorem Located.released {layout : Layout κ} (located : layout.Located)
    (cell : Symbol) (record : Cell) : (layout.released cell record).Located := by
  constructor
  intro query current bel found placed
  rw [get?_cells_released] at found
  split at found
  · cases found
    cases placed
  · exact located.position found placed

theorem Located.assigned {layout : Layout κ} (located : layout.Located)
    (described : layout.fabric.device.Described) {bel : BelId}
    {belType : BelType} (fits : layout.fabric.device.belType bel = some belType)
    (cell : Symbol) (record : Cell) (strength : Strength) (text : String) :
    (layout.assigned cell record bel strength text).Located := by
  constructor
  intro query current held found placed
  rw [get?_cells_assigned] at found
  split at found
  · cases found
    cases placed
    exact described.position fits
  · exact located.position found placed

/-- The constraint pass puts cells on described bels only. -/
theorem Located.fixes {before after : Layout κ} {placed : List Symbol}
    (located : before.Located) (described : before.fabric.device.Described)
    (fixes : Constraints.Fixes before.design.locationKey
      before.design.cells.keys placed
      (before.intern locationAttribute).2 after) : after.Located := by
  constructor
  intro cell record bel present holds
  have device := fixes.touches.device
  by_cases fixed : cell ∈ placed
  · have listed := fixes.inside cell fixed
    obtain ⟨old, -, answered, arrives⟩ := fixes.located cell listed
    obtain ⟨location, carries⟩ := Option.ne_none_iff_exists'.mp (answered.mp fixed)
    obtain ⟨current, target, belType, found, there, -, -, fits⟩ :=
      arrives location carries
    rw [present] at found
    cases found
    rw [holds] at there
    cases there
    rw [device] at fits ⊢
    exact described.position fits
  · have kept := fixes.touches.others cell fixed
    rw [device]
    exact located.position (kept.symm.trans present) holds

theorem Fills.located {cell : Symbol} {bel : BelId} {before after : Layout κ}
    (fills : Fills cell bel before after) (located : before.Located)
    (described : before.fabric.device.Described) : after.Located := by
  cases fills with
  | intro knows found bare typed opening named =>
      obtain ⟨-, fits, -⟩ := mem_openings.mp opening
      exact located.assigned described fits _ _ _ _

theorem Fillings.located {cells : List Symbol} {before after : Layout κ}
    (run : Fillings cells before after)
    (free : before.fabric.device.AvailableIsFree) (located : before.Located)
    (described : before.fabric.device.Described) : after.Located := by
  induction run with
  | nil => exact located
  | cons step rest induction =>
      have device := (step.assigns free).touches.device
      exact induction (device ▸ free) (step.located located described)
        (device ▸ described)

end Layout

open Layout

namespace Greedy

/-! ## Choosing a bel -/

theorem mem_candidates_anyBel_iff {layout : Layout κ} {belType : BelType}
    {cell : Symbol} {bel : BelId} :
    bel ∈ candidates .anyBel layout belType cell ↔
      bel ∈ layout.openings belType := by
  simp [mem_candidates_iff, mem_openings, LegalityRule.anyBel]

theorem priceable_of_located {layout : Layout κ} (located : layout.Located)
    (fanoutLimit : Nat) (record : Cell) : Priceable fanoutLimit layout record := by
  intro bel neighbour
  obtain ⟨_, -, _, -, holder, -, held⟩ := mem_neighbourBels_iff.mp neighbour
  obtain ⟨other, rfl, rest⟩ := Option.bind_eq_some_iff.mp held
  obtain ⟨current, found, placed⟩ := Option.bind_eq_some_iff.mp rest
  exact located.position found placed

variable [Scalar κ]

theorem opening_of_choose {layout : Layout κ} {options : PlaceOptions}
    {cell : Symbol} {record : Cell} {bel : BelId}
    (chosen : choose .anyBel options cell record layout = .ok bel) :
    ∃ belType, layout.typeFor record.cellType = .ok belType ∧
      bel ∈ layout.openings belType := by
  obtain ⟨belType, typed, candidate⟩ := candidate_of_choose chosen
  exact ⟨belType, typed, mem_candidates_anyBel_iff.mp candidate⟩

/-! ## The first placement -/

theorem placeCell_first {layout : Layout κ} {cell : Symbol} {record : Cell}
    (knows : layout.design.KnowsLocation)
    (described : layout.fabric.device.Described)
    (found : layout.design.cells.get? cell = some record)
    (bare : record.bel = none) (options : PlaceOptions) :
    FillRun (layout.Feasible ∧ layout.Located) (fun _ => [cell]) layout
      (placeCell .anyBel options cell layout) := by
  have openings (belType : BelType) :
      (layout.released cell record).openings belType =
        layout.openings belType := openings_released bare belType
  have ways := placeCell_run .anyBel options cell layout
  generalize placeCell .anyBel options cell layout = result at ways
  cases ways with
  | unknown absent =>
      rw [found] at absent
      cases absent
  | refused present failed =>
      rw [found] at present
      cases present
      apply FillRun.stuck
      rintro ⟨feasible, located⟩
      obtain ⟨belType, typed⟩ := feasible.typed found bare
      obtain ⟨bel, opening⟩ :=
        feasible.opening (mem_awaiting.mpr ⟨record, found, bare, typed⟩)
      rw [← openings] at opening
      have describedToo : (layout.released cell record).fabric.device.Described :=
        described
      have priceable := priceable_of_located (located.released cell record)
        options.fanoutLimit record
      have offered : bel ∈ candidates .anyBel (layout.released cell record)
          belType cell := mem_candidates_anyBel_iff.mpr opening
      obtain ⟨chosen, choice⟩ := choose_ok describedToo priceable typed offered
      rw [failed] at choice
      cases choice
  | unnamed present chosen nameless =>
      obtain ⟨belType, -, opening⟩ := opening_of_choose chosen
      obtain ⟨-, fits, -⟩ := mem_openings.mp opening
      obtain ⟨text, named⟩ := described.name fits
      rw [nameless] at named
      cases named
  | assigned present chosen named =>
      rw [found] at present
      cases present
      obtain ⟨belType, typed, opening⟩ := opening_of_choose chosen
      rw [openings] at opening
      exact .filled (.single (.intro knows found bare typed opening named))

theorem placeUnplaced_run {cells : List Symbol} {layout : Layout κ}
    (knows : layout.design.KnowsLocation)
    (isLocal : layout.fabric.device.LocalAvailability)
    (described : layout.fabric.device.Described)
    (present : ∀ cell ∈ cells, ∃ record,
      layout.design.cells.get? cell = some record) (options : PlaceOptions) :
    FillRun (layout.Feasible ∧ layout.Located) id layout
      (placeUnplaced .anyBel options cells layout) := by
  induction cells generalizing layout with
  | nil => exact .filled (.nil layout)
  | cons cell rest induction =>
      rw [placeUnplaced, Edit.bind_get]
      obtain ⟨record, found⟩ := present cell List.mem_cons_self
      have others : ∀ other ∈ rest, ∃ record,
          layout.design.cells.get? other = some record :=
        fun other member => present other (List.mem_cons_of_mem cell member)
      cases placed : record.bel with
      | some bel =>
          rw [Design.belOf_of_found found, placed]
          exact induction knows isLocal described others
      | none =>
          rw [Design.belOf_of_found found, placed]
          have first := placeCell_first knows described found placed options
          dsimp only [Option.isSome_none]
          rw [if_neg Bool.false_ne_true]
          apply first.bind
          intro moved middle filled
          have touches := filled.touches isLocal.free
          have kept : layout.Feasible ∧ layout.Located →
              middle.Feasible ∧ middle.Located := fun able =>
            ⟨(filled.feasible_iff isLocal).mpr able.1,
              filled.located isLocal.free able.2 described⟩
          have stillThere : ∀ other ∈ rest, ∃ record,
              middle.design.cells.get? other = some record := by
            intro other member
            obtain ⟨old, there⟩ := others other member
            obtain ⟨new, stored, -⟩ := touches.kept there
            exact ⟨new, stored⟩
          have later := (induction (touches.knows knows)
            (touches.device ▸ isLocal) (touches.device ▸ described)
            stillThere).after filled kept
          exact later.bind fun placed after run => .filled run

/-! ## The whole placer -/

theorem placeUnplaced_keys_run {layout : Layout κ}
    (knows : layout.design.KnowsLocation)
    (isLocal : layout.fabric.device.LocalAvailability)
    (described : layout.fabric.device.Described) (options : PlaceOptions) :
    FillRun (layout.Feasible ∧ layout.Located) id layout
      (placeUnplaced .anyBel options layout.design.cells.keys layout) := by
  apply placeUnplaced_run knows isLocal described
  exact fun cell member => Table.mem_keys_iff.mp member

theorem placeable_of_outcome {layout : Layout κ} {options : PlaceOptions}
    (isLocal : layout.fabric.device.LocalAvailability)
    (described : layout.fabric.device.Described)
    (success : (place .anyBel options).outcome layout = .ok ()) :
    layout.Placeable := by
  have run := Edit.outcome_eq_ok success
  obtain ⟨fixed, middle, pass, rest⟩ := Edit.bind_eq_ok_iff.mp run
  obtain ⟨ready, fixes⟩ := Constraints.place_ok isLocal.free pass
  have device := fixes.touches.device
  rw [Edit.bind_get] at rest
  obtain ⟨placed, reached, first, -⟩ := Edit.bind_eq_ok_iff.mp rest
  have filled := placeUnplaced_keys_run ready.knows (device ▸ isLocal)
    (device ▸ described) options
  rw [first] at filled
  obtain ⟨-, members⟩ := placeUnplaced_ok ready (Table.nodup_keys _) first
  refine ⟨fixed, middle, pass, ?_⟩
  cases filled with
  | filled fillings =>
      apply fillings.feasible (device ▸ isLocal)
      intro cell record found bare
      apply (members cell).mpr
      rw [Table.mem_keys_iff, Design.belOf_of_found found]
      exact ⟨⟨record, found⟩, bare⟩

/-- Where there is room, the placer succeeds, provided that it can tell where
the placed cells are. -/
theorem outcome_of_placeable {layout : Layout κ}
    (isLocal : layout.fabric.device.LocalAvailability)
    (described : layout.fabric.device.Described) (located : layout.Located)
    (placeable : layout.Placeable) (options : PlaceOptions) :
    (place .anyBel options).outcome layout = .ok () := by
  obtain ⟨fixed, middle, pass, feasible⟩ := placeable
  obtain ⟨ready, fixes⟩ := Constraints.place_ok isLocal.free pass
  have device := fixes.touches.device
  have locatedToo := located.fixes described fixes
  have filled := placeUnplaced_keys_run ready.knows (device ▸ isLocal)
    (device ▸ described) options
  cases first : placeUnplaced .anyBel options middle.design.cells.keys middle with
  | error stop reached =>
      rw [first] at filled
      cases filled with
      | stuck unable => exact absurd ⟨feasible, locatedToo⟩ unable
  | ok placed reached =>
      have begun : start .anyBel options layout = .ok placed reached := by
        rw [start, Edit.bind_of_ok pass, Edit.bind_get]
        exact first
      have ignores : (@LegalityRule.anyBel κ).IgnoresPlacement :=
        fun _ _ _ => rfl
      obtain ⟨workable, secure⟩ :=
        start_secure ignores isLocal.ownAvailability described begun
      obtain ⟨after, improved⟩ :=
        improve_of_secure ignores workable secure options.improvementPasses
      apply Edit.outcome_of_ok
      rw [place_eq_start, Edit.bind_of_ok begun]
      exact improved

end Greedy

namespace Layout

/-- Both placers succeed exactly when the constraint pass does and leaves enough
available bels of every type, as far as the greedy one can tell where the cells
are that were placed before. -/
theorem place_iff_capacity [Scalar κ] {layout : Layout κ}
    (isLocal : layout.fabric.device.LocalAvailability)
    (described : layout.fabric.device.Described) (options : PlaceOptions) :
    ((FirstFit.place .anyBel).outcome layout = .ok () ↔ layout.Placeable) ∧
      ((Greedy.place .anyBel options).outcome layout = .ok () →
        layout.Placeable) ∧
      (layout.Located → layout.Placeable →
        (Greedy.place .anyBel options).outcome layout = .ok ()) := by
  refine ⟨⟨?_, ?_⟩, ?_, ?_⟩
  · exact FirstFit.placeable_of_outcome isLocal described
  · exact FirstFit.outcome_of_placeable isLocal described
  · exact Greedy.placeable_of_outcome isLocal described
  · exact fun located placeable =>
      Greedy.outcome_of_placeable isLocal described located placeable options

/-- The greedy placer finds room for both cells, so first fit does, and so does
the greedy placer with other options. -/
theorem place_iff_capacity_of_halfFixed :
    (FirstFit.place .anyBel).outcome halfFixed = .ok () ∧
      (Greedy.place .anyBel ⟨7, true, 2, .preferFirst⟩).outcome halfFixed =
        .ok () := by
  have isLocal : halfFixed.fabric.device.LocalAvailability :=
    Grid.localAvailability _
  have described : halfFixed.fabric.device.Described := Grid.described _
  have located : halfFixed.Located := by
    constructor
    intro cell record bel found placed
    have bare : ∀ entry ∈ halfFixed.design.cells.toList, entry.2.bel = none := by
      decide
    rw [bare _ (Table.mem_toList_iff.mpr found)] at placed
    cases placed
  obtain ⟨_, run⟩ := Edit.run_of_isOk
    (by decide +kernel :
      ((Greedy.place .anyBel .default).outcome halfFixed).isOk = true)
  obtain ⟨firstFit, room, -⟩ := place_iff_capacity isLocal described .default
  have placeable := room (Edit.outcome_of_ok run)
  obtain ⟨-, -, greedy⟩ :=
    place_iff_capacity isLocal described ⟨7, true, 2, .preferFirst⟩
  exact ⟨firstFit.mpr placeable, greedy located placeable⟩

/-- A cell on a bel that is not of the device drives a cell without a bel. -/
def strayDriver : Layout Int :=
  let layout := twoCells ((Grid.uniform "g" 2 1 "LUT").device Int)
  let layout := layout.editDesign (Design.addPort ⟨1⟩ "Q" .output)
  let layout := layout.editDesign (Design.addPort ⟨3⟩ "D" .input)
  let layout := layout.editDesign (Design.createNet "n")
  let layout := layout.editDesign (Design.connectPort ⟨6⟩ ⟨1⟩ ⟨4⟩)
  let layout := layout.editDesign (Design.connectPort ⟨6⟩ ⟨3⟩ ⟨5⟩)
  match layout.design.cells.get? ⟨1⟩ with
  | none => layout
  | some record =>
      let stray := { record with bel := some ⟨999⟩ }
      { layout with design := layout.design.setCell ⟨1⟩ stray }

/-- The greedy placer asks where the driver is, first fit does not. -/
theorem strayDriver_fails_greedily :
    strayDriver.fabric.device.LocalAvailability ∧
      strayDriver.fabric.device.Described ∧ strayDriver.Placeable ∧
      (FirstFit.place .anyBel).outcome strayDriver = .ok () ∧
      (Greedy.place .anyBel .default).outcome strayDriver =
        .error (.fault (.bel ⟨999⟩)) := by
  have isLocal : strayDriver.fabric.device.LocalAvailability :=
    Grid.localAvailability (Grid.uniform "g" 2 1 "LUT")
  have described : strayDriver.fabric.device.Described :=
    Grid.described (Grid.uniform "g" 2 1 "LUT")
  have success : (FirstFit.place .anyBel).outcome strayDriver = .ok () := by
    decide +kernel
  refine ⟨isLocal, described, ?_, success, by decide +kernel⟩
  exact FirstFit.placeable_of_outcome isLocal described success

end Layout

end FpgaPlacer

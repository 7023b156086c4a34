import FpgaPlacer.Proofs.PlacementConsistency
import FpgaPlacer.Proofs.RenamedDesigns

/-!
# Placement depends on symbols through their order only

Both placers go over the cells in the order of their symbols, group them by type
name, read wiring costs through the tables, shuffle, and intern the location
attribute on their way.  None of this looks at a symbol itself.  So from two
layouts that differ by a renaming that keeps the order, they end in the same
way, in layouts that differ by the same renaming.
-/

namespace FpgaPlacer

variable {κ α β γ δ : Type}

/-! ## Runs side by side -/

/-- Two runs that end in the same way: with related answers or early for the same
reason, and in layouts in which placement sees the same thing. -/
inductive EndsRenamed (renames : Renaming) (keys : Symbol × Symbol)
    (related : α → β → Prop) :
    EStateM.Result (Stop DesignError) (Layout κ) α →
      EStateM.Result (Stop DesignError) (Layout κ) β → Prop where
  | answer {left : α} {right : β} {source target : Layout κ} (same : related left right)
      (alike : Layout.Alike renames keys source target) :
      EndsRenamed renames keys related (.ok left source) (.ok right target)
  | stopped (stop : Stop DesignError) {source target : Layout κ}
      (alike : Layout.Alike renames keys source target) :
      EndsRenamed renames keys related (.error stop source) (.error stop target)

variable {renames : Renaming} {keys : Symbol × Symbol} {related : α → β → Prop} {next : γ → δ → Prop}
  {source target : Layout κ}

theorem EndsRenamed.bind {first : LayoutEdit κ α} {second : LayoutEdit κ β}
    {rest : α → LayoutEdit κ γ} {other : β → LayoutEdit κ δ}
    (start : EndsRenamed renames keys related (first source) (second target))
    (continues : ∀ left right before after, related left right →
      Layout.Alike renames keys before after →
      EndsRenamed renames keys next (rest left before) (other right after)) :
    EndsRenamed renames keys next ((first >>= rest) source) ((second >>= other) target) := by
  cases run : first source with
  | ok left before =>
      rw [run] at start
      generalize copy : second target = result at start
      cases start with
      | answer same alike =>
          rw [Edit.bind_of_ok run, Edit.bind_of_ok copy]
          exact continues _ _ _ _ same alike
  | error stop before =>
      rw [run] at start
      generalize copy : second target = result at start
      cases start with
      | stopped _ alike =>
          rw [Edit.bind_of_error run, Edit.bind_of_error copy]
          exact .stopped stop alike

theorem EndsRenamed.reading {step other : Layout κ → Except (Stop DesignError) α}
    (alike : Layout.Alike renames keys source target) (same : other target = step source) :
    EndsRenamed renames keys Eq (Edit.reading step source) (Edit.reading other target) := by
  cases read : step source with
  | ok value =>
      rw [Edit.reading_of_ok read, Edit.reading_of_ok (same.trans read)]
      exact .answer rfl alike
  | error stop =>
      rw [Edit.reading_of_error read, Edit.reading_of_error (same.trans read)]
      exact .stopped stop alike

open Layout

section Steps

variable (alike : Layout.Alike renames keys source target) {symbol image : Symbol}
  (carries : renames.Carries symbol image)

include alike carries

theorem unbindBel_alike :
    EndsRenamed renames keys Eq (unbindBel symbol source) (unbindBel image target) := by
  obtain ⟨absent, missing⟩ | ⟨record, copy, found, present, cell⟩ :=
    alike.cell_cases carries
  · rw [unbindBel_of_absent absent, unbindBel_of_absent missing, alike.display carries]
    exact .stopped _ alike
  · rw [unbindBel_of_found found, unbindBel_of_found present]
    exact .answer rfl (alike.released carries cell)

theorem bindBel_alike (bel : BelId) (strength : Strength) :
    EndsRenamed renames keys Eq (bindBel symbol bel strength source)
      (bindBel image bel strength target) := by
  obtain ⟨absent, missing⟩ | ⟨record, copy, found, present, cell⟩ :=
    alike.cell_cases carries
  · rw [bindBel_of_absent absent, bindBel_of_absent missing, alike.display carries]
    exact .stopped _ alike
  · rw [bindBel_of_found found, bindBel_of_found present]
    exact .answer rfl (alike.bound carries cell bel strength)

theorem bindAndAnnotate_alike (bel : BelId) (strength : Strength) :
    EndsRenamed renames keys Eq (bindAndAnnotate symbol bel strength source)
      (bindAndAnnotate image bel strength target) := by
  obtain ⟨absent, missing⟩ | ⟨record, copy, found, present, cell⟩ :=
    alike.cell_cases carries
  · rw [bindAndAnnotate_of_absent absent, bindAndAnnotate_of_absent missing,
      alike.display carries]
    exact .stopped _ alike
  · have bound := alike.bound carries cell bel strength
    cases named : source.fabric.device.belName bel with
    | none =>
        have unnamed : target.fabric.device.belName bel = none := by
          rw [alike.device, named]
        rw [bindAndAnnotate_of_unnamed found named,
          bindAndAnnotate_of_unnamed present unnamed]
        have sourceSame : ((source.bound symbol record bel strength).intern
            locationAttribute).2 = source.bound symbol record bel strength := by
          simp only [Layout.intern, bound.sourceKnows.intern_eq]
        have targetSame : ((target.bound image copy bel strength).intern
            locationAttribute).2 = target.bound image copy bel strength := by
          simp only [Layout.intern, bound.targetKnows.intern_eq]
        rw [sourceSame, targetSame]
        exact .stopped _ bound
    | some text =>
        have renamed : target.fabric.device.belName bel = some text := by
          rw [alike.device, named]
        rw [bindAndAnnotate_of_named found named,
          bindAndAnnotate_of_named present renamed]
        exact .answer rfl (alike.assigned carries cell bel strength text)

end Steps

/-! ## Fixed locations -/

namespace Constraints

variable (alike : Layout.Alike renames keys source target)

include alike

theorem target_alike {record copy : Cell}
    (cellType : renames.Carries record.cellType copy.cellType) (name location : String) :
    Constraints.target target name copy location =
      Constraints.target source name record location := by
  unfold Constraints.target
  simp only [alike.typeFor cellType, alike.display cellType, Fabric.belType,
    Fabric.typeName, alike.device]

theorem placeCell_alike {symbol image : Symbol}
    (carries : renames.Carries symbol image) :
    EndsRenamed renames keys Eq (placeCell keys.1 symbol source)
      (placeCell keys.2 image target) := by
  rw [placeCell, Edit.bind_get, placeCell, Edit.bind_get]
  obtain ⟨absent, missing⟩ | ⟨record, copy, found, present, cell⟩ :=
    alike.cell_cases carries
  · simp only [absent, missing, alike.display carries]
    exact .stopped _ alike
  · simp only [found, present, cell.location]
    cases located : record.attrs.get? keys.1 with
    | none => exact .answer rfl alike
    | some location =>
        dsimp only
        rw [alike.display carries, cell.bel]
        apply EndsRenamed.bind (.reading alike (target_alike alike cell.cellType _ _))
        rintro bel _ before after rfl later
        have holders := alike.cellAt bel
        split
        · exact .answer rfl later
        · generalize source.fabric.cellAt bel = holder,
            target.fabric.cellAt bel = other at holders
          cases holders with
          | some occupant =>
              dsimp only
              rw [alike.display occupant]
              exact .stopped _ later
          | none =>
              apply EndsRenamed.bind (unbindBel_alike later carries)
              intro _ _ before after _ later
              apply EndsRenamed.bind (bindBel_alike later carries bel .user)
              intro _ _ before after _ later
              exact .answer rfl later

theorem placeCells_alike {cells copies : List Symbol}
    (carried : List.Forall₂ renames.Carries cells copies) :
    EndsRenamed renames keys (List.Forall₂ renames.Carries)
      (placeCells keys.1 cells source) (placeCells keys.2 copies target) := by
  induction carried generalizing source target with
  | nil => exact .answer .nil alike
  | cons carries rest induction =>
      apply EndsRenamed.bind (placeCell_alike alike carries)
      rintro placed _ before after rfl later
      apply EndsRenamed.bind (induction later)
      intro others copies before after images later
      cases placed with
      | false => exact .answer images later
      | true => exact .answer (.cons carries images) later

omit alike in
theorem place_alike (renamed : Layout.Renamed renames source target)
    (impartial : source.fabric.device.Impartial) :
    EndsRenamed renames (source.design.locationKey, target.design.locationKey)
      (List.Forall₂ renames.Carries) (place source) (place target) := by
  have alike := renamed.alike impartial
  rw [place, Edit.bind_modifyGet, Edit.bind_get, Edit.bind_modifyGet, Edit.bind_get]
  exact placeCells_alike alike alike.cells.keys

end Constraints

/-! ## First fit -/

namespace FirstFit

/-- The same bucket with its cells renamed. -/
structure Bucket.Alike (renames : Renaming) (source target : Bucket) : Prop where
  typeName : target.typeName = source.typeName
  belType : target.belType = source.belType
  cells : List.Forall₂ renames.Carries source.cells target.cells

section Alike

variable (alike : Layout.Alike renames keys source target)

include alike

theorem unplaced_alike :
    List.Forall₂ (renames.Entry (Cell.Alike renames keys)) (unplaced source.design)
      (unplaced target.design) := by
  apply List.rel_filter _ alike.cells
  intro left right entry
  dsimp only
  rw [entry.2.bel]

theorem checkTypes_alike {entries copies : List (Symbol × Cell)}
    (carried : List.Forall₂ (renames.Entry (Cell.Alike renames keys)) entries copies) :
    checkTypes target copies = checkTypes source entries := by
  induction carried with
  | nil => rfl
  | cons here rest induction =>
      rw [checkTypes, checkTypes, alike.typeFor here.2.cellType, induction]

theorem typeNames_alike {entries copies : List (Symbol × Cell)}
    (carried : List.Forall₂ (renames.Entry (Cell.Alike renames keys)) entries copies) :
    copies.map (fun entry => typeNameOf target.design entry.2) =
      entries.map (fun entry => typeNameOf source.design entry.2) := by
  induction carried with
  | nil => rfl
  | cons here rest induction =>
      have name : typeNameOf target.design _ = typeNameOf source.design _ :=
        alike.display here.2.cellType
      rw [List.map_cons, List.map_cons, name, induction]

theorem bucketOf_alike (typeName : String) (belType : BelType) :
    (bucketOf source typeName belType).Alike renames
      (bucketOf target typeName belType) := by
  refine ⟨rfl, rfl, ?_⟩
  apply List.forall₂_map_left_iff.mpr
  apply List.forall₂_map_right_iff.mpr
  refine List.Forall₂.imp (R := renames.Entry (Cell.Alike renames keys))
    (fun _ _ entry => entry.1) ?_
  apply List.rel_filter _ (unplaced_alike alike)
  intro left right entry
  have name : typeNameOf target.design right.2 = typeNameOf source.design left.2 :=
    alike.display entry.2.cellType
  dsimp only
  rw [name]

theorem buckets_alike :
    (∃ error, buckets source = .error error ∧ buckets target = .error error) ∨
      ∃ groups copies, buckets source = .ok groups ∧ buckets target = .ok copies ∧
        List.Forall₂ (Bucket.Alike renames) groups copies := by
  have entries := unplaced_alike alike
  have checked := checkTypes_alike alike entries
  have unfolded (layout : Layout κ) : buckets layout =
      (checkTypes layout (unplaced layout.design) >>= fun _ =>
        .ok ((sortedDistinct ((unplaced layout.design).map
          (fun entry => typeNameOf layout.design entry.2))).filterMap (fun typeName =>
            (layout.fabric.device.typeNamed typeName).map
              (bucketOf layout typeName)))) := rfl
  rw [unfolded, unfolded, checked, typeNames_alike alike entries, alike.device]
  cases checkTypes source (unplaced source.design) with
  | error error => exact .inl ⟨error, rfl, rfl⟩
  | ok value =>
      refine .inr ⟨_, _, rfl, rfl, ?_⟩
      apply List.rel_filterMap (R := Eq)
      · rintro typeName _ rfl
        dsimp only
        cases source.fabric.device.typeNamed typeName with
        | none => exact .none
        | some belType => exact .some (bucketOf_alike alike typeName belType)
      · exact List.forall₂_refl _

theorem admits_alike (belType : BelType) (symbol image : Symbol) :
    admits .anyBel target belType image = admits .anyBel source belType symbol := by
  funext bel
  simp only [admits, alike.available, alike.device, LegalityRule.anyBel]

end Alike

theorem placeCells_alike (alike : Layout.Alike renames keys source target)
    (typeName : String) (belType : BelType) {cells copies : List Symbol}
    (carried : List.Forall₂ renames.Carries cells copies) (bels : List BelId) :
    EndsRenamed renames keys Eq (placeCells .anyBel typeName belType cells bels source)
      (placeCells .anyBel typeName belType copies bels target) := by
  induction carried generalizing source target bels with
  | nil => exact .answer rfl alike
  | @cons cell copy _ _ carries rest induction =>
      rw [placeCells, Edit.bind_get, placeCells, Edit.bind_get,
        admits_alike alike belType cell copy]
      cases nextFit (admits .anyBel source belType cell) bels with
      | none => exact .stopped _ alike
      | some choice =>
          apply EndsRenamed.bind (bindAndAnnotate_alike alike carries choice.1 .weak)
          intro _ _ before after _ later
          exact induction later choice.2

theorem placeBuckets_alike (alike : Layout.Alike renames keys source target)
    (bels : List BelId) {groups copies : List Bucket}
    (carried : List.Forall₂ (Bucket.Alike renames) groups copies) :
    EndsRenamed renames keys Eq (placeBuckets .anyBel bels groups source)
      (placeBuckets .anyBel bels copies target) := by
  induction carried generalizing source target with
  | nil => exact .answer rfl alike
  | cons here rest induction =>
      rw [placeBuckets, placeBuckets, here.typeName, here.belType]
      apply EndsRenamed.bind (placeCells_alike alike _ _ here.cells bels)
      intro _ _ before after _ later
      exact induction later

theorem place_alike (renamed : Layout.Renamed renames source target)
    (impartial : source.fabric.device.Impartial) :
    EndsRenamed renames (source.design.locationKey, target.design.locationKey) Eq
      (place .anyBel source) (place .anyBel target) := by
  apply EndsRenamed.bind (Constraints.place_alike renamed impartial)
  intro _ _ before after _ alike
  rw [Edit.bind_get, Edit.bind_get]
  obtain ⟨error, failed, other⟩ | ⟨groups, copies, grouped, other, carried⟩ :=
    buckets_alike alike
  · rw [failed, other]
    exact .stopped _ alike
  · rw [grouped, other, alike.device]
    exact placeBuckets_alike alike _ carried

end FirstFit

/-! ## Greedy placement -/

namespace Greedy

theorem countedEnds_alike (fanoutLimit : Nat) {net copy : Net}
    (related : net.Alike renames copy) :
    List.Forall₂ (Option.Rel renames.Carries) (countedEnds fanoutLimit net)
      (countedEnds fanoutLimit copy) := by
  have fanout := related.users.length_eq
  rw [List.length_map, List.length_map] at fanout
  unfold countedEnds
  rw [fanout]
  refine .cons related.driver ?_
  split
  · exact related.users
  · exact .nil

section Alike

variable (alike : Layout.Alike renames keys source target)

include alike

theorem net_alike {net image : Option Symbol}
    (carried : Option.Rel renames.Carries net image) :
    Option.Rel (Net.Alike renames) (net.bind source.design.nets.get?)
      (image.bind target.design.nets.get?) := by
  cases carried with
  | none => exact .none
  | some carries => exact alike.nets.get? carries

/-- The same bels, as neither the order of the ports nor that of the net ends
changes. -/
theorem neighbourBels_alike (fanoutLimit : Nat) {record copy : Cell}
    (cell : record.Alike renames keys copy) :
    neighbourBels target.design fanoutLimit copy =
      neighbourBels source.design fanoutLimit record := by
  apply Eq.symm
  rw [← List.forall₂_eq_eq_eq]
  apply List.rel_flatMap cell.nets
  intro port image carried
  have nets := net_alike alike carried
  dsimp only
  generalize port.net.bind source.design.nets.get? = net,
    image.net.bind target.design.nets.get? = copy at nets
  cases nets with
  | none => exact .nil
  | some related =>
      apply List.rel_filterMap _ (countedEnds_alike fanoutLimit related)
      intro holder other carries
      rw [alike.belOf carries]
      cases source.design.belOf holder with
      | none => exact .none
      | some bel => exact .some rfl

variable [Scalar κ]

theorem cost_alike (fanoutLimit : Nat) {record copy : Cell}
    (cell : record.Alike renames keys copy) (position : Position κ) :
    cost target fanoutLimit copy position = cost source fanoutLimit record position := by
  unfold cost
  rw [neighbourBels_alike alike fanoutLimit cell]
  generalize neighbourBels source.design fanoutLimit record = bels, (Scalar.zero : κ) = total
  induction bels generalizing total with
  | nil => rfl
  | cons bel rest induction =>
      simp only [addDistances, Fabric.position, alike.device, induction]

theorem withCosts_alike (fanoutLimit : Nat) {record copy : Cell}
    (cell : record.Alike renames keys copy) (bels : List BelId) :
    withCosts target fanoutLimit copy bels = withCosts source fanoutLimit record bels := by
  induction bels with
  | nil => rfl
  | cons bel rest induction =>
      simp only [withCosts, Fabric.position, alike.device,
        cost_alike alike fanoutLimit cell, induction]

theorem choose_alike (options : PlaceOptions) {symbol image : Symbol}
    (carries : renames.Carries symbol image) {record copy : Cell}
    (cell : record.Alike renames keys copy) :
    choose .anyBel options image copy target =
      choose .anyBel options symbol record source := by
  have sameCandidates (belType : BelType) :
      candidates .anyBel target belType image = candidates .anyBel source belType symbol := by
    simp only [candidates, Device.belsOfType, alike.device, alike.available,
      LegalityRule.anyBel]
  unfold choose
  simp only [alike.typeFor cell.cellType, sameCandidates,
    withCosts_alike alike options.fanoutLimit cell, alike.display carries,
    alike.display cell.cellType]

theorem placeCell_alike (options : PlaceOptions) {symbol image : Symbol}
    (carries : renames.Carries symbol image) :
    EndsRenamed renames keys Eq (placeCell .anyBel options symbol source)
      (placeCell .anyBel options image target) := by
  rw [placeCell, Edit.bind_get, placeCell, Edit.bind_get]
  obtain ⟨absent, missing⟩ | ⟨record, copy, found, present, cell⟩ :=
    alike.cell_cases carries
  · simp only [absent, missing, alike.display carries]
    exact .stopped _ alike
  · simp only [found, present, cell.bel]
    apply EndsRenamed.bind (unbindBel_alike alike carries)
    intro _ _ before after _ released
    apply EndsRenamed.bind (.reading released (choose_alike released options carries cell))
    rintro bel _ before after rfl released
    apply EndsRenamed.bind (bindAndAnnotate_alike released carries bel .weak)
    intro _ _ before after _ assigned
    exact .answer rfl assigned

end Alike

variable [Scalar κ]

theorem placeUnplaced_alike (alike : Layout.Alike renames keys source target)
    (options : PlaceOptions) {cells copies : List Symbol}
    (carried : List.Forall₂ renames.Carries cells copies) :
    EndsRenamed renames keys (List.Forall₂ renames.Carries)
      (placeUnplaced .anyBel options cells source)
      (placeUnplaced .anyBel options copies target) := by
  induction carried generalizing source target with
  | nil => exact .answer .nil alike
  | cons carries rest induction =>
      rw [placeUnplaced, Edit.bind_get, placeUnplaced, Edit.bind_get,
        alike.belOf (.some carries)]
      split
      · exact induction alike
      · apply EndsRenamed.bind (placeCell_alike alike options carries)
        intro _ _ before after _ later
        apply EndsRenamed.bind (induction later)
        intro others images before after related last
        exact .answer (.cons carries related) last

theorem replaceAll_alike (alike : Layout.Alike renames keys source target)
    (options : PlaceOptions) {cells copies : List Symbol}
    (carried : List.Forall₂ renames.Carries cells copies) :
    EndsRenamed renames keys Eq (replaceAll .anyBel options cells source)
      (replaceAll .anyBel options copies target) := by
  induction carried generalizing source target with
  | nil => exact .answer rfl alike
  | cons carries rest induction =>
      rw [replaceAll, replaceAll]
      apply EndsRenamed.bind (placeCell_alike alike options carries)
      rintro moved _ before after rfl later
      apply EndsRenamed.bind (induction later)
      rintro others _ before after rfl last
      exact .answer rfl last

omit [Scalar κ] in
theorem shuffled_alike (alike : Layout.Alike renames keys source target)
    {cells copies : List Symbol}
    (carried : List.Forall₂ renames.Carries cells copies) :
    EndsRenamed renames keys (List.Forall₂ renames.Carries) (shuffled cells source)
      (shuffled copies target) := by
  obtain ⟨orders, drawn⟩ :=
    Generator.shuffle_carried carried source.design.random
  have random := alike.random
  change EndsRenamed renames keys _
    (.ok (source.design.random.shuffle cells).1
      (source.withRandom (source.design.random.shuffle cells).2))
    (.ok (target.design.random.shuffle copies).1
      (target.withRandom (target.design.random.shuffle copies).2))
  rw [random, drawn]
  exact .answer orders (alike.withRandom _)

theorem improve_alike (alike : Layout.Alike renames keys source target)
    (options : PlaceOptions) (passes : Nat) {cells copies : List Symbol}
    (carried : List.Forall₂ renames.Carries cells copies) :
    EndsRenamed renames keys Eq (improve .anyBel options passes cells source)
      (improve .anyBel options passes copies target) := by
  induction passes generalizing source target cells copies with
  | zero => exact .answer rfl alike
  | succ passes induction =>
      rw [improve, improve]
      apply EndsRenamed.bind (shuffled_alike alike carried)
      intro order images before after orders drawn
      apply EndsRenamed.bind (replaceAll_alike drawn options orders)
      rintro moved _ before after rfl later
      split
      · exact .answer rfl later
      · exact induction later orders

theorem place_alike (renamed : Layout.Renamed renames source target)
    (impartial : source.fabric.device.Impartial) (options : PlaceOptions) :
    EndsRenamed renames (source.design.locationKey, target.design.locationKey) Eq
      (place .anyBel options source) (place .anyBel options target) := by
  apply EndsRenamed.bind (Constraints.place_alike renamed impartial)
  intro _ _ before after _ alike
  rw [Edit.bind_get, Edit.bind_get]
  apply EndsRenamed.bind (placeUnplaced_alike alike options alike.cells.keys)
  intro placed images before after carried later
  exact improve_alike later options options.improvementPasses carried

end Greedy

/-! ## Both placers -/

namespace Layout

/-- How a cell is placed: its bel, how firmly it is held there, and its location
attribute. -/
def placement (layout : Layout κ) (cell : Symbol) :
    Option (Option BelId × Strength × Option String) :=
  (layout.design.cells.get? cell).map fun record =>
    (record.bel, record.strength, record.attrs.get? layout.design.locationKey)

/-- The edit ends in the same way from both layouts, early with the same error if so,
and corresponding cells end up placed in the same way. -/
structure SamePlacement (renames : Renaming) (edit : LayoutEdit κ Unit)
    (source target : Layout κ) : Prop where
  outcome : edit.outcome target = edit.outcome source
  cells : ∀ {symbol image}, renames.Carries symbol image →
    (edit.after target).placement image = (edit.after source).placement symbol

theorem Alike.placement_eq (alike : Layout.Alike renames keys source target)
    {symbol image : Symbol} (carries : renames.Carries symbol image) :
    target.placement image = source.placement symbol := by
  unfold Layout.placement
  obtain ⟨absent, missing⟩ | ⟨record, copy, found, present, cell⟩ :=
    alike.cell_cases carries
  · rw [absent, missing]
    rfl
  · rw [found, present, alike.sourceKey, alike.targetKey]
    simp only [Option.map_some, cell.bel, cell.strength, cell.location]

theorem samePlacement_of_endsRenamed {edit : LayoutEdit κ Unit}
    (ends : EndsRenamed renames keys Eq (edit source) (edit target)) :
    SamePlacement renames edit source target := by
  generalize run : edit source = first, copy : edit target = second at ends
  cases ends with
  | answer same alike =>
      constructor
      · rw [Edit.outcome_of_ok run, Edit.outcome_of_ok copy]
      · intro symbol image carries
        rw [Edit.after_of_ok run, Edit.after_of_ok copy]
        exact alike.placement_eq carries
  | stopped stop alike =>
      constructor
      · rw [Edit.outcome_of_error run, Edit.outcome_of_error copy]
      · intro symbol image carries
        rw [Edit.after_of_error run, Edit.after_of_error copy]
        exact alike.placement_eq carries

/-- Interning more names while a design is built changes nothing about how either
placer places it. -/
theorem same_placement_of_renamed [Scalar κ] (renamed : Renamed renames source target)
    (impartial : source.fabric.device.Impartial) :
    SamePlacement renames (FirstFit.place .anyBel) source target ∧
      ∀ options, SamePlacement renames (Greedy.place .anyBel options) source target := by
  constructor
  · exact samePlacement_of_endsRenamed (FirstFit.place_alike renamed impartial)
  · intro options
    exact samePlacement_of_endsRenamed (Greedy.place_alike renamed impartial options)

/-- Two cells on a device with one bel; the first drives a net. -/
def wiredPair : Layout Int :=
  GraphCall.run
    [.createCell "a" "LUT", .createCell "b" "LUT", .addPort ⟨1⟩ "Q" .output,
      .createNet "n", .connectPort ⟨5⟩ ⟨1⟩ ⟨4⟩] (fresh tinyDevice)

/-- The same with other names interned before the first cell and after it. -/
def paddedPair : Layout Int :=
  let layout :=
    ((fresh tinyDevice).intern "spare").2.editDesign (Design.createCell "a" "LUT")
  GraphCall.run
    [.createCell "b" "LUT", .addPort ⟨2⟩ "Q" .output, .createNet "n",
      .connectPort ⟨7⟩ ⟨2⟩ ⟨6⟩] (layout.intern "other").2

/-- The symbols of the one design in the other. -/
def padding : Renaming where
  known symbol := symbol ∈ Handle.range .name 6
  map symbol := .ofNat ([0, 2, 3, 5, 6, 7].getD symbol.toNat 0)
  increasing := by
    intro left right isLeft isRight less
    have all : ∀ left ∈ Handle.range .name 6, ∀ right ∈ Handle.range .name 6,
        left < right → (Handle.ofNat ([0, 2, 3, 5, 6, 7].getD left.toNat 0) : Symbol) <
          .ofNat ([0, 2, 3, 5, 6, 7].getD right.toNat 0) := by decide
    exact all left isLeft right isRight less

/-- The second cell finds no bel in either layout, and the first is placed alike. -/
theorem same_placement_of_paddedPair :
    (Greedy.place .anyBel .default).outcome paddedPair =
        .error (.failed (.noLegalBel "b" "LUT")) ∧
      ((Greedy.place .anyBel .default).after paddedPair).placement ⟨2⟩ =
        ((Greedy.place .anyBel .default).after wiredPair).placement ⟨1⟩ := by
  have carries (symbol image : Symbol) (known : symbol ∈ Handle.range .name 6)
      (same : image = padding.map symbol) : padding.Carries symbol image := ⟨known, same⟩
  have cellA := carries ⟨1⟩ ⟨2⟩ (by decide) rfl
  have cellType := carries ⟨2⟩ ⟨3⟩ (by decide) rfl
  have cellB := carries ⟨3⟩ ⟨5⟩ (by decide) rfl
  have port := carries ⟨4⟩ ⟨6⟩ (by decide) rfl
  have net := carries ⟨5⟩ ⟨7⟩ (by decide) rfl
  have names : ∀ symbol ∈ Handle.range .name 6,
      (wiredPair.design.names.resolve? symbol).isSome ∧
        paddedPair.design.names.resolve? (padding.map symbol) =
          wiredPair.design.names.resolve? symbol := by decide
  have renamed : Renamed padding wiredPair paddedPair := by
    refine ⟨⟨?_, ?_, ?_, rfl, by decide, by decide⟩, rfl, rfl⟩
    · rintro symbol _ ⟨known, rfl⟩
      obtain ⟨resolved, same⟩ := names symbol known
      obtain ⟨text, found⟩ := Option.isSome_iff_exists.mp resolved
      exact ⟨text, found, same.trans found⟩
    · exact .cons ⟨net, net, ⟨.some cellA, port, rfl⟩, .nil, .nil, rfl⟩ .nil
    · exact .cons ⟨cellA, cellA, cellType, rfl, rfl,
          .cons ⟨port, port, rfl, .some net⟩ .nil, .nil, .nil, .nil⟩
        (.cons ⟨cellB, cellB, cellType, rfl, rfl, .nil, .nil, .nil, .nil⟩ .nil)
  have impartial : tinyDevice.Impartial := Grid.impartial _
  obtain ⟨-, greedy⟩ := same_placement_of_renamed renamed impartial
  have same := greedy .default
  have crowded : (Greedy.place .anyBel .default).outcome wiredPair =
      .error (.failed (.noLegalBel "b" "LUT")) := rfl
  exact ⟨same.outcome.trans crowded, same.cells cellA⟩

end Layout

end FpgaPlacer

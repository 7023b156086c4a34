import FpgaPlacer.Proofs.EarlyStopping

/-!
# Moving a cell twice

A move first takes the cell off its bel, so a second move at once starts from
the layout in which the first one made its choice, up to two things: the name of
the location attribute has been interned, and the cell carries that attribute.
Costs and availability depend on neither, so the second move chooses the same
bel and restores the layout.  The one way to tell the two apart is the cell
type: a symbol that the design had not handed out stands for another type name
once the first move has handed it out.
-/

namespace FpgaPlacer

variable {κ : Type}

def Cell.unannotated (cell : Cell) (key : Symbol) : Cell :=
  { cell with attrs := cell.attrs.erase key }

namespace Layout

/-- The layouts agree in all but their names and the location attribute of one
cell. -/
structure UpToLocation (cell : Symbol) (left right : Layout κ) : Prop where
  fabric : right.fabric = left.fabric
  nets : right.design.nets = left.design.nets
  random : right.design.random = left.design.random
  seed : right.design.seed = left.design.seed
  locationKey : right.design.locationKey = left.design.locationKey
  others : ∀ other, other ≠ cell →
    right.design.cells.get? other = left.design.cells.get? other
  own : (right.design.cells.get? cell).map
      (·.unannotated left.design.locationKey) =
    (left.design.cells.get? cell).map (·.unannotated left.design.locationKey)

end Layout

/-- A rule that looks neither at names nor at the location attribute of the cell
it is asked about. -/
def LegalityRule.IgnoresLocation (rule : LegalityRule κ) : Prop :=
  ∀ {left right cell}, Layout.UpToLocation cell left right →
    ∀ bel, rule right cell bel = rule left cell bel

/-- Site rules that deny no bel to a cell by its name look at occupancy only. -/
theorem SiteRules.ignoresLocation [BEq κ] {rules : SiteRules}
    (nameless : ∀ denial ∈ rules.denied, denial.1 = none) :
    (rules.rule : LegalityRule κ).IgnoresLocation := by
  intro left right cell alike bel
  have denied : ∀ {one two}, rules.denies one bel = true →
      rules.denies two bel = true := by
    intro one two denial
    obtain ⟨⟨name, site⟩, member, meant⟩ := List.any_eq_true.mp denial
    cases nameless _ member
    exact List.any_eq_true.mpr ⟨(none, site), member, meant⟩
  have denials : rules.denies (right.design.display cell) bel =
      rules.denies (left.design.display cell) bel :=
    Bool.eq_iff_iff.mpr ⟨denied, denied⟩
  rw [rule, rule, denials, alike.fabric]

namespace Layout

namespace UpToLocation

variable {cell : Symbol} {left right : Layout κ}

theorem belOf (alike : UpToLocation cell left right) :
    right.design.belOf = left.design.belOf := by
  funext holder
  cases holder with
  | none => rfl
  | some other =>
      have bels : (right.design.cells.get? other).map Cell.bel =
          (left.design.cells.get? other).map Cell.bel := by
        by_cases same : other = cell
        · have bel := congrArg (Option.map Cell.bel) alike.own
          rw [Option.map_map, Option.map_map] at bel
          rw [same]
          exact bel
        · rw [alike.others other same]
      have joined := congrArg (fun found => found.bind id) bels
      rw [Option.bind_map, Option.bind_map] at joined
      exact joined

/-- Whatever has the ports of the cell has its neighbours too. -/
theorem neighbourBels (alike : UpToLocation cell left right)
    (fanoutLimit : Nat) {old new : Cell} (ports : new.ports = old.ports) :
    Greedy.neighbourBels right.design fanoutLimit new =
      Greedy.neighbourBels left.design fanoutLimit old := by
  simp only [Greedy.neighbourBels, ports, alike.nets, alike.belOf]

theorem candidates (alike : UpToLocation cell left right)
    {rule : LegalityRule κ} (ignores : rule.IgnoresLocation)
    (belType : BelType) :
    Greedy.candidates rule right belType cell =
      Greedy.candidates rule left belType cell := by
  rw [Greedy.candidates, Greedy.candidates, alike.fabric]
  apply List.filter_congr
  intro bel _
  rw [ignores alike bel]

variable [Scalar κ]

theorem withCosts (alike : UpToLocation cell left right) (fanoutLimit : Nat)
    {old new : Cell} (ports : new.ports = old.ports) (bels : List BelId) :
    Greedy.withCosts right fanoutLimit new bels =
      Greedy.withCosts left fanoutLimit old bels := by
  induction bels with
  | nil => rfl
  | cons bel rest induction =>
      simp only [Greedy.withCosts, Greedy.cost, induction, alike.fabric,
        alike.neighbourBels fanoutLimit ports]

/-- A cell of the same bel type is offered the same bels at the same costs. -/
theorem choose (alike : UpToLocation cell left right) {rule : LegalityRule κ}
    (ignores : rule.IgnoresLocation) {options : PlaceOptions} {old new : Cell}
    (ports : new.ports = old.ports)
    (types : right.typeFor new.cellType = left.typeFor old.cellType)
    {bel : BelId}
    (chosen : Greedy.choose rule options cell old left = .ok bel) :
    Greedy.choose rule options cell new right = .ok bel := by
  unfold Greedy.choose at chosen ⊢
  rw [types]
  cases typed : left.typeFor old.cellType with
  | error error =>
      rw [typed] at chosen
      cases chosen
  | ok belType =>
      rw [typed] at chosen
      dsimp only at chosen ⊢
      rw [alike.candidates ignores, alike.withCosts options.fanoutLimit ports]
      obtain ⟨priced, asked, answer⟩ := checked_bind_eq_ok_iff.mp chosen
      refine checked_bind_eq_ok_iff.mpr ⟨priced, asked, ?_⟩
      cases best : Greedy.cheapest options.tieBreak priced with
      | none =>
          rw [best] at answer
          cases answer
      | some first =>
          rw [best] at answer
          exact answer

end UpToLocation

variable {layout : Layout κ} {cell : Symbol} {record : Cell} {bel : BelId}
  {text : String}

def seatedRecord (layout : Layout κ) (record : Cell) (bel : BelId)
    (text : String) : Cell :=
  { record with
    bel := some bel, strength := .weak
    attrs := record.attrs.insert layout.design.locationKey text }

theorem get?_cells_seated :
    (layout.assigned cell record bel .weak text).design.cells.get? cell =
      some (layout.seatedRecord record bel text) := by
  rw [get?_cells_assigned, if_pos rfl]
  rfl

theorem assigned_seated :
    (layout.assigned cell record bel .weak text).assigned cell
        (layout.seatedRecord record bel text) bel .weak text =
      layout.assigned cell record bel .weak text := by
  have occupied : (layout.assigned cell record bel .weak
      text).fabric.occupancy.bels.get? bel = some ⟨cell, .weak⟩ := by
    rw [get?_bels_assigned, if_pos rfl]
  have key : (layout.assigned cell record bel .weak text).design.locationKey =
      layout.design.locationKey :=
    layout.design.locationKey_intern
  have annotated : (layout.seatedRecord record bel text).attrs.get?
      (layout.assigned cell record bel .weak text).design.locationKey =
        some text := by
    rw [key, seatedRecord, Table.get?_insert, if_pos rfl]
  exact assigned_eq_self layout.design.knowsLocation_intern get?_cells_seated rfl
    rfl occupied annotated

/-- Taking a cell off a bel that it has just been assigned leads back to where the
bel was chosen, up to the annotation. -/
theorem upToLocation_released
    (vacant : (layout.released cell record).fabric.cellAt bel = none) :
    UpToLocation cell (layout.released cell record)
      ((layout.assigned cell record bel .weak text).released cell
        (layout.seatedRecord record bel text)) := by
  have occupancy : ((releaseBel layout.fabric.occupancy record).bindBel bel cell
      .weak).unbindBel bel = releaseBel layout.fabric.occupancy record :=
    Occupancy.unbindBel_bindBel vacant cell .weak
  constructor
  · exact congrArg (Fabric.mk layout.fabric.device) occupancy
  · rfl
  · rfl
  · rfl
  · exact layout.design.locationKey_intern
  · intro other different
    rw [get?_cells_released, if_neg different, get?_cells_assigned,
      if_neg different, get?_cells_released, if_neg different]
  · rw [get?_cells_released, if_pos rfl, get?_cells_released, if_pos rfl]
    have attrs := Table.erase_insert_self record.attrs layout.design.locationKey text
    exact congrArg (fun attrs => some
      { record with bel := none, strength := .unbound, attrs }) attrs

/-- A cell type stands for the same bel type after an assignment, unless it is the
symbol that the assignment gives to the location attribute. -/
theorem typeFor_assigned {cellType : Symbol} {strength : Strength}
    (kept : layout.design.KnowsLocation ∨ cellType ≠ layout.design.locationKey) :
    (layout.assigned cell record bel strength text).typeFor cellType =
      layout.typeFor cellType := by
  have shown : (layout.assigned cell record bel strength text).design.display
      cellType = layout.design.display cellType := Interner.display_add kept
  simp only [typeFor, shown]
  rfl

end Layout

open Layout

namespace Greedy

variable [Scalar κ]

section Return

variable {rule : LegalityRule κ} {options : PlaceOptions} {cell : Symbol}
  {layout : Layout κ} {record : Cell} {bel : BelId} {text : String}

/-- A cell that has just been moved stays, if its type still stands for the same
bel type. -/
theorem placeCell_stays (ignores : rule.IgnoresLocation)
    (vacant : (layout.released cell record).fabric.cellAt bel = none)
    (chosen : choose rule options cell record (layout.released cell record) =
      .ok bel)
    (named : layout.fabric.device.belName bel = some text)
    (types : (layout.assigned cell record bel .weak text).typeFor
      record.cellType = layout.typeFor record.cellType) :
    placeCell rule options cell (layout.assigned cell record bel .weak text) =
      .ok false (layout.assigned cell record bel .weak text) := by
  have ports : (layout.seatedRecord record bel text).ports = record.ports := rfl
  have chosenAgain : choose rule options cell (layout.seatedRecord record bel text)
      ((layout.assigned cell record bel .weak text).released cell
        (layout.seatedRecord record bel text)) = .ok bel :=
    (upToLocation_released vacant).choose ignores ports types chosen
  have unmoved : false = decide
      ((layout.seatedRecord record bel text).bel ≠ some bel) := by
    simp [seatedRecord]
  exact placeCell_eq_ok_iff.mpr ⟨_, bel, text, get?_cells_seated, chosenAgain,
    named, unmoved, assigned_seated.symm⟩

/-- A cell that stays where it has just been moved is still of the same type:
both moves choose the same bel, and a bel is of one type. -/
theorem typeFor_of_stays (free : layout.fabric.device.AvailableIsFree)
    (suits : (layout.released cell record).Suits record.cellType bel)
    {reached : Layout κ}
    (stays : placeCell rule options cell
      (layout.assigned cell record bel .weak text) = .ok false reached) :
    (layout.assigned cell record bel .weak text).typeFor record.cellType =
      layout.typeFor record.cellType := by
  obtain ⟨_, site, _, found, chosen, -, unmoved, -⟩ :=
    placeCell_eq_ok_iff.mp stays
  rw [get?_cells_seated] at found
  cases found
  have stayed : some bel = some site :=
    Decidable.of_not_not (of_decide_eq_false unmoved.symm)
  cases stayed
  have freeAgain : ((layout.assigned cell record bel .weak text).released cell
      (layout.seatedRecord record bel text)).fabric.device.AvailableIsFree :=
    free
  obtain ⟨belType, typed, fits⟩ := suits.typed
  obtain ⟨later, typedLater, fitsLater⟩ := (choose_suits freeAgain chosen).typed
  have same : some later = some belType := fitsLater.symm.trans fits
  cases same
  exact typedLater.trans typed.symm

end Return

/-- A second move of a cell at once leaves it where it is and changes nothing,
if and only if the cell's type stands for the bel type that it stood for before
the first move.  It does so if the name of the location attribute was known, and
if the type is not the symbol that the first move gives to that name. -/
theorem placeCell_twice {rule : LegalityRule κ} {options : PlaceOptions}
    {cell : Symbol} {before after : Layout κ} {moved : Bool}
    (free : before.fabric.device.AvailableIsFree)
    (ignores : rule.IgnoresLocation)
    (run : placeCell rule options cell before = .ok moved after) :
    (placeCell rule options cell after = .ok false after ↔
      ∀ record, before.design.cells.get? cell = some record →
        after.typeFor record.cellType = before.typeFor record.cellType) ∧
    (before.design.KnowsLocation ∨
      (∀ record, before.design.cells.get? cell = some record →
        record.cellType ≠ before.design.locationKey) →
      placeCell rule options cell after = .ok false after) := by
  obtain ⟨record, bel, text, found, chosen, named, -, rfl⟩ :=
    placeCell_eq_ok_iff.mp run
  have freeAhead : (before.released cell record).fabric.device.AvailableIsFree :=
    free
  have suits := choose_suits freeAhead chosen
  constructor
  · constructor
    · intro stays other present
      rw [found] at present
      cases present
      exact typeFor_of_stays free suits stays
    · intro types
      exact placeCell_stays ignores suits.vacant chosen named
        (types record found)
  · intro kept
    apply placeCell_stays ignores suits.vacant chosen named
    apply typeFor_assigned
    exact kept.imp_right (fun other => other record found)

/-- Two cells on a device with two bels in one column. -/
def sharedColumn : Layout Int :=
  twoCells ((Grid.uniform "g" 1 2 "LUT").device Int)

/-- A rule that allows one cell in a column lets the cell return to its bel. -/
theorem placeCell_twice_of_sharedColumn :
    ∃ after,
      placeCell (SiteRules.rule ⟨[], some 1⟩) .default ⟨1⟩ sharedColumn =
        .ok true after ∧
      placeCell (SiteRules.rule ⟨[], some 1⟩) .default ⟨1⟩ after =
        .ok false after := by
  have ignores :
      (SiteRules.rule ⟨[], some 1⟩ : LegalityRule Int).IgnoresLocation :=
    SiteRules.ignoresLocation (by simp)
  have free : sharedColumn.fabric.device.AvailableIsFree := Grid.availableIsFree _
  have success : (placeCell (SiteRules.rule ⟨[], some 1⟩) .default ⟨1⟩).outcome
      sharedColumn = .ok true := rfl
  have run := Edit.outcome_eq_ok success
  obtain ⟨-, again⟩ := placeCell_twice free ignores run
  refine ⟨_, run, again (.inr ?_)⟩
  intro record found
  cases found
  decide

/-- A cell on a device that knows the text shown for the cell's type, although the
design has not handed out that symbol. -/
def foreignType : Layout Int :=
  let device := ((Grid.empty "g").addBel "B0" "<symbol 3>" 0 0).2.device Int
  let layout := (fresh device).editDesign (Design.createCell "a" "LUT")
  { layout with design := layout.design.setCell ⟨1⟩ (.unplaced ⟨1⟩ ⟨3⟩) }

/-- The first move hands the symbol out to the location attribute, so the second
finds a cell of another type and leaves it without a bel. -/
theorem placeCell_loses_foreignType :
    foreignType.fabric.device.AvailableIsFree ∧
      (@LegalityRule.anyBel Int).IgnoresLocation ∧
      ∃ after reached,
        placeCell .anyBel .default ⟨1⟩ foreignType = .ok true after ∧
        placeCell .anyBel .default ⟨1⟩ after =
          .error (.failed (.unknownBelType "BEL")) reached ∧
        after.design.belOf (some ⟨1⟩) = some ⟨0⟩ ∧
        reached.design.belOf (some ⟨1⟩) = none := by
  have ignores : (@LegalityRule.anyBel Int).IgnoresLocation :=
    fun _ _ => rfl
  exact ⟨Grid.availableIsFree _, ignores, _, _, rfl, rfl, rfl, rfl⟩

end Greedy

end FpgaPlacer

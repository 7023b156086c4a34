import FpgaPlacer.Proofs.PlacementChains

/-!
# Runs that succeed

The constraint pass fixes every cell with a location attribute.  After it, each
placer moves exactly the cells that are still without a bel, whatever its
legality rule and options.  Where available bels are free, these moves are
assignments.
-/

namespace FpgaPlacer

variable {κ : Type}

namespace Layout

/-! ## Fixed cells -/

/-- The cell is on the bel of that name, which has the type of the cell. -/
def FixedAt (layout : Layout κ) (cell : Symbol) (location : String) : Prop :=
  ∃ record bel belType, layout.design.cells.get? cell = some record ∧
    record.bel = some bel ∧
    layout.fabric.device.belNamed location = some bel ∧
    layout.typeFor record.cellType = .ok belType ∧
    layout.fabric.device.belType bel = some belType

theorem FixedAt.touches {before after : Layout κ} {cells : List Symbol}
    {cell : Symbol} {location : String} (fixed : before.FixedAt cell location)
    (touches : Touches cells before after) (outside : cell ∉ cells) :
    after.FixedAt cell location := by
  obtain ⟨record, bel, belType, found, placed, named, typed, fits⟩ := fixed
  refine ⟨record, bel, belType, ?_, placed, ?_, ?_, ?_⟩
  · rw [touches.others cell outside]
    exact found
  · rw [touches.device]
    exact named
  · rw [touches.typeFor]
    exact typed
  · rw [touches.device]
    exact fits

theorem touches_bound {layout : Layout κ} {cell : Symbol} {record : Cell}
    (found : layout.design.cells.get? cell = some record) (bel : BelId)
    (strength : Strength) :
    Touches [cell] layout (layout.bound cell record bel strength) := by
  have stored := fun query =>
    get?_cells_bound layout cell query record bel strength
  refine Touches.single ?_ ?_ found ?_ stored
  · rfl
  · rfl
  · rfl

end Layout

open Layout

namespace Constraints

/-- Exactly the cells with a location are answered, no other cell is touched,
and each of them ends up at its location. -/
structure Fixes (key : Symbol) (cells placed : List Symbol)
    (before after : Layout κ) : Prop where
  touches : Touches placed before after
  inside : ∀ cell ∈ placed, cell ∈ cells
  located : ∀ cell ∈ cells, ∃ record,
    before.design.cells.get? cell = some record ∧
      (cell ∈ placed ↔ record.attrs.get? key ≠ none) ∧
      ∀ location, record.attrs.get? key = some location →
        after.FixedAt cell location

theorem Fixes.skipped {key cell : Symbol} {layout : Layout κ} {record : Cell}
    (found : layout.design.cells.get? cell = some record)
    (free : record.attrs.get? key = none) :
    Fixes key [cell] [] layout layout := by
  apply Fixes.mk (.refl [] layout)
  · intro other none
    cases none
  · intro other same
    rw [List.mem_singleton] at same
    rw [same]
    refine ⟨record, found, ?_, ?_⟩
    · simp [free]
    · intro location located
      rw [free] at located
      cases located

theorem Fixes.single {key cell : Symbol} {before after : Layout κ}
    {record : Cell} {location : String}
    (found : before.design.cells.get? cell = some record)
    (located : record.attrs.get? key = some location)
    (touches : Touches [cell] before after)
    (fixed : after.FixedAt cell location) :
    Fixes key [cell] [cell] before after := by
  apply Fixes.mk touches
  · exact fun other same => same
  · intro other same
    rw [List.mem_singleton] at same
    rw [same]
    refine ⟨record, found, ?_, ?_⟩
    · simp [located]
    · intro other same
      rw [located] at same
      cases same
      exact fixed

theorem placeCell_ok {key cell : Symbol} {before after : Layout κ}
    {placed : Bool} (run : placeCell key cell before = .ok placed after) :
    Fixes key [cell] (if placed then [cell] else []) before after := by
  have ways := placeCell_run key cell before
  rw [run] at ways
  cases ways with
  | unlocated found free => exact .skipped found free
  | @kept record location bel found located aimed there =>
      obtain ⟨named, belType, typed, fits⟩ := target_eq_ok aimed
      apply Fixes.single found located (.refl [cell] before)
      exact ⟨record, bel, belType, found, there, named, typed, fits⟩
  | @moved record location bel found located aimed vacant =>
      obtain ⟨named, belType, typed, fits⟩ := target_eq_ok aimed
      have touches := touches_bound found bel .user
      apply Fixes.single found located touches
      have stored := get?_cells_bound before cell cell record bel .user
      rw [if_pos rfl] at stored
      refine ⟨_, bel, belType, stored, rfl, named, ?_, fits⟩
      rw [touches.typeFor]
      exact typed

/-- Two passes over different cells are one pass over all of them. -/
theorem Fixes.append {key : Symbol} {cells more placed others : List Symbol}
    {before middle after : Layout κ}
    (first : Fixes key cells placed before middle)
    (second : Fixes key more others middle after)
    (disjoint : ∀ cell ∈ cells, cell ∉ more) :
    Fixes key (cells ++ more) (placed ++ others) before after := by
  have notPlaced : ∀ cell ∈ more, cell ∉ placed := by
    intro cell inMore inPlaced
    exact disjoint cell (first.inside cell inPlaced) inMore
  have notOthers : ∀ cell ∈ cells, cell ∉ others := by
    intro cell inCells inOthers
    exact disjoint cell inCells (second.inside cell inOthers)
  apply Fixes.mk (first.touches.append second.touches)
  · intro cell member
    rw [List.mem_append] at member ⊢
    exact member.imp (first.inside cell) (second.inside cell)
  · intro cell member
    rcases List.mem_append.mp member with inCells | inMore
    · obtain ⟨record, found, answered, fixed⟩ := first.located cell inCells
      refine ⟨record, found, ?_, ?_⟩
      · rw [List.mem_append, or_iff_left (notOthers cell inCells)]
        exact answered
      · intro location located
        apply (fixed location located).touches second.touches
        exact notOthers cell inCells
    · obtain ⟨record, found, answered, fixed⟩ := second.located cell inMore
      refine ⟨record, ?_, ?_, fixed⟩
      · rw [← first.touches.others cell (notPlaced cell inMore)]
        exact found
      · rw [List.mem_append, or_iff_right (notPlaced cell inMore)]
        exact answered

theorem placeCells_ok {key : Symbol} {cells placed : List Symbol}
    {before after : Layout κ} (distinct : cells.Nodup)
    (run : placeCells key cells before = .ok placed after) :
    Fixes key cells placed before after := by
  induction cells generalizing placed before with
  | nil =>
      cases run
      apply Fixes.mk (.refl [] _)
      · simp
      · simp
  | cons cell rest induction =>
      obtain ⟨fresh, distinct⟩ := List.nodup_cons.mp distinct
      rw [placeCells] at run
      obtain ⟨here, middle, first, run⟩ := Edit.bind_eq_ok_iff.mp run
      obtain ⟨others, reached, second, run⟩ := Edit.bind_eq_ok_iff.mp run
      cases run
      have fixes := (placeCell_ok first).append (induction distinct second) (by
        intro other same
        rw [List.mem_singleton] at same
        rw [same]
        exact fresh)
      cases here with
      | true => exact fixes
      | false => exact fixes

theorem place_fixes {before after : Layout κ} {placed : List Symbol}
    (run : place before = .ok placed after) :
    after.design.KnowsLocation ∧
      Fixes before.design.locationKey before.design.cells.keys placed
        (before.intern locationAttribute).2 after := by
  have fixes := placeCells_ok (Table.nodup_keys _) run
  have knows : (before.intern locationAttribute).2.design.KnowsLocation :=
    Design.knowsLocation_intern before.design
  exact ⟨fixes.touches.knows knows, fixes⟩

theorem place_ok {before after : Layout κ} {placed : List Symbol}
    (free : before.fabric.device.AvailableIsFree)
    (run : place before = .ok placed after) :
    after.Ready ∧
      Fixes before.design.locationKey before.design.cells.keys placed
        (before.intern locationAttribute).2 after := by
  obtain ⟨knows, fixes⟩ := place_fixes run
  refine ⟨⟨?_, knows⟩, fixes⟩
  rw [fixes.touches.device]
  exact free

end Constraints

namespace FirstFit

theorem mem_sortedDistinct {texts : List String} {text : String} :
    text ∈ sortedDistinct texts ↔ text ∈ texts := by
  rw [sortedDistinct, List.mem_mergeSort, List.mem_eraseDups]

theorem mem_unplaced_iff {design : Design} {cell : Symbol} {record : Cell} :
    (cell, record) ∈ unplaced design ↔
      design.cells.get? cell = some record ∧ record.bel = none := by
  rw [unplaced, List.mem_filter, Table.mem_toList_iff, Option.isNone_iff_eq_none]

theorem typeFor_eq_ok_iff {layout : Layout κ} {cellType : Symbol}
    {belType : BelType} :
    layout.typeFor cellType = .ok belType ↔
      layout.fabric.device.typeNamed (layout.design.display cellType) =
        some belType := by
  cases known : layout.fabric.device.typeNamed
      (layout.design.display cellType) with
  | none => simp [Layout.typeFor, known]
  | some other => simp [Layout.typeFor, known]

theorem checkTypes_ok {layout : Layout κ} {entries : List (Symbol × Cell)}
    (passes : checkTypes layout entries = .ok ()) {entry : Symbol × Cell}
    (member : entry ∈ entries) :
    ∃ belType, layout.typeFor entry.2.cellType = .ok belType := by
  induction entries with
  | nil => cases member
  | cons first rest induction =>
      obtain ⟨belType, typed, later⟩ := checked_bind_eq_ok_iff.mp passes
      rcases List.mem_cons.mp member with same | inRest
      · rw [same]
        exact ⟨belType, typed⟩
      · exact induction later inRest

def bucketOf (layout : Layout κ) (typeName : String) (belType : BelType) :
    Bucket where
  typeName
  belType
  cells := ((unplaced layout.design).filter (fun entry =>
    Layout.typeNameOf layout.design entry.2 = typeName)).map Prod.fst

theorem mem_bucketOf_iff {layout : Layout κ} {typeName : String}
    {belType : BelType} {cell : Symbol} :
    cell ∈ (bucketOf layout typeName belType).cells ↔
      ∃ record, layout.design.cells.get? cell = some record ∧
        record.bel = none ∧
        layout.design.display record.cellType = typeName := by
  rw [bucketOf, List.mem_map]
  constructor
  · rintro ⟨⟨key, record⟩, filtered, rfl⟩
    obtain ⟨listed, typed⟩ := List.mem_filter.mp filtered
    obtain ⟨found, unplaced⟩ := mem_unplaced_iff.mp listed
    exact ⟨record, found, unplaced, of_decide_eq_true typed⟩
  · rintro ⟨record, found, unplaced, typed⟩
    refine ⟨(cell, record), ?_, rfl⟩
    rw [List.mem_filter, mem_unplaced_iff]
    exact ⟨⟨found, unplaced⟩, decide_eq_true typed⟩

/-- A bucket holds unplaced cells, all of its type. -/
def Bucket.Fits (layout : Layout κ) (bucket : Bucket) : Prop :=
  ∀ cell ∈ bucket.cells, ∃ record,
    layout.design.cells.get? cell = some record ∧ record.bel = none ∧
      layout.typeFor record.cellType = .ok bucket.belType

/-- Every bucket fits, and every unplaced cell is in a bucket. -/
theorem buckets_ok {layout : Layout κ} {groups : List Bucket}
    (grouped : buckets layout = .ok groups) :
    (∀ bucket ∈ groups, bucket.Fits layout) ∧
      ∀ cell record, layout.design.cells.get? cell = some record →
        record.bel = none → ∃ bucket ∈ groups, cell ∈ bucket.cells := by
  obtain ⟨known, answer⟩ := checked_then_eq_ok_iff.mp grouped
  cases answer
  constructor
  · intro bucket member cell inside
    obtain ⟨typeName, -, built⟩ := List.mem_filterMap.mp member
    obtain ⟨belType, named, same⟩ := Option.map_eq_some_iff.mp built
    cases same
    obtain ⟨record, found, unplaced, typed⟩ := mem_bucketOf_iff.mp inside
    refine ⟨record, found, unplaced, ?_⟩
    apply typeFor_eq_ok_iff.mpr
    rw [typed]
    exact named
  · intro cell record found unplaced
    have listed := mem_unplaced_iff.mpr ⟨found, unplaced⟩
    obtain ⟨belType, typed⟩ := checkTypes_ok known listed
    have named := typeFor_eq_ok_iff.mp typed
    refine ⟨bucketOf layout (layout.design.display record.cellType) belType,
      ?_, mem_bucketOf_iff.mpr ⟨record, found, unplaced, rfl⟩⟩
    apply List.mem_filterMap.mpr
    refine ⟨layout.design.display record.cellType, ?_, ?_⟩
    · apply mem_sortedDistinct.mpr
      exact List.mem_map_of_mem listed
    · rw [named]
      rfl

def HasType (layout : Layout κ) (belType : BelType) (cell : Symbol) : Prop :=
  ∀ record, layout.design.cells.get? cell = some record →
    layout.typeFor record.cellType = .ok belType

theorem HasType.touches {before after : Layout κ} {cells : List Symbol}
    {belType : BelType} {cell : Symbol} (typed : HasType before belType cell)
    (touches : Touches cells before after) : HasType after belType cell := by
  intro record present
  obtain ⟨old, found, same⟩ := touches.found present
  rw [touches.typeFor, ← same]
  exact typed old found

/-- First fit asks that the bel is one of the device, is admitted and has the
type of the cell. -/
def picks (rule : LegalityRule κ) : Layout.Picks κ :=
  fun layout cell record bel => ∃ belType,
    layout.typeFor record.cellType = .ok belType ∧
      bel ∈ layout.fabric.device.bels ∧ admits rule layout belType cell bel = true

theorem suits_of_picks {rule : LegalityRule κ} {layout : Layout κ}
    {cell : Symbol} {record : Cell} {bel : BelId}
    (free : layout.fabric.device.AvailableIsFree)
    (picked : picks rule layout cell record bel) :
    (layout.released cell record).Suits record.cellType bel := by
  obtain ⟨belType, typed, -, admitted⟩ := picked
  simp only [admits, Bool.and_eq_true, decide_eq_true_eq] at admitted
  obtain ⟨⟨fits, available⟩, -⟩ := admitted
  have vacant := free layout.fabric.occupancy bel available
  have suits : layout.Suits record.cellType bel := ⟨vacant, belType, typed, fits⟩
  exact suits.released cell record

theorem placeCells_cons_ok {rule : LegalityRule κ} {typeName : String}
    {belType : BelType} {cell : Symbol} {rest : List Symbol} {bels : List BelId}
    {before after : Layout κ}
    (run : placeCells rule typeName belType (cell :: rest) bels before =
      .ok () after) :
    ∃ bel others record text,
      nextFit (admits rule before belType cell) bels = some (bel, others) ∧
      before.design.cells.get? cell = some record ∧
      before.fabric.device.belName bel = some text ∧
      placeCells rule typeName belType rest others
        (before.assigned cell record bel .weak text) = .ok () after := by
  rw [placeCells, Edit.bind_get] at run
  cases next : nextFit (admits rule before belType cell) bels with
  | none =>
      rw [next] at run
      cases run
  | some choice =>
      obtain ⟨bel, others⟩ := choice
      rw [next] at run
      obtain ⟨_, middle, first, rest⟩ := Edit.bind_eq_ok_iff.mp run
      have ways := bindAndAnnotate_run cell bel .weak before
      rw [first] at ways
      cases ways with
      | assigned found named => exact ⟨bel, others, _, _, rfl, found, named, rest⟩

/-- The placer succeeds if and only if the fixed locations are bound, every type is
known and the buckets are emptied. -/
theorem place_eq_ok_iff {rule : LegalityRule κ} {before after : Layout κ} :
    place rule before = .ok () after ↔
      ∃ located middle groups, Constraints.place before = .ok located middle ∧
        buckets middle = .ok groups ∧
        placeBuckets rule middle.fabric.device.bels groups middle =
          .ok () after := by
  constructor
  · intro run
    obtain ⟨located, middle, pass, rest⟩ := Edit.bind_eq_ok_iff.mp run
    rw [Edit.bind_get] at rest
    cases grouped : buckets middle with
    | error error =>
        rw [grouped] at rest
        cases rest
    | ok groups =>
        rw [grouped] at rest
        exact ⟨located, middle, groups, pass, grouped, rest⟩
  · rintro ⟨located, middle, groups, pass, grouped, rest⟩
    rw [place, Edit.bind_of_ok pass, Edit.bind_get, grouped]
    exact rest

theorem placeCells_chain {rule : LegalityRule κ} {typeName : String}
    {belType : BelType} {cells : List Symbol} {bels : List BelId}
    {before after : Layout κ} (knows : before.design.KnowsLocation)
    (inside : ∀ bel ∈ bels, bel ∈ before.fabric.device.bels)
    (typed : ∀ cell ∈ cells, HasType before belType cell)
    (run : placeCells rule typeName belType cells bels before = .ok () after) :
    Chain (picks rule) cells before after := by
  induction cells generalizing bels before with
  | nil =>
      cases run
      exact .nil _
  | cons cell rest induction =>
      obtain ⟨bel, others, record, text, next, found, named, run⟩ :=
        placeCells_cons_ok run
      have accepted := nextFit_eq_some next
      obtain ⟨within, -⟩ := nextFit_ahead next
      have ofType := typed cell List.mem_cons_self record found
      have enumerated := inside bel (within bel List.mem_cons_self)
      have move : Moves (picks rule) cell before
          (before.assigned cell record bel .weak text) :=
        .intro found ⟨belType, ofType, enumerated, accepted⟩ named
      have touches := move.touches knows
      apply Chain.cons move
      apply induction (touches.knows knows) _ _ run
      · intro other later
        exact inside other (within other (List.mem_cons_of_mem bel later))
      · intro other later
        have earlier := typed other (List.mem_cons_of_mem cell later)
        exact earlier.touches touches

theorem placeBuckets_chain {rule : LegalityRule κ} {bels : List BelId}
    {groups : List Bucket} {before after : Layout κ}
    (knows : before.design.KnowsLocation)
    (inside : ∀ bel ∈ bels, bel ∈ before.fabric.device.bels)
    (typed : ∀ bucket ∈ groups, ∀ cell ∈ bucket.cells,
      HasType before bucket.belType cell)
    (run : placeBuckets rule bels groups before = .ok () after) :
    Chain (picks rule) (groups.flatMap Bucket.cells) before after := by
  induction groups generalizing before with
  | nil =>
      cases run
      exact .nil _
  | cons bucket rest induction =>
      rw [placeBuckets] at run
      obtain ⟨_, middle, first, run⟩ := Edit.bind_eq_ok_iff.mp run
      have here := placeCells_chain knows inside (typed bucket List.mem_cons_self)
        first
      have touches := here.touches knows
      rw [List.flatMap_cons]
      apply here.append
      apply induction (touches.knows knows) _ _ run
      · rw [touches.device]
        exact inside
      · intro other later cell member
        have earlier := typed other (List.mem_cons_of_mem bucket later) cell member
        exact earlier.touches touches

end FirstFit

namespace Layout

/-- The cells that move are exactly those without a bel at the start. -/
def Finishes (picks : Picks κ) (before after : Layout κ) : Prop :=
  ∃ visits, Chain picks visits before after ∧
    ∀ cell, cell ∈ visits ↔ ∃ record,
      before.design.cells.get? cell = some record ∧ record.bel = none

/-- The visited cells are exactly those without a bel at the start, and each
visit assigns one. -/
def Completes (before after : Layout κ) : Prop :=
  ∃ visits, Assignments visits before after ∧
    ∀ cell, cell ∈ visits ↔ ∃ record,
      before.design.cells.get? cell = some record ∧ record.bel = none

theorem Finishes.completes {picks : Picks κ} {before after : Layout κ}
    (finishes : Finishes picks before after) (ready : before.Ready)
    (suits : ∀ {layout : Layout κ} {cell record bel},
      layout.fabric.device.AvailableIsFree → picks layout cell record bel →
      (layout.released cell record).Suits record.cellType bel) :
    Completes before after := by
  obtain ⟨visits, run, visited⟩ := finishes
  exact ⟨visits, run.assignments ready suits, visited⟩

end Layout

theorem FirstFit.place_finishes {rule : LegalityRule κ} {before after : Layout κ}
    (run : place rule before = .ok () after) :
    ∃ placed middle, Constraints.place before = .ok placed middle ∧
      Finishes (picks rule) middle after := by
  obtain ⟨placed, middle, groups, fixed, grouped, run⟩ := place_eq_ok_iff.mp run
  obtain ⟨knows, -⟩ := Constraints.place_fixes fixed
  obtain ⟨fits, complete⟩ := buckets_ok grouped
  refine ⟨placed, middle, fixed, groups.flatMap Bucket.cells, ?_, ?_⟩
  · apply placeBuckets_chain knows (fun _ member => member) _ run
    intro bucket member cell inside record found
    obtain ⟨held, stored, -, typed⟩ := fits bucket member cell inside
    rw [found] at stored
    cases stored
    exact typed
  · intro cell
    rw [List.mem_flatMap]
    constructor
    · rintro ⟨bucket, member, inside⟩
      obtain ⟨record, found, unplaced, -⟩ := fits bucket member cell inside
      exact ⟨record, found, unplaced⟩
    · rintro ⟨record, found, unplaced⟩
      exact complete cell record found unplaced

theorem FirstFit.place_ok {rule : LegalityRule κ} {before after : Layout κ}
    (free : before.fabric.device.AvailableIsFree)
    (run : place rule before = .ok () after) :
    ∃ placed middle, Constraints.place before = .ok placed middle ∧
      middle.Completes after := by
  obtain ⟨placed, middle, fixed, finishes⟩ := place_finishes run
  obtain ⟨ready, -⟩ := Constraints.place_ok free fixed
  exact ⟨placed, middle, fixed, finishes.completes ready suits_of_picks⟩

/-! ## Shuffling -/

namespace Generator

theorem shuffleFrom_perm {α : Type} (place : Nat) (items : Array α)
    (generator : Generator) : (shuffleFrom place items generator).1.Perm items := by
  induction place generalizing items generator with
  | zero => exact .refl items
  | succ place induction =>
      apply (induction _ _).trans
      rw [Array.swapIfInBounds_def]
      split
      · split
        · exact Array.swap_perm _ _
        · exact .refl items
      · exact .refl items

theorem shuffle_perm {α : Type} (items : List α) (generator : Generator) :
    (shuffle items generator).1.Perm items := by
  have perm := shuffleFrom_perm (items.length - 1) items.toArray generator
  exact perm.toList

end Generator

namespace Greedy

theorem shuffled_ok (cells : List Symbol) (layout : Layout κ) :
    ∃ order random, shuffled cells layout = .ok order (layout.withRandom random) ∧
      ∀ cell, cell ∈ order ↔ cell ∈ cells := by
  refine ⟨_, (layout.design.random.shuffle cells).2, rfl, ?_⟩
  intro cell
  exact (Generator.shuffle_perm cells layout.design.random).mem_iff

variable [Scalar κ]

/-- The greedy placer picks the bel that it chooses once the cell has been
released. -/
def picks (rule : LegalityRule κ) (options : PlaceOptions) : Layout.Picks κ :=
  fun layout cell record bel =>
    choose rule options cell record (layout.released cell record) = .ok bel

theorem suits_of_picks {rule : LegalityRule κ} {options : PlaceOptions}
    {layout : Layout κ} {cell : Symbol} {record : Cell} {bel : BelId}
    (free : layout.fabric.device.AvailableIsFree)
    (picked : picks rule options layout cell record bel) :
    (layout.released cell record).Suits record.cellType bel :=
  choose_suits free picked

theorem moves_of_placeCell {rule : LegalityRule κ} {options : PlaceOptions}
    {cell : Symbol} {before after : Layout κ} {moved : Bool}
    (run : placeCell rule options cell before = .ok moved after) :
    Moves (picks rule options) cell before after := by
  obtain ⟨record, bel, text, found, chosen, named, -, rfl⟩ :=
    placeCell_eq_ok_iff.mp run
  exact .intro found chosen named

theorem replaceAll_chain {rule : LegalityRule κ} {options : PlaceOptions}
    {cells : List Symbol} {before after : Layout κ} {moved : Nat}
    (run : replaceAll rule options cells before = .ok moved after) :
    Chain (picks rule options) cells before after := by
  induction cells generalizing before moved with
  | nil =>
      cases run
      exact .nil _
  | cons cell rest induction =>
      rw [replaceAll] at run
      obtain ⟨here, middle, first, run⟩ := Edit.bind_eq_ok_iff.mp run
      obtain ⟨others, reached, second, run⟩ := Edit.bind_eq_ok_iff.mp run
      cases run
      exact .cons (moves_of_placeCell first) (induction second)

theorem replaceAll_ok {rule : LegalityRule κ} {options : PlaceOptions}
    {cells : List Symbol} {before after : Layout κ} {moved : Nat}
    (ready : before.Ready)
    (run : replaceAll rule options cells before = .ok moved after) :
    Assignments cells before after :=
  (replaceAll_chain run).assignments ready suits_of_picks

theorem improve_chain {rule : LegalityRule κ} {options : PlaceOptions}
    {passes : Nat} {cells : List Symbol} {before after : Layout κ}
    (run : improve rule options passes cells before = .ok () after) :
    ∃ visits, Chain (picks rule options) visits before after ∧
      ∀ cell ∈ visits, cell ∈ cells := by
  induction passes generalizing cells before with
  | zero =>
      cases run
      exact ⟨[], .nil _, by simp⟩
  | succ passes induction =>
      obtain ⟨order, random, drawn, members⟩ := shuffled_ok cells before
      rw [improve, Edit.bind_of_ok drawn] at run
      obtain ⟨moved, middle, first, run⟩ := Edit.bind_eq_ok_iff.mp run
      have pass := replaceAll_chain first
      split at run
      · cases run
        refine ⟨order, .draw random pass, ?_⟩
        exact fun cell visited => (members cell).mp visited
      · obtain ⟨visits, later, inside⟩ := induction run
        refine ⟨order ++ visits, .draw random (pass.append later), ?_⟩
        intro cell visited
        apply (members cell).mp
        rcases List.mem_append.mp visited with inOrder | inVisits
        · exact inOrder
        · exact inside cell inVisits

/-- The answer of the first placement lists the cells that had no bel, each of
them moved once. -/
theorem placeUnplaced_chain {rule : LegalityRule κ} {options : PlaceOptions}
    {cells placed : List Symbol} {before after : Layout κ}
    (distinct : cells.Nodup)
    (run : placeUnplaced rule options cells before = .ok placed after) :
    Chain (picks rule options) placed before after ∧
      ∀ cell, cell ∈ placed ↔
        cell ∈ cells ∧ before.design.belOf (some cell) = none := by
  induction cells generalizing before placed with
  | nil =>
      cases run
      exact ⟨.nil _, by simp⟩
  | cons cell rest induction =>
      obtain ⟨fresh, distinct⟩ := List.nodup_cons.mp distinct
      rw [placeUnplaced, Edit.bind_get] at run
      cases placedAlready : before.design.belOf (some cell) with
      | some bel =>
          rw [placedAlready] at run
          obtain ⟨later, members⟩ := induction distinct run
          refine ⟨later, ?_⟩
          intro other
          rw [members, List.mem_cons]
          constructor
          · exact fun listed => ⟨.inr listed.1, listed.2⟩
          · rintro ⟨rfl | inRest, unplaced⟩
            · rw [placedAlready] at unplaced
              cases unplaced
            · exact ⟨inRest, unplaced⟩
      | none =>
          rw [placedAlready] at run
          obtain ⟨moved, middle, first, run⟩ := Edit.bind_eq_ok_iff.mp run
          obtain ⟨others, reached, second, run⟩ := Edit.bind_eq_ok_iff.mp run
          cases run
          have move := moves_of_placeCell first
          obtain ⟨later, members⟩ := induction distinct second
          refine ⟨.cons move later, ?_⟩
          intro other
          rw [List.mem_cons, members, List.mem_cons]
          by_cases same : other = cell
          · simp [same, placedAlready]
          · rw [move.belOf_other same]
            simp [same]

theorem placeUnplaced_ok {rule : LegalityRule κ} {options : PlaceOptions}
    {cells placed : List Symbol} {before after : Layout κ}
    (ready : before.Ready) (distinct : cells.Nodup)
    (run : placeUnplaced rule options cells before = .ok placed after) :
    Assignments placed before after ∧
      ∀ cell, cell ∈ placed ↔
        cell ∈ cells ∧ before.design.belOf (some cell) = none := by
  obtain ⟨chain, members⟩ := placeUnplaced_chain distinct run
  exact ⟨chain.assignments ready suits_of_picks, members⟩

/-- Run over the whole table, the first placement visits exactly the cells
without a bel. -/
theorem mem_placed_iff {rule : LegalityRule κ} {options : PlaceOptions}
    {placed : List Symbol} {before after : Layout κ}
    (run : placeUnplaced rule options before.design.cells.keys before =
      .ok placed after) (cell : Symbol) :
    cell ∈ placed ↔ ∃ record,
      before.design.cells.get? cell = some record ∧ record.bel = none := by
  obtain ⟨-, members⟩ := placeUnplaced_chain (Table.nodup_keys _) run
  rw [members, Table.mem_keys_iff]
  constructor
  · rintro ⟨⟨record, found⟩, bare⟩
    rw [Design.belOf_of_found found] at bare
    exact ⟨record, found, bare⟩
  · rintro ⟨record, found, bare⟩
    refine ⟨⟨record, found⟩, ?_⟩
    rw [Design.belOf_of_found found]
    exact bare

theorem place_finishes {rule : LegalityRule κ} {options : PlaceOptions}
    {before after : Layout κ} (run : place rule options before = .ok () after) :
    ∃ placed middle, Constraints.place before = .ok placed middle ∧
      Finishes (picks rule options) middle after := by
  obtain ⟨located, middle, fixed, run⟩ := Edit.bind_eq_ok_iff.mp run
  refine ⟨located, middle, fixed, ?_⟩
  rw [Edit.bind_get] at run
  obtain ⟨placed, reached, first, run⟩ := Edit.bind_eq_ok_iff.mp run
  obtain ⟨chain, -⟩ := placeUnplaced_chain (Table.nodup_keys _) first
  obtain ⟨visits, improved, inside⟩ := improve_chain run
  refine ⟨placed ++ visits, chain.append improved, ?_⟩
  intro cell
  rw [List.mem_append, or_iff_left_of_imp (inside cell)]
  exact mem_placed_iff first cell

theorem place_ok {rule : LegalityRule κ} {options : PlaceOptions}
    {before after : Layout κ} (free : before.fabric.device.AvailableIsFree)
    (run : place rule options before = .ok () after) :
    ∃ placed middle, Constraints.place before = .ok placed middle ∧
      middle.Completes after := by
  obtain ⟨placed, middle, fixed, finishes⟩ := place_finishes run
  obtain ⟨ready, -⟩ := Constraints.place_ok free fixed
  exact ⟨placed, middle, fixed, finishes.completes ready suits_of_picks⟩

end Greedy

end FpgaPlacer

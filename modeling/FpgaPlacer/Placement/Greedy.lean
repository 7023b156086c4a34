import FpgaPlacer.Config.Basic
import FpgaPlacer.Placement.Constraints
import FpgaPlacer.Placement.Legality

/-!
# Greedy placement

Each cell goes to the free legal bel of its type that is cheapest, by Manhattan
distance to its placed neighbours.  Cells placed early see few neighbours, so
the cells placed here are placed again in a bounded number of improvement
passes, each in a fresh random order.
-/

namespace FpgaPlacer

/-- Tuning of the greedy placer. -/
structure PlaceOptions where
  improvementPasses : Nat
  stopWhenStable : Bool
  fanoutLimit : Nat
  tieBreak : TieBreak
  deriving DecidableEq

/-- The options that a configuration asks for. -/
def PlaceConfig.options (config : PlaceConfig) : PlaceOptions where
  improvementPasses := config.improvementPasses
  stopWhenStable := config.stopWhenStable
  fanoutLimit := config.fanoutLimit
  tieBreak := config.tieBreak

/-- The options of the default configuration. -/
def PlaceOptions.default : PlaceOptions := PlaceConfig.default.options

namespace Greedy

variable {κ : Type} [Scalar κ]

/-- The cells at the ends of a net that count towards wiring cost: the driver,
and the users of a net with fewer than `fanoutLimit` of them. -/
def countedEnds (fanoutLimit : Nat) (net : Net) : List (Option Symbol) :=
  net.driver.cell ::
    if net.users.length < fanoutLimit then net.users.map NetEnd.cell else []

/-- The bels of the placed neighbours of a cell, one per counted net end. -/
def neighbourBels (design : Design) (fanoutLimit : Nat) (cell : Cell) :
    List BelId :=
  cell.ports.values.flatMap (fun port =>
    match port.net.bind design.nets.get? with
    | none => []
    | some net => (countedEnds fanoutLimit net).filterMap design.belOf)

/-- Adds the distances from a position to the given bels, in order. -/
def addDistances (fabric : Fabric κ) (position : Position κ) :
    κ → List BelId → Query κ
  | cost, [] => .ok cost
  | cost, bel :: rest => do
      let other ← fabric.position bel
      addDistances fabric position (Scalar.add cost (position.manhattan other)) rest

/-- The estimated wiring cost of a cell at a position. -/
def cost (layout : Layout κ) (fanoutLimit : Nat) (cell : Cell)
    (position : Position κ) : Query κ :=
  addDistances layout.fabric position Scalar.zero
    (neighbourBels layout.design fanoutLimit cell)

/-- The bels that a cell may be bound to, in enumeration order. -/
def candidates (rule : LegalityRule κ) (layout : Layout κ) (belType : BelType)
    (cell : Symbol) : List BelId :=
  (layout.fabric.device.belsOfType belType).filter
    (fun bel => layout.fabric.available bel && rule layout cell bel)

/-- Pairs each bel with its cost. -/
def withCosts (layout : Layout κ) (fanoutLimit : Nat) (cell : Cell) :
    List BelId → Query (List (BelId × κ))
  | [] => .ok []
  | bel :: rest => do
      let position ← layout.fabric.position bel
      let cost ← cost layout fanoutLimit cell position
      let others ← withCosts layout fanoutLimit cell rest
      return (bel, cost) :: others

/-- Whether a later candidate replaces the best one so far. -/
def replaces (tieBreak : TieBreak) (cost best : κ) : Bool :=
  match tieBreak with
  | .preferLast => Scalar.atMost cost best
  | .preferFirst => Scalar.below cost best

/-- The cheapest of the candidates, given the best one so far. -/
def cheapestFrom (tieBreak : TieBreak) (best : BelId × κ) :
    List (BelId × κ) → BelId × κ
  | [] => best
  | candidate :: rest =>
      cheapestFrom tieBreak
        (if replaces tieBreak candidate.2 best.2 then candidate else best) rest

/-- The cheapest candidate, ties broken as asked. -/
def cheapest (tieBreak : TieBreak) : List (BelId × κ) → Option BelId
  | [] => none
  | candidate :: rest => some (cheapestFrom tieBreak candidate rest).1

/-- The bel that an unbound cell should go to. -/
def choose (rule : LegalityRule κ) (options : PlaceOptions) (cell : Symbol)
    (record : Cell) (layout : Layout κ) : Except (Stop DesignError) BelId := do
  match layout.typeFor record.cellType with
  | .error error => throw (.failed error)
  | .ok belType =>
      let priced ← (withCosts layout options.fanoutLimit record
        (candidates rule layout belType cell)).stop
      match cheapest options.tieBreak priced with
      | some bel => return bel
      | none =>
          throw (.failed (.noLegalBel (layout.design.display cell)
            (layout.design.display record.cellType)))

/-- Moves a cell to the cheapest free legal bel of its type and tells whether
that is another bel than before.  The cell is released first, so its own bel
competes with the others. -/
def placeCell (rule : LegalityRule κ) (options : PlaceOptions) (cell : Symbol) :
    LayoutEdit κ Bool := do
  let before ← get
  match before.design.cells.get? cell with
  | none => Edit.fail (.unknownCell (before.design.display cell))
  | some record =>
      Layout.unbindBel cell
      let bel ← Edit.reading (choose rule options cell record)
      Layout.bindAndAnnotate cell bel .weak
      return decide (record.bel ≠ some bel)

/-- Places those of the given cells that have no bel; the answer lists them. -/
def placeUnplaced (rule : LegalityRule κ) (options : PlaceOptions) :
    List Symbol → LayoutEdit κ (List Symbol)
  | [] => return []
  | cell :: rest => do
      let layout ← get
      if (layout.design.belOf (some cell)).isSome then
        placeUnplaced rule options rest
      else do
        let _ ← placeCell rule options cell
        let others ← placeUnplaced rule options rest
        return cell :: others

/-- Places each of the given cells again and counts those that moved. -/
def replaceAll (rule : LegalityRule κ) (options : PlaceOptions) :
    List Symbol → LayoutEdit κ Nat
  | [] => return 0
  | cell :: rest => do
      let moved ← placeCell rule options cell
      let others ← replaceAll rule options rest
      return (if moved then 1 else 0) + others

/-- Rearranges a list with the generator of the design. -/
def shuffled (cells : List Symbol) : LayoutEdit κ (List Symbol) :=
  modifyGet (fun layout =>
    let (cells, design) := layout.design.shuffle cells
    (cells, { layout with design }))

/-- Runs at most the given number of improvement passes. -/
def improve (rule : LegalityRule κ) (options : PlaceOptions) :
    Nat → List Symbol → LayoutEdit κ Unit
  | 0, _ => return
  | passes + 1, cells => do
      let cells ← shuffled cells
      let moved ← replaceAll rule options cells
      if options.stopWhenStable && moved == 0 then
        return
      improve rule options passes cells

/-- Binds the fixed locations, places every other unplaced cell in table
order, and improves the cells placed here. -/
def place (rule : LegalityRule κ) (options : PlaceOptions) : LayoutEdit κ Unit := do
  let _ ← Constraints.place
  let layout ← get
  let placed ← placeUnplaced rule options layout.design.cells.keys
  improve rule options options.improvementPasses placed

end Greedy

end FpgaPlacer

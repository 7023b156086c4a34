import FpgaPlacer.Layout.Utilisation
import FpgaPlacer.Placement.Constraints
import FpgaPlacer.Placement.Legality

/-!
# First-fit placement

The unplaced cells are grouped by type name.  For each type, in order of name,
one walk over the bels of the device hands the next free legal bel to the next
cell; a bel that was passed over is not looked at again by that type.
-/

namespace FpgaPlacer.FirstFit

variable {κ : Type}

/-- The unplaced cells of one type, in table order. -/
structure Bucket where
  typeName : String
  belType : BelType
  cells : List Symbol

/-- The entries of the cells without a bel, in table order. -/
def unplaced (design : Design) : List (Symbol × Cell) :=
  design.cells.toList.filter (fun entry => entry.2.bel.isNone)

/-- Checks that every type has bels; the first cell without them is reported. -/
def checkTypes (layout : Layout κ) : List (Symbol × Cell) → Except DesignError Unit
  | [] => .ok ()
  | (_, cell) :: rest => do
      let _ ← layout.typeFor cell.cellType
      checkTypes layout rest

/-- The unplaced cells grouped by type, in increasing order of type name. -/
def buckets (layout : Layout κ) : Except DesignError (List Bucket) := do
  let entries := unplaced layout.design
  checkTypes layout entries
  let typeNames := sortedDistinct
    (entries.map (fun entry => Layout.typeNameOf layout.design entry.2))
  return typeNames.filterMap (fun typeName =>
    (layout.fabric.device.typeNamed typeName).map (fun belType =>
      { typeName, belType
        cells := (entries.filter (fun entry =>
          Layout.typeNameOf layout.design entry.2 = typeName)).map Prod.fst }))

/-- Whether a cell may be bound to a bel of a type. -/
def admits (rule : LegalityRule κ) (layout : Layout κ) (belType : BelType)
    (cell : Symbol) (bel : BelId) : Bool :=
  layout.fabric.device.belType bel = some belType &&
    layout.fabric.available bel && rule layout cell bel

/-- The first bel that passes a test, with the bels after it. -/
def nextFit (accepts : BelId → Bool) : List BelId → Option (BelId × List BelId)
  | [] => none
  | bel :: rest => if accepts bel then some (bel, rest) else nextFit accepts rest

/-- Places the cells of one type, walking once over the given bels. -/
def placeCells (rule : LegalityRule κ) (typeName : String) (belType : BelType) :
    List Symbol → List BelId → LayoutEdit κ Unit
  | [], _ => return
  | cell :: rest, bels => do
      let layout ← get
      match nextFit (admits rule layout belType cell) bels with
      | none => Edit.fail (.tooManyCells typeName)
      | some (bel, bels) =>
          Layout.bindAndAnnotate cell bel .weak
          placeCells rule typeName belType rest bels

/-- Places the cells of each bucket, starting from the first bel each time. -/
def placeBuckets (rule : LegalityRule κ) (bels : List BelId) :
    List Bucket → LayoutEdit κ Unit
  | [] => return
  | bucket :: rest => do
      placeCells rule bucket.typeName bucket.belType bucket.cells bels
      placeBuckets rule bels rest

/-- Binds the fixed locations, then places every other unplaced cell. -/
def place (rule : LegalityRule κ) : LayoutEdit κ Unit := do
  let _ ← Constraints.place
  let layout ← get
  match buckets layout with
  | .error error => Edit.fail error
  | .ok buckets => placeBuckets rule layout.fabric.device.bels buckets

end FpgaPlacer.FirstFit

import FpgaPlacer.Error.Design
import FpgaPlacer.Error.Edit
import FpgaPlacer.Interner
import FpgaPlacer.Netlist
import FpgaPlacer.Random.Generator

/-!
# The physical-design graph

A design owns its names, its net and cell tables and the random generator of
its placement runs.  The empty string is always the first name; it stands for
the port of a net that nothing drives.
-/

namespace FpgaPlacer

/-- One physical-design graph. -/
structure Design where
  names : Interner
  nets : Table .name Net
  cells : Table .name Cell
  random : Generator
  seed : UInt64

namespace Design

/-- The seed of a design until another is set. -/
def defaultSeed : UInt64 := 1

/-- The symbol of the empty string in every design. -/
def emptyName : Symbol := .ofNat 0

/-- A design without nets and cells. -/
def empty : Design where
  names := Interner.empty.add ""
  nets := .empty
  cells := .empty
  random := .ofSeed defaultSeed
  seed := defaultSeed

/-- The symbol of a name, together with the design that knows it. -/
def intern (design : Design) (text : String) : Symbol × Design :=
  let (symbol, names) := design.names.intern text
  (symbol, { design with names })

/-- The text shown for a symbol. -/
def display (design : Design) (symbol : Symbol) : String :=
  design.names.display symbol

/-- The text of a symbol of this design. -/
def name (design : Design) (symbol : Symbol) : Query String :=
  .ofOption (.symbol symbol) (design.names.resolve? symbol)

/-- The text of a symbol, or the reason why it has none. -/
def name? (design : Design) (symbol : Symbol) : Except InternalError String :=
  match design.names.resolve? symbol with
  | some text => .ok text
  | none => .error (.symbolOutOfRange symbol design.names.size)

/-- The record of a cell that has to exist. -/
def cell (design : Design) (symbol : Symbol) : Except DesignError Cell :=
  match design.cells.get? symbol with
  | some cell => .ok cell
  | none => .error (.unknownCell (design.display symbol))

/-- The record of a net that has to exist. -/
def net (design : Design) (symbol : Symbol) : Except DesignError Net :=
  match design.nets.get? symbol with
  | some net => .ok net
  | none => .error (.unknownNet (design.display symbol))

/-- Stores a cell record. -/
def setCell (design : Design) (symbol : Symbol) (cell : Cell) : Design :=
  { design with cells := design.cells.insert symbol cell }

/-- Stores a net record. -/
def setNet (design : Design) (symbol : Symbol) (net : Net) : Design :=
  { design with nets := design.nets.insert symbol net }

/-- The bel of a placed cell. -/
def belOf (design : Design) (symbol : Option Symbol) : Option BelId := do
  let cell ← design.cells.get? (← symbol)
  cell.bel

/-- Starts the generator afresh from a seed. -/
def reseed (design : Design) (seed : UInt64) : Design :=
  { design with random := .ofSeed seed, seed }

/-- Rearranges a list with the generator of the design. -/
def shuffle {α : Type} (design : Design) (items : List α) : List α × Design :=
  let (shuffled, random) := design.random.shuffle items
  (shuffled, { design with random })

/-- The short summary of a design. -/
def summary (design : Design) : String :=
  "Context \x7b nets: " ++ toString design.nets.size ++
    ", cells: " ++ toString design.cells.size ++
    ", rng_seed: " ++ toString design.seed.toNat ++ " \x7d"

end Design

end FpgaPlacer

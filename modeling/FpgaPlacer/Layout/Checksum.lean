import FpgaPlacer.Layout.Basic

/-!
# Structural checksum

The checksum of a layout covers names, types, connectivity, budgets,
attributes, parameters, pin renames, placement and routing.  Unordered
collections enter as a sum of the hashes of their entries, ordered ones as a
chain, so the order in which a collection was filled makes no difference while
the order of the users of a net does.
-/

namespace FpgaPlacer

namespace Checksum

/-- The value that every chain of terms starts from. -/
def seed : UInt32 := 123456789

/-- The term of an absent pip or bel. -/
def absent : UInt32 := 0xFFFFFFFF

/-- The xorshift step on 32-bit words. -/
def scramble (word : UInt32) : UInt32 :=
  let word := word ^^^ (word <<< 13)
  let word := word ^^^ (word >>> 17)
  word ^^^ (word <<< 5)

/-- Adds a term to a chain. -/
def mix (chain term : UInt32) : UInt32 :=
  scramble (chain + scramble term)

/-- Adds the terms of a list to a chain, in order. -/
def mixAll (chain : UInt32) (terms : List UInt32) : UInt32 :=
  terms.foldl mix chain

/-- The chain of the given terms. -/
def chain (terms : List UInt32) : UInt32 := mixAll seed terms

/-- The sum of the hashes of the entries of an unordered collection. -/
def unordered {α : Type} (hash : α → UInt32) (entries : List α) : UInt32 :=
  entries.foldl (fun sum entry => sum + hash entry) 0

/-- The hash of one entry of a table of texts. -/
def textEntry (entry : Symbol × String) : UInt32 :=
  chain (entry.1.raw :: entry.2.toUTF8.data.toList.map UInt8.toUInt32)

/-- The term of a symbol that may be missing: nothing at all when it is. -/
def optional (symbol : Option Symbol) : List UInt32 :=
  (symbol.map Handle.raw).toList

variable {κ : Type} (device : Device κ)

/-- The terms of a net end. -/
def netEnd (netEnd : NetEnd) : List UInt32 :=
  optional netEnd.cell ++ [netEnd.port.raw, device.delayTerm netEnd.budget]

/-- The hash of one entry of a routing tree. -/
def hopEntry (entry : WireId × Hop) : UInt32 :=
  chain [device.wireTerm entry.1,
    (entry.2.pip.map device.pipTerm).getD absent,
    entry.2.strength.rank]

/-- The hash of an entry of the net table. -/
def netEntry (entry : Symbol × Net) : UInt32 :=
  let (key, net) := entry
  chain ([key.raw, net.name.raw] ++ netEnd device net.driver ++
    net.users.flatMap (netEnd device) ++
    [unordered textEntry net.attrs.toList,
      unordered (hopEntry device) net.wires.toList])

/-- The hash of one port of a cell. -/
def portEntry (entry : Symbol × Port) : UInt32 :=
  let (key, port) := entry
  chain ([key.raw, port.name.raw] ++ optional port.net ++ [port.direction.rank])

/-- The hash of one pin rename of a cell. -/
def pinEntry (entry : Symbol × Symbol) : UInt32 :=
  chain [entry.1.raw, entry.2.raw]

/-- The hash of an entry of the cell table. -/
def cellEntry (entry : Symbol × Cell) : UInt32 :=
  let (key, cell) := entry
  chain [key.raw, cell.name.raw, cell.cellType.raw,
    unordered portEntry cell.ports.toList,
    unordered textEntry cell.attrs.toList,
    unordered textEntry cell.params.toList,
    (cell.bel.map device.belTerm).getD absent,
    cell.strength.rank,
    unordered pinEntry cell.pins.toList]

end Checksum

/-- The structural checksum of a layout. -/
def Layout.checksum {κ : Type} (layout : Layout κ) : UInt32 :=
  let device := layout.fabric.device
  Checksum.mixAll (Checksum.scramble Checksum.seed)
    [Checksum.unordered (Checksum.netEntry device) layout.design.nets.toList,
      Checksum.unordered (Checksum.cellEntry device) layout.design.cells.toList]

end FpgaPlacer

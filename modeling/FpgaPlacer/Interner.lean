import FpgaPlacer.Handle

/-!
# Interned names

An interner is an append-only list of distinct strings.  The symbol of a
string is its position, so symbols are handed out from zero in the order in
which strings are first seen and keep their meaning for good.
-/

namespace FpgaPlacer

/-- Distinct strings, each standing for the symbol of its position. -/
structure Interner where
  strings : List String
  nodup : strings.Nodup
  deriving DecidableEq

namespace Interner

/-- The interner without strings. -/
def empty : Interner := ⟨[], .nil⟩

/-- The number of distinct strings. -/
def size (names : Interner) : Nat := names.strings.length

/-- Adds a string at the end, unless it is already there. -/
def add (names : Interner) (text : String) : Interner :=
  if member : text ∈ names.strings then names
  else
    ⟨names.strings ++ [text], List.nodup_append.mpr
      ⟨names.nodup, List.nodup_cons.mpr ⟨List.not_mem_nil, .nil⟩,
        fun _ left _ right same =>
          member (List.mem_singleton.mp right ▸ same ▸ left)⟩⟩

/-- The symbol of a string, together with the interner that knows it. -/
def intern (names : Interner) (text : String) : Symbol × Interner :=
  (.ofNat (names.strings.idxOf text), names.add text)

/-- The symbol of a string that has already been interned. -/
def get? (names : Interner) (text : String) : Option Symbol :=
  if text ∈ names.strings then some (.ofNat (names.strings.idxOf text)) else none

/-- The string of a symbol, if the symbol was allocated here. -/
def resolve? (names : Interner) (symbol : Symbol) : Option String :=
  names.strings[symbol.toNat]?

/-- The text shown for a symbol; a foreign one is shown by its number. -/
def display (names : Interner) (symbol : Symbol) : String :=
  match names.resolve? symbol with
  | some text => text
  | none => s!"<symbol {symbol.toNat}>"

/-- The short summary of an interner. -/
def summary (names : Interner) : String :=
  "Interner \x7b len: " ++ toString names.size ++ " \x7d"

end Interner

end FpgaPlacer

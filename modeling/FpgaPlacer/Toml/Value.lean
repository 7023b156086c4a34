/-!
# TOML values

The values of a TOML document.  A table is the list of its entries in the
order in which they were defined; the reader never produces a key twice.
-/

namespace FpgaPlacer.Toml

/-- A TOML value. -/
inductive Value where
  | string (text : String)
  | integer (value : Int)
  | float (value : Float)
  | boolean (value : Bool)
  | moment (text : String)
  | array (items : List Value)
  | table (entries : List (String × Value))

/-- A TOML document: the entries of its root table. -/
abbrev Document := List (String × Value)

end FpgaPlacer.Toml

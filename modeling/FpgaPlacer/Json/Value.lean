/-!
# JSON values

Integers are kept apart from floats, and the members of an object are in the
order in which they are written.  A record is an object with one member per
field; it is also read from an array of the values of all its fields.
-/

namespace FpgaPlacer

/-- A JSON value. -/
inductive Json where
  | null
  | boolean (value : Bool)
  | integer (value : Int)
  | float (value : Float)
  | string (text : String)
  | array (items : List Json)
  | object (members : List (String × Json))

namespace Json

/-- The object of a record with the given field names and values. -/
def record (names : List String) (values : List Json) : Json :=
  .object (names.zip values)

/-- The values of the fields of a record: those of an object by name, where
some may be missing and other members do not matter, or all the items of an
array. -/
def fields? (names : List String) : Json → Option (List (Option Json))
  | .object members => some (names.map (fun name => members.lookup name))
  | .array items =>
      if items.length = names.length then some (items.map some) else none
  | _ => none

end Json

end FpgaPlacer

import FpgaPlacer.Json.Value
import FpgaPlacer.Labelled
import FpgaPlacer.Table

/-!
# Values as JSON

How numbers, texts, choices, lists and tables are written as JSON and read
back.  Reading is strict about kinds: no text is read as a number, and a float
is never read as an integer.
-/

namespace FpgaPlacer

/-- Values that are written as JSON and read back. -/
class JsonCodec (α : Type) where
  encode : α → Json
  decode? : Json → Option α
  /-- What a missing field of a record is read as, if it may be missing. -/
  missing? : Option α := none

namespace JsonCodec

variable {α : Type} {kind : HandleKind}

/-- A whole number below a bound. -/
def natBelow? (bound : Nat) : Json → Option Nat
  | .integer value =>
      if 0 ≤ value ∧ value < (bound : Int) then some value.toNat else none
  | _ => none

/-- A field of a record. -/
def field? [JsonCodec α] : Option Json → Option α
  | some value => decode? value
  | none => missing?

instance : JsonCodec UInt16 where
  encode number := .integer number.toNat
  decode? value := (natBelow? UInt16.size value).map .ofNat

instance : JsonCodec (Handle kind) where
  encode handle := .integer handle.toNat
  decode? value := (natBelow? UInt32.size value).map .ofNat

/-- Floats without a JSON number are written as `null`; integers are read as
the nearest float. -/
instance : JsonCodec Float where
  encode value := if value.isFinite then .float value else .null
  decode?
    | .float value => some value
    | .integer value => some (Float.ofInt value)
    | _ => none

instance : JsonCodec String where
  encode := .string
  decode?
    | .string text => some text
    | _ => none

/-- A missing field is read as an absent value. -/
instance [JsonCodec α] : JsonCodec (Option α) where
  encode
    | none => .null
    | some value => encode value
  decode?
    | .null => some none
    | value => (decode? value).map some
  missing? := some none

instance [JsonCodec α] : JsonCodec (List α) where
  encode items := .array (items.map encode)
  decode?
    | .array items => items.mapM decode?
    | _ => none

/-- A choice is written as its label; it is also read from an object with the
label as its only member and nothing in it. -/
@[reducible] def ofLabel [Labelled α] : JsonCodec α where
  encode value := .string (Labelled.label value)
  decode?
    | .string label => Labelled.ofLabel? label
    | .object [(label, .null)] => Labelled.ofLabel? label
    | _ => none

/-- The member name of a handle: its number in decimal. -/
def handleText (handle : Handle kind) : String := toString handle.toNat

/-- The handle of a member name; only the decimal form that is written is
read. -/
def handleOfText? (text : String) : Option (Handle kind) := do
  let number ← text.toNat?
  if number < UInt32.size ∧ toString number = text then some (.ofNat number) else none

/-- An entry of a table, from a member of an object. -/
def keyed? [JsonCodec α] (member : String × Json) : Option (Handle kind × α) := do
  return (← handleOfText? member.1, ← decode? member.2)

instance [JsonCodec α] : JsonCodec (Table kind α) where
  encode table :=
    .object (table.toList.map (fun entry => (handleText entry.1, encode entry.2)))
  decode?
    | .object members => (members.mapM keyed?).map Table.ofList
    | _ => none

end JsonCodec

end FpgaPlacer

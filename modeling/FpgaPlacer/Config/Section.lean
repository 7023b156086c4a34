import FpgaPlacer.Labelled
import FpgaPlacer.Toml.Value

/-!
# Settings from TOML values

Settings are read field by field.  A section names each of its fields, or lists
the values of its fields in their order; fields that are not given keep the
value they had.
-/

namespace FpgaPlacer

namespace Toml.Value

/-- A whole number below a bound. -/
def toNatBelow? (bound : Nat) : Value → Option Nat
  | .integer value =>
      if 0 ≤ value ∧ value < (bound : Int) then some value.toNat else none
  | _ => none

/-- A truth value. -/
def toBool? : Value → Option Bool
  | .boolean value => some value
  | _ => none

/-- Whether a value is an array or a table without content. -/
def isEmptyCollection : Value → Bool
  | .array [] => true
  | .table [] => true
  | _ => false

/-- One of a finite number of choices: its label as a string, or as the only
key of a table that holds an empty array or table. -/
def toChoice? {α : Type} [Labelled α] : Value → Option α
  | .string label => Labelled.ofLabel? label
  | .table [(label, content)] =>
      if content.isEmptyCollection then Labelled.ofLabel? label else none
  | _ => none

end Toml.Value

/-- A field of some settings: its key, and how its value is put into them. -/
structure Field (σ : Type) where
  key : String
  put? : Toml.Value → σ → Option σ

namespace Field

variable {σ : Type}

/-- Puts the value of a key; every key has to be the key of a field. -/
def putNamed? (fields : List (Field σ)) (settings : σ)
    (entry : String × Toml.Value) : Option σ := do
  let field ← fields.find? (fun field => field.key == entry.1)
  field.put? entry.2 settings

/-- Puts the values of keys. -/
def putAllNamed? (fields : List (Field σ)) (settings : σ)
    (entries : List (String × Toml.Value)) : Option σ :=
  entries.foldlM (putNamed? fields) settings

/-- Puts values into fields in order.  Fields without a value are left alone,
and values without a field are ignored. -/
def putItems? : List (Field σ) → σ → List Toml.Value → Option σ
  | field :: fields, settings, item :: items => do
      putItems? fields (← field.put? item settings) items
  | _, settings, _ => some settings

/-- Puts a section, which is a table of named values or an array of values. -/
def putSection? (fields : List (Field σ)) (settings : σ) : Toml.Value → Option σ
  | .table entries => putAllNamed? fields settings entries
  | .array items => putItems? fields settings items
  | _ => none

end Field

end FpgaPlacer

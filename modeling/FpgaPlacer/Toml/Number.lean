import FpgaPlacer.Toml.Text
import FpgaPlacer.Toml.Value

/-!
# Numbers and moments

Integers are decimal, hexadecimal, octal or binary and fit into 64 bits with
sign; underscores may separate digits.  Floats round to the nearest double and
must not overflow upwards.  Dates and times are kept as they are written.
-/

namespace FpgaPlacer.Toml

open Reader

/-- A digit of a base of at most sixteen. -/
def digitOf (base : Nat) : Reader Nat := do
  let digit ← hexDigit
  if digit < base then return digit else failure

/-- Digits of a base; an underscore may stand between two digits. -/
def digits (base : Nat) : Reader (List Nat) := do
  let first ← digitOf base
  let others ← many (either (digitOf base) (do char '_'; digitOf base))
  return first :: others

/-- A sign; `true` stands for minus. -/
def sign : Reader Bool := do
  match ← maybe (satisfy (fun char => char == '+' || char == '-')) with
  | some '-' => return true
  | _ => return false

/-- Decimal digits without a leading zero, other than zero itself. -/
def wholeDigits : Reader (List Nat) := fun input =>
  match input with
  | '0' :: rest => some ([0], rest)
  | _ => digits 10 input

/-- Refuses integers that do not fit into 64 bits with sign. -/
def inRange (value : Int) : Reader Value :=
  if Int64.minValue.toInt ≤ value ∧ value ≤ Int64.maxValue.toInt then
    return .integer value
  else failure

/-- An integer after a marker of its base. -/
def basedInteger (marker : String) (base : Nat) : Reader Value := do
  text marker
  inRange (digitsValue base (← digits base))

/-- A decimal integer. -/
def decimalInteger : Reader Value := do
  let negative ← sign
  let magnitude := digitsValue 10 (← wholeDigits)
  inRange (if negative then -(magnitude : Int) else magnitude)

/-- An integer. -/
def integer : Reader Value :=
  firstOf [basedInteger "0x" 16, basedInteger "0o" 8, basedInteger "0b" 2,
    decimalInteger]

/-- The exponent of a float. -/
def exponent : Reader Int := do
  let _ ← satisfy (fun char => char == 'e' || char == 'E')
  let negative ← sign
  let magnitude := digitsValue 10 (← digits 10)
  return if negative then -(magnitude : Int) else magnitude

/-- The fraction of a float, after its point. -/
def fraction : Reader (List Nat) := do
  char '.'
  digits 10

/-- A finite float, written with a fraction, an exponent or both. -/
def finiteFloat : Reader Value := do
  let negative ← sign
  let whole ← wholeDigits
  let (fraction, exponent) ← either
    (do return ([], ← exponent))
    (do
      let fraction ← fraction
      return (fraction, (← maybe exponent).getD 0))
  let value := decimalFloat whole fraction exponent
  if negative then return .float (-value)
  else if value.isInf then failure
  else return .float value

/-- An infinity or a NaN. -/
def specialFloat : Reader Value := do
  let negative ← sign
  let value ← either
    (do text "inf"; return (1.0 / 0.0 : Float))
    (do text "nan"; return (0.0 / 0.0 : Float))
  return .float (if negative then -value else value)

/-- A number of exactly so many digits within bounds. -/
def fixedDigits (count least greatest : Nat) : Reader Nat := do
  let value := digitsValue 10 (← exactly (digitOf 10) count)
  if least ≤ value ∧ value ≤ greatest then return value else failure

/-- The number of days of a month. -/
def daysOfMonth (year month : Nat) : Nat :=
  match month with
  | 2 => if year % 4 = 0 ∧ (year % 100 ≠ 0 ∨ year % 400 = 0) then 29 else 28
  | 4 | 6 | 9 | 11 => 30
  | _ => 31

/-- A date. -/
def date : Reader Unit := do
  let year ← fixedDigits 4 0 9999
  char '-'
  let month ← fixedDigits 2 1 12
  char '-'
  let _ ← fixedDigits 2 1 (daysOfMonth year month)

/-- A time of day. -/
def time : Reader Unit := do
  let _ ← fixedDigits 2 0 23
  char ':'
  let _ ← fixedDigits 2 0 59
  char ':'
  let _ ← fixedDigits 2 0 60
  let _ ← maybe (do
    char '.'
    let _ ← runOfSome Char.isDigit)

/-- The offset of a time from universal time. -/
def timeOffset : Reader Unit :=
  either (do let _ ← satisfy (fun char => char == 'Z' || char == 'z'))
    (do
      let _ ← satisfy (fun char => char == '+' || char == '-')
      let _ ← fixedDigits 2 0 23
      char ':'
      let _ ← fixedDigits 2 0 59)

/-- A date with or without a time, or a time alone. -/
def moment : Reader Value := do
  let written ← taken (either
    (do
      date
      let _ ← maybe (do
        let _ ← satisfy (fun char => char == 'T' || char == 't' || char == ' ')
        time
        let _ ← maybe timeOffset))
    time)
  return .moment written

end FpgaPlacer.Toml

import FpgaPlacer.Reader.Basic

/-!
# Digits and decimal numbers
-/

namespace FpgaPlacer.Reader

/-- The value of a hexadecimal digit. -/
def hexDigit? (char : Char) : Option Nat :=
  if '0' ≤ char && char ≤ '9' then some (char.toNat - '0'.toNat)
  else if 'a' ≤ char && char ≤ 'f' then some (char.toNat - 'a'.toNat + 10)
  else if 'A' ≤ char && char ≤ 'F' then some (char.toNat - 'A'.toNat + 10)
  else none

/-- A hexadecimal digit. -/
def hexDigit : Reader Nat
  | [] => none
  | char :: rest => (hexDigit? char).map (fun digit => (digit, rest))

/-- The number written by digits of a base. -/
def digitsValue (base : Nat) (digits : List Nat) : Nat :=
  digits.foldl (fun value digit => base * value + digit) 0

/-- The double nearest to the decimal fraction with the given digits before
and after the point and the given exponent. -/
def decimalFloat (whole fraction : List Nat) (exponent : Int) : Float :=
  let mantissa := digitsValue 10 (whole ++ fraction)
  let scale := exponent - fraction.length
  let magnitude := scale + (whole ++ fraction).length
  if mantissa = 0 ∨ magnitude < -400 then 0.0
  else if 400 < scale + (Nat.log2 mantissa : Int) / 4 then 1.0 / 0.0
  else if scale < 0 then Float.ofScientific mantissa true scale.natAbs
  else Float.ofScientific mantissa false scale.natAbs

end FpgaPlacer.Reader

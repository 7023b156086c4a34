import FpgaPlacer.Json.Value
import FpgaPlacer.Reader.Number

/-!
# JSON text

Numbers without fraction and exponent are integers when they fit into 64 bits,
with or without sign; all others, and minus zero, are the nearest float and
must not overflow.  Of two members of an object with the same name the later
one counts.
-/

namespace FpgaPlacer.Json

namespace Text

open Reader

/-- Blanks and line ends in any number. -/
def space : Reader Unit := do
  let _ ← run (fun char => char == ' ' || char == '\t' || char == '\n' || char == '\r')

/-- A value with blanks after it. -/
def spaced {α : Type} (reader : Reader α) : Reader α := do
  let value ← reader
  space
  return value

/-- A unit of UTF-16 written in four hexadecimal digits. -/
def codeUnit : Reader Nat := do
  return digitsValue 16 (← exactly hexDigit 4)

/-- The character that one unit, or a pair of surrogates, stands for; a
surrogate alone is refused. -/
def escapedUnits : Reader Char := do
  let first ← codeUnit
  if 0xD800 ≤ first ∧ first < 0xDC00 then
    text "\\u"
    let second ← codeUnit
    if 0xDC00 ≤ second ∧ second < 0xE000 then
      return Char.ofNat (0x10000 + (first - 0xD800) * 0x400 + (second - 0xDC00))
    else failure
  else if first.isValidChar then return Char.ofNat first
  else failure

/-- An escape. -/
def escape : Reader Char := do
  char '\\'
  match ← satisfy (fun _ => true) with
  | '"' => return '"'
  | '\\' => return '\\'
  | '/' => return '/'
  | 'b' => return '\x08'
  | 'f' => return '\x0c'
  | 'n' => return '\n'
  | 'r' => return '\r'
  | 't' => return '\t'
  | 'u' => escapedUnits
  | _ => failure

/-- A string. -/
def string : Reader String := do
  char '"'
  let chars ← many (either
    (satisfy (fun char => ' ' ≤ char && char ≠ '"' && char ≠ '\\')) escape)
  char '"'
  return String.ofList chars

/-- The value of decimal digits. -/
def digits : Reader (List Nat) := do
  return (← runOfSome Char.isDigit).map (fun char => char.toNat - '0'.toNat)

/-- Digits without a leading zero, other than zero itself. -/
def wholeDigits : Reader (List Nat) := fun input =>
  match input with
  | '0' :: rest => some ([0], rest)
  | _ => digits input

/-- The exponent of a number. -/
def exponent : Reader Int := do
  let _ ← satisfy (fun char => char == 'e' || char == 'E')
  let sign ← maybe (satisfy (fun char => char == '+' || char == '-'))
  let magnitude : Int := digitsValue 10 (← digits)
  return if sign = some '-' then -magnitude else magnitude

/-- Whether an integer is kept as such. -/
def keepsInteger (value : Int) : Bool :=
  Int64.minValue.toInt ≤ value && value < UInt64.size

/-- A number. -/
def number : Reader Json := do
  let negative := (← maybe (char '-')).isSome
  let whole ← wholeDigits
  let fraction ← maybe (do char '.'; digits)
  let exponent ← maybe exponent
  let magnitude : Int := digitsValue 10 whole
  let value := if negative then -magnitude else magnitude
  if fraction.isNone && exponent.isNone && keepsInteger value &&
      !(negative && magnitude == 0) then
    return .integer value
  else
    let float := decimalFloat whole (fraction.getD []) (exponent.getD 0)
    if float.isInf then failure
    else return .float (if negative then -float else float)

/-- The members of an object without those that a later one replaces. -/
def lastMembers : List (String × Json) → List (String × Json)
  | [] => []
  | first :: rest =>
      let rest := lastMembers rest
      if rest.any (fun later => later.1 == first.1) then rest else first :: rest

/-- Values separated by commas and enclosed in brackets. -/
def enclosed {α : Type} (opening closing : Char) (item : Reader α) :
    Reader (List α) := do
  spaced (char opening)
  let items ← maybe (separated (spaced item) (spaced (char ',')))
  char closing
  return items.getD []

/-- A value with at most the given number of nested arrays and objects. -/
def valueWithin : Nat → Reader Json
  | 0 => fun _ => none
  | depth + 1 => fun input =>
      match input with
      | 'n' :: _ => (do text "null"; return .null : Reader Json) input
      | 't' :: _ => (do text "true"; return .boolean true : Reader Json) input
      | 'f' :: _ => (do text "false"; return .boolean false : Reader Json) input
      | '"' :: _ => (do return .string (← string) : Reader Json) input
      | '[' :: _ =>
          (do return .array (← enclosed '[' ']' (valueWithin depth)) : Reader Json) input
      | '\x7b' :: _ =>
          (do
            let members ← enclosed '\x7b' '\x7d' (do
              let name ← spaced string
              spaced (char ':')
              return (name, ← valueWithin depth))
            return .object (lastMembers members) : Reader Json) input
      | _ => number input

end Text

/-- Reads a text that holds one JSON value; the answer is `none` when it does
not. -/
def parse? (source : String) : Option Json := do
  let chars := source.toList
  let (value, _) ← (do
    Text.space
    let value ← Text.spaced (Text.valueWithin (chars.length + 1))
    Reader.finish
    return value : Reader Json) chars
  return value

end FpgaPlacer.Json

import FpgaPlacer.Reader.Number

/-!
# White space, strings and keys
-/

namespace FpgaPlacer.Toml

open Reader

/-- A blank within a line. -/
def isBlank (char : Char) : Bool := char == ' ' || char == '\t'

/-- Any number of blanks. -/
def blanks : Reader Unit := do
  let _ ← run isBlank

/-- A line end: a line feed, or a carriage return with a line feed. -/
def newline : Reader Unit := either (char '\n') (text "\r\n")

/-- Whether a character may stand in a comment. -/
def isCommentChar (char : Char) : Bool :=
  char == '\t' || (' ' ≤ char && char ≠ '\x7f')

/-- A comment, up to the end of its line. -/
def comment : Reader Unit := do
  char '#'
  let _ ← run isCommentChar

/-- Blanks and a comment up to the end of the line or of the document. -/
def lineEnd : Reader Unit := do
  blanks
  let _ ← maybe comment
  either newline finish

/-- Blanks, line ends and comments in any number. -/
def filler : Reader Unit := do
  let _ ← many (firstOf [(do let _ ← satisfy isBlank), newline, comment])

/-- The character with the code point written in the given number of
hexadecimal digits; surrogates and numbers beyond Unicode are refused. -/
def codePoint (digits : Nat) : Reader Char := do
  let digits ← exactly hexDigit digits
  let code := digitsValue 16 digits
  if code.isValidChar then return Char.ofNat code else failure

/-- The character that an escape stands for, after its backslash. -/
def escaped : Reader Char := do
  match ← satisfy (fun _ => true) with
  | 'b' => return '\x08'
  | 't' => return '\t'
  | 'n' => return '\n'
  | 'f' => return '\x0c'
  | 'r' => return '\r'
  | '"' => return '"'
  | '\\' => return '\\'
  | 'u' => codePoint 4
  | 'U' => codePoint 8
  | _ => failure

/-- An escape. -/
def escape : Reader Char := do
  char '\\'
  escaped

/-- Whether a character stands for itself between quotation marks. -/
def isBasicChar (char : Char) : Bool :=
  isCommentChar char && char ≠ '"' && char ≠ '\\'

/-- Whether a character stands for itself between apostrophes. -/
def isLiteralChar (char : Char) : Bool :=
  isCommentChar char && char ≠ '\x27'

/-- A string between quotation marks on one line. -/
def basicString : Reader String := do
  char '"'
  let chars ← many (either (satisfy isBasicChar) escape)
  char '"'
  return String.ofList chars

/-- A string between apostrophes on one line. -/
def literalString : Reader String := do
  char '\x27'
  let chars ← run isLiteralChar
  char '\x27'
  return String.ofList chars

/-- A line end that an escape at the end of a line takes away, with the blanks
and line ends after it. -/
def continuation : Reader (List Char) := do
  char '\\'
  blanks
  newline
  let _ ← many (either (do let _ ← satisfy isBlank) newline)
  return []

/-- A line end within a string, kept as a line feed. -/
def keptNewline : Reader (List Char) := do
  newline
  return ['\n']

/-- One or two quotes that do not close a string over several lines. -/
def innerQuotes (quote : Char) : Reader (List Char) := fun input =>
  let quotes := input.takeWhile (· == quote)
  if quotes.length = 0 ∨ 3 ≤ quotes.length then none
  else some (quotes, input.dropWhile (· == quote))

/-- The three quotes that close a string over several lines, after up to two
quotes that still belong to it. -/
def closingQuotes (quote : Char) : Reader (List Char) := fun input =>
  let quotes := (input.takeWhile (· == quote)).take 5
  if quotes.length < 3 then none
  else some (quotes.drop 3, input.drop quotes.length)

/-- A string over several lines between triple quotes, made of the given
pieces.  A line end right after the opening quotes is dropped. -/
def multilineString (quote : Char) (pieces : List (Reader (List Char))) :
    Reader String := do
  let _ ← exactly (char quote) 3
  let _ ← maybe newline
  let body ← many (firstOf (pieces ++ [keptNewline, innerQuotes quote]))
  let last ← closingQuotes quote
  return String.ofList (body.flatten ++ last)

/-- A string of any of the four forms. -/
def string : Reader String := fun input =>
  match input with
  | '"' :: '"' :: '"' :: _ =>
      multilineString '"'
        [runOfSome isBasicChar, continuation, (do return [← escape])] input
  | '"' :: _ => basicString input
  | '\x27' :: '\x27' :: '\x27' :: _ =>
      multilineString '\x27' [runOfSome isLiteralChar] input
  | _ => literalString input

/-- Whether a character may stand in a key without quotes. -/
def isBareKeyChar (char : Char) : Bool :=
  ('a' ≤ char && char ≤ 'z') || ('A' ≤ char && char ≤ 'Z') ||
    ('0' ≤ char && char ≤ '9') || char == '-' || char == '_'

/-- One part of a key. -/
def simpleKey : Reader String :=
  firstOf [basicString, literalString, (do return String.ofList (← runOfSome isBareKeyChar))]

/-- The greatest number of parts of a key, and of nested arrays and tables in
a value, is one less than this. -/
def nestingLimit : Nat := 80

/-- A key: parts separated by dots. -/
def key : Reader (List String) := do
  let parts ← separated
    (do blanks; let part ← simpleKey; blanks; return part) (char '.')
  if parts.length < nestingLimit then return parts else failure

end FpgaPlacer.Toml

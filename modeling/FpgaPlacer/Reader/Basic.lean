/-!
# Readers

A reader takes a value off the front of a list of characters or fails.
Repetition is bounded by the characters that are left, which is enough because
every round of a repetition takes at least one.
-/

namespace FpgaPlacer

/-- Takes a value off the front of the input, or fails. -/
abbrev Reader (α : Type) := StateT (List Char) Option α

namespace Reader

variable {α β : Type}

/-- The next character, if it passes a test. -/
def satisfy (accepts : Char → Bool) : Reader Char
  | [] => none
  | char :: rest => if accepts char then some (char, rest) else none

/-- A given character. -/
def char (expected : Char) : Reader Unit := do
  let _ ← satisfy (· == expected)

/-- A given text. -/
def text (expected : String) : Reader Unit := fun input =>
  (expected.toList.isPrefixOf? input).map (fun rest => ((), rest))

/-- The longest run of characters that pass a test. -/
def run (accepts : Char → Bool) : Reader (List Char) := fun input =>
  some (input.takeWhile accepts, input.dropWhile accepts)

/-- The end of the input. -/
def finish : Reader Unit
  | [] => some ((), [])
  | _ :: _ => none

/-- A value that may be missing. -/
def maybe (reader : Reader α) : Reader (Option α) := fun input =>
  match reader input with
  | some (value, rest) => some (some value, rest)
  | none => some (none, input)

/-- The first of two readers that succeeds. -/
def either (first second : Reader α) : Reader α := fun input =>
  match first input with
  | some result => some result
  | none => second input

/-- The first of some readers that succeeds. -/
def firstOf : List (Reader α) → Reader α
  | [] => fun _ => none
  | reader :: rest => either reader (firstOf rest)

/-- As many values as there are, at most one for each of the given
characters. -/
def manyWithin (reader : Reader α) : List Char → Reader (List α)
  | [], input => some ([], input)
  | _ :: bound, input =>
      match reader input with
      | none => some ([], input)
      | some (value, rest) =>
        match manyWithin reader bound rest with
        | some (values, rest) => some (value :: values, rest)
        | none => none

/-- As many values as there are. -/
def many (reader : Reader α) : Reader (List α) := fun input =>
  manyWithin reader input input

/-- Exactly the given number of values. -/
def exactly (reader : Reader α) : Nat → Reader (List α)
  | 0 => pure []
  | count + 1 => do
      let value ← reader
      let values ← exactly reader count
      return value :: values

/-- Values with separators between them, at least one. -/
def separated (reader : Reader α) (separator : Reader β) : Reader (List α) := do
  let first ← reader
  let others ← many (do
    let _ ← separator
    reader)
  return first :: others

/-- A run of at least one character that passes a test. -/
def runOfSome (accepts : Char → Bool) : Reader (List Char) := do
  let first ← satisfy accepts
  let others ← run accepts
  return first :: others

/-- The characters that a reader takes. -/
def taken (reader : Reader α) : Reader String := fun input =>
  match reader input with
  | some (_, rest) =>
      some (String.ofList (input.take (input.length - rest.length)), rest)
  | none => none

end Reader

end FpgaPlacer

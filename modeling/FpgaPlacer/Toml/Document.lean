import FpgaPlacer.Toml.Node
import FpgaPlacer.Toml.Number

/-!
# TOML documents

A document is read in two steps: its lines become statements, and the
statements are carried out on tables under construction.
-/

namespace FpgaPlacer.Toml

open Reader

/-- A value of a simple kind. -/
def simpleValue : Reader Value :=
  firstOf [(do return .string (← string)),
    (do text "true"; return .boolean true),
    (do text "false"; return .boolean false),
    moment, finiteFloat, specialFloat, integer]

/-- An array of items, over any number of lines. -/
def arrayOf (item : Reader Value) : Reader Value := do
  char '['
  let items ← many (do
    filler
    let value ← item
    filler
    return (value, (← maybe (char ',')).isSome))
  filler
  char ']'
  if items.dropLast.all Prod.snd then return .array (items.map Prod.fst)
  else failure

/-- A key with its value. -/
def entryOf (item : Reader Value) : Reader (List String × Value) := do
  let key ← key
  char '='
  blanks
  return (key, ← item)

/-- Defines the entries of a table in order. -/
def defineAll : List (List String × Value) → Nodes → Option Nodes
  | [], entries => some entries
  | (key, value) :: rest, entries => do
      let last ← key.getLast?
      defineAll rest (← entries.define key.dropLast last value)

/-- A table within a line. -/
def inlineTableOf (item : Reader Value) : Reader Value := do
  char '\x7b'
  blanks
  let entries ← maybe (separated (do let entry ← entryOf item; blanks; return entry)
    (char ','))
  char '\x7d'
  match defineAll (entries.getD []) [] with
  | some entries => return .table (Node.finishedEntries entries)
  | none => failure

/-- A value with at most the given number of nested arrays and tables. -/
def valueWithin : Nat → Reader Value
  | 0 => simpleValue
  | depth + 1 =>
      firstOf [arrayOf (valueWithin depth), inlineTableOf (valueWithin depth),
        simpleValue]

/-- A value. -/
def value : Reader Value := valueWithin (nestingLimit - 1)

/-- A line of a document that says something. -/
inductive Statement where
  | openTable (path : List String)
  | appendTable (path : List String)
  | define (key : List String) (value : Value)

/-- The statement of a line. -/
def statement : Reader Statement := fun input =>
  match input with
  | '[' :: '[' :: _ =>
      (do
        text "[["
        let path ← key
        text "]]"
        return Statement.appendTable path : Reader Statement) input
  | '[' :: _ =>
      (do
        char '['
        let path ← key
        char ']'
        return Statement.openTable path : Reader Statement) input
  | _ =>
      (do
        let (key, value) ← entryOf value
        return Statement.define key value : Reader Statement) input

/-- A line of a document. -/
def line : Reader (Option Statement) := do
  blanks
  let statement ← maybe statement
  lineEnd
  return statement

/-- The lines of a document, at most the given number. -/
def linesWithin : Nat → Reader (List Statement)
  | _, [] => some ([], [])
  | 0, _ :: _ => none
  | count + 1, char :: rest => do
      let (statement, rest) ← line (char :: rest)
      let (statements, rest) ← linesWithin count rest
      some (statement.toList ++ statements, rest)

/-- A document under construction: the closed tables, and the entries of the
open one with its path. -/
structure Draft where
  closed : Nodes
  path : List String
  appended : Bool
  current : Nodes

namespace Draft

/-- The draft of an empty document. -/
def empty : Draft := ⟨[], [], false, []⟩

/-- Puts the open table in its place. -/
def close (draft : Draft) : Option Nodes :=
  match draft.path.getLast? with
  | none => some draft.current
  | some key =>
      Nodes.descend false
        (fun _ entries =>
          match draft.appended, entries.lookup key with
          | true, some (.tables items) =>
              some (entries.store key (.tables (items ++ [draft.current])))
          | true, none => some (entries.store key (.tables [draft.current]))
          | false, some (.table true _ _) =>
              some (entries.store key (.table false false draft.current))
          | false, none => some (entries.store key (.table false false draft.current))
          | _, _ => none)
        draft.path.dropLast false draft.closed

/-- The entries of a table that may be opened: those it was given when longer
keys passed through it. -/
def openable (key : String) (entries : Nodes) : Option Nodes :=
  match entries.lookup key with
  | none => some []
  | some (.table true false inner) => some inner
  | some _ => none

/-- The entries already present in the table that a path opens. -/
def present (key : String) : List String → Nodes → Option Nodes
  | [], entries => openable key entries
  | step :: path, entries =>
      match entries.lookup step with
      | none => some []
      | some (.value _) => none
      | some (.table _ _ inner) => present key path inner
      | some (.tables items) => (items.getLast?).bind (present key path)

/-- Opens a table. -/
def openTable (draft : Draft) (path : List String) : Option Draft := do
  let key ← path.getLast?
  let closed ← draft.close
  let current ← present key path.dropLast closed
  let closed ← closed.descend false (fun _ entries => some (entries.remove key))
    path.dropLast false
  some { closed, path, appended := false, current }

/-- Opens a new table at the end of an array of tables. -/
def appendTable (draft : Draft) (path : List String) : Option Draft := do
  let key ← path.getLast?
  let closed ← draft.close
  let closed ← closed.descend false
    (fun _ entries =>
      match entries.lookup key with
      | none => some (entries.store key (.tables []))
      | some (.tables _) => some entries
      | some _ => none)
    path.dropLast false
  some { closed, path, appended := true, current := [] }

/-- Carries out a statement. -/
def carryOut (draft : Draft) : Statement → Option Draft
  | .openTable path => draft.openTable path
  | .appendTable path => draft.appendTable path
  | .define key value => do
      let last ← key.getLast?
      let current ← draft.current.define key.dropLast last value
      some { draft with current }

end Draft

/-- The document that statements describe. -/
def Document.ofStatements (statements : List Statement) : Option Document := do
  let draft ← statements.foldlM Draft.carryOut .empty
  let entries ← draft.close
  some (Node.finishedEntries entries)

/-- The text after a leading byte order mark. -/
def afterByteOrderMark : List Char → List Char
  | '\ufeff' :: rest => rest
  | chars => chars

/-- Reads a document; the answer is `none` when the text is not valid TOML. -/
def Document.parse? (source : String) : Option Document := do
  let chars := afterByteOrderMark source.toList
  let (statements, _) ← linesWithin (chars.length + 1) chars
  Document.ofStatements statements

end FpgaPlacer.Toml

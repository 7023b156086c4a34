import FpgaPlacer.Toml.Value

/-!
# Tables under construction

While a document is read, its tables are nodes that remember how they came
about: a table that only exists because a longer key passed through it may be
opened later, one that was opened or written in full may not.
-/

namespace FpgaPlacer.Toml

/-- A value of a table under construction.  `passedThrough` marks a table that
was never opened itself, `dotted` one made by a dotted key. -/
inductive Node where
  | value (value : Value)
  | table (passedThrough dotted : Bool) (entries : List (String × Node))
  | tables (items : List (List (String × Node)))

/-- The entries of a table under construction. -/
abbrev Nodes := List (String × Node)

namespace Node

mutual

/-- The value that a finished node stands for. -/
def finished : Node → Value
  | .value inner => inner
  | .table _ _ entries => .table (finishedEntries entries)
  | .tables items => .array (finishedTables items)

/-- The values of the entries of a finished table. -/
def finishedEntries : List (String × Node) → List (String × Value)
  | [] => []
  | (key, node) :: rest => (key, node.finished) :: finishedEntries rest

/-- The values of finished tables. -/
def finishedTables : List (List (String × Node)) → List Value
  | [] => []
  | entries :: rest => .table (finishedEntries entries) :: finishedTables rest

end

end Node

namespace Nodes

/-- Stores a node under a key, at the end when the key is new. -/
def store (key : String) (node : Node) : Nodes → Nodes
  | [] => [(key, node)]
  | (other, old) :: rest =>
      if other = key then (key, node) :: rest else (other, old) :: store key node rest

/-- Removes the node of a key. -/
def remove (key : String) (entries : Nodes) : Nodes :=
  entries.filter (fun entry => entry.1 ≠ key)

/-- Changes the table at the end of a path.  Missing tables on the way are
made; of an array of tables the last one is taken.  A dotted path does not
enter tables that were opened. -/
def descend (byDots : Bool) (change : Bool → Nodes → Option Nodes) :
    List String → Bool → Nodes → Option Nodes
  | [], dotted, entries => change dotted entries
  | key :: path, _, entries =>
      match entries.lookup key with
      | none => do
          let made ← descend byDots change path byDots []
          some (entries.store key (.table true byDots made))
      | some (.value _) => none
      | some (.table passedThrough dotted inner) =>
          if byDots && !passedThrough then none
          else do
            let inner ← descend byDots change path dotted inner
            some (entries.store key (.table passedThrough dotted inner))
      | some (.tables items) => do
          let last ← items.getLast?
          let last ← descend byDots change path false last
          some (entries.store key (.tables (items.dropLast ++ [last])))

/-- Defines a key in a table; no key is defined twice, and a dotted key adds
only to tables made by dotted keys. -/
def define (path : List String) (key : String) (value : Value) (entries : Nodes) :
    Option Nodes :=
  descend true
    (fun dotted entries =>
      if dotted == path.isEmpty then none
      else if (entries.lookup key).isSome then none
      else some (entries ++ [(key, .value value)]))
    path false entries

end Nodes

end FpgaPlacer.Toml

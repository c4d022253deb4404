import Freshness.Toml.Value

/-!
# Defining keys and tables

No key is defined twice.  A dotted key may pass through tables that other dotted keys made or that
headers imply, and may end only in one that dotted keys made; a header may pass through every
table that is not written in braces, and may define only a table that nothing but a longer header
has mentioned.  On the way, an array of tables stands for its last table.
-/

namespace Freshness.Toml

/-- A dotted key: the tables it passes through and the key in the last of them. -/
structure KeyPath where
  parents : List String
  last : String
  deriving DecidableEq, Repr

def KeyPath.names (path : KeyPath) : List String :=
  path.parents ++ [path.last]

namespace Table

/-- Defines `key` in the table that `parents` lead to.  The flag tells whether keys may be put
into the present table. -/
def assignFrom (mayPut : Bool) (key : String) (value : Value) :
    List String → Table → Option Table
  | [], table =>
    if mayPut && (table.get? key).isNone then some (table.put key value) else none
  | name :: parents, table =>
    match table.get? name with
    | none => do
      return table.put name (.table .dotted (← assignFrom true key value parents []))
    | some (.table .dotted entries) => do
      return table.put name (.table .dotted (← assignFrom true key value parents entries))
    | some (.table .implied entries) => do
      return table.put name (.table .implied (← assignFrom false key value parents entries))
    | some (.tables last earlier) => do
      return table.put name (.tables (← assignFrom false key value parents last) earlier)
    | some _ => none

def assign (path : KeyPath) (value : Value) (table : Table) : Option Table :=
  assignFrom true path.last value path.parents table

/-- Changes the table that the names in a header lead to. -/
def descend (change : Table → Option Table) : List String → Table → Option Table
  | [], table => change table
  | name :: names, table =>
    match table.get? name with
    | none => do
      return table.put name (.table .implied (← descend change names []))
    | some (.table .inline _) => none
    | some (.table origin entries) => do
      return table.put name (.table origin (← descend change names entries))
    | some (.tables last earlier) => do
      return table.put name (.tables (← descend change names last) earlier)
    | some _ => none

/-- Defines a table by its header. -/
def openTable (path : KeyPath) : Table → Option Table :=
  descend (fun table =>
    match table.get? path.last with
    | none => some (table.put path.last (.table .header []))
    | some (.table .implied entries) => some (table.put path.last (.table .header entries))
    | some _ => none) path.parents

/-- Adds a table to an array of tables by its header. -/
def appendTable (path : KeyPath) : Table → Option Table :=
  descend (fun table =>
    match table.get? path.last with
    | none => some (table.put path.last (.tables [] []))
    | some (.tables last earlier) => some (table.put path.last (.tables [] (last :: earlier)))
    | some _ => none) path.parents

end Table

end Freshness.Toml

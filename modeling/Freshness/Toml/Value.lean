import Freshness.Toml.DateTime
import Freshness.Toml.Number

/-!
# Values of TOML

A document is a table of keys and values.  A table remembers how it was written, because that
decides what may still be added to it.
-/

namespace Freshness.Toml

/-- How a table came to be. -/
inductive Origin
  /-- It has a header of its own. -/
  | header
  /-- It is a part of a longer header. -/
  | implied
  /-- It is a part of a dotted key. -/
  | dotted
  /-- It is written in braces, and nothing may be added to it. -/
  | inline
  deriving DecidableEq, Repr

/-- A value.  An array whose tables have headers of their own holds at least one: the last one,
which may still grow, stands apart from the earlier ones, which are kept in reverse. -/
inductive Value
  | string (text : String)
  | integer (value : Int)
  | float (value : Float)
  | boolean (value : Bool)
  | dateTime (value : DateTime)
  | array (items : List Value)
  | table (origin : Origin) (entries : List (String × Value))
  | tables (last : List (String × Value)) (earlier : List (List (String × Value)))

abbrev Table := List (String × Value)

def Table.get? (table : Table) (key : String) : Option Value :=
  table.lookup key

/-- The table with a value for the key, which replaces an earlier one. -/
def Table.put (key : String) (value : Value) : Table → Table
  | [] => [(key, value)]
  | (other, old) :: rest =>
    if other = key then (key, value) :: rest else (other, old) :: Table.put key value rest

theorem Table.get?_put (table : Table) (key other : String) (value : Value) :
    (table.put key value).get? other = if other = key then some value else table.get? other := by
  unfold get?
  induction table with
  | nil => grind [put]
  | cons entry rest ih => grind [put]

end Freshness.Toml

/-!
The part of TOML that options need: integers, strings, empty arrays and tables. A document is a
sequence of statements, each a table header or an assignment. Floats, booleans, dates and arrays
with items are no option's value, so they have no place here.
-/

namespace ManagedObjects.Toml

inductive Value
  | integer (n : Int)
  | string (s : String)
  | emptyArray
  | table (entries : List (String × Value))

inductive Statement
  | header (path : List String)
  | assign (path : List String) (value : Value)

def maxInteger : Nat := 0x7FFFFFFFFFFFFFFF

end ManagedObjects.Toml

import ManagedObjects.Toml.Reader
import ManagedObjects.Toml.Table

namespace ManagedObjects.Toml

/-- A reader of documents, and a writer, which gives nothing for entries that no document can
hold. -/
structure Format where
  read? : String → Option Entries
  write? : List (String × Value) → Option String

/-- A value as it stands behind its key. Of strings only words are written. -/
def Value.text? : Value → Option String
  | .integer n =>
      if -maxInteger - 1 ≤ n ∧ n ≤ maxInteger then some (toString n) else none
  | .string s => if s.toList.all Reader.isBare then some ("\"" ++ s ++ "\"") else none
  | _ => none

def writeLines? : List (String × Value) → Option String
  | [] => some ""
  | (key, value) :: rest => do
      let text ← value.text?
      let lines ← writeLines? rest
      some (key ++ " = " ++ text ++ "\n" ++ lines)

def Format.standard : Format where
  read? text := (Reader.document? text).bind entries?
  write? := writeLines?

end ManagedObjects.Toml

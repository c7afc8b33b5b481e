import ManagedObjects.Toml.Value

/-!
The table that a document describes. A table is opened by a header, by a dotted key, or by the
header of a table below it; only the last kind may be opened again, by a header of its own. No key
is given twice.
-/

namespace ManagedObjects.Toml

inductive Origin
  | above
  | header
  | dotted
  deriving DecidableEq

inductive Node
  | value (v : Value)
  | table (origin : Origin) (entries : List (String × Node))

abbrev Entries := List (String × Node)

namespace Entries

def put (entries : Entries) (key : String) (node : Node) : Entries :=
  if (entries.lookup key).isSome then
    entries.map fun entry => if entry.1 == key then (key, node) else entry
  else entries ++ [(key, node)]

/-- Changes the entries at the end of a path. The tables on the way are made where there are none,
with the origin `fresh`; `passable` says which tables may be walked through. -/
def descend (fresh : Origin) (passable : Origin → Bool)
    (change : Origin → Entries → Option Entries) :
    Origin → List String → Entries → Option Entries
  | origin, [], entries => change origin entries
  | _, key :: path, entries =>
      match entries.lookup key with
      | none => do
          let inner ← descend fresh passable change fresh path []
          some (put entries key (.table fresh inner))
      | some (.value _) => none
      | some (.table origin inner) =>
          if passable origin then do
            let inner ← descend fresh passable change origin path inner
            some (put entries key (.table origin inner))
          else none

def openTable (entries : Entries) (path : List String) : Option Entries :=
  match path.getLast? with
  | none => none
  | some key =>
      descend .above (fun _ => true) (fun _ siblings =>
        match siblings.lookup key with
        | none => some (put siblings key (.table .header []))
        | some (.table .above inner) => some (put siblings key (.table .header inner))
        | some _ => none) .header path.dropLast entries

/-- Gives a value to a key of the table that was opened last. A dotted key goes through tables of
dotted keys, and a table made by a header below it may not be extended. -/
def assign (entries : Entries) (base path : List String) (value : Value) : Option Entries :=
  match path.getLast? with
  | none => none
  | some key =>
      let insert : Entries → Option Entries := fun siblings =>
        if (siblings.lookup key).isSome then none else some (put siblings key (.value value))
      let dotted := path.dropLast
      descend .above (fun _ => true) (fun _ table =>
        descend .dotted (fun origin => origin != .header) (fun origin siblings =>
          if origin == .dotted || dotted.isEmpty then insert siblings else none)
          .header dotted table) .header base entries

end Entries

def Statement.apply (state : List String × Entries) : Statement → Option (List String × Entries)
  | .header path => do
      let entries ← state.2.openTable path
      some (path, entries)
  | .assign path value => do
      let entries ← state.2.assign state.1 path value
      some (state.1, entries)

def entries? (statements : List Statement) : Option Entries :=
  (statements.foldlM Statement.apply ([], [])).map Prod.snd

end ManagedObjects.Toml

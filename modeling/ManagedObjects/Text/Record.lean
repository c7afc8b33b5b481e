namespace ManagedObjects.Text

def record (name : String) (fields : List (String × String)) : String :=
  name ++ " \x7b " ++ ", ".intercalate (fields.map fun (field, value) => field ++ ": " ++ value) ++
    " \x7d"

def option : Option String → String
  | none => "None"
  | some value => "Some(" ++ value ++ ")"

def sequence (values : List String) : String :=
  "[" ++ ", ".intercalate values ++ "]"

end ManagedObjects.Text

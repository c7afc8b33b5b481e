import ManagedObjects.Program
import ManagedObjects.Signature

namespace ManagedObjects

structure Method where
  signature : Signature
  body : List Slot → Program Slot

namespace Method

def enter (m : Method) (name : String) (argv : List Slot) : Except Fault (Program Slot) :=
  match m.signature.check name (argv.drop 1) with
  | .ok () => .ok (m.body argv)
  | .error f => .error f

def invoke (m : Method) (name : String) (argv : List Slot) : Program Slot :=
  match m.enter name argv with
  | .ok body => body
  | .error f => .fail f

end Method

structure MethodTable where
  entries : List (String × Method)

namespace MethodTable

def empty : MethodTable := ⟨[]⟩

instance : Inhabited MethodTable := ⟨empty⟩

def insert (t : MethodTable) (name : String) (m : Method) : MethodTable :=
  ⟨(name, m) :: t.entries.filter (·.1 != name)⟩

def get? (t : MethodTable) (name : String) : Option Method :=
  t.entries.lookup name

def contains (t : MethodTable) (name : String) : Bool :=
  (t.get? name).isSome

def size (t : MethodTable) : Nat := t.entries.length

def isEmpty (t : MethodTable) : Bool := t.entries.isEmpty

def names (t : MethodTable) : List String := t.entries.map Prod.fst

theorem get?_insert_self (t : MethodTable) (name : String) (m : Method) :
    (t.insert name m).get? name = some m := by
  simp [get?, insert]

theorem get?_insert_ne (t : MethodTable) {name other : String} (m : Method) (h : other ≠ name) :
    (t.insert name m).get? other = t.get? other := by
  have lookup : ∀ entries : List (String × Method),
      (entries.filter (·.1 != name)).lookup other = entries.lookup other := by
    intro entries
    induction entries with
    | nil => rfl
    | cons entry rest ih =>
        obtain ⟨key, value⟩ := entry
        by_cases same : key = name
        · subst same
          have differs : (other == key) = false := by simpa using h
          simp [List.lookup_cons, differs, ih]
        · simp [List.lookup_cons, same, ih]
  have differs : (other == name) = false := by simpa using h
  simp [get?, insert, List.lookup_cons, differs, lookup]

end MethodTable
end ManagedObjects

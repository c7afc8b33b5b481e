import ManagedObjects.Protocol

/-!
The types of an object runtime. Types form a tree below the root type; each has a table of methods
of its own, and a method that a type does not bind is looked for in its ancestors, nearest first.
-/

namespace ManagedObjects

structure ObjectType where
  id : TypeId
  name : String
  parent : Option TypeId
  fieldCount : UInt64
  freezable : Bool
  methods : MethodTable
  staticInit : Option (TypeId → Program Unit)

/-- What is said of a type when it is registered. The fields are those that it adds to the fields
of its parent. -/
structure TypeDeclaration where
  name : String
  parent : TypeId := .object
  fields : UInt64 := 0
  freezable : Bool := false
  methods : MethodTable := .empty
  staticInit : Option (TypeId → Program Unit) := none

namespace TypeDeclaration

/-- The methods that the type will have: those declared, and over them the immutability of a
freezable type. -/
def table (d : TypeDeclaration) : MethodTable :=
  if d.freezable then d.methods.installFreezable else d.methods

end TypeDeclaration

namespace ObjectType

def descriptor (t : ObjectType) : Descriptor :=
  ⟨t.id, t.name, t.parent, t.methods.size, t.freezable⟩

end ObjectType

/-- The types at their numbers, and the number of each name. A name that is entered again leads to
the later number. -/
structure Registry where
  types : Array ObjectType
  index : List (String × TypeId)

namespace Registry

def empty : Registry := ⟨#[], []⟩

def get? (r : Registry) (id : TypeId) : Option ObjectType := r.types[id]?

def size (r : Registry) : Nat := r.types.size

def named? (r : Registry) (name : String) : Option ObjectType :=
  (r.index.lookup name).bind r.get?

def push (r : Registry) (name : String) (parent : Option TypeId) (fieldCount : UInt64)
    (freezable : Bool) (methods : MethodTable) : TypeId × Registry :=
  let id := r.types.size
  (id, {
    types := r.types.push ⟨id, name, parent, fieldCount, freezable, methods, none⟩
    index := (name, id) :: r.index })

def setInitializer (r : Registry) (id : TypeId) (hook : Option (TypeId → Program Unit)) :
    Registry :=
  { r with types := r.types.modify id fun t => { t with staticInit := hook } }

def initial : Registry :=
  let (_, r) := empty.push "Obj" none 0 false MethodTable.empty.install
  let (_, r) := r.push "Str" (some .object) 0 false
    (MethodTable.empty.installValueType.insert Protocol.toStrName Protocol.stringToStrMethod)
  let (_, r) := r.push "List" (some .object) 0 false .empty
  let (_, r) := r.push "Type" (some .object) 0 false MethodTable.empty.installValueType
  r

def admissibleParent (r : Registry) (d : TypeDeclaration) : Except Fault ObjectType :=
  if d.name = "" then .error .emptyTypeName
  else if (r.index.lookup d.name).isSome then .error (.duplicateType d.name)
  else
    match r.get? d.parent with
    | none => .error (.unknownType d.parent)
    | some parent =>
        if parent.id.isSealed then .error (.sealedParent parent.name) else .ok parent

def register (r : Registry) (d : TypeDeclaration) : Except Fault TypeId × Registry :=
  match r.admissibleParent d with
  | .error f => (.error f, r)
  | .ok parent =>
      let (id, r) := r.push d.name (some d.parent) (parent.fieldCount + d.fields)
        (d.freezable || parent.freezable) d.table
      (.ok id, r.setInitializer id d.staticInit)

def registerAll (r : Registry) : List TypeDeclaration → List (Except Fault TypeId) × Registry
  | [] => ([], r)
  | d :: rest =>
      let (result, r) := r.register d
      let (results, r) := r.registerAll rest
      (result :: results, r)

/-- A type and the types above it, nearest first. A parent has a smaller number than its children,
which is what ends the walk. -/
def ancestors (r : Registry) (id : TypeId) : List ObjectType :=
  match r.get? id with
  | none => []
  | some t =>
      t :: match t.parent with
        | none => []
        | some parent => if _h : parent < id then r.ancestors parent else []
termination_by id

def isSubtype (r : Registry) (id ancestor : TypeId) : Bool :=
  (r.ancestors id).any fun t => t.id == ancestor

def resolve? (r : Registry) (id : TypeId) (name : String) : Option (TypeId × Method) :=
  (r.ancestors id).findSome? fun t => (t.methods.get? name).map fun m => (t.id, m)

def chain (r : Registry) (id : TypeId) : List TypeId :=
  (r.ancestors id).reverse.map ObjectType.id

end Registry
end ManagedObjects

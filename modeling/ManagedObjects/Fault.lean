import ManagedObjects.Descriptor
import ManagedObjects.Handle

namespace ManagedObjects

inductive Fault
  | methodNotFound (typeName method : String)
  | argumentMismatch (method expected got : String)
  | invalidHandle (handle : Handle)
  | typeMismatch (expected got : String)
  | unknownType (id : TypeId)
  | heapExhausted (limit : Nat)
  | io (text : String)
  | general (text : String)
  deriving DecidableEq

namespace Fault

def message : Fault → String
  | methodNotFound typeName method => s!"Unknown method: {typeName}.{method}"
  | argumentMismatch method expected got =>
      s!"Argument mismatch calling {method}: expected {expected}, got {got}"
  | invalidHandle handle => s!"Invalid handle: {handle.text}"
  | typeMismatch expected got => s!"Type mismatch: expected {expected}, got {got}"
  | unknownType id => s!"Unknown type id: {id}"
  | heapExhausted limit => s!"Heap exhausted: limit of {limit} objects reached"
  | io text => s!"I/O error: {text}"
  | general text => text

def missingReceiver : Fault := general "missing receiver"

def indexOverflow : Fault := general "object arena index overflow"

def pinnedTypeObject : Fault := general "type objects cannot be released"

def immutableObject : Fault := general "Cannot modify an immutable object"

def emptyTypeName : Fault := general "Type name cannot be empty"

def duplicateType (name : String) : Fault := general s!"Type {name} already registered"

def sealedParent (name : String) : Fault := general s!"Type {name} cannot be subclassed"

def sealedInstance (name : String) : Fault := general s!"{name} cannot be instantiated directly"

def fieldIndex (index : Nat) : Fault := general s!"Field index {index} out of bounds"

def fieldIndexOf (index count : Nat) : Fault :=
  general s!"Field index {index} out of bounds (object has {count} fields)"

def noSuchMethod : Fault := general "no such method"

end Fault
end ManagedObjects

import ManagedObjects.Registry
import ManagedObjects.Text.Quoted
import ManagedObjects.Text.Record

namespace ManagedObjects

namespace Kind

def text : Kind → String
  | any => "Any"
  | handle => "Handle"
  | int => "Int"
  | bool => "Bool"
  | float => "Float"
  | null => "Null"

end Kind

namespace Signature

def text (s : Signature) : String :=
  Text.record "MethodSignature"
    [("params", Text.sequence (s.params.map Kind.text)), ("required", toString s.required)]

end Signature

namespace Method

def text (m : Method) : String :=
  Text.record "NativeMethod" [("signature", m.signature.text)]

end Method

namespace MethodTable

def text (t : MethodTable) : String :=
  Text.record "NativeMethodRegistry" [("count", toString t.size)]

end MethodTable

namespace ObjectType

def text (t : ObjectType) : String :=
  Text.record "RuntimeType"
    [("id", toString t.id), ("name", Text.quoted t.name),
      ("parent_id", Text.option (t.parent.map toString)),
      ("field_count", toString t.fieldCount.toNat), ("freezable", toString t.freezable),
      ("methods", toString t.methods.size)]

end ObjectType
end ManagedObjects

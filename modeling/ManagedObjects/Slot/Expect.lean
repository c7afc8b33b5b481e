import ManagedObjects.Fault
import ManagedObjects.Slot.Basic

namespace ManagedObjects.Slot

def mismatch (expected : Kind) (slot : Slot) : Fault :=
  .typeMismatch expected.name slot.kind.name

def expectHandle : Slot → Except Fault Handle
  | handle h => .ok h
  | slot => .error (mismatch .handle slot)

def expectInt : Slot → Except Fault Int
  | int n => .ok n.val
  | slot => .error (mismatch .int slot)

def expectBool : Slot → Except Fault Bool
  | bool b => .ok b
  | slot => .error (mismatch .bool slot)

def expectDouble : Slot → Except Fault Double
  | double d => .ok d
  | slot => .error (mismatch .float slot)

def ofInt (n : Int) : Except Fault Slot :=
  match Int48.ofInt? n with
  | some k => .ok (int k)
  | none => .error (.typeMismatch "int48" (toString n))

end ManagedObjects.Slot

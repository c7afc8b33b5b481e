import ManagedObjects.Handle

namespace ManagedObjects

structure Int48 where
  val : Int
  min_le : -0x800000000000 ≤ val
  lt_bound : val < 0x800000000000
  deriving DecidableEq

namespace Int48

def max : Nat := 0x7FFFFFFFFFFF

def ofInt? (n : Int) : Option Int48 :=
  if h : -0x800000000000 ≤ n ∧ n < 0x800000000000 then some ⟨n, h.1, h.2⟩ else none

def ofBool (b : Bool) : Int48 :=
  if b then ⟨1, by decide, by decide⟩ else ⟨0, by decide, by decide⟩

def ofOrdering : Ordering → Int48
  | .lt => ⟨-1, by decide, by decide⟩
  | .eq => ⟨0, by decide, by decide⟩
  | .gt => ⟨1, by decide, by decide⟩

def ofNat (n : Nat) : Int48 :=
  ⟨(n % 0x800000000000 : Nat), by omega, by omega⟩

end Int48

def boxedFrom : Nat := 0xFFF8000000000000

structure Double where
  bits : UInt64
  unboxed : bits.toNat < boxedFrom
  deriving DecidableEq

namespace Double

def nan : Double := ⟨0x7FF8000000000000, by decide⟩

def IsNaN (bits : UInt64) : Prop :=
  0x7FF0000000000000 < bits.toNat % 0x8000000000000000

instance (bits : UInt64) : Decidable (IsNaN bits) :=
  inferInstanceAs (Decidable (_ < _))

/-- The number with the given bits. All words that are no number give the same one, so that a
number is never taken for a boxed value. -/
def ofBits (bits : UInt64) : Double :=
  if h : IsNaN bits then nan
  else ⟨bits, by
    have bound := bits.toNat_lt
    unfold IsNaN at h
    unfold boxedFrom
    omega⟩

def ofFloat (x : Float) : Double :=
  ofBits x.toBits

def toFloat (d : Double) : Float :=
  Float.ofBits d.bits

def add (a b : Double) : Double :=
  ofFloat (a.toFloat + b.toFloat)

end Double

inductive Kind
  | any | handle | int | bool | float | null
  deriving DecidableEq

namespace Kind

def name : Kind → String
  | any => "any"
  | handle => "handle"
  | int => "int"
  | bool => "bool"
  | float => "float"
  | null => "null"

def accepts (expected actual : Kind) : Bool :=
  expected == any || expected == actual

end Kind

inductive Slot
  | null
  | bool (b : Bool)
  | int (n : Int48)
  | handle (h : Handle)
  | double (d : Double)
  deriving DecidableEq

namespace Slot

instance : Inhabited Slot := ⟨null⟩

def kind : Slot → Kind
  | null => .null
  | bool _ => .bool
  | int _ => .int
  | handle _ => .handle
  | double _ => .float

def isNull : Slot → Bool
  | null => true
  | _ => false

def isHandle : Slot → Bool
  | handle _ => true
  | _ => false

def handle? : Slot → Option Handle
  | handle h => some h
  | _ => none

def int? : Slot → Option Int
  | int n => some n.val
  | _ => none

def bool? : Slot → Option Bool
  | bool b => some b
  | _ => none

def double? : Slot → Option Double
  | double d => some d
  | _ => none

def handles (slots : List Slot) : List Handle :=
  slots.filterMap handle?

end Slot
end ManagedObjects

import ManagedObjects.Slot.Expect

/-!
The words of values. A number is its own word. Every other value is boxed: its word lies above all
numbers, its tag is in bits 48 to 50 and its payload in the 48 bits below.
-/

namespace ManagedObjects.Slot

def box (tag payload : Nat) : UInt64 :=
  UInt64.ofNat (boxedFrom + tag * 0x1000000000000 + payload)

def handleTag : Nat := 0
def intTag : Nat := 1
def boolTag : Nat := 2
def nullTag : Nat := 6

def toBits : Slot → UInt64
  | null => box nullTag 0
  | bool b => box boolTag b.toNat
  | int n => box intTag (n.val % 0x1000000000000).toNat
  | handle h => box handleTag h.code
  | double d => d.bits

def signed (payload : Nat) : Int48 where
  val := (payload : Int).bmod 0x1000000000000
  min_le := by
    have low := Int.le_bmod (x := (payload : Int)) (m := 0x1000000000000) (by decide)
    omega
  lt_bound := by
    have high := Int.bmod_lt (x := (payload : Int)) (m := 0x1000000000000) (by decide)
    omega

def unbox? (tag payload : Nat) : Option Slot :=
  if tag = handleTag then some (handle (Handle.ofCode payload))
  else if tag = intTag then some (int (signed payload))
  else if tag = boolTag then
    if payload = 0 then some (bool false) else if payload = 1 then some (bool true) else none
  else if tag = nullTag then
    if payload = 0 then some null else none
  else none

def ofBits? (bits : UInt64) : Option Slot :=
  if h : bits.toNat < boxedFrom then some (double ⟨bits, h⟩)
  else unbox? (bits.toNat / 0x1000000000000 % 8) (bits.toNat % 0x1000000000000)

def ofBits (bits : UInt64) : Except Fault Slot :=
  match ofBits? bits with
  | some slot => .ok slot
  | none => .error (.typeMismatch "value slot" (Text.word bits))

theorem toNat_box {tag payload : Nat} (ht : tag < 8) (hp : payload < 0x1000000000000) :
    (box tag payload).toNat = boxedFrom + tag * 0x1000000000000 + payload := by
  unfold box boxedFrom
  rw [UInt64.toNat_ofNat']
  omega

theorem ofBits?_box {tag payload : Nat} (ht : tag < 8) (hp : payload < 0x1000000000000) :
    ofBits? (box tag payload) = unbox? tag payload := by
  have word := toNat_box ht hp
  have high : ¬(box tag payload).toNat < boxedFrom := by omega
  have tagEq : (box tag payload).toNat / 0x1000000000000 % 8 = tag := by
    unfold boxedFrom at word
    omega
  have payloadEq : (box tag payload).toNat % 0x1000000000000 = payload := by
    unfold boxedFrom at word
    omega
  rw [ofBits?, dif_neg high, tagEq, payloadEq]

theorem signed_emod (n : Int48) : signed (n.val % 0x1000000000000).toNat = n := by
  have residue : ((n.val % 0x1000000000000).toNat : Int) = n.val % 0x1000000000000 := by omega
  have low := n.min_le
  have high := n.lt_bound
  have balanced : (n.val % 0x1000000000000).bmod 0x1000000000000 = n.val :=
    (Int.emod_bmod n.val 0x1000000000000).trans (Int.bmod_eq_of_le (by omega) (by omega))
  cases n with
  | mk v lo hi =>
      apply (Int48.mk.injEq ..).mpr
      rw [residue]
      exact balanced

theorem ofBits?_toBits (slot : Slot) : ofBits? slot.toBits = some slot := by
  cases slot with
  | null => decide
  | bool b => cases b <;> decide
  | int n =>
      have bound : (n.val % 0x1000000000000).toNat < 0x1000000000000 := by omega
      rw [toBits, ofBits?_box (by decide) bound]
      exact congrArg (some ∘ int) (signed_emod n)
  | handle h =>
      rw [toBits, ofBits?_box (by decide) h.code_lt]
      exact congrArg (some ∘ handle) (Handle.ofCode_code h)
  | double d => rw [toBits, ofBits?, dif_pos d.unboxed]

end ManagedObjects.Slot

import ManagedObjects.Text.Numeral

namespace ManagedObjects

structure Handle where
  index : UInt32
  generation : UInt16
  deriving DecidableEq

namespace Handle

def code (h : Handle) : Nat :=
  h.generation.toNat * 0x100000000 + h.index.toNat

def ofCode (n : Nat) : Handle :=
  ⟨UInt32.ofNat n, UInt16.ofNat (n / 0x100000000)⟩

def toBits (h : Handle) : UInt64 :=
  UInt64.ofNat h.code

def ofBits (bits : UInt64) : Handle :=
  ofCode bits.toNat

def numeral (h : Handle) : String :=
  "0x" ++ Text.hex h.code

def text (h : Handle) : String :=
  s!"ObjHandle({h.index.toNat}#{h.generation.toNat})"

theorem code_lt (h : Handle) : h.code < 0x1000000000000 := by
  have index := h.index.toNat_lt
  have generation := h.generation.toNat_lt
  unfold code
  omega

theorem ofCode_code (h : Handle) : ofCode h.code = h := by
  have index := h.index.toNat_lt
  have generation := h.generation.toNat_lt
  cases h with
  | mk i g =>
      simp only [ofCode, code, Handle.mk.injEq]
      constructor
      · apply UInt32.toNat.inj
        simp only [UInt32.toNat_ofNat'] at *
        omega
      · apply UInt16.toNat.inj
        simp only [UInt16.toNat_ofNat'] at *
        omega

end Handle
end ManagedObjects

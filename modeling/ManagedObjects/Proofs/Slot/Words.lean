import ManagedObjects.Slot.Codec

namespace ManagedObjects

namespace Word

def base : UInt64 := 0xFFF8000000000000

def payloadMask : UInt64 := 0xFFFFFFFFFFFF

def nullWord : UInt64 := 0xFFFE000000000000

def isBoxed (bits : UInt64) : Bool := bits &&& base == base

def tag (bits : UInt64) : UInt64 := (bits &&& 0x7000000000000) >>> 48

def payload (bits : UInt64) : UInt64 := bits &&& payloadMask

def hasTag (expected bits : UInt64) : Bool := isBoxed bits && tag bits == expected

def extended (bits : UInt64) : Int := ((payload bits <<< 16).toInt64 >>> 16).toInt

def ofHandle (h : Handle) : UInt64 := h.index.toUInt64 ||| h.generation.toUInt64 <<< 32

def toHandle (bits : UInt64) : Handle := ⟨bits.toUInt32, (bits >>> 32).toUInt16⟩

def kind (bits : UInt64) : Kind :=
  if !isBoxed bits then .float
  else if tag bits = 0 then .handle
  else if tag bits = 1 then .int
  else if tag bits = 2 then .bool
  else .null

structure Reading where
  handle : Option Handle := none
  int : Option Int := none
  bool : Option Bool := none
  double : Option UInt64 := none
  null : Bool := false
  deriving DecidableEq

def Reading.answers (reading : Reading) : Kind → Bool
  | .handle => reading.handle.isSome
  | .int => reading.int.isSome
  | .bool => reading.bool.isSome
  | .float => reading.double.isSome
  | .null => reading.null
  | .any => false

def read (bits : UInt64) : Reading where
  handle := if hasTag 0 bits then some (toHandle (payload bits)) else none
  int := if hasTag 1 bits then some (extended bits) else none
  bool := if hasTag 2 bits then some (payload bits != 0) else none
  double := if isBoxed bits then none else some bits
  null := bits == nullWord

def ofInt64 (n : Int64) : UInt64 := base ||| (1 : UInt64) <<< 48 ||| n.toUInt64 &&& payloadMask

def write : Slot → UInt64
  | .null => base ||| (6 : UInt64) <<< 48
  | .bool b => base ||| (2 : UInt64) <<< 48 ||| if b then 1 else 0
  | .int n => ofInt64 (.ofInt n.val)
  | .handle h => base ||| ofHandle h
  | .double d => d.bits

theorem and_shiftLeft (n mask k : Nat) : n &&& mask <<< k = (n >>> k &&& mask) <<< k := by
  apply Nat.eq_of_testBit_eq
  intro i
  simp only [Nat.testBit_and, Nat.testBit_shiftLeft, Nat.testBit_shiftRight]
  by_cases high : k ≤ i
  · simp [high, Nat.add_sub_cancel' high]
  · simp [high]

theorem toNat_payload (bits : UInt64) : (payload bits).toNat = bits.toNat % 0x1000000000000 :=
  (UInt64.toNat_and ..).trans (Nat.and_two_pow_sub_one_eq_mod bits.toNat 48)

theorem and_field (n width low : Nat) :
    n &&& (Nat.pow 2 width - 1) <<< low =
      n / Nat.pow 2 low % Nat.pow 2 width * Nat.pow 2 low := by
  have field : n >>> low &&& (Nat.pow 2 width - 1) = n >>> low % Nat.pow 2 width :=
    Nat.and_two_pow_sub_one_eq_mod _ width
  have lowered : n >>> low = n / Nat.pow 2 low := Nat.shiftRight_eq_div_pow n low
  rw [and_shiftLeft, field, lowered]
  exact Nat.shiftLeft_eq _ low

theorem toNat_tag (bits : UInt64) : (tag bits).toNat = bits.toNat / 0x1000000000000 % 8 := by
  have masked : bits.toNat &&& 0x7000000000000 =
      bits.toNat / 0x1000000000000 % 8 * 0x1000000000000 := and_field bits.toNat 3 48
  have lowered (n : Nat) : n >>> 48 = n / 0x1000000000000 := Nat.shiftRight_eq_div_pow n 48
  unfold tag
  rw [UInt64.toNat_shiftRight, UInt64.toNat_and]
  change (bits.toNat &&& 0x7000000000000) >>> 48 = _
  rw [masked, lowered, Nat.mul_div_cancel _ (by decide)]

theorem isBoxed_iff {bits : UInt64} : isBoxed bits = true ↔ boxedFrom ≤ bits.toNat := by
  have bound := bits.toNat_lt
  have masked : bits.toNat &&& 0xFFF8000000000000 =
      bits.toNat / 0x8000000000000 % 0x2000 * 0x8000000000000 := and_field bits.toNat 13 51
  unfold isBoxed base boxedFrom
  rw [beq_iff_eq, ← UInt64.toNat_inj, UInt64.toNat_and]
  change bits.toNat &&& 0xFFF8000000000000 = 0xFFF8000000000000 ↔ _
  rw [masked]
  omega

theorem toInt_shiftRight (x : Int64) : (x >>> 16).toInt = x.toInt / 0x10000 := by
  have count : ((16 : Int64).toBitVec.smod 64).toNat = 16 := by decide
  have shifted : (x >>> 16).toBitVec.toInt = x.toBitVec.toInt >>> (16 : Nat) := by
    rw [Int64.toBitVec_shiftRight, BitVec.sshiftRight_eq', count, BitVec.toInt_sshiftRight]
  exact shifted.trans (Int.shiftRight_eq_div_pow _ 16)

theorem bmod_shifted (n : Nat) :
    ((n * 0x10000 : Nat) : Int).bmod 0x10000000000000000 / 0x10000 =
      (n : Int).bmod 0x1000000000000 := by
  simp only [Int.bmod_def]
  omega

theorem val_signed (n : Nat) : (Slot.signed n).val = (n : Int).bmod 0x1000000000000 := by
  unfold Slot.signed
  -- Nothing is left to compute; a full unification would unfold the remainder.
  with_reducible rfl

theorem extended_eq (bits : UInt64) :
    extended bits = (Slot.signed (bits.toNat % 0x1000000000000)).val := by
  have lifted : ∀ n : Nat, n <<< 16 = n * 0x10000 := fun n => Nat.shiftLeft_eq n 16
  have raised : (payload bits <<< 16).toNat = bits.toNat % 0x1000000000000 * 0x10000 := by
    rw [UInt64.toNat_shiftLeft, toNat_payload]
    change (bits.toNat % 0x1000000000000) <<< 16 % 0x10000000000000000 = _
    rw [lifted]
    omega
  have signed (x : UInt64) : x.toInt64.toInt = (x.toNat : Int).bmod 0x10000000000000000 :=
    BitVec.toInt_eq_toNat_bmod _
  rw [extended, toInt_shiftRight, signed, raised, bmod_shifted, val_signed]

theorem toNat_or {top low : UInt64} {n : Nat} (clear : top.toNat = n * 0x1000000000000)
    (bound : low.toNat < 0x1000000000000) : (top ||| low).toNat = top.toNat + low.toNat := by
  have lifted : n <<< 48 = n * 0x1000000000000 := Nat.shiftLeft_eq n 48
  rw [UInt64.toNat_or, clear, ← lifted]
  exact (Nat.shiftLeft_add_eq_or_of_lt bound n).symm

theorem toNat_ofHandle (h : Handle) : (ofHandle h).toNat = h.code := by
  have index := h.index.toNat_lt
  have generation := h.generation.toNat_lt
  have lifted : h.generation.toNat <<< 32 = h.generation.toNat * 0x100000000 :=
    Nat.shiftLeft_eq h.generation.toNat 32
  have raised : (h.generation.toUInt64 <<< 32).toNat = h.generation.toNat <<< 32 := by
    rw [UInt64.toNat_shiftLeft, UInt16.toNat_toUInt64]
    change h.generation.toNat <<< 32 % 0x10000000000000000 = _
    rw [lifted]
    omega
  rw [ofHandle, UInt64.toNat_or, raised, Nat.or_comm, UInt32.toNat_toUInt64,
    ← Nat.shiftLeft_add_eq_or_of_lt index, lifted, Handle.code]

theorem toHandle_eq (bits : UInt64) : toHandle bits = Handle.ofBits bits := by
  have lowered : bits.toNat >>> 32 = bits.toNat / 0x100000000 :=
    Nat.shiftRight_eq_div_pow bits.toNat 32
  refine Handle.mk.injEq .. |>.mpr ⟨?_, ?_⟩
  · apply UInt32.toNat.inj
    rw [UInt64.toNat_toUInt32, UInt32.toNat_ofNat']
  · apply UInt16.toNat.inj
    rw [UInt64.toNat_toUInt16, UInt64.toNat_shiftRight, UInt16.toNat_ofNat']
    change bits.toNat >>> 32 % _ = _
    rw [lowered]

theorem ofHandle_eq (h : Handle) : ofHandle h = h.toBits := by
  have bound := h.code_lt
  rw [← UInt64.toNat_inj, toNat_ofHandle, Handle.toBits, UInt64.toNat_ofNat']
  omega

theorem toHandle_ofHandle (h : Handle) : toHandle (ofHandle h) = h := by
  rw [toHandle_eq, Handle.ofBits, toNat_ofHandle, Handle.ofCode_code]

section Boxed
variable {t p : Nat}

theorem isBoxed_box (ht : t < 8) (hp : p < 0x1000000000000) : isBoxed (Slot.box t p) = true := by
  rw [isBoxed_iff, Slot.toNat_box ht hp]
  omega

theorem toNat_tag_box (ht : t < 8) (hp : p < 0x1000000000000) :
    (tag (Slot.box t p)).toNat = t := by
  rw [toNat_tag, Slot.toNat_box ht hp, boxedFrom]
  omega

theorem toNat_payload_box (ht : t < 8) (hp : p < 0x1000000000000) :
    (payload (Slot.box t p)).toNat = p := by
  rw [toNat_payload, Slot.toNat_box ht hp, boxedFrom]
  omega

theorem hasTag_box (ht : t < 8) (hp : p < 0x1000000000000) (expected : UInt64) :
    hasTag expected (Slot.box t p) = decide (t = expected.toNat) := by
  rw [hasTag, isBoxed_box ht hp, Bool.true_and, Bool.eq_iff_iff, beq_iff_eq, decide_eq_true_iff,
    ← UInt64.toNat_inj, toNat_tag_box ht hp]

theorem read_box (ht : t < 8) (hp : p < 0x1000000000000) :
    read (Slot.box t p) =
      { handle := if t = 0 then some (Handle.ofCode p) else none
        int := if t = 1 then some (Slot.signed p).val else none
        bool := if t = 2 then some (p != 0) else none
        null := decide (t = 6 ∧ p = 0) } := by
  have low := toNat_payload_box ht hp
  have word := Slot.toNat_box ht hp
  have sign : extended (Slot.box t p) = (Slot.signed p).val := by
    rw [extended_eq, ← toNat_payload, low]
  have whether : (payload (Slot.box t p) != 0) = (p != 0) := by
    rw [Bool.eq_iff_iff, bne_iff_ne, bne_iff_ne, ne_eq, ne_eq, ← UInt64.toNat_inj, low]
    rfl
  have null : (Slot.box t p == nullWord) = decide (t = 6 ∧ p = 0) := by
    rw [Bool.eq_iff_iff, beq_iff_eq, decide_eq_true_iff, ← UInt64.toNat_inj, word, boxedFrom]
    change _ = 0xFFFE000000000000 ↔ _
    omega
  simp [read, hasTag_box ht hp, isBoxed_box ht hp, toHandle_eq, Handle.ofBits, low, sign,
    whether, null]

theorem kind_box (ht : t < 8) (hp : p < 0x1000000000000) :
    kind (Slot.box t p) =
      if t = 0 then .handle else if t = 1 then .int else if t = 2 then .bool else .null := by
  simp [kind, isBoxed_box ht hp, ← UInt64.toNat_inj, toNat_tag_box ht hp]

end Boxed

end Word
end ManagedObjects

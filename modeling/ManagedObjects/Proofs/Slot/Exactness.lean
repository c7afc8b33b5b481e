import ManagedObjects.Proofs.Slot.Words

namespace ManagedObjects

namespace Word

def Reading.of (slot : Slot) : Reading where
  handle := slot.handle?
  int := slot.int?
  bool := slot.bool?
  double := slot.double?.map Double.bits
  null := slot.isNull

theorem isBoxed_double (d : Double) : isBoxed d.bits = false := by
  have low := d.unboxed
  rw [← Bool.not_eq_true, isBoxed_iff]
  omega

theorem hasTag_double (d : Double) (expected : UInt64) : hasTag expected d.bits = false := by
  rw [hasTag, isBoxed_double, Bool.false_and]

theorem ne_nullWord_double (d : Double) : (d.bits == nullWord) = false := by
  have boxed : isBoxed nullWord = true := by decide
  rw [beq_eq_false_iff_ne]
  intro same
  rw [← same, isBoxed_double] at boxed
  cases boxed

theorem read_toBits (slot : Slot) : read slot.toBits = .of slot := by
  cases slot with
  | null => decide
  | bool b => cases b <;> decide
  | int n =>
      have bound : (n.val % 0x1000000000000).toNat < 0x1000000000000 := by omega
      rw [Slot.toBits, read_box (by decide) bound, Slot.signed_emod]
      rfl
  | handle h =>
      rw [Slot.toBits, read_box (by decide) h.code_lt, Handle.ofCode_code]
      rfl
  | double d => simp [Slot.toBits, read, Reading.of, hasTag_double, isBoxed_double,
      ne_nullWord_double, Slot.handle?, Slot.int?, Slot.bool?, Slot.double?, Slot.isNull]

theorem kind_toBits (slot : Slot) : kind slot.toBits = slot.kind := by
  cases slot with
  | null => decide
  | bool b => cases b <;> decide
  | int n =>
      have bound : (n.val % 0x1000000000000).toNat < 0x1000000000000 := by omega
      exact kind_box (by decide) bound
  | handle h => exact kind_box (by decide) h.code_lt
  | double d => simp [Slot.toBits, kind, isBoxed_double, Slot.kind]

theorem toNat_ofInt64 (n : Int64) :
    (ofInt64 n).toNat = 0xFFF9000000000000 + (n.toInt % 0x1000000000000).toNat := by
  have residue : n.toInt = (n.toUInt64.toNat : Int).bmod 0x10000000000000000 :=
    BitVec.toInt_eq_toNat_bmod n.toBitVec
  have low := toNat_payload n.toUInt64
  have top : (base ||| (1 : UInt64) <<< 48).toNat = 0xFFF9 * 0x1000000000000 := by decide
  change ((base ||| (1 : UInt64) <<< 48) ||| payload n.toUInt64).toNat = _
  rw [toNat_or top (by omega), top, low, residue, Int.bmod_def]
  omega

theorem ofInt64_eq {n : Int64} {k : Int48} (same : n.toInt = k.val) :
    ofInt64 n = (Slot.int k).toBits := by
  have bound : (k.val % 0x1000000000000).toNat < 0x1000000000000 := by omega
  rw [← UInt64.toNat_inj, toNat_ofInt64, same, Slot.toBits, Slot.toNat_box (by decide) bound]
  rfl

theorem write_eq_toBits (slot : Slot) : write slot = slot.toBits := by
  cases slot with
  | null => decide
  | bool b => cases b <;> decide
  | int n =>
      have low := n.min_le
      have high := n.lt_bound
      exact ofInt64_eq (Int64.toInt_ofInt_of_le (by omega) (by omega))
  | handle h =>
      have clear : base.toNat = 0xFFF8 * 0x1000000000000 := by decide
      have low := toNat_ofHandle h
      have bound := h.code_lt
      rw [← UInt64.toNat_inj, write, toNat_or clear (by omega), low, Slot.toBits,
        Slot.toNat_box (by decide) bound]
      rfl
  | double d => rfl

theorem isNaN_iff {bits : UInt64} :
    Double.IsNaN bits ↔
      bits &&& 0x7FF0000000000000 = 0x7FF0000000000000 ∧ bits &&& 0xFFFFFFFFFFFFF ≠ 0 := by
  have exponent : bits.toNat &&& 0x7FF0000000000000 =
      bits.toNat / 0x10000000000000 % 0x800 * 0x10000000000000 := and_field bits.toNat 11 52
  have significand : bits.toNat &&& 0xFFFFFFFFFFFFF = bits.toNat % 0x10000000000000 :=
    Nat.and_two_pow_sub_one_eq_mod _ 52
  unfold Double.IsNaN
  rw [ne_eq, ← UInt64.toNat_inj, ← UInt64.toNat_inj, UInt64.toNat_and, UInt64.toNat_and]
  change _ ↔ bits.toNat &&& 0x7FF0000000000000 = 0x7FF0000000000000 ∧
    ¬bits.toNat &&& 0xFFFFFFFFFFFFF = 0
  rw [exponent, significand]
  omega

/-- The bits themselves, except that all exponents of ones over a significand that is not zero give
the same word. -/
def canonical (bits : UInt64) : UInt64 :=
  if bits &&& 0x7FF0000000000000 = 0x7FF0000000000000 ∧ bits &&& 0xFFFFFFFFFFFFF ≠ 0 then
    0x7FF8000000000000
  else bits

theorem bits_ofBits (bits : UInt64) : (Double.ofBits bits).bits = canonical bits := by
  unfold Double.ofBits canonical
  by_cases nan : Double.IsNaN bits
  · rw [dif_pos nan, if_pos (isNaN_iff.mp nan)]
    rfl
  · rw [dif_neg nan, if_neg (mt isNaN_iff.mpr nan)]

theorem box_of_isBoxed {bits : UInt64} (boxed : isBoxed bits = true) :
    Slot.box (bits.toNat / 0x1000000000000 % 8) (bits.toNat % 0x1000000000000) = bits := by
  have low := isBoxed_iff.mp boxed
  have high := bits.toNat_lt
  rw [← UInt64.toNat_inj, Slot.toNat_box (by omega) (by omega)]
  unfold boxedFrom at low ⊢
  omega

theorem code_ofCode {n : Nat} (bound : n < 0x1000000000000) : (Handle.ofCode n).code = n := by
  simp only [Handle.ofCode, Handle.code, UInt32.toNat_ofNat', UInt16.toNat_ofNat']
  omega

theorem toBits_of_unbox? {t p : Nat} {slot : Slot} (hp : p < 0x1000000000000)
    (some : Slot.unbox? t p = some slot) : slot.toBits = Slot.box t p := by
  unfold Slot.unbox? at some
  split at some
  next tag =>
    cases some
    rw [Slot.toBits, code_ofCode hp, tag]
  split at some
  next tag =>
    cases some
    have residue : ((Slot.signed p).val % 0x1000000000000).toNat = p := by
      rw [val_signed, Int.bmod_def]
      omega
    rw [Slot.toBits, residue, tag]
  split at some
  next tag =>
    split at some
    next value =>
      cases some
      rw [value, tag]
      rfl
    split at some
    next value =>
      cases some
      rw [value, tag]
      rfl
    cases some
  split at some
  next tag =>
    split at some
    next value =>
      cases some
      rw [value, tag]
      rfl
    cases some
  cases some

theorem ofBits?_iff {bits : UInt64} {slot : Slot} :
    Slot.ofBits? bits = some slot ↔ slot.toBits = bits := by
  constructor
  · intro some
    unfold Slot.ofBits? at some
    split at some
    next low =>
      cases some
      rfl
    next high =>
      have boxed := isBoxed_iff.mpr (Nat.le_of_not_lt high)
      exact (toBits_of_unbox? (by omega) some).trans (box_of_isBoxed boxed)
  · rintro rfl
    exact Slot.ofBits?_toBits slot

theorem ofBits_iff {bits : UInt64} {slot : Slot} :
    Slot.ofBits bits = .ok slot ↔ slot.toBits = bits := by
  rw [← ofBits?_iff]
  unfold Slot.ofBits
  cases Slot.ofBits? bits with
  | none => simp
  | some other => simp

theorem ofInt_of_bounds {n : Int} (low : -0x800000000000 ≤ n) (high : n < 0x800000000000) :
    Slot.ofInt n = .ok (.int ⟨n, low, high⟩) := by
  simp [Slot.ofInt, Int48.ofInt?, low, high]

theorem ofInt_val (n : Int48) : Slot.ofInt n.val = .ok (.int n) :=
  ofInt_of_bounds n.min_le n.lt_bound

/-- A word stands for a value: one reader answers it, and what it answers gives the word again. -/
structure Stands (bits : UInt64) (slot : Slot) : Prop where
  word : slot.toBits = bits
  answers : ∀ k, (read bits).answers k = true ↔ k = kind bits
  handle : ∀ h ∈ (read bits).handle, write (.handle h) = bits
  int : ∀ n ∈ (read bits).int, ∃ k, Slot.ofInt n = .ok k ∧ write k = bits
  bool : ∀ b ∈ (read bits).bool, write (.bool b) = bits
  double : ∀ d ∈ (read bits).double, write (.double (.ofBits d)) = canonical bits
  null : (read bits).null = true → write .null = bits

theorem answers_of (slot : Slot) (k : Kind) :
    (Reading.of slot).answers k = true ↔ k = slot.kind := by
  cases slot <;> cases k <;> simp [Reading.of, Reading.answers, Slot.handle?, Slot.int?,
    Slot.bool?, Slot.double?, Slot.isNull, Slot.kind]

theorem stands_toBits (slot : Slot) : Stands slot.toBits slot where
  word := rfl
  answers k := by rw [read_toBits, kind_toBits, answers_of]
  handle h answer := by
    rw [read_toBits] at answer
    cases slot with
    | handle _ =>
        cases answer
        exact write_eq_toBits _
    | _ => cases answer
  int n answer := by
    rw [read_toBits] at answer
    cases slot with
    | int n =>
        cases answer
        exact ⟨_, ofInt_val n, write_eq_toBits _⟩
    | _ => cases answer
  bool b answer := by
    rw [read_toBits] at answer
    cases slot with
    | bool _ =>
        cases answer
        exact write_eq_toBits _
    | _ => cases answer
  double d answer := by
    rw [read_toBits] at answer
    cases slot with
    | double _ =>
        cases answer
        exact bits_ofBits _
    | _ => cases answer
  null answer := by
    rw [read_toBits] at answer
    cases slot with
    | null => exact write_eq_toBits _
    | _ => cases answer

theorem boxed_iff {bits : UInt64} (boxed : isBoxed bits = true) :
    (∃ slot, Slot.ofBits bits = .ok slot) ↔
      (∃ h, write (.handle h) = bits) ∨ (∃ n slot, Slot.ofInt n = .ok slot ∧ write slot = bits) ∨
        (∃ b, write (.bool b) = bits) ∨ write .null = bits := by
  simp only [ofBits_iff, write_eq_toBits]
  constructor
  · rintro ⟨slot, word⟩
    cases slot with
    | null => exact .inr (.inr (.inr word))
    | bool b => exact .inr (.inr (.inl ⟨b, word⟩))
    | int n => exact .inr (.inl ⟨n.val, .int n, ofInt_val n, word⟩)
    | handle h => exact .inl ⟨h, word⟩
    | double d =>
        rw [← word, Slot.toBits, isBoxed_double] at boxed
        cases boxed
  · rintro (⟨h, word⟩ | ⟨-, slot, -, word⟩ | ⟨b, word⟩ | word) <;> exact ⟨_, word⟩

/-- What is written is read, by one reader alone. Words are accepted if they are unboxed or written
by a constructor, and an accepted word stands for its value. -/
theorem codec_exact :
    (∀ slot, write slot = slot.toBits ∧ read slot.toBits = .of slot ∧
      kind slot.toBits = slot.kind) ∧
    (∀ h bits, ofHandle h = h.toBits ∧ toHandle bits = .ofBits bits) ∧
    (∀ index generation, toHandle (ofHandle ⟨index, generation⟩) = ⟨index, generation⟩ ∧
      read (write (.handle ⟨index, generation⟩)) = { handle := some ⟨index, generation⟩ }) ∧
    (∀ n : Int, if -0x800000000000 ≤ n ∧ n ≤ 0x7FFFFFFFFFFF
      then ∃ slot, Slot.ofInt n = .ok slot ∧ read (write slot) = { int := some n }
      else Slot.ofInt n = .error (.typeMismatch "int48" (toString n))) ∧
    (∀ n : Int32, read (ofInt64 n.toInt64) = { int := some n.toInt }) ∧
    (∀ b, read (write (.bool b)) = { bool := some b }) ∧
    read (write .null) = { null := true } ∧
    (∀ bits, isBoxed (write (.double (.ofBits bits))) = false ∧
      read (write (.double (.ofBits bits))) = { double := some (canonical bits) }) ∧
    (∀ bits, isBoxed bits = false → ∃ slot, Slot.ofBits bits = .ok slot) ∧
    (∀ bits, isBoxed bits = true →
      ((∃ slot, Slot.ofBits bits = .ok slot) ↔
        (∃ h, write (.handle h) = bits) ∨ (∃ n slot, Slot.ofInt n = .ok slot ∧ write slot = bits) ∨
          (∃ b, write (.bool b) = bits) ∨ write .null = bits)) ∧
    ∀ bits slot, Slot.ofBits bits = .ok slot → Stands bits slot := by
  have read_write (slot : Slot) : read (write slot) = .of slot := by
    rw [write_eq_toBits, read_toBits]
  refine ⟨fun slot => ⟨write_eq_toBits slot, read_toBits slot, kind_toBits slot⟩,
    fun h bits => ⟨ofHandle_eq h, toHandle_eq bits⟩,
    fun _ _ => ⟨toHandle_ofHandle _, read_write _⟩, fun n => ?_, fun n => ?_,
    fun b => read_write _, read_write _, fun bits => ⟨isBoxed_double _, ?_⟩,
    fun bits unboxed => ?_, fun bits => boxed_iff, fun bits slot accepted => ?_⟩
  · split
    next bounds => exact ⟨_, ofInt_of_bounds bounds.1 (by omega), read_write _⟩
    next bounds =>
      have out : ¬(-0x800000000000 ≤ n ∧ n < 0x800000000000) := by omega
      rw [Slot.ofInt, Int48.ofInt?, dif_neg out]
  · have low := Int32.le_toInt n
    have high := Int32.toInt_lt n
    have word : ofInt64 n.toInt64 = (Slot.int ⟨n.toInt, by omega, by omega⟩).toBits :=
      ofInt64_eq (Int32.toInt_toInt64 n)
    rw [word, read_toBits]
    rfl
  · rw [read_write, ← bits_ofBits]
    rfl
  · have low : ¬boxedFrom ≤ bits.toNat := by
      rw [← isBoxed_iff, unboxed]
      decide
    exact ⟨.double ⟨bits, Nat.lt_of_not_le low⟩, ofBits_iff.mpr rfl⟩
  · cases ofBits_iff.mp accepted
    exact stands_toBits slot

-- Of all numbers minus infinity is next to the boxed words.
example : read 0xFFF0000000000000 = { double := some 0xFFF0000000000000 } := by decide

end Word
end ManagedObjects

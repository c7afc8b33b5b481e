import Mathlib.Data.List.Basic
import Mathlib.Tactic.SplitIfs
import ManagedObjects.Text.Utf8

/-!
What the decoder makes of bytes. The standard says it without a decoder: a character's bytes become
the character, and of bytes that are no character's the maximal subpart becomes one replacement
character. That settles the text of all bytes, and the decoder gives it. A text that is encoded is
therefore read back as it was.
-/

open String (utf8EncodeChar)

namespace ManagedObjects.Text

/-! ## The bytes of a character -/

def units (n : Nat) : List Nat :=
  if n < 0x80 then [n]
  else if n < 0x800 then [n / 64 + 0xC0, n % 64 + 0x80]
  else if n < 0x10000 then [n / 4096 + 0xE0, n / 64 % 64 + 0x80, n % 64 + 0x80]
  else [n / 262144 + 0xF0, n / 4096 % 64 + 0x80, n / 64 % 64 + 0x80, n % 64 + 0x80]

theorem toNat_valid (c : Char) : c.toNat.isValidChar := by
  have valid := c.valid
  rwa [UInt32.isValidChar, Char.toNat_val] at valid

theorem exists_char {n : Nat} (valid : n.isValidChar) : ∃ c : Char, c.toNat = n :=
  ⟨Char.ofNatAux n valid, rfl⟩

theorem map_toNat_utf8EncodeChar (c : Char) :
    (utf8EncodeChar c).map UInt8.toNat = units c.toNat := by
  have valid := toNat_valid c
  unfold Nat.isValidChar at valid
  unfold utf8EncodeChar units
  rw [Char.toNat_val]
  by_cases one : c.toNat < 0x80
  · rw [if_pos (by omega), if_pos one]
    simp
    omega
  rw [if_neg (by omega), if_neg one]
  by_cases two : c.toNat < 0x800
  · rw [if_pos (by omega), if_pos two]
    simp
    omega
  rw [if_neg (by omega), if_neg two]
  by_cases three : c.toNat < 0x10000
  · rw [if_pos (by omega), if_pos three]
    simp
    omega
  · rw [if_neg (by omega), if_neg three]
    simp
    omega

theorem units_eq_map_iff {c : Char} {bytes : List UInt8} :
    units c.toNat = bytes.map UInt8.toNat ↔ utf8EncodeChar c = bytes := by
  rw [← map_toNat_utf8EncodeChar]
  exact (List.map_injective_iff.mpr fun _ _ => UInt8.toNat_inj.mp).eq_iff

theorem units_append_inj {m n : Nat} {tail rest : List Nat}
    (same : units m ++ tail = units n ++ rest) : m = n := by
  unfold units at same
  split_ifs at same
  all_goals
    simp at same
    omega

theorem utf8EncodeChar_append_inj {c d : Char} {tail rest : List UInt8}
    (same : utf8EncodeChar c ++ tail = utf8EncodeChar d ++ rest) : c = d := by
  have mapped := congrArg (List.map UInt8.toNat) same
  simp only [List.map_append, map_toNat_utf8EncodeChar] at mapped
  exact Char.toNat_inj.mp (units_append_inj mapped)

theorem utf8EncodeChar_ofNat {b : UInt8} (one : b.toNat < 0x80) :
    utf8EncodeChar (Char.ofNat b.toNat) = [b] := by
  obtain ⟨c, number⟩ := exists_char (n := b.toNat) (.inl (by omega))
  rw [← number, Char.ofNat_toNat, ← units_eq_map_iff, units, number, if_pos one, List.map_singleton]

/-! ## What the standard asks for -/

def Unconvertible (bytes : List UInt8) : Prop := ∀ c, ¬ utf8EncodeChar c <+: bytes

/-- What the standard allows to replace at once: a byte, or the first bytes of a character. -/
def Replaceable (part : List UInt8) : Prop :=
  part.length = 1 ∨ ∃ c, part <+: utf8EncodeChar c

structure MaximalSubpart (part bytes : List UInt8) : Prop where
  nonempty : part ≠ []
  front : part <+: bytes
  replaceable : Replaceable part
  longest : ∀ longer, longer <+: bytes → Replaceable longer → longer.length ≤ part.length

/-- One replacement character for each maximal subpart that is no character. -/
inductive Lossy : List UInt8 → List Char → Prop
  | nil : Lossy [] []
  | char (c : Char) {rest : List UInt8} {cs : List Char} :
      Lossy rest cs → Lossy (utf8EncodeChar c ++ rest) (c :: cs)
  | broken {part rest : List UInt8} {cs : List Char} :
      Unconvertible (part ++ rest) → MaximalSubpart part (part ++ rest) → Lossy rest cs →
        Lossy (part ++ rest) (replacement :: cs)

theorem MaximalSubpart.unique {part other bytes : List UInt8} (maximal : MaximalSubpart part bytes)
    (greatest : MaximalSubpart other bytes) : part = other := by
  have shorter := greatest.longest part maximal.front maximal.replaceable
  have longer := maximal.longest other greatest.front greatest.replaceable
  exact (List.prefix_of_prefix_length_le maximal.front greatest.front shorter).eq_of_length
    (Nat.le_antisymm shorter longer)

theorem Lossy.unique {bytes : List UInt8} {cs ds : List Char} (lossy : Lossy bytes cs)
    (other : Lossy bytes ds) : cs = ds := by
  induction lossy generalizing ds with
  | nil =>
      generalize given : [] = bytes at other
      cases other with
      | nil => rfl
      | char c _ => exact absurd given.symm (by simp)
      | broken _ maximal _ => exact absurd given.symm (by simp [maximal.nonempty])
  | @char c rest cs _ ih =>
      generalize given : utf8EncodeChar c ++ rest = bytes at other
      cases other with
      | nil => exact absurd given (by simp)
      | char d after =>
          obtain rfl := utf8EncodeChar_append_inj given
          rw [ih (List.append_cancel_left given ▸ after)]
      | broken unconvertible _ _ => exact absurd ⟨rest, given⟩ (unconvertible c)
  | @broken part rest cs unconvertible maximal _ ih =>
      generalize given : part ++ rest = bytes at other
      cases other with
      | nil => exact absurd given (by simp [maximal.nonempty])
      | char d _ => exact absurd ⟨_, given.symm⟩ (unconvertible d)
      | broken _ greatest after =>
          obtain rfl := maximal.unique (given ▸ greatest)
          rw [ih (List.append_cancel_left given ▸ after)]

/-! ## Within a character -/

def assemble (value : Nat) (tail : List Nat) : Nat :=
  tail.foldl (fun value b => value * 64 + (b - 0x80)) value

def Fits : Nat → Nat → Nat → List Nat → Prop
  | 0, _, _, tail => tail = []
  | _ + 1, _, _, [] => False
  | missing + 1, low, high, b :: tail => (low ≤ b ∧ b ≤ high) ∧ Fits missing 0x80 0xBF tail

theorem fits_cons {missing low high b : Nat} {tail : List Nat} :
    Fits (missing + 1) low high (b :: tail) ↔
      (low ≤ b ∧ b ≤ high) ∧ Fits missing 0x80 0xBF tail := by
  rw [Fits]

theorem exists_fits {missing low high : Nat} (room : low ≤ high) :
    ∃ tail, Fits missing low high tail := by
  induction missing generalizing low high with
  | zero => exact ⟨[], rfl⟩
  | succ missing ih =>
      obtain ⟨tail, fits⟩ := @ih 0x80 0xBF (by decide)
      exact ⟨low :: tail, fits_cons.mpr ⟨⟨Nat.le_refl low, room⟩, fits⟩⟩

/-- Bytes that begin a character but are not all of it. Bytes complete them just when they fit. -/
structure Pending (part : List Nat) (value missing low high : Nat) : Prop where
  started : part ≠ []
  positive : 0 < missing
  room : low ≤ high
  completes : ∀ tail, Fits missing low high tail →
    ∃ c : Char, c.toNat = assemble value tail ∧ units c.toNat = part ++ tail
  fits : ∀ (c : Char) tail, units c.toNat = part ++ tail → Fits missing low high tail

theorem pending_two {b : Nat} (least : 0xC2 ≤ b) (most : b < 0xE0) :
    Pending [b] (b - 0xC0) 1 0x80 0xBF where
  started := List.cons_ne_nil b []
  positive := Nat.one_pos
  room := by decide
  completes tail fits := by
    match tail with
    | [] => cases fits
    | [x] =>
      obtain ⟨⟨low, high⟩, -⟩ := fits
      obtain ⟨c, number⟩ := exists_char (n := (b - 0xC0) * 64 + (x - 0x80)) (.inl (by omega))
      refine ⟨c, number, ?_⟩
      rw [units, if_neg (by omega), if_pos (by omega)]
      simp
      omega
  fits c tail encoded := by
    unfold units at encoded
    split_ifs at encoded
    all_goals
      obtain ⟨lead, rfl⟩ := List.cons.inj encoded
      simp [Fits]
      omega

theorem pending_three {b low high : Nat} (least : 0xE0 ≤ b) (most : b < 0xF0) (room : low ≤ high)
    (range : ∀ x, low ≤ x ∧ x ≤ high ↔
      (0x80 ≤ x ∧ x ≤ 0xBF) ∧ (b = 0xE0 → 0xA0 ≤ x) ∧ (b = 0xED → x ≤ 0x9F)) :
    Pending [b] (b - 0xE0) 2 low high where
  started := List.cons_ne_nil b []
  positive := Nat.two_pos
  room := room
  completes tail fits := by
    match tail with
    | [] => cases fits
    | [x] => cases fits.2
    | [x, y] =>
      obtain ⟨first, second, -⟩ := fits
      have first := (range x).mp first
      obtain ⟨c, number⟩ := exists_char
        (n := ((b - 0xE0) * 64 + (x - 0x80)) * 64 + (y - 0x80)) (by unfold Nat.isValidChar; omega)
      refine ⟨c, number, ?_⟩
      rw [units, if_neg (by omega), if_neg (by omega), if_pos (by omega)]
      simp
      omega
  fits c tail encoded := by
    have valid := toNat_valid c
    unfold Nat.isValidChar at valid
    unfold units at encoded
    split_ifs at encoded
    all_goals
      obtain ⟨lead, rfl⟩ := List.cons.inj encoded
      simp [Fits, range]
      omega

theorem pending_four {b low high : Nat} (least : 0xF0 ≤ b) (most : b < 0xF5) (room : low ≤ high)
    (range : ∀ x, low ≤ x ∧ x ≤ high ↔
      (0x80 ≤ x ∧ x ≤ 0xBF) ∧ (b = 0xF0 → 0x90 ≤ x) ∧ (b = 0xF4 → x ≤ 0x8F)) :
    Pending [b] (b - 0xF0) 3 low high where
  started := List.cons_ne_nil b []
  positive := by decide
  room := room
  completes tail fits := by
    match tail with
    | [] => cases fits
    | [x] => cases fits.2
    | [x, y] => cases fits.2.2
    | [x, y, z] =>
      obtain ⟨first, second, third, -⟩ := fits
      have first := (range x).mp first
      obtain ⟨c, number⟩ := exists_char
        (n := (((b - 0xF0) * 64 + (x - 0x80)) * 64 + (y - 0x80)) * 64 + (z - 0x80))
        (by unfold Nat.isValidChar; omega)
      refine ⟨c, number, ?_⟩
      rw [units, if_neg (by omega), if_neg (by omega), if_neg (by omega)]
      simp
      omega
  fits c tail encoded := by
    have valid := toNat_valid c
    unfold Nat.isValidChar at valid
    unfold units at encoded
    split_ifs at encoded
    all_goals
      obtain ⟨lead, rfl⟩ := List.cons.inj encoded
      simp [Fits, range]
      omega

namespace Pending

theorem next {part : List Nat} {value missing low high b : Nat}
    (pending : Pending part value (missing + 1) low high) (inside : low ≤ b ∧ b ≤ high)
    (more : 0 < missing) :
    Pending (part ++ [b]) (value * 64 + (b - 0x80)) missing 0x80 0xBF where
  started := List.append_ne_nil_of_left_ne_nil pending.started [b]
  positive := more
  room := by decide
  completes tail fits := by
    have whole := pending.completes (b :: tail) (fits_cons.mpr ⟨inside, fits⟩)
    rwa [assemble, List.foldl_cons, List.append_cons] at whole
  fits c tail encoded :=
    (fits_cons.mp (pending.fits c (b :: tail)
      (encoded.trans (List.append_cons part b tail).symm))).2

variable {part rest : List UInt8} {value missing low high : Nat}

theorem begins (pending : Pending (part.map UInt8.toNat) value missing low high) :
    ∃ c more, more ≠ [] ∧ utf8EncodeChar c = part ++ more := by
  obtain ⟨tail, fits⟩ := @exists_fits missing _ _ pending.room
  obtain ⟨c, -, encoded⟩ := pending.completes tail fits
  rw [← map_toNat_utf8EncodeChar] at encoded
  obtain ⟨front, more, whole, first, last⟩ := List.map_eq_append_iff.mp encoded
  obtain rfl := List.map_injective_iff.mpr (fun _ _ => UInt8.toNat_inj.mp) first
  refine ⟨c, more, ?_, whole⟩
  rintro rfl
  obtain ⟨missing, rfl⟩ := Nat.exists_eq_add_of_lt pending.positive
  rw [← last, Nat.zero_add] at fits
  exact fits

theorem follows (pending : Pending (part.map UInt8.toNat) value missing low high) {c : Char}
    {b : UInt8} {more : List UInt8} (encoded : utf8EncodeChar c = part ++ b :: more) :
    low ≤ b.toNat ∧ b.toNat ≤ high := by
  rw [← units_eq_map_iff, List.map_append] at encoded
  have fits := pending.fits c _ encoded
  obtain ⟨missing, rfl⟩ := Nat.exists_eq_add_of_lt pending.positive
  rw [Nat.zero_add, List.map_cons, fits_cons] at fits
  exact fits.1

theorem char (pending : Pending (part.map UInt8.toNat) value 1 low high) {b : UInt8}
    (inside : low ≤ b.toNat ∧ b.toNat ≤ high) :
    utf8EncodeChar (Char.ofNat (value * 64 + (b.toNat - 0x80))) = part ++ [b] := by
  obtain ⟨c, number, encoded⟩ := pending.completes [b.toNat] (fits_cons.mpr ⟨inside, rfl⟩)
  rw [assemble, List.foldl_cons, List.foldl_nil] at number
  rw [← number, Char.ofNat_toNat, ← units_eq_map_iff, encoded, List.map_append, List.map_singleton]

theorem not_longer (pending : Pending (part.map UInt8.toNat) value missing low high)
    (stops : ∀ b ∈ rest.head?, ¬ (low ≤ b.toNat ∧ b.toNat ≤ high)) {c : Char}
    {longer : List UInt8} (initial : longer <+: utf8EncodeChar c)
    (front : longer <+: part ++ rest) : longer <+: part := by
  have split := List.prefix_or_prefix_of_prefix front (List.prefix_append part rest)
  rcases split with within | ⟨more, rfl⟩
  · exact within
  cases more with
  | nil => simp
  | cons b more =>
      obtain ⟨last, rfl⟩ := (List.prefix_append_right_inj part).mp front
      obtain ⟨tail, whole⟩ := initial
      rw [List.append_assoc, List.cons_append] at whole
      exact absurd (pending.follows whole.symm) (stops b rfl)

theorem broken (pending : Pending (part.map UInt8.toNat) value missing low high)
    (rest : List UInt8) (stops : ∀ b ∈ rest.head?, ¬ (low ≤ b.toNat ∧ b.toNat ≤ high)) :
    Unconvertible (part ++ rest) ∧ MaximalSubpart part (part ++ rest) := by
  have started : part ≠ [] := fun none => pending.started (congrArg (List.map UInt8.toNat) none)
  obtain ⟨whole, more, lacks, encoded⟩ := pending.begins
  refine ⟨?_, started, List.prefix_append part rest, .inr ⟨whole, more, encoded.symm⟩, ?_⟩
  · intro c front
    obtain ⟨tail, within⟩ := pending.not_longer stops (List.prefix_refl _) front
    rw [← within, List.append_assoc] at encoded
    obtain rfl := utf8EncodeChar_append_inj ((List.append_nil _).trans encoded)
    exact lacks (List.append_eq_nil_iff.mp (List.self_eq_append_right.mp encoded)).2
  · rintro longer front (single | ⟨c, initial⟩)
    · exact single ▸ List.length_pos_iff.mpr started
    · exact (pending.not_longer stops initial front).length_le

end Pending

/-! ## The decoder -/

theorem units_ne_cons {b : Nat} (stray : 0x80 ≤ b ∧ b < 0xC2 ∨ 0xF5 ≤ b) (c : Char)
    (tail : List Nat) : units c.toNat ≠ b :: tail := by
  intro encoded
  have valid := toNat_valid c
  unfold Nat.isValidChar at valid
  unfold units at encoded
  split_ifs at encoded
  all_goals
    obtain ⟨lead, -⟩ := List.cons.inj encoded
    omega

theorem stray_broken {b : UInt8} {rest : List UInt8}
    (stray : ∀ (c : Char) tail, units c.toNat ≠ b.toNat :: tail) :
    Unconvertible ([b] ++ rest) ∧ MaximalSubpart [b] ([b] ++ rest) := by
  have alone : ∀ c tail, utf8EncodeChar c ≠ b :: tail := by
    intro c tail encoded
    exact stray c _ (units_eq_map_iff.mpr encoded)
  refine ⟨?_, List.cons_ne_nil b [], List.prefix_append [b] rest, .inl rfl, ?_⟩
  · intro c front
    rcases List.prefix_cons_iff.mp front with empty | ⟨tail, encoded, -⟩
    · exact String.utf8EncodeChar_ne_nil empty
    · exact alone c tail encoded
  · rintro longer front (single | ⟨c, more, encoded⟩)
    · exact Nat.le_of_eq single
    rcases List.prefix_cons_iff.mp front with rfl | ⟨tail, rfl, -⟩
    · exact Nat.zero_le 1
    · exact absurd encoded.symm (alone c (tail ++ more))

namespace DecoderState

inductive Begins (b : Nat) : List Char × DecoderState → Prop
  | char : b < 0x80 → Begins b ([Char.ofNat b], between)
  | stray : (∀ (c : Char) tail, units c.toNat ≠ b :: tail) → Begins b ([replacement], between)
  | pending {value missing low high : Nat} :
      Pending [b] value missing low high → Begins b ([], within value missing low high)

theorem begins_first (b : Nat) : Begins b (first b) := by
  unfold first
  split_ifs with one stray two least surrogate three smallest four largest
  · exact .char one
  · exact .stray (units_ne_cons (.inl (by omega)))
  · exact .pending (pending_two (by omega) two)
  · exact .pending (least ▸ pending_three (by decide) (by decide) (by decide) (by omega))
  · exact .pending (surrogate ▸ pending_three (by decide) (by decide) (by decide) (by omega))
  · exact .pending (pending_three (by omega) three (by decide) (by omega))
  · exact .pending (smallest ▸ pending_four (by decide) (by decide) (by decide) (by omega))
  · exact .pending (pending_four (by omega) (by omega) (by decide) (by omega))
  · exact .pending (largest ▸ pending_four (by decide) (by decide) (by decide) (by omega))
  · exact .stray (units_ne_cons (.inr (by omega)))

theorem decode_cons (state : DecoderState) (b : UInt8) (rest : List UInt8) :
    state.decode (b :: rest) = (state.next b.toNat).1 ++ (state.next b.toNat).2.decode rest := by
  cases state <;> rw [decode]

theorem lossy_decode (bytes : List UInt8) :
    Lossy bytes (between.decode bytes) ∧
      ∀ part value missing low high, Pending (part.map UInt8.toNat) value missing low high →
        Lossy (part ++ bytes) ((within value missing low high).decode bytes) := by
  -- A byte that does not go on with a character is read again, as one that may begin another, so
  -- the first fact about all the bytes goes into the second.
  induction bytes with
  | nil =>
      refine ⟨.nil, fun part value missing low high pending => ?_⟩
      have stopped := pending.broken [] (by simp)
      exact .broken stopped.1 stopped.2 .nil
  | cons b bytes ih =>
      have start : Lossy (b :: bytes) (between.decode (b :: bytes)) := by
        have begins := begins_first b.toNat
        rw [decode_cons, next]
        generalize first b.toNat = outcome at begins
        cases begins with
        | char one =>
            have whole := Lossy.char (Char.ofNat b.toNat) ih.1
            rwa [utf8EncodeChar_ofNat one] at whole
        | stray stray => exact .broken (stray_broken stray).1 (stray_broken stray).2 ih.1
        | pending pending => exact ih.2 [b] _ _ _ _ pending
      refine ⟨start, fun part value missing low high pending => ?_⟩
      by_cases inside : low ≤ b.toNat ∧ b.toNat ≤ high
      · rw [decode_cons, next, if_pos inside, List.append_cons]
        by_cases last : missing = 1
        · subst last
          have whole := Lossy.char (Char.ofNat (value * 64 + (b.toNat - 0x80))) ih.1
          rw [pending.char inside] at whole
          exact whole
        · obtain ⟨more, rfl⟩ := Nat.exists_eq_add_of_le' pending.positive
          rw [if_neg last]
          refine ih.2 (part ++ [b]) _ _ _ _ ?_
          rw [List.map_append]
          exact pending.next inside (by omega)
      · have stopped := pending.broken (b :: bytes) (by simpa using inside)
        rw [decode_cons, next, if_neg inside]
        rw [decode_cons, next] at start
        exact .broken stopped.1 stopped.2 start

end DecoderState

theorem lossy_iff {bytes : List UInt8} {text : String} :
    Lossy bytes text.toList ↔ decodeLossy bytes = text := by
  have decoded := (DecoderState.lossy_decode bytes).1
  constructor
  · intro lossy
    rw [decodeLossy, decoded.unique lossy, String.ofList_toList]
  · rintro rfl
    rw [decodeLossy, String.toList_ofList]
    exact decoded

example : decodeLossy [0xF0, 0x9F, 0x41, 0xC3, 0xA9, 0xE0, 0x80] = "\ufffdAé\ufffd\ufffd" := by
  decide

theorem encode_append (s t : String) : encode (s ++ t) = encode s ++ encode t := by
  rw [encode, String.toList_append, List.flatMap_append, encode, encode]

theorem lossy_encode (s : String) : Lossy (encode s) s.toList := by
  rw [encode]
  induction s.toList with
  | nil => exact .nil
  | cons c cs ih => exact .char c ih

theorem decodeLossy_encode (s : String) : decodeLossy (encode s) = s :=
  lossy_iff.mp (lossy_encode s)

theorem decode?_encode (s : String) : decode? (encode s) = some s := by
  rw [decode?, decodeLossy_encode, if_pos rfl]

end ManagedObjects.Text

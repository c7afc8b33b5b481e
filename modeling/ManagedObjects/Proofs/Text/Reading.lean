import ManagedObjects.Text.Numeral

namespace ManagedObjects.Text

section Marks
variable {α : Type} [BEq α] [LawfulBEq α] {mark : α} {before other after rest : List α}

theorem ne_mark (absent : mark ∉ before) : ∀ a ∈ before, (a != mark) = true := by
  intro a member
  refine bne_iff_ne.mpr ?_
  rintro rfl
  exact absent member

theorem takeWhile_mark (absent : mark ∉ before) :
    (before ++ mark :: after).takeWhile (· != mark) = before := by
  rw [List.takeWhile_append_of_pos (ne_mark absent), List.takeWhile_cons_of_neg (by simp),
    List.append_nil]

theorem dropWhile_mark (absent : mark ∉ before) :
    (before ++ mark :: after).dropWhile (· != mark) = mark :: after := by
  rw [List.dropWhile_append_of_pos (ne_mark absent), List.dropWhile_cons_of_neg (by simp)]

theorem append_mark_inj (absent : mark ∉ before) (missing : mark ∉ other)
    (same : before ++ mark :: after = other ++ mark :: rest) : before = other ∧ after = rest := by
  have first := congrArg (List.takeWhile (· != mark)) same
  have last := congrArg (List.dropWhile (· != mark)) same
  rw [takeWhile_mark absent, takeWhile_mark missing] at first
  rw [dropWhile_mark absent, dropWhile_mark missing] at last
  exact ⟨first, (List.cons.inj last).2⟩

end Marks

section Words
variable {α : Type} {mark : α} {space : List α} {words others : List (List α)}

structure Word (mark : α) (word : List α) : Prop where
  nonempty : word ≠ []
  clear : mark ∉ word

theorem intercalate_append (several : words ≠ []) (separator : List α) :
    separator.intercalate words ++ separator = words.flatMap (· ++ separator) := by
  induction words with
  | nil => exact absurd rfl several
  | cons w ws ih =>
      cases ws with
      | nil => simp
      | cons v vs => simpa using ih (List.cons_ne_nil v vs)

variable [BEq α] [LawfulBEq α]

theorem flatMap_mark_inj (clear : ∀ word ∈ words, mark ∉ word)
    (free : ∀ word ∈ others, mark ∉ word)
    (same : words.flatMap (· ++ mark :: space) = others.flatMap (· ++ mark :: space)) :
    words = others := by
  induction words generalizing others with
  | nil =>
      cases others with
      | nil => rfl
      | cons v vs => simp at same
  | cons w ws ih =>
      cases others with
      | nil => simp at same
      | cons v vs =>
          rw [List.forall_mem_cons] at clear free
          simp only [List.flatMap_cons, List.append_assoc, List.cons_append] at same
          obtain ⟨head, tail⟩ := append_mark_inj clear.1 free.1 same
          rw [head, ih clear.2 free.2 (List.append_cancel_left tail)]

theorem intercalate_inj (split : ∀ word ∈ words, Word mark word)
    (parted : ∀ word ∈ others, Word mark word)
    (same : (mark :: space).intercalate words = (mark :: space).intercalate others) :
    words = others := by
  have filled {w : List α} {ws : List (List α)} (word : Word mark w) :
      (mark :: space).intercalate (w :: ws) ≠ [] := by
    cases ws <;> simp [word.nonempty]
  cases words with
  | nil =>
      cases others with
      | nil => rfl
      | cons v vs => exact absurd same.symm (filled (parted v List.mem_cons_self))
  | cons w ws =>
      cases others with
      | nil => exact absurd same (filled (split w List.mem_cons_self))
      | cons v vs =>
          -- With a separator behind the last word too, every word is read up to a mark.
          have ended : (w :: ws).flatMap (· ++ mark :: space) =
              (v :: vs).flatMap (· ++ mark :: space) := by
            rw [← intercalate_append (List.cons_ne_nil w ws), same,
              intercalate_append (List.cons_ne_nil v vs)]
          exact flatMap_mark_inj (fun word member => (split word member).clear)
            (fun word member => (parted word member).clear) ended

end Words

def hexDigits : List Char :=
  ['0', '1', '2', '3', '4', '5', '6', '7', '8', '9', 'a', 'b', 'c', 'd', 'e', 'f']

def hexValue (digits : List Char) : Nat :=
  digits.foldl (fun n digit => 16 * n + hexDigits.idxOf digit) 0

structure Hexadecimal (n : Nat) (digits : List Char) : Prop where
  digit : ∀ c ∈ digits, c ∈ hexDigits
  nonempty : digits ≠ []
  leading : digits.head? = some '0' → digits = ['0']
  value : hexValue digits = n

theorem digitChar_spec : ∀ n < 16, n.digitChar ∈ hexDigits ∧ hexDigits.idxOf n.digitChar = n := by
  decide

theorem Hexadecimal.append {n d : Nat} {digits : List Char} (numeral : Hexadecimal n digits)
    (positive : 0 < n) (small : d < 16) : Hexadecimal (16 * n + d) (digits ++ [d.digitChar]) where
  digit c member := by
    rcases List.mem_append.mp member with earlier | last
    · exact numeral.digit c earlier
    · rw [List.mem_singleton.mp last]
      exact (digitChar_spec d small).1
  nonempty := by simp
  leading first := by
    -- The digits before the last stand for a positive number, so they do not begin with a zero.
    have start := List.head?_eq_some_head numeral.nonempty
    rw [List.head?_append, start, Option.some_or, ← start] at first
    have zero : hexValue ['0'] = n := numeral.leading first ▸ numeral.value
    exact absurd zero (Nat.ne_of_lt positive)
  value := by
    have earlier := numeral.value
    unfold hexValue at earlier ⊢
    rw [List.foldl_append, earlier, List.foldl_cons, List.foldl_nil, (digitChar_spec d small).2]

theorem hexadecimal_toDigits (n : Nat) : Hexadecimal n (Nat.toDigits 16 n) := by
  induction n using Nat.base_induction 16 (by decide) with
  | single d small =>
      rw [Nat.toDigits_of_lt_base small]
      obtain ⟨member, value⟩ := digitChar_spec d small
      exact ⟨by simpa using member, by simp, by simp, by simp [hexValue, value]⟩
  | digit n d small positive ih =>
      rw [← Nat.toDigits_append_toDigits (by decide) positive small, Nat.toDigits_of_lt_base small]
      exact ih.append positive small

end ManagedObjects.Text

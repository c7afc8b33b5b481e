import ManagedObjects.Toml.Format

namespace ManagedObjects.Toml

namespace Reader

/-! ## Integers -/

inductive Ends : List Char → List Char → Prop
  | document : Ends [] []
  | line (rest : List Char) : Ends ('\n' :: rest) rest

theorem isDecimal_of_mem_toDigits {c : Char} {n : Nat} (member : c ∈ Nat.toDigits 10 n) :
    isDecimal c = true :=
  Nat.isDigit_of_mem_toDigits (by decide) (by decide) member

theorem ne_of_isDecimal {c d : Char} (digit : isDecimal c = true) (other : isDecimal d = false) :
    c ≠ d := by
  rintro rfl
  rw [other] at digit
  cases digit

theorem exists_toDigits (n : Nat) :
    ∃ c digits, Nat.toDigits 10 n = c :: digits ∧ isDecimal c = true := by
  obtain ⟨c, digits, written⟩ := List.exists_cons_of_ne_nil (@Nat.toDigits_ne_nil n 10)
  exact ⟨c, digits, written, isDecimal_of_mem_toDigits (written ▸ List.mem_cons_self)⟩

theorem digitRun_append {digits rest next : List Char} (all : ∀ c ∈ digits, isDecimal c = true)
    (ends : Ends rest next) : digitRun isDecimal (digits ++ rest) = (digits, rest) := by
  induction digits with
  | nil => cases ends <;> rfl
  | cons c digits ih =>
      obtain ⟨digit, others⟩ := List.forall_mem_cons.mp all
      rw [List.cons_append, digitRun, if_pos digit, ih others]
      exact fun _ _ same _ => ne_of_isDecimal digit rfl same

theorem digitValue_of_isDecimal {c : Char} (digit : isDecimal c = true) :
    digitValue c = c.toNat - '0'.toNat := by
  unfold isDecimal at digit
  rw [Bool.and_eq_true, decide_eq_true_eq, decide_eq_true_eq] at digit
  rw [digitValue, if_pos digit.2]

theorem foldl_digitValue (digits : List Char) (all : ∀ c ∈ digits, isDecimal c = true)
    (start : Nat) :
    digits.foldl (fun n c => n * 10 + digitValue c) start = Nat.ofDigitChars 10 digits start := by
  induction digits generalizing start with
  | nil => rfl
  | cons c digits ih =>
      obtain ⟨digit, others⟩ := List.forall_mem_cons.mp all
      rw [List.foldl_cons, Nat.ofDigitChars_cons, ih others, digitValue_of_isDecimal digit,
        Nat.mul_comm]

theorem toDigits_of_pos {n : Nat} (positive : 0 < n) :
    ∃ c digits, Nat.toDigits 10 n = c :: digits ∧ c ≠ '0' := by
  induction n using Nat.strongRecOn with
  | _ n ih =>
      by_cases small : n < 10
      · refine ⟨n.digitChar, [], Nat.toDigits_of_lt_base small, fun zero => ?_⟩
        have value := Nat.toNat_digitChar_sub_48_of_lt_ten small
        rw [zero] at value
        exact absurd value (Nat.ne_of_lt positive)
      · obtain ⟨c, digits, written, plain⟩ := ih (n / 10) (by omega) (by omega)
        refine ⟨c, digits ++ [(n % 10).digitChar], ?_, plain⟩
        rw [Nat.toDigits_of_base_le (by decide) (by omega), written, List.cons_append]

theorem natural?_toDigits (n : Nat) {rest next : List Char} (ends : Ends rest next) :
    natural? 10 isDecimal (Nat.toDigits 10 n ++ rest) = some (n, rest) := by
  have all : ∀ c ∈ Nat.toDigits 10 n, isDecimal c = true := fun _ => isDecimal_of_mem_toDigits
  have value := (foldl_digitValue _ all 0).trans Nat.ofDigitChars_ten_toDigits
  have run := digitRun_append all ends
  obtain ⟨c, digits, written, digit⟩ := exists_toDigits n
  rw [written] at value run ⊢
  have starts : startsWithUnderscore (c :: digits ++ rest) = false := by
    rw [List.cons_append, startsWithUnderscore]
    exact fun _ same => ne_of_isDecimal digit rfl (List.cons.inj same).1
  simp only [natural?, starts, run, value]
  rfl

theorem decimal?_toDigits (n : Nat) {rest next : List Char} (ends : Ends rest next) :
    decimal? (Nat.toDigits 10 n ++ rest) = some (n, rest) := by
  rcases Nat.eq_zero_or_pos n with rfl | positive
  · cases ends <;> rfl
  · have read := natural?_toDigits n ends
    obtain ⟨c, digits, written, plain⟩ := toDigits_of_pos positive
    rw [written, List.cons_append] at read ⊢
    rw [decimal?, read]
    exact fun _ same => plain (List.cons.inj same).1

theorem integer?_toDigits {n : Nat} (small : n ≤ maxInteger) {rest next : List Char}
    (ends : Ends rest next) :
    integer? (Nat.toDigits 10 n ++ rest) = some (.integer n, rest) := by
  have read := decimal?_toDigits n ends
  have fits : bounded maxInteger 1 (decimal? (Nat.toDigits 10 n ++ rest)) =
      some (.integer n, rest) := by
    rw [read, bounded, if_pos small, Int.one_mul]
  rcases Nat.eq_zero_or_pos n with rfl | positive
  · cases ends <;> exact fits
  · obtain ⟨c, digits, written, plain⟩ := toDigits_of_pos positive
    have digit : isDecimal c = true := isDecimal_of_mem_toDigits (written ▸ List.mem_cons_self)
    rw [written, List.cons_append] at fits ⊢
    rw [integer?, fits]
    · exact fun _ same => ne_of_isDecimal digit rfl (List.cons.inj same).1
    · exact fun _ same => ne_of_isDecimal digit rfl (List.cons.inj same).1
    all_goals exact fun _ same => plain (List.cons.inj same).1

theorem value?_toDigits (fuel : Nat) {n : Nat} (small : n ≤ maxInteger) {rest next : List Char}
    (ends : Ends rest next) :
    value? (fuel + 1) (Nat.toDigits 10 n ++ rest) = some (.integer n, rest) := by
  have read := integer?_toDigits small ends
  obtain ⟨c, digits, written, digit⟩ := exists_toDigits n
  rw [written, List.cons_append] at read ⊢
  rw [value?, read]
  all_goals exact fun _ same => ne_of_isDecimal digit rfl (List.cons.inj same).1

/-! ## Strings -/

def isPlain (c : Char) : Bool := isPrintable c && c != '"' && c != '\\'

theorem basic?_append {text : List Char} (rest : List Char)
    (plain : ∀ c ∈ text, isPlain c = true) (fuel : Nat) (enough : text.length < fuel) :
    basic? fuel (text ++ '"' :: rest) = some (text, rest) := by
  induction text generalizing fuel with
  | nil =>
      obtain ⟨fuel, rfl⟩ := Nat.exists_eq_add_of_lt enough
      rfl
  | cons c text ih =>
      obtain ⟨fuel, rfl⟩ := Nat.exists_eq_add_of_lt enough
      obtain ⟨first, others⟩ := List.forall_mem_cons.mp plain
      simp only [isPlain, Bool.and_eq_true, bne_iff_ne] at first
      obtain ⟨⟨printable, unquoted⟩, unescaped⟩ := first
      have read := ih others ((c :: text).length + fuel) (by rw [List.length_cons]; omega)
      rw [List.cons_append, basic?, if_pos printable, read]
      · rfl
      · exact fun same => unquoted same
      · exact fun same => unescaped same

theorem value?_quoted (fuel : Nat) {c : Char} {text : List Char} (rest : List Char)
    (plain : ∀ d ∈ c :: text, isPlain d = true) :
    value? (fuel + 1) ('"' :: c :: (text ++ '"' :: rest)) =
      some (.string (String.ofList (c :: text)), rest) := by
  have unquoted : c ≠ '"' := by
    rintro rfl
    cases plain '"' List.mem_cons_self
  have read := basic?_append rest plain ((c :: (text ++ '"' :: rest)).length + 1)
    (by simp only [List.length_cons, List.length_append]; omega)
  rw [List.cons_append] at read
  rw [value?, string?, quoted?, read]
  · rfl
  · exact fun _ same => unquoted (List.cons.inj (List.cons.inj same).2).1
  · exact fun _ same => absurd (List.cons.inj same).1 (by decide)

/-- How a value is written that is an integer or a string without escapes. -/
inductive Writes : List Char → Value → Prop
  | integer {n : Nat} : n ≤ maxInteger → Writes (Nat.toDigits 10 n) (.integer n)
  | string {c : Char} {text : List Char} : (∀ d ∈ c :: text, isPlain d = true) →
      Writes ('"' :: c :: (text ++ ['"'])) (.string (String.ofList (c :: text)))

theorem Writes.text {s : String} (named : s.toList ≠ [])
    (plain : ∀ c ∈ s.toList, isPlain c = true) :
    Writes ('"' :: (s.toList ++ ['"'])) (.string s) := by
  obtain ⟨c, text, written⟩ := List.exists_cons_of_ne_nil named
  have writes := Writes.string (written ▸ plain)
  rwa [← List.cons_append, ← written, String.ofList_toList] at writes

theorem Writes.value? {text rest next : List Char} {value : Value} (writes : Writes text value)
    (fuel : Nat) (ends : Ends rest next) :
    value? (fuel + 1) (text ++ rest) = some (value, rest) := by
  cases writes with
  | integer small => exact value?_toDigits fuel small ends
  | string plain =>
      simp only [List.cons_append, List.append_assoc, List.nil_append]
      exact value?_quoted fuel rest plain

theorem skipBlanks_cons {c : Char} {rest : List Char} (visible : isBlank c = false) :
    skipBlanks (c :: rest) = c :: rest := by
  rw [skipBlanks, List.dropWhile_cons_of_neg (by simp [visible])]

theorem ne_of_isBare {c d : Char} (bare : isBare c = true) (other : isBare d = false) : c ≠ d := by
  rintro rfl
  rw [other] at bare
  cases bare

theorem isBlank_of_isBare {c : Char} (bare : isBare c = true) : isBlank c = false := by
  rw [isBlank, Bool.or_eq_false_iff, beq_eq_false_iff_ne, beq_eq_false_iff_ne]
  exact ⟨ne_of_isBare bare rfl, ne_of_isBare bare rfl⟩

theorem isBare_of_isDecimal {c : Char} (digit : isDecimal c = true) : isBare c = true := by
  simp [isBare, digit]

theorem isPlain_of_isBare {c : Char} (bare : isBare c = true) : isPlain c = true := by
  have visible : ' ' ≤ c := by
    simp only [isBare, isDecimal, Bool.or_eq_true, Bool.and_eq_true, decide_eq_true_eq,
      beq_iff_eq] at bare
    rcases bare with (((⟨low, -⟩ | ⟨low, -⟩) | ⟨low, -⟩) | rfl) | rfl
    any_goals exact Char.le_trans (by decide) low
    all_goals decide
  simp [isPlain, isPrintable, visible, ne_of_isBare bare (d := '\x7f') rfl,
    ne_of_isBare bare (d := '"') rfl, ne_of_isBare bare (d := '\\') rfl]

theorem Writes.skipBlanks {text rest : List Char} {value : Value} (writes : Writes text value) :
    skipBlanks (text ++ rest) = text ++ rest := by
  cases writes with
  | @integer n small =>
      obtain ⟨c, digits, written, digit⟩ := exists_toDigits n
      rw [written]
      exact skipBlanks_cons (isBlank_of_isBare (isBare_of_isDecimal digit))
  | string plain => rfl

/-! ## Keys -/

structure Bare (key : List Char) : Prop where
  named : key ≠ []
  bare : ∀ c ∈ key, isBare c = true

theorem Bare.exists_cons {key : List Char} (bare : Bare key) :
    ∃ c rest, key = c :: rest ∧ isBare c = true := by
  obtain ⟨c, rest, rfl⟩ := List.exists_cons_of_ne_nil bare.named
  exact ⟨c, rest, rfl, bare.bare c List.mem_cons_self⟩

theorem bareKey?_append {key : List Char} (bare : Bare key) {c : Char} (rest : List Char)
    (ends : isBare c = false) : bareKey? (key ++ c :: rest) = some (key, c :: rest) := by
  have front : (key ++ c :: rest).takeWhile isBare = key := by
    rw [List.takeWhile_append_of_pos bare.bare, List.takeWhile_cons_of_neg (by simp [ends]),
      List.append_nil]
  have back : (key ++ c :: rest).dropWhile isBare = c :: rest := by
    rw [List.dropWhile_append_of_pos bare.bare, List.dropWhile_cons_of_neg (by simp [ends])]
  obtain ⟨d, key, rfl, -⟩ := bare.exists_cons
  rw [bareKey?, front, back]

def assignment (key text : List Char) : List Char := key ++ ' ' :: '=' :: ' ' :: text

theorem assignment_cons (c : Char) (key text : List Char) :
    assignment (c :: key) text = c :: assignment key text := rfl

theorem path?_assignment {key : List Char} (bare : Bare key) (fuel : Nat) (text : List Char) :
    path? (fuel + 1) (assignment key text) = some ([String.ofList key], '=' :: ' ' :: text) := by
  have read := bareKey?_append bare ('=' :: ' ' :: text) (show isBare ' ' = false from rfl)
  obtain ⟨c, key, rfl, first⟩ := bare.exists_cons
  have unquoted : startsQuoted (c :: assignment key text) = false := by
    rw [startsQuoted]
    · exact fun _ same => ne_of_isBare first rfl (List.cons.inj same).1
    · exact fun _ same => ne_of_isBare first rfl (List.cons.inj same).1
  rw [← assignment, assignment_cons] at read
  rw [assignment_cons, path?, skipBlanks_cons (isBlank_of_isBare first), key?, unquoted,
    if_neg (by decide), read]
  rfl

theorem statement?_assignment {key text rest next : List Char} {value : Value} (bare : Bare key)
    (writes : Writes text value) (ends : Ends rest next) :
    statement? (assignment key (text ++ rest)) =
      some (.assign [String.ofList key] value, next) := by
  have path := path?_assignment bare (assignment key (text ++ rest)).length (text ++ rest)
  have read := writes.value? (' ' :: (text ++ rest)).length ends
  have ended : endOfLine? rest = some next := by cases ends <;> rfl
  have spaced : Reader.skipBlanks (' ' :: (text ++ rest)) = text ++ rest := writes.skipBlanks
  obtain ⟨c, key, rfl, first⟩ := bare.exists_cons
  rw [assignment_cons] at path ⊢
  rw [statement?, path]
  · simp only [Option.bind_eq_bind, Option.bind_some, spaced, read, ended]
  · exact fun _ same => ne_of_isBare first rfl (List.cons.inj same).1

/-! ## Documents -/

/-- A document that gives values to keys, one on each line. The last line may lack its end. -/
inductive Plain : List Char → List (String × Value) → Prop
  | empty : Plain [] []
  | line {key text rest next : List Char} {value : Value} {entries : List (String × Value)} :
      Bare key → Writes text value → Ends rest next → Plain next entries →
        Plain (assignment key (text ++ rest)) ((String.ofList key, value) :: entries)

theorem Plain.cons {key : String} {text next : List Char} {value : Value}
    {entries : List (String × Value)} (bare : Bare key.toList) (writes : Writes text value)
    (plain : Plain next entries) :
    Plain (assignment key.toList (text ++ '\n' :: next)) ((key, value) :: entries) := by
  have longer := Plain.line bare writes (.line next) plain
  rwa [String.ofList_toList] at longer

def assigned (entry : String × Value) : Statement := .assign [entry.1] entry.2

theorem skipLines_of_isBare (fuel : Nat) {c : Char} {rest : List Char} (bare : isBare c = true) :
    skipLines (fuel + 1) (c :: rest) = c :: rest := by
  have uncommented : skipComment (c :: rest) = c :: rest := by
    rw [skipComment]
    exact fun _ same => ne_of_isBare bare rfl (List.cons.inj same).1
  have unbroken : newline? (c :: rest) = none := by
    rw [newline?]
    · exact fun _ same => ne_of_isBare bare rfl (List.cons.inj same).1
    · exact fun _ same => ne_of_isBare bare rfl (List.cons.inj same).1
  simp only [skipLines, skipBlanks_cons (isBlank_of_isBare bare), uncommented, unbroken]

theorem Plain.statements? {cs : List Char} {entries : List (String × Value)}
    (plain : Plain cs entries) (fuel : Nat) (enough : entries.length < fuel) :
    statements? fuel cs = some (entries.map assigned) := by
  induction plain generalizing fuel with
  | empty =>
      obtain ⟨fuel, rfl⟩ := Nat.exists_eq_add_of_lt enough
      rfl
  | @line key text rest next value entries bare writes ends _ ih =>
      obtain ⟨fuel, rfl⟩ := Nat.exists_eq_add_of_lt enough
      have read := statement?_assignment bare writes ends
      have onward := ih (((String.ofList key, value) :: entries).length + fuel)
        (by rw [List.length_cons]; omega)
      obtain ⟨c, key, rfl, first⟩ := bare.exists_cons
      rw [assignment_cons] at read ⊢
      rw [Reader.statements?, skipLines_of_isBare _ first]
      simp only [read, Option.bind_eq_bind, Option.bind_some, onward]
      rfl

theorem Plain.length_le {cs : List Char} {entries : List (String × Value)}
    (plain : Plain cs entries) : entries.length ≤ cs.length := by
  induction plain with
  | empty => exact Nat.le_refl 0
  | line bare writes ends _ ih =>
      cases ends with
      | document =>
          simp only [assignment, List.length_append, List.length_cons, List.length_nil] at ih ⊢
          omega
      | line =>
          simp only [assignment, List.length_append, List.length_cons] at ih ⊢
          omega

theorem Plain.unmarked {cs : List Char} {entries : List (String × Value)}
    (plain : Plain cs entries) (rest : List Char) : cs ≠ '\ufeff' :: rest := by
  intro marked
  cases plain with
  | empty => cases marked
  | @line key text rest next value entries bare writes ends onward =>
      obtain ⟨c, key, rfl, first⟩ := bare.exists_cons
      exact ne_of_isBare first rfl (List.cons.inj marked).1

theorem Plain.document? {text : String} {entries : List (String × Value)}
    (plain : Plain text.toList entries) : document? text = some (entries.map assigned) := by
  have read := plain.statements? (text.toList.length + 1) (Nat.lt_succ_of_le plain.length_le)
  unfold Reader.document?
  split
  · exact absurd ‹_› (plain.unmarked _)
  · exact read

end Reader

/-! ## Entries -/

theorem Entries.assign_key {entries : Entries} {key : String} (value : Value)
    (fresh : entries.lookup key = none) :
    entries.assign [] [key] value = some (entries ++ [(key, .value value)]) := by
  have put : entries.put key (.value value) = entries ++ [(key, .value value)] := by
    simp [Entries.put, fresh]
  simp [Entries.assign, Entries.descend, fresh, put]

def assignedNode (entry : String × Value) : String × Node := (entry.1, .value entry.2)

theorem foldlM_assigned {entries : List (String × Value)} (distinct : (entries.map Prod.fst).Nodup)
    (before : Entries) (fresh : ∀ entry ∈ entries, before.lookup entry.1 = none) :
    (entries.map Reader.assigned).foldlM Statement.apply ([], before) =
      some ([], before ++ entries.map assignedNode) := by
  induction entries generalizing before with
  | nil => simp
  | cons entry entries ih =>
      obtain ⟨key, value⟩ := entry
      obtain ⟨first, others⟩ := List.forall_mem_cons.mp fresh
      rw [List.map_cons, List.nodup_cons] at distinct
      have onward := ih distinct.2 (before ++ [(key, .value value)]) ?_
      · rw [List.map_cons, List.foldlM_cons, Reader.assigned, Statement.apply]
        simp only [Entries.assign_key value first, Option.bind_eq_bind, Option.bind_some, onward]
        simp [assignedNode]
      · intro other member
        rw [List.lookup_append, others other member]
        have differs : (other.1 == key) = false := by
          rw [beq_eq_false_iff_ne]
          intro same
          exact distinct.1 (List.mem_map.mpr ⟨other, member, same⟩)
        simp [List.lookup_cons, differs]

theorem entries?_assigned {entries : List (String × Value)}
    (distinct : (entries.map Prod.fst).Nodup) :
    entries? (entries.map Reader.assigned) = some (entries.map assignedNode) := by
  rw [entries?, foldlM_assigned distinct [] fun _ _ => rfl]
  simp

/-! ## Formats -/

/-- An integer of 64 bits that is not negative, or a string that is a word. -/
inductive Value.Simple : Value → Prop
  | integer {n : Nat} : n ≤ maxInteger → Simple (.integer n)
  | word {s : String} : Reader.Bare s.toList → Simple (.string s)

namespace Format

/-- Plain documents are read for what they say. -/
def Reads (format : Format) : Prop :=
  ∀ (text : String) (entries : List (String × Value)), Reader.Plain text.toList entries →
    (entries.map Prod.fst).Nodup → format.read? text = some (entries.map assignedNode)

/-- Simple values are written to a plain document, each on the line of its key. -/
def Writes (format : Format) : Prop :=
  ∀ entries : List (String × Value), (∀ entry ∈ entries, Reader.Bare entry.1.toList) →
    (∀ entry ∈ entries, entry.2.Simple) → (entries.map Prod.fst).Nodup →
      ∃ text, format.write? entries = some text ∧ Reader.Plain text.toList entries

theorem standard_reads : standard.Reads := by
  intro text entries plain distinct
  change (Reader.document? text).bind entries? = _
  rw [plain.document?, Option.bind_some, entries?_assigned distinct]

end Format

theorem Value.Simple.text? {value : Value} (simple : value.Simple) :
    ∃ text, value.text? = some text ∧ Reader.Writes text.toList value := by
  cases simple with
  | @integer n small =>
      refine ⟨toString n, if_pos (by omega), ?_⟩
      simpa using Reader.Writes.integer small
  | @word s bare =>
      refine ⟨"\"" ++ s ++ "\"", if_pos (List.all_eq_true.mpr bare.bare), ?_⟩
      have plain : ∀ c ∈ s.toList, Reader.isPlain c = true :=
        fun c member => Reader.isPlain_of_isBare (bare.bare c member)
      simpa [String.toList_append] using Reader.Writes.text bare.named plain

theorem plain_writeLines? {entries : List (String × Value)}
    (bare : ∀ entry ∈ entries, Reader.Bare entry.1.toList)
    (simple : ∀ entry ∈ entries, entry.2.Simple) :
    ∃ text, writeLines? entries = some text ∧ Reader.Plain text.toList entries := by
  induction entries with
  | nil => exact ⟨"", rfl, .empty⟩
  | cons entry entries ih =>
      obtain ⟨named, others⟩ := List.forall_mem_cons.mp bare
      obtain ⟨first, rest⟩ := List.forall_mem_cons.mp simple
      obtain ⟨text, written, writes⟩ := first.text?
      obtain ⟨lines, also, plain⟩ := ih others rest
      refine ⟨entry.1 ++ " = " ++ text ++ "\n" ++ lines, ?_, ?_⟩
      · simp only [writeLines?, written, also, Option.bind_eq_bind, Option.bind_some]
      · simpa [Reader.assignment, String.toList_append] using Reader.Plain.cons named writes plain

theorem Format.standard_writes : Format.standard.Writes :=
  fun _ bare simple _ => plain_writeLines? bare simple

end ManagedObjects.Toml

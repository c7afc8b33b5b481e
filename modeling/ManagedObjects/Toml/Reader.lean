import ManagedObjects.Toml.Value

namespace ManagedObjects.Toml.Reader

/-! ## Blanks, comments and the end of a line -/

def isBlank (c : Char) : Bool := c == ' ' || c == '\t'

def skipBlanks (cs : List Char) : List Char := cs.dropWhile isBlank

def isPrintable (c : Char) : Bool := c == '\t' || (' ' ≤ c && c != '\x7f')

def newline? : List Char → Option (List Char)
  | '\n' :: rest => some rest
  | '\r' :: '\n' :: rest => some rest
  | _ => none

def skipComment : List Char → List Char
  | '#' :: rest => rest.dropWhile isPrintable
  | cs => cs

def endOfLine? (cs : List Char) : Option (List Char) :=
  match skipComment (skipBlanks cs) with
  | [] => some []
  | rest => newline? rest

def skipLines : Nat → List Char → List Char
  | 0, cs => cs
  | fuel + 1, cs =>
      let rest := skipComment (skipBlanks cs)
      match newline? rest with
      | some next => skipLines fuel next
      | none => rest

/-! ## Integers -/

def isDecimal (c : Char) : Bool := '0' ≤ c && c ≤ '9'

def isHexadecimal (c : Char) : Bool :=
  isDecimal c || ('a' ≤ c && c ≤ 'f') || ('A' ≤ c && c ≤ 'F')

def isOctal (c : Char) : Bool := '0' ≤ c && c ≤ '7'

def isBinary (c : Char) : Bool := c == '0' || c == '1'

def digitValue (c : Char) : Nat :=
  if c ≤ '9' then c.toNat - '0'.toNat
  else if c ≤ 'F' then c.toNat - 'A'.toNat + 10
  else c.toNat - 'a'.toNat + 10

def digitRun (isDigit : Char → Bool) : List Char → List Char × List Char
  | [] => ([], [])
  | '_' :: c :: rest =>
      if isDigit c then
        let (digits, rest) := digitRun isDigit rest
        (c :: digits, rest)
      else ([], '_' :: c :: rest)
  | c :: rest =>
      if isDigit c then
        let (digits, rest) := digitRun isDigit rest
        (c :: digits, rest)
      else ([], c :: rest)

def startsWithUnderscore : List Char → Bool
  | '_' :: _ => true
  | _ => false

def natural? (base : Nat) (isDigit : Char → Bool) (cs : List Char) : Option (Nat × List Char) :=
  if startsWithUnderscore cs then none
  else
    match digitRun isDigit cs with
    | ([], _) => none
    | (digits, rest) => some (digits.foldl (fun n c => n * base + digitValue c) 0, rest)

def decimal? : List Char → Option (Nat × List Char)
  | '0' :: rest =>
      match digitRun isDecimal rest with
      | ([], rest) => some (0, rest)
      | _ => none
  | cs => natural? 10 isDecimal cs

def bounded (limit : Nat) (sign : Int) : Option (Nat × List Char) → Option (Value × List Char)
  | some (n, rest) => if n ≤ limit then some (.integer (sign * n), rest) else none
  | none => none

def integer? : List Char → Option (Value × List Char)
  | '+' :: rest => bounded maxInteger 1 (decimal? rest)
  | '-' :: rest => bounded (maxInteger + 1) (-1) (decimal? rest)
  | '0' :: 'x' :: rest => bounded maxInteger 1 (natural? 16 isHexadecimal rest)
  | '0' :: 'o' :: rest => bounded maxInteger 1 (natural? 8 isOctal rest)
  | '0' :: 'b' :: rest => bounded maxInteger 1 (natural? 2 isBinary rest)
  | cs => bounded maxInteger 1 (decimal? cs)

/-! ## Strings -/

def codePoint? (count : Nat) (cs : List Char) : Option (Char × List Char) :=
  let digits := cs.take count
  if digits.length = count ∧ digits.all isHexadecimal then
    let n := digits.foldl (fun n c => n * 16 + digitValue c) 0
    if n.isValidChar then some (Char.ofNat n, cs.drop count) else none
  else none

def escape? : List Char → Option (Char × List Char)
  | 'b' :: rest => some ('\x08', rest)
  | 't' :: rest => some ('\t', rest)
  | 'n' :: rest => some ('\n', rest)
  | 'f' :: rest => some ('\x0c', rest)
  | 'r' :: rest => some ('\r', rest)
  | '"' :: rest => some ('"', rest)
  | '\\' :: rest => some ('\\', rest)
  | 'u' :: rest => codePoint? 4 rest
  | 'U' :: rest => codePoint? 8 rest
  | _ => none

def basic? : Nat → List Char → Option (List Char × List Char)
  | 0, _ => none
  | fuel + 1, cs =>
      match cs with
      | [] => none
      | '"' :: rest => some ([], rest)
      | '\\' :: rest => do
          let (c, rest) ← escape? rest
          let (text, rest) ← basic? fuel rest
          some (c :: text, rest)
      | c :: rest =>
          if isPrintable c then do
            let (text, rest) ← basic? fuel rest
            some (c :: text, rest)
          else none

def literal? : List Char → Option (List Char × List Char)
  | [] => none
  | '\'' :: rest => some ([], rest)
  | c :: rest =>
      if isPrintable c then do
        let (text, rest) ← literal? rest
        some (c :: text, rest)
      else none

def skipNewline (cs : List Char) : List Char := (newline? cs).getD cs

/-- The end of a string of several lines, where up to two quotes before the closing three belong
to the string. -/
def closing? (quote : Char) (cs : List Char) : Option (List Char × List Char) :=
  let quotes := cs.takeWhile (· == quote)
  if 3 ≤ quotes.length ∧ quotes.length ≤ 5 then
    some (quotes.drop 3, cs.dropWhile (· == quote))
  else none

def opensClosing (quote : Char) (cs : List Char) : Bool :=
  3 ≤ (cs.takeWhile (· == quote)).length

def continuation? (fuel : Nat) (cs : List Char) : Option (List Char) := do
  let next ← newline? (skipBlanks cs)
  some (skipBreaks fuel next)
where
  skipBreaks : Nat → List Char → List Char
    | 0, cs => cs
    | fuel + 1, cs =>
        let rest := skipBlanks cs
        match newline? rest with
        | some next => skipBreaks fuel next
        | none => rest

def basicLines? : Nat → List Char → Option (List Char × List Char)
  | 0, _ => none
  | fuel + 1, cs =>
      if opensClosing '"' cs then closing? '"' cs
      else
        match newline? cs with
        | some rest => do
            let (text, rest) ← basicLines? fuel rest
            some ('\n' :: text, rest)
        | none =>
            match cs with
            | [] => none
            | '\\' :: rest =>
                match continuation? fuel rest with
                | some rest => basicLines? fuel rest
                | none => do
                    let (c, rest) ← escape? rest
                    let (text, rest) ← basicLines? fuel rest
                    some (c :: text, rest)
            | c :: rest =>
                if isPrintable c then do
                  let (text, rest) ← basicLines? fuel rest
                  some (c :: text, rest)
                else none

def literalLines? : Nat → List Char → Option (List Char × List Char)
  | 0, _ => none
  | fuel + 1, cs =>
      if opensClosing '\'' cs then closing? '\'' cs
      else
        match newline? cs with
        | some rest => do
            let (text, rest) ← literalLines? fuel rest
            some ('\n' :: text, rest)
        | none =>
            match cs with
            | [] => none
            | c :: rest =>
                if isPrintable c then do
                  let (text, rest) ← literalLines? fuel rest
                  some (c :: text, rest)
                else none

def quoted? : List Char → Option (List Char × List Char)
  | '"' :: rest => basic? (rest.length + 1) rest
  | '\'' :: rest => literal? rest
  | _ => none

def string? : List Char → Option (List Char × List Char)
  | '"' :: '"' :: '"' :: rest => basicLines? (rest.length + 1) (skipNewline rest)
  | '\'' :: '\'' :: '\'' :: rest => literalLines? (rest.length + 1) (skipNewline rest)
  | cs => quoted? cs

/-! ## Keys -/

def isBare (c : Char) : Bool :=
  ('a' ≤ c && c ≤ 'z') || ('A' ≤ c && c ≤ 'Z') || isDecimal c || c == '_' || c == '-'

def bareKey? (cs : List Char) : Option (List Char × List Char) :=
  match cs.takeWhile isBare with
  | [] => none
  | name => some (name, cs.dropWhile isBare)

def startsQuoted : List Char → Bool
  | '"' :: _ => true
  | '\'' :: _ => true
  | _ => false

def key? (cs : List Char) : Option (String × List Char) :=
  (if startsQuoted cs then quoted? cs else bareKey? cs).map fun (name, rest) =>
    (String.ofList name, rest)

def path? : Nat → List Char → Option (List String × List Char)
  | 0, _ => none
  | fuel + 1, cs => do
      let (name, rest) ← key? (skipBlanks cs)
      match skipBlanks rest with
      | '.' :: rest => do
          let (names, rest) ← path? fuel rest
          some (name :: names, rest)
      | rest => some ([name], rest)

/-! ## Values and statements -/

mutual

def value? : Nat → List Char → Option (Value × List Char)
  | 0, _ => none
  | fuel + 1, cs =>
      match cs with
      | '[' :: rest =>
          match skipLines (rest.length + 1) rest with
          | ']' :: rest => some (.emptyArray, rest)
          | _ => none
      | '{' :: rest =>
          match skipBlanks rest with
          | '}' :: rest => some (.table [], rest)
          | rest => do
              let (entries, rest) ← entries? fuel rest
              some (.table entries, rest)
      | '"' :: _ => (string? cs).map fun (text, rest) => (.string (String.ofList text), rest)
      | '\'' :: _ => (string? cs).map fun (text, rest) => (.string (String.ofList text), rest)
      | _ => integer? cs

def entries? : Nat → List Char → Option (List (String × Value) × List Char)
  | 0, _ => none
  | fuel + 1, cs => do
      let (name, rest) ← key? (skipBlanks cs)
      match skipBlanks rest with
      | '=' :: rest => do
          let (value, rest) ← value? fuel (skipBlanks rest)
          match skipBlanks rest with
          | ',' :: rest => do
              let (entries, rest) ← entries? fuel rest
              some ((name, value) :: entries, rest)
          | '}' :: rest => some ([(name, value)], rest)
          | _ => none
      | _ => none

end

def statement? (cs : List Char) : Option (Statement × List Char) :=
  match cs with
  | '[' :: rest => do
      let (path, rest) ← path? (rest.length + 1) rest
      match rest with
      | ']' :: rest => do
          let rest ← endOfLine? rest
          some (.header path, rest)
      | _ => none
  | _ => do
      let (path, rest) ← path? (cs.length + 1) cs
      match rest with
      | '=' :: rest => do
          let (value, rest) ← value? (rest.length + 1) (skipBlanks rest)
          let rest ← endOfLine? rest
          some (.assign path value, rest)
      | _ => none

def statements? : Nat → List Char → Option (List Statement)
  | 0, _ => none
  | fuel + 1, cs =>
      match skipLines (cs.length + 1) cs with
      | [] => some []
      | rest => do
          let (statement, rest) ← statement? rest
          let statements ← statements? fuel rest
          some (statement :: statements)

def document? (text : String) : Option (List Statement) :=
  let cs := match text.toList with
    | '\ufeff' :: rest => rest
    | cs => cs
  statements? (cs.length + 1) cs

end ManagedObjects.Toml.Reader

/-!
UTF-8. Every text has a byte sequence; to read bytes back, each maximal part that begins a
character and is broken off, and each byte that begins none, becomes one replacement character.
-/

namespace ManagedObjects.Text

def encode (s : String) : List UInt8 :=
  s.toList.flatMap String.utf8EncodeChar

def replacement : Char := '\ufffd'

/-- Where a reader of bytes is: between characters, or within one that lacks `missing` bytes, with
the value of the bytes so far and the range of the next byte. -/
inductive DecoderState
  | between
  | within (value missing low high : Nat)
  deriving DecidableEq

namespace DecoderState

/-- A byte at the place where a character may begin. The byte after it is in a smaller range than
others where a larger one would give a number with a shorter form, a surrogate, or a number beyond
the last character. -/
def first (b : Nat) : List Char × DecoderState :=
  if b < 0x80 then ([Char.ofNat b], between)
  else if b < 0xC2 then ([replacement], between)
  else if b < 0xE0 then ([], within (b - 0xC0) 1 0x80 0xBF)
  else if b = 0xE0 then ([], within 0 2 0xA0 0xBF)
  else if b = 0xED then ([], within 0xD 2 0x80 0x9F)
  else if b < 0xF0 then ([], within (b - 0xE0) 2 0x80 0xBF)
  else if b = 0xF0 then ([], within 0 3 0x90 0xBF)
  else if b < 0xF4 then ([], within (b - 0xF0) 3 0x80 0xBF)
  else if b = 0xF4 then ([], within 4 3 0x80 0x8F)
  else ([replacement], between)

def next : DecoderState → Nat → List Char × DecoderState
  | between, b => first b
  | within value missing low high, b =>
      if low ≤ b ∧ b ≤ high then
        let value := value * 64 + (b - 0x80)
        if missing = 1 then ([Char.ofNat value], between)
        else ([], within value (missing - 1) 0x80 0xBF)
      else
        let (chars, state) := first b
        (replacement :: chars, state)

def decode : DecoderState → List UInt8 → List Char
  | between, [] => []
  | within .., [] => [replacement]
  | state, b :: rest =>
      let (chars, state) := next state b.toNat
      chars ++ decode state rest

end DecoderState

def decodeLossy (bytes : List UInt8) : String :=
  String.ofList (DecoderState.between.decode bytes)

def decode? (bytes : List UInt8) : Option String :=
  let text := decodeLossy bytes
  if encode text = bytes then some text else none

end ManagedObjects.Text

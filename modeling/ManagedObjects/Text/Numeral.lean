namespace ManagedObjects.Text

def hex (n : Nat) : String :=
  String.ofList (Nat.toDigits 16 n)

def hexPadded (width n : Nat) : String :=
  let digits := Nat.toDigits 16 n
  String.ofList (List.replicate (width - digits.length) '0' ++ digits)

def word (bits : UInt64) : String :=
  "0x" ++ hexPadded 16 bits.toNat

end ManagedObjects.Text

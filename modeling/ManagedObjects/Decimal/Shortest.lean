/-!
The shortest decimal that reads back as a given double-precision number. All arithmetic is exact.

A finite number is `m * 2 ^ q`. The reals that round to it form an interval around it, which holds
its ends exactly if `m` is even. Among the decimals in the interval we want one with as few digits
as possible, and of these the nearest; a tie goes away from zero.
-/

namespace ManagedObjects

structure Decimal where
  digits : Nat
  exponent : Int
  deriving DecidableEq

namespace Decimal

structure Interval where
  low : Nat
  value : Nat
  high : Nat
  closed : Bool

namespace Interval

def holds (i : Interval) (n : Nat) : Bool :=
  if i.closed then i.low ≤ n && n ≤ i.high else i.low < n && n < i.high

def nearest? (i : Interval) (unit : Nat) : Option Nat :=
  let below := i.value / unit
  let above := below + 1
  match i.holds (below * unit) && decide (0 < below), i.holds (above * unit) with
  | true, true => some (if i.value - below * unit < above * unit - i.value then below else above)
  | true, false => some below
  | false, true => some above
  | false, false => none

/-- The nearest multiple of the largest power of ten, from `10 ^ power` on, with a multiple in the
interval. A multiple of one power is a multiple of the power before, so the first power without a
multiple ends the search. -/
def coarsest (i : Interval) : Nat → Nat → Nat × Nat → Nat × Nat
  | 0, _, best => best
  | fuel + 1, power, best =>
      match i.nearest? (Nat.pow 10 power) with
      | some factor => coarsest i fuel (power + 1) (factor, power)
      | none => best

end Interval

def binary (bits : UInt64) : Nat × Int :=
  let fraction : Nat := bits.toNat % 0x10000000000000
  let exponent : Nat := bits.toNat / 0x10000000000000 % 0x800
  if exponent = 0 then (fraction, -1074) else (0x10000000000000 + fraction, (exponent : Int) - 1075)

/-- The reals that round to `m * 2 ^ q`, in units of `10 ^ -scale` with the returned `scale`. Below
a power of two the neighbouring number is half as far away as above it. -/
def roundingInterval (m : Nat) (q : Int) : Interval × Nat :=
  let scale := (2 - q).toNat
  let unit := if q < 2 then Nat.pow 5 scale else Nat.pow 2 (q - 2).toNat
  let below := if m = 0x10000000000000 && decide (-1074 < q) then 1 else 2
  (⟨(4 * m - below) * unit, 4 * m * unit, (4 * m + 2) * unit, m % 2 == 0⟩, scale)

def shortest (m : Nat) (q : Int) : Decimal :=
  let (interval, scale) := roundingInterval m q
  let (digits, power) :=
    interval.coarsest (interval.high + 1).log2.succ 0 (interval.value, 0)
  ⟨digits, (power : Int) - scale⟩

def positional (d : Decimal) : String :=
  let digits := Nat.toDigits 10 d.digits
  match d.exponent with
  | .ofNat zeros => String.ofList (digits ++ List.replicate zeros '0')
  | .negSucc n =>
      let places := n + 1
      let padded := List.replicate (places + 1 - digits.length) '0' ++ digits
      let whole := padded.length - places
      String.ofList (padded.take whole ++ '.' :: padded.drop whole)

end Decimal
end ManagedObjects

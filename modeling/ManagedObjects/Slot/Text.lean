import ManagedObjects.Decimal.Shortest
import ManagedObjects.Slot.Basic

namespace ManagedObjects

def Double.text (d : Double) : String :=
  let negative := 0x8000000000000000 ≤ d.bits.toNat
  let sign := if negative then "-" else ""
  if Double.IsNaN d.bits then "NaN"
  else if d.bits.toNat % 0x8000000000000000 = 0x7FF0000000000000 then sign ++ "inf"
  else
    match Decimal.binary d.bits with
    | (0, _) => sign ++ "0"
    | (m, q) => sign ++ (Decimal.shortest m q).positional

namespace Slot

def text : Slot → String
  | null => "ValueSlot::Null"
  | bool b => s!"ValueSlot::Bool({b})"
  | int n => s!"ValueSlot::Int({n.val})"
  | handle h => s!"ValueSlot::Handle({h.text})"
  | double d => s!"ValueSlot::Float({d.text})"

end Slot
end ManagedObjects

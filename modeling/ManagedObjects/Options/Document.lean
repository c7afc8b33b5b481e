import ManagedObjects.Options
import ManagedObjects.Text.Utf8
import ManagedObjects.Toml.Format

namespace ManagedObjects.Options
open Toml

def capacityKey : String := "initial_capacity"
def limitKey : String := "max_objects"
def policyKey : String := "trap_args"

def policyName : TrapPolicy → String
  | .forward => "forward"
  | .receiverOnly => "receiver-only"

def ofPolicyName? (name : String) : Option TrapPolicy :=
  if name = policyName .forward then some .forward
  else if name = policyName .receiverOnly then some .receiverOnly
  else none

def number? : Node → Option Nat
  | .value (.integer n) => if 0 ≤ n then some n.toNat else none
  | _ => none

def isEmptyNode : Node → Bool
  | .value .emptyArray => true
  | .value (.table []) => true
  | .table _ [] => true
  | _ => false

def policy? : Node → Option TrapPolicy
  | .value (.string name) => ofPolicyName? name
  | .value (.table [(name, value)]) =>
      if isEmptyNode (.value value) then ofPolicyName? name else none
  | .table _ [(name, node)] => if isEmptyNode node then ofPolicyName? name else none
  | _ => none

def set? (o : Options) (entry : String × Node) : Option Options :=
  if entry.1 = capacityKey then
    (number? entry.2).map fun n => { o with initialCapacity := n }
  else if entry.1 = limitKey then
    (number? entry.2).map fun n => { o with maxObjects := some n }
  else if entry.1 = policyKey then
    (policy? entry.2).map fun p => { o with trapPolicy := p }
  else none

variable (format : Format)

def parse? (text : String) : Option Options := do
  let entries ← format.read? text
  entries.foldlM set? {}

def ofText (text : String) : Except OptionsFault Options :=
  match parse? format text with
  | none => .error .malformed
  | some o =>
      match o.validate with
      | .ok () => .ok o
      | .error f => .error f

def ofBytes (bytes : List UInt8) : Except OptionsFault Options :=
  match Text.decode? bytes with
  | some text => ofText format text
  | none => .error .unreadable

def saved (o : Options) : List (String × Value) :=
  (capacityKey, .integer o.initialCapacity) ::
    ((o.maxObjects.map fun n => (limitKey, .integer n)).toList ++
      [(policyKey, .string (policyName o.trapPolicy))])

def toText? (o : Options) : Option String :=
  format.write? (saved o)

end ManagedObjects.Options

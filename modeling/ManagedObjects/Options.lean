import ManagedObjects.Text.Record

namespace ManagedObjects

inductive TrapPolicy
  | forward
  | receiverOnly
  deriving DecidableEq

structure Options where
  initialCapacity : Nat := 1024
  maxObjects : Option Nat := none
  trapPolicy : TrapPolicy := .forward
  deriving DecidableEq

inductive OptionsFault
  | unreadable
  | malformed
  | zeroLimit
  | capacityAboveLimit (capacity limit : Nat)
  deriving DecidableEq

namespace OptionsFault

def message? : OptionsFault → Option String
  | zeroLimit => some "Invalid options: max_objects must be greater than zero"
  | capacityAboveLimit capacity limit =>
      some s!"Invalid options: initial_capacity ({capacity}) exceeds max_objects ({limit})"
  | _ => none

end OptionsFault

namespace Options

def withObjectLimit (limit : Nat) : Options where
  initialCapacity := min ({} : Options).initialCapacity limit
  maxObjects := some limit

def withPolicy (policy : TrapPolicy) : Options where
  trapPolicy := policy

def validate (o : Options) : Except OptionsFault Unit :=
  match o.maxObjects with
  | none => .ok ()
  | some limit =>
      if limit = 0 then .error .zeroLimit
      else if limit < o.initialCapacity then
        .error (.capacityAboveLimit o.initialCapacity limit)
      else .ok ()

def policyText : TrapPolicy → String
  | .forward => "Forward"
  | .receiverOnly => "ReceiverOnly"

def text (o : Options) : String :=
  Text.record "RuntimeOptions"
    [("initial_capacity", toString o.initialCapacity),
      ("max_objects", Text.option (o.maxObjects.map toString)),
      ("trap_args", policyText o.trapPolicy)]

end Options
end ManagedObjects

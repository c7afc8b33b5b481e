import ManagedObjects.Program
import ManagedObjects.Signature

/-!
The dispatcher for calls of which only the name of the method is known. It checks what can be
checked without the method and hands the call on with the receiver in front of the arguments. It
keeps no state, so a method that it called may use it again.
-/

namespace ManagedObjects.Trap
open Native

def validateAll : List Handle → Program Unit
  | [] => pure ()
  | h :: rest => do
      validate h
      validateAll rest

def forward (policy : TrapPolicy) (this : Handle) (name : String) (args : List Slot) :
    Program Slot :=
  if policy = .receiverOnly ∧ args ≠ [] then
    .fail (.argumentMismatch name "receiver only" (Signature.describeArguments args))
  else call name (.handle this :: args)

/-- Calls method `name` of `this` under a policy. The receiver has to be live, the name not empty
and every handle among the arguments live. To leave the arguments out is to give none. -/
def dispatchWith (policy : TrapPolicy) (this : Handle) (name : String)
    (args : Option (List Slot)) : Program Slot := do
  validate this
  if name = "" then
    let type ← typeOf this
    .fail (.methodNotFound type.name "")
  else
    validateAll (Slot.handles (args.getD []))
    forward policy this name (args.getD [])

def dispatch (this : Handle) (name : String) (args : Option (List Slot)) : Program Slot :=
  dispatchWith .forward this name args

/-- The host's way in, under the policy of its options. -/
def dispatchByOptions (this : Handle) (name : String) (args : Option (List Slot)) :
    Program Slot := do
  dispatchWith (← Host.options).trapPolicy this name args

def readArguments (args : Slot) : Program (Option (List Slot)) :=
  if args.isNull then pure none else some <$> readList args

/-- The policy of an environment of which native code can only ask whether arguments are passed
on. -/
def environmentPolicy : Program TrapPolicy := do
  if ← forwardsArguments then pure .forward else pure .receiverOnly

def dispatchManaged (this : Handle) (name args : Slot) : Program Slot := do
  let method ← readString name
  let args ← readArguments args
  dispatchWith (← environmentPolicy) this method args

end ManagedObjects.Trap

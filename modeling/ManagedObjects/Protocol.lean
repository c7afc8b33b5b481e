import ManagedObjects.Method
import ManagedObjects.Trap

namespace ManagedObjects.Protocol
open Native

def equals (this : Handle) (other : Slot) : Program Bool := do
  validate this
  match other.handle? with
  | some that =>
      validate that
      pure (decide (that = this))
  | none => pure false

def order (this other : Handle) : Program Ordering := do
  let a ← objectId this
  let b ← objectId other
  pure (compare a b)

def hashOf (id : Nat) : Int48 := Int48.ofNat id

def hash (this : Handle) : Program Int48 := do
  pure (hashOf (← objectId this))

def identityText (this : Handle) (typeName : String) : String :=
  this.numeral ++ "@" ++ typeName

def toStr (this : Handle) : Program Handle := do
  let type ← Native.typeOf this
  createString (identityText this type.name)

def isImmutable (this : Handle) : Program Bool := do
  validate this
  pure false

def toImmutable (this : Handle) : Program Handle := do
  validate this
  pure this

def typeOf (this : Handle) : Program Handle := do
  let type ← Native.typeOf this
  typeObject type.id

def finalize (this : Handle) : Program Unit := validate this

def toStrName : String := "toStr"

def finalizeName : String := "finalize"

def echo (this : Handle) : Program Unit := do
  let rendered ← Trap.dispatch this toStrName none
  let text ← readString rendered
  writeLine text

def staticInit (_ : TypeId) : Program Unit := pure ()

def isFrozenImmutable (this : Handle) : Program Bool := isFrozen this

def freezeToImmutable (this : Handle) : Program Handle := do
  freeze this
  pure this

def receiver : List Slot → Program Handle
  | [] => .fail .missingReceiver
  | slot :: _ => .ofExcept slot.expectHandle

def equalsMethod : Method where
  signature := .exact [.any]
  body argv := do
    let this ← receiver argv
    let other ← Program.argument argv 1
    pure (.bool (← equals this other))

def compareMethod : Method where
  signature := .exact [.handle]
  body argv := do
    let other ← Program.argument argv 1
    let other ← Program.ofExcept other.expectHandle
    let this ← receiver argv
    pure (.int (Int48.ofOrdering (← order this other)))

def ofReceiver (f : Handle → Program Slot) : Method where
  signature := .nullary
  body argv := do
    let this ← receiver argv
    f this

def hashMethod : Method := ofReceiver fun this => Slot.int <$> hash this
def toStrMethod : Method := ofReceiver fun this => Slot.handle <$> toStr this
def isImmutableMethod : Method := ofReceiver fun this => Slot.bool <$> isImmutable this
def toImmutableMethod : Method := ofReceiver fun this => Slot.handle <$> toImmutable this
def typeOfMethod : Method := ofReceiver fun this => Slot.handle <$> typeOf this
def finalizeMethod : Method := ofReceiver fun this => (fun _ => Slot.null) <$> finalize this
def echoMethod : Method := ofReceiver fun this => (fun _ => Slot.null) <$> echo this

def trapMethod : Method where
  signature := .withOptional [.handle, .any] 1
  body argv := do
    let this ← receiver argv
    let name ← Program.argument argv 1
    Trap.dispatchManaged this name (argv[2]?.getD .null)

def methods : List (String × Method) :=
  [("equals", equalsMethod), ("compare", compareMethod), ("hash", hashMethod),
    (toStrName, toStrMethod), ("isImmutable", isImmutableMethod),
    ("toImmutable", toImmutableMethod), ("typeOf", typeOfMethod),
    (finalizeName, finalizeMethod), ("echo", echoMethod), ("trap", trapMethod)]

def methodNames : List String := methods.map Prod.fst

def freezableMethods : List (String × Method) :=
  [("isImmutable", ofReceiver fun this => Slot.bool <$> isFrozenImmutable this),
    ("toImmutable", ofReceiver fun this => Slot.handle <$> freezeToImmutable this)]

def valueMethods : List (String × Method) :=
  [("isImmutable", ofReceiver fun this => do
      validate this
      pure (.bool true)),
    ("toImmutable", ofReceiver fun this => do
      validate this
      pure (.handle this))]

def stringToStrMethod : Method where
  signature := .nullary
  body argv := Program.argument argv 0

end Protocol

namespace MethodTable

def insertAll (t : MethodTable) (methods : List (String × Method)) : MethodTable :=
  methods.foldl (fun t entry => t.insert entry.1 entry.2) t

def install (t : MethodTable) : MethodTable := t.insertAll Protocol.methods
def installFreezable (t : MethodTable) : MethodTable := t.insertAll Protocol.freezableMethods
def installValueType (t : MethodTable) : MethodTable := t.insertAll Protocol.valueMethods

end MethodTable
end ManagedObjects

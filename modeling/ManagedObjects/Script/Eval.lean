import ManagedObjects.Protocol
import ManagedObjects.Script.Expr
import ManagedObjects.Slot.Codec

namespace ManagedObjects.Script

abbrev Bindings := List (String × Slot)

def Eval (α : Type) := Bindings → Program (Except Fault α × Bindings)

namespace Eval

def result {α : Type} (r : Except Fault α) : Eval α := fun names => pure (r, names)

def fail {α : Type} (f : Fault) : Eval α := result (.error f)

protected def bind {α β : Type} (first : Eval α) (next : α → Eval β) : Eval β := fun names => do
  match ← first names with
  | (.ok a, names) => next a names
  | (.error f, names) => pure (.error f, names)

instance : Monad Eval where
  pure a := result (.ok a)
  bind := Eval.bind

def lift {α : Type} (p : Program α) : Eval α := fun names => do
  pure (← p.attempt, names)

def orElse {α : Type} (first second : Eval α) : Eval α := fun names => do
  match ← first names with
  | (.ok a, names) => pure (.ok a, names)
  | (.error _, names) => second names

def lookup (name : String) : Eval Slot := fun names =>
  match names.lookup name with
  | some value => pure (.ok value, names)
  | none => pure (.error (.general s!"unbound {name}"), names)

def bindName (name : String) (value : Slot) : Eval Unit := fun names =>
  pure (.ok (), (name, value) :: names)

def toProgram {α : Type} (e : Eval α) : Program α := do
  match ← e [] with
  | (.ok a, _) => pure a
  | (.error f, _) => .fail f

end Eval

namespace Reply

/-- The value that stands for a reply within an expression. A number beyond 63 bits is taken
modulo `2 ^ 64`. -/
def toSlot : Reply → Program Slot
  | unit => pure .null
  | slot value => pure value
  | bool b => pure (.bool b)
  | number n => .ofExcept (Slot.ofInt (n.bmod 0x10000000000000000))
  | text s => Slot.handle <$> Native.createString s
  | list values => Slot.handle <$> Native.createList values
  | descriptor d => Slot.handle <$> Native.createString d.name

end Reply

namespace Standalone

def run : Standalone → Program Reply
  | forwards => do pure (.bool (← Native.forwardsArguments))
  | typeObject id => do pure (.slot (.handle (← Native.typeObject id)))
  | createString text => do pure (.slot (.handle (← Native.createString text)))
  | writeLine text => do
      Native.writeLine text
      pure .unit
  | staticInit id => do
      Protocol.staticInit id
      pure .unit
  | instantiate id => do pure (.slot (.handle (← Host.instantiate id)))
  | liveObjects => do pure (.number (← Host.liveObjects))
  | overview => do pure (.text (← Host.overview))

end Standalone

/-- Releases an object and makes another in its place, again and again, so that one operation can
use up the generations of a cell. -/
def churn (id : TypeId) : Nat → Handle → Program Handle
  | 0, h => pure h
  | count + 1, h => do
      Host.release h
      let next ← Host.instantiate id
      churn id count next

namespace OnObject

def run (this : Handle) : OnObject → Program Reply
  | validate => do
      Native.validate this
      pure .unit
  | objectId => do pure (.number (← Native.objectId this))
  | typeOf => do pure (.descriptor (← Native.typeOf this))
  | isFrozen => do pure (.bool (← Native.isFrozen this))
  | freeze => do
      Native.freeze this
      pure .unit
  | getField index => do pure (.slot (← Native.getField this index))
  | hash => do pure (.number (← Protocol.hash this).val)
  | toStr => do pure (.slot (.handle (← Protocol.toStr this)))
  | toImmutable => do pure (.slot (.handle (← Protocol.toImmutable this)))
  | typeObjectOf => do pure (.slot (.handle (← Protocol.typeOf this)))
  | freezeToImmutable => do pure (.slot (.handle (← Protocol.freezeToImmutable this)))
  | isImmutable => do pure (.bool (← Protocol.isImmutable this))
  | isFrozenImmutable => do pure (.bool (← Protocol.isFrozenImmutable this))
  | finalize => do
      Protocol.finalize this
      pure .unit
  | echo => do
      Protocol.echo this
      pure .unit
  | release => do
      Host.release this
      pure .unit
  | reflect => do pure (.descriptor (← Host.reflect this))
  | churn count id => do pure (.slot (.handle (← Script.churn id count this)))

end OnObject

namespace Dispatch

def run (this : Handle) (name : String) (args : Option (List Slot)) : Dispatch → Program Slot
  | forwarding => Trap.dispatch this name args
  | under policy => Trap.dispatchWith policy this name args
  | byEnvironment => Trap.dispatchByOptions this name args

end Dispatch

namespace Arithmetic

def apply (op : Arithmetic) (a b : Int) : Except Fault Int :=
  let n := match op with
    | add => a + b
    | sub => a - b
    | mul => a * b
  if -0x8000000000000000 ≤ n ∧ n < 0x8000000000000000 then .ok n
  else .error (.general "int overflow")

end Arithmetic

def itemAt (values : List Slot) (index : Int) : Slot :=
  if index < 0 then .null else values[index.toNat]?.getD .null

mutual

def Expr.eval (argv : List Slot) : Expr → Eval Slot
  | .null => pure .null
  | .bool b => pure (.bool b)
  | .int n => .result (Slot.ofInt n)
  | .text s => .lift (Slot.handle <$> Native.createString s)
  | .handle h => pure (.handle h)
  | .double bits => pure (.double (.ofBits bits))
  | .word bits => .result (Slot.ofBits bits)
  | .variable name => .lookup name
  | .perform operation name => do
      let reply ← operation.eval argv
      let value ← Eval.lift reply.toSlot
      match name with
      | some name => Eval.bindName name value
      | none => pure ()
      pure value
  | .argument index => pure (argv[index]?.getD .null)
  | .argumentCount => .result (Slot.ofInt argv.length)
  | .sequence parts => do
      let values ← Expr.evalAll argv parts
      pure (values.getLast?.getD .null)
  | .branch condition yes no => do
      let value ← condition.eval argv
      if ← Eval.result value.expectBool then yes.eval argv else no.eval argv
  | .recover first second => .orElse (first.eval argv) (second.eval argv)
  | .raise f => .fail f
  | .arithmetic op left right => do
      let a ← left.eval argv
      let a ← Eval.result a.expectInt
      let b ← right.eval argv
      let b ← Eval.result b.expectInt
      let n ← Eval.result (op.apply a b)
      Eval.result (Slot.ofInt n)
  | .less left right => do
      let a ← left.eval argv
      let a ← Eval.result a.expectInt
      let b ← right.eval argv
      let b ← Eval.result b.expectInt
      pure (.bool (decide (a < b)))
  | .addDoubles left right => do
      let a ← left.eval argv
      let a ← Eval.result a.expectDouble
      let b ← right.eval argv
      let b ← Eval.result b.expectDouble
      pure (.double (a.add b))
  | .same left right => do
      let a ← left.eval argv
      let b ← right.eval argv
      pure (.bool (decide (a = b)))
  | .item list index => do
      let list ← list.eval argv
      let values ← Eval.lift (Native.readList list)
      let index ← index.eval argv
      let index ← Eval.result index.expectInt
      pure (itemAt values index)
  | .concat left right => do
      let a ← left.eval argv
      let a ← Eval.lift (Native.readString a)
      let b ← right.eval argv
      let b ← Eval.lift (Native.readString b)
      Eval.lift (Slot.handle <$> Native.createString (a ++ b))

def Expr.evalAll (argv : List Slot) : List Expr → Eval (List Slot)
  | [] => pure []
  | part :: rest => do
      let value ← part.eval argv
      let values ← Expr.evalAll argv rest
      pure (value :: values)

def Expr.evalArguments (argv : List Slot) : Option (List Expr) → Eval (Option (List Slot))
  | none => pure none
  | some args => do
      let values ← Expr.evalAll argv args
      pure (some values)

def Operation.eval (argv : List Slot) : Operation → Eval Reply
  | .standalone op => .lift op.run
  | .onObject op this => do
      let this ← this.eval argv
      let this ← Eval.result this.expectHandle
      Eval.lift (op.run this)
  | .equals this other => do
      let this ← this.eval argv
      let this ← Eval.result this.expectHandle
      let other ← other.eval argv
      Eval.lift (Reply.bool <$> Protocol.equals this other)
  | .order this other => do
      let this ← this.eval argv
      let this ← Eval.result this.expectHandle
      let other ← other.eval argv
      let other ← Eval.result other.expectHandle
      Eval.lift ((fun o => Reply.number (Int48.ofOrdering o).val) <$> Protocol.order this other)
  | .setField this index value => do
      let this ← this.eval argv
      let this ← Eval.result this.expectHandle
      let value ← value.eval argv
      Eval.lift ((fun _ => Reply.unit) <$> Native.setField this index value)
  | .readString value => do
      let value ← value.eval argv
      Eval.lift (Reply.text <$> Native.readString value)
  | .readList value => do
      let value ← value.eval argv
      Eval.lift (Reply.list <$> Native.readList value)
  | .evaluate value => do
      let value ← value.eval argv
      pure (.slot value)
  | .createList items => do
      let items ← Expr.evalAll argv items
      Eval.lift ((fun h => Reply.slot (.handle h)) <$> Native.createList items)
  | .call args name => do
      let args ← Expr.evalAll argv args
      Eval.lift (Reply.slot <$> Native.call name args)
  | .dispatch way this args name => do
      let this ← this.eval argv
      let this ← Eval.result this.expectHandle
      let args ← Expr.evalArguments argv args
      Eval.lift (Reply.slot <$> way.run this name args)
  | .dispatchManaged this name args => do
      let this ← this.eval argv
      let this ← Eval.result this.expectHandle
      let name ← name.eval argv
      let args ← args.eval argv
      Eval.lift (Reply.slot <$> Trap.dispatchManaged this name args)
  | .instantiateWith fields id => do
      let fields ← Expr.evalAll argv fields
      Eval.lift ((fun h => Reply.slot (.handle h)) <$> Host.instantiateWith id fields)
  | .invoke args id name => do
      let args ← Expr.evalAll argv args
      Eval.lift (Reply.slot <$> Host.invoke id name args)

end

namespace Expr

def body (e : Expr) (argv : List Slot) : Program Slot :=
  (e.eval argv).toProgram

def initializer (e : Expr) (id : TypeId) : Program Unit := do
  let argument ← Program.ofExcept (Slot.ofInt id)
  let _ ← e.body [argument]
  pure ()

end Expr

end ManagedObjects.Script

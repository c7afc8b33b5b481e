import ManagedObjects.Program

/-!
A small language in which environments are tried out: the bodies of native methods, and operations
on an environment one after the other, can be given as data. Nothing of an environment depends on
it.
-/

namespace ManagedObjects.Script

inductive Reply
  | unit
  | slot (value : Slot)
  | bool (b : Bool)
  | number (n : Int)
  | text (s : String)
  | list (values : List Slot)
  | descriptor (d : Descriptor)

inductive Standalone
  | forwards
  | typeObject (id : TypeId)
  | createString (text : String)
  | writeLine (text : String)
  | staticInit (id : TypeId)
  | instantiate (id : TypeId)
  | liveObjects
  | overview

inductive OnObject
  | validate
  | objectId
  | typeOf
  | isFrozen
  | freeze
  | getField (index : Nat)
  | hash
  | toStr
  | toImmutable
  | typeObjectOf
  | freezeToImmutable
  | isImmutable
  | isFrozenImmutable
  | finalize
  | echo
  | release
  | reflect
  | churn (count : Nat) (id : TypeId)

inductive Dispatch
  | forwarding
  | under (policy : TrapPolicy)
  | byEnvironment

inductive Arithmetic
  | add
  | sub
  | mul

mutual

inductive Expr
  | null
  | bool (b : Bool)
  | int (n : Int)
  | text (s : String)
  | handle (h : Handle)
  | double (bits : UInt64)
  | word (bits : UInt64)
  | variable (name : String)
  | perform (operation : Operation) (name : Option String)
  | argument (index : Nat)
  | argumentCount
  | sequence (parts : List Expr)
  | branch (condition yes no : Expr)
  | recover (first second : Expr)
  | raise (f : Fault)
  | arithmetic (op : Arithmetic) (left right : Expr)
  | less (left right : Expr)
  | addDoubles (left right : Expr)
  | same (left right : Expr)
  | item (list index : Expr)
  | concat (left right : Expr)

inductive Operation
  | standalone (op : Standalone)
  | onObject (op : OnObject) (this : Expr)
  | equals (this other : Expr)
  | order (this other : Expr)
  | setField (this : Expr) (index : Nat) (value : Expr)
  | readString (value : Expr)
  | readList (value : Expr)
  | evaluate (value : Expr)
  | createList (items : List Expr)
  | call (argv : List Expr) (name : String)
  | dispatch (way : Dispatch) (this : Expr) (args : Option (List Expr)) (name : String)
  | dispatchManaged (this name args : Expr)
  | instantiateWith (fields : List Expr) (id : TypeId)
  | invoke (argv : List Expr) (id : TypeId) (name : String)

end

end ManagedObjects.Script

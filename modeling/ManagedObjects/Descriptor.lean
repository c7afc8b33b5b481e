namespace ManagedObjects

abbrev TypeId := Nat

namespace TypeId

def object : TypeId := 0

def string : TypeId := 1

def list : TypeId := 2

def type : TypeId := 3

/-- The types whose payload the runtime makes itself: they have no subtypes and no instances of
their own. -/
def isSealed (id : TypeId) : Bool :=
  id == string || id == list || id == type

end TypeId

structure Descriptor where
  id : TypeId
  name : String
  parent : Option TypeId
  methodCount : Nat
  freezable : Bool
  deriving DecidableEq

end ManagedObjects

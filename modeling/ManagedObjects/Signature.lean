import ManagedObjects.Slot.Expect

namespace ManagedObjects

/-- Positional parameters of which the first `required` have to be supplied. -/
structure Signature where
  params : List Kind
  required : Nat
  required_le : required ≤ params.length
  deriving DecidableEq

namespace Signature

def nullary : Signature := ⟨[], 0, Nat.le_refl 0⟩

def exact (params : List Kind) : Signature :=
  ⟨params, params.length, Nat.le_refl _⟩

def withOptional (params : List Kind) (required : Nat) : Signature :=
  ⟨params, min required params.length, Nat.min_le_right _ _⟩

def maxArity (s : Signature) : Nat := s.params.length

def tuple (items : List String) : String :=
  "(" ++ ", ".intercalate items ++ ")"

def describe (s : Signature) : String :=
  tuple ((s.params.take s.required).map Kind.name ++
    (s.params.drop s.required).map fun kind => kind.name ++ "?")

def describeArguments (args : List Slot) : String :=
  tuple (args.map fun slot => slot.kind.name)

def accepts (s : Signature) (args : List Slot) : Bool :=
  s.required ≤ args.length && args.length ≤ s.params.length &&
    (s.params.zip args).all fun (kind, slot) => kind.accepts slot.kind

def check (s : Signature) (method : String) (args : List Slot) : Except Fault Unit :=
  if s.accepts args then .ok ()
  else .error (.argumentMismatch method s.describe (describeArguments args))

end Signature
end ManagedObjects

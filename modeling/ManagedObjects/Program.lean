import ManagedObjects.Options
import ManagedObjects.Slot.Expect

/-!
Native code as a value. A program asks its environment one request after the other, goes on with
the answers and ends with a value or a fault. What a request does is up to the environment, so that
one program can be run in an object runtime, in a recording environment, or under a theorem about
all environments.
-/

namespace ManagedObjects

/-- What native code asks of its environment. The requests up to `writeLine` are open to every
native method; the others are those of the host that owns the environment. -/
inductive Request
  | call (name : String) (argv : List Slot)
  | forwardsArguments
  | validate (h : Handle)
  | objectId (h : Handle)
  | typeOf (h : Handle)
  | typeObject (id : TypeId)
  | createString (text : String)
  | readString (value : Slot)
  | createList (items : List Slot)
  | readList (value : Slot)
  | getField (h : Handle) (index : Nat)
  | setField (h : Handle) (index : Nat) (value : Slot)
  | isFrozen (h : Handle)
  | freeze (h : Handle)
  | writeLine (line : String)
  | instantiate (id : TypeId)
  | instantiateWith (id : TypeId) (fields : List Slot)
  | release (h : Handle)
  | reflect (h : Handle)
  | invoke (id : TypeId) (name : String) (argv : List Slot)
  | options
  | liveObjects
  | overview
  deriving DecidableEq

abbrev Request.Answer : Request → Type
  | call .. => Except Fault Slot
  | forwardsArguments => Bool
  | validate _ => Except Fault Unit
  | objectId _ => Except Fault Nat
  | typeOf _ => Except Fault Descriptor
  | typeObject _ => Except Fault Handle
  | createString _ => Except Fault Handle
  | readString _ => Except Fault String
  | createList _ => Except Fault Handle
  | readList _ => Except Fault (List Slot)
  | getField .. => Except Fault Slot
  | setField .. => Except Fault Unit
  | isFrozen _ => Except Fault Bool
  | freeze _ => Except Fault Unit
  | writeLine _ => Except Fault Unit
  | instantiate _ => Except Fault Handle
  | instantiateWith .. => Except Fault Handle
  | release _ => Except Fault Unit
  | reflect _ => Except Fault Descriptor
  | invoke .. => Except Fault Slot
  | options => Options
  | liveObjects => Nat
  | overview => String

/-- Whether a call by name passes arguments on, in an environment that does not say. -/
def Request.forwardsByDefault : Bool := true

/-- How native code ends. Code that reads past the end of its argument vector ends without a
result. -/
inductive Outcome (α : Type)
  | value (a : α)
  | fault (f : Fault)
  | aborted
  deriving DecidableEq

inductive Program (α : Type)
  | finish (outcome : Outcome α)
  | ask (request : Request) (resume : request.Answer → Program α)

namespace Program

def fail {α : Type} (f : Fault) : Program α := finish (.fault f)

def abort {α : Type} : Program α := finish .aborted

protected def pure {α : Type} (a : α) : Program α := finish (.value a)

protected def bind {α β : Type} : Program α → (α → Program β) → Program β
  | finish (.value a), next => next a
  | finish (.fault f), _ => fail f
  | finish .aborted, _ => abort
  | ask request resume, next => ask request fun answer => (resume answer).bind next

instance : Monad Program where
  pure := Program.pure
  bind := Program.bind

instance {α : Type} : Inhabited (Program α) := ⟨abort⟩

theorem bind_value {α : Type} (p : Program α) : p.bind Program.pure = p := by
  induction p with
  | finish outcome => cases outcome <;> rfl
  | ask request resume ih =>
      simp only [Program.bind]
      congr 1
      funext answer
      exact ih answer

theorem bind_bind {α β γ : Type} (p : Program α) (f : α → Program β) (g : β → Program γ) :
    (p.bind f).bind g = p.bind fun a => (f a).bind g := by
  induction p with
  | finish outcome => cases outcome <;> rfl
  | ask request resume ih =>
      simp only [Program.bind]
      congr 1
      funext answer
      exact ih answer

instance : LawfulMonad Program :=
  LawfulMonad.mk' Program (fun p => bind_value p) (fun _ _ => rfl) (fun p f g => bind_bind p f g)

def attempt {α : Type} : Program α → Program (Except Fault α)
  | finish (.value a) => pure (.ok a)
  | finish (.fault f) => pure (.error f)
  | finish .aborted => abort
  | ask request resume => ask request fun answer => (resume answer).attempt

def ofExcept {α : Type} : Except Fault α → Program α
  | .ok a => pure a
  | .error f => fail f

def argument (argv : List Slot) (index : Nat) : Program Slot :=
  match argv[index]? with
  | some slot => pure slot
  | none => abort

def interpret {m : Type → Type} [Monad m] (answer : (request : Request) → m request.Answer)
    {α : Type} : Program α → m (Outcome α)
  | finish outcome => pure outcome
  | ask request resume => do
      let reply ← answer request
      (resume reply).interpret answer

end Program

namespace Native
open Program

def call (name : String) (argv : List Slot) : Program Slot := ask (.call name argv) ofExcept
def forwardsArguments : Program Bool := ask .forwardsArguments Program.pure
def validate (h : Handle) : Program Unit := ask (.validate h) ofExcept
def objectId (h : Handle) : Program Nat := ask (.objectId h) ofExcept
def typeOf (h : Handle) : Program Descriptor := ask (.typeOf h) ofExcept
def typeObject (id : TypeId) : Program Handle := ask (.typeObject id) ofExcept
def createString (text : String) : Program Handle := ask (.createString text) ofExcept
def readString (value : Slot) : Program String := ask (.readString value) ofExcept
def createList (items : List Slot) : Program Handle := ask (.createList items) ofExcept
def readList (value : Slot) : Program (List Slot) := ask (.readList value) ofExcept
def getField (h : Handle) (index : Nat) : Program Slot := ask (.getField h index) ofExcept
def setField (h : Handle) (index : Nat) (value : Slot) : Program Unit :=
  ask (.setField h index value) ofExcept
def isFrozen (h : Handle) : Program Bool := ask (.isFrozen h) ofExcept
def freeze (h : Handle) : Program Unit := ask (.freeze h) ofExcept
def writeLine (line : String) : Program Unit := ask (.writeLine line) ofExcept

end Native

namespace Host
open Program

def instantiate (id : TypeId) : Program Handle := ask (.instantiate id) ofExcept
def instantiateWith (id : TypeId) (fields : List Slot) : Program Handle :=
  ask (.instantiateWith id fields) ofExcept
def release (h : Handle) : Program Unit := ask (.release h) ofExcept
def reflect (h : Handle) : Program Descriptor := ask (.reflect h) ofExcept
def invoke (id : TypeId) (name : String) (argv : List Slot) : Program Slot :=
  ask (.invoke id name argv) ofExcept
def options : Program Options := ask .options Program.pure
def liveObjects : Program Nat := ask .liveObjects Program.pure
def overview : Program String := ask .overview Program.pure

end Host
end ManagedObjects

import ManagedObjects.Script.Eval

/-!
An environment that records what it is asked. It holds a fixed set of objects to begin with, makes
strings, lists and type objects when asked, and answers every call with one script. It serves to
watch native code: each request is noted before it is answered.
-/

namespace ManagedObjects

inductive Content
  | none
  | text (s : String)
  | items (values : List Slot)
  deriving DecidableEq

structure RecordedObject where
  id : Nat
  type : TypeId
  content : Content
  frozen : Bool
  deriving DecidableEq

structure Recording where
  objects : Array RecordedObject
  requests : Array Request
  deriving DecidableEq

namespace Recording

def firstId : Nat := 1000

def get (s : Recording) (h : Handle) : Except Fault RecordedObject :=
  if h.generation = 0 then
    match s.objects[h.index.toNat]? with
    | some object => .ok object
    | none => .error (.invalidHandle h)
  else .error (.invalidHandle h)

def make (s : Recording) (type : TypeId) (content : Content) : Handle × Recording :=
  let index := s.objects.size
  (⟨UInt32.ofNat index, 0⟩,
    { s with objects := s.objects.push ⟨firstId + index, type, content, false⟩ })

def describe (object : RecordedObject) : Descriptor :=
  ⟨object.type, s!"T{object.type}", none, 0, false⟩

def notText : Fault := .general "not a string"
def notList : Fault := .general "not a list"

def unsupported : Fault := .general "not supported"

def readString (s : Recording) (value : Slot) : Except Fault String := do
  let object ← s.get (← value.expectHandle)
  match object.content with
  | .text t => .ok t
  | _ => .error notText

def readList (s : Recording) (value : Slot) : Except Fault (List Slot) := do
  let object ← s.get (← value.expectHandle)
  match object.content with
  | .items values => .ok values
  | _ => .error notList

def freeze (s : Recording) (h : Handle) : Except Fault Unit × Recording :=
  match s.get h with
  | .ok _ =>
      let objects := s.objects.modify h.index.toNat fun object => { object with frozen := true }
      (.ok (), { s with objects := objects })
  | .error f => (.error f, s)

def note (s : Recording) : Request → Recording
  | .forwardsArguments | .options => s
  | request => { s with requests := s.requests.push request }

def respond (s : Recording) : (request : Request) → request.Answer × Recording
  | .call .. => (.error unsupported, s)
  | .forwardsArguments => (Request.forwardsByDefault, s)
  | .validate h => ((s.get h).map fun _ => (), s)
  | .objectId h => ((s.get h).map RecordedObject.id, s)
  | .typeOf h => ((s.get h).map describe, s)
  | .typeObject _ =>
      let (h, s) := s.make .type .none
      (.ok h, s)
  | .createString t =>
      let (h, s) := s.make .string (.text t)
      (.ok h, s)
  | .readString value => (s.readString value, s)
  | .createList values =>
      let (h, s) := s.make .list (.items values)
      (.ok h, s)
  | .readList value => (s.readList value, s)
  | .getField h _ => ((s.get h).map fun _ => .null, s)
  | .setField h _ _ => ((s.get h).map fun _ => (), s)
  | .isFrozen h => ((s.get h).map RecordedObject.frozen, s)
  | .freeze h => s.freeze h
  | .writeLine _ => (.ok (), s)
  | .instantiate _ => (.error unsupported, s)
  | .instantiateWith .. => (.error unsupported, s)
  | .release _ => (.error unsupported, s)
  | .reflect _ => (.error unsupported, s)
  | .invoke .. => (.error unsupported, s)
  | .options => ({}, s)
  | .liveObjects => (s.objects.size, s)
  | .overview => ("", s)

/-- A computation that may read and extend a recording, and that gives up when calls are nested too
deeply or when native code ends without a result. -/
abbrev Watch := StateT Recording Option

abbrev Reaction := List Slot → Program Slot

def answer (reaction : Reaction) : Nat → (request : Request) → Watch request.Answer
  | depth, .call name argv => do
      modify fun s => s.note (.call name argv)
      match depth with
      | 0 => failure
      | depth + 1 =>
          match ← (reaction argv).interpret (answer reaction depth) with
          | .value slot => pure (.ok slot)
          | .fault f => pure (.error f)
          | .aborted => failure
  | _, request => modifyGet fun s => (s.note request).respond request

def run {α : Type} (reaction : Reaction) (depth : Nat) (p : Program α) (s : Recording) :
    Option (Outcome α × Recording) :=
  (p.interpret (answer reaction depth)).run s

end Recording
end ManagedObjects

import ManagedObjects.Arena
import ManagedObjects.Output
import ManagedObjects.Registry

namespace ManagedObjects

inductive Progress
  | running
  | done
  | failed (f : Fault)
  deriving DecidableEq

structure World where
  arena : Arena
  typeObjects : List (TypeId × Handle)
  progress : List (TypeId × Progress)
  sink : Sink
  options : Options

namespace World

def initial (options : Options) (sink : Sink) : World where
  arena := .empty options.initialCapacity options.maxObjects
  typeObjects := []
  progress := []
  sink := sink
  options := options

def withArena (w : World) (a : Arena) : World := { w with arena := a }

def ofArena {α : Type} (w : World) (change : Except Fault α × Arena) : Except Fault α × World :=
  (change.1, w.withArena change.2)

def progressOf (w : World) (id : TypeId) : Option Progress := w.progress.lookup id

def note (w : World) (id : TypeId) (p : Progress) : World :=
  { w with progress := (id, p) :: w.progress }

theorem progressOf_note_self (w : World) (id : TypeId) (p : Progress) :
    (w.note id p).progressOf id = some p := by
  simp [note, progressOf]

theorem progressOf_note_ne (w : World) {id other : TypeId} (p : Progress) (h : other ≠ id) :
    (w.note id p).progressOf other = w.progressOf other := by
  have differs : (other == id) = false := by simpa using h
  simp [note, progressOf, List.lookup_cons, differs]

def checked {α : Type} (w : World) (values : List Slot) (change : Except Fault α × World) :
    Except Fault α × World :=
  match w.arena.checkHandles values with
  | .error f => (.error f, w)
  | .ok () => change

def allocate (w : World) (type : TypeId) (payload : Payload) : Except Fault Handle × World :=
  w.ofArena (w.arena.allocate type payload)

/-! ## Handles and types -/

def forwardsArguments (w : World) : Bool :=
  decide (w.options.trapPolicy = .forward)

def validate (w : World) (h : Handle) : Except Fault Unit :=
  (w.arena.get h).map fun _ => ()

def objectId (w : World) (h : Handle) : Except Fault Nat :=
  (w.arena.get h).map Object.id

def describe (r : Registry) (id : TypeId) : Except Fault Descriptor :=
  match r.get? id with
  | some t => .ok t.descriptor
  | none => .error (.unknownType id)

def typeOf (r : Registry) (w : World) (h : Handle) : Except Fault Descriptor := do
  let object ← w.arena.get h
  describe r object.type

def typeObject (r : Registry) (w : World) (id : TypeId) : Except Fault Handle × World :=
  match r.get? id with
  | none => (.error (.unknownType id), w)
  | some _ =>
      match w.typeObjects.lookup id with
      | some h => (.ok h, w)
      | none =>
          match w.allocate .type (.typeObject id) with
          | (.error f, w) => (.error f, w)
          | (.ok h, w) => (.ok h, { w with typeObjects := (id, h) :: w.typeObjects })

def reflect (r : Registry) (w : World) (h : Handle) : Except Fault Descriptor := do
  let object ← w.arena.get h
  match object.payload with
  | .typeObject id => describe r id
  | other => .error (.typeMismatch "Type" other.name)

/-! ## Strings and lists -/

def createString (w : World) (s : String) : Except Fault Handle × World :=
  w.allocate .string (.text s)

def readString (w : World) (value : Slot) : Except Fault String := do
  let object ← w.arena.get (← value.expectHandle)
  match object.payload with
  | .text s => .ok s
  | other => .error (.typeMismatch "Str" other.name)

def createList (w : World) (values : List Slot) : Except Fault Handle × World :=
  w.checked values (w.allocate .list (.items values))

def readList (w : World) (value : Slot) : Except Fault (List Slot) := do
  let object ← w.arena.get (← value.expectHandle)
  match object.payload with
  | .items values => .ok values
  | other => .error (.typeMismatch "List" other.name)

/-! ## Fields -/

def getField (w : World) (h : Handle) (index : Nat) : Except Fault Slot := do
  let object ← w.arena.get h
  match object.payload with
  | .fields values =>
      match values[index]? with
      | some value => .ok value
      | none => .error (.fieldIndex index)
  | other => .error (.typeMismatch "instance" other.name)

def writeField (index : Nat) (value : Slot) (object : Object) : Except Fault Unit × Object :=
  if object.frozen then (.error .immutableObject, object)
  else
    match object.payload with
    | .fields values =>
        if index < values.length then
          (.ok (), { object with payload := .fields (values.set index value) })
        else (.error (.fieldIndexOf index values.length), object)
    | other => (.error (.typeMismatch "instance" other.name), object)

def setField (w : World) (h : Handle) (index : Nat) (value : Slot) : Except Fault Unit × World :=
  w.checked [value] (w.ofArena (w.arena.update h (writeField index value)))

def isFrozen (w : World) (h : Handle) : Except Fault Bool :=
  (w.arena.get h).map Object.frozen

def freeze (w : World) (h : Handle) : Except Fault Unit × World :=
  w.ofArena (w.arena.update h fun object => (.ok (), { object with frozen := true }))

/-! ## Output -/

def writeLine (w : World) (line : String) : Except Fault Unit × World :=
  let (result, sink) := w.sink.writeLine line
  (result, { w with sink := sink })

def overview (r : Registry) (w : World) : String :=
  Text.record "RuntimeEnv"
    [("live_objects", toString w.arena.live), ("types", toString r.size),
      ("options", w.options.text)]

/-! ## Instances -/

/-- More fields than this do not fit into any memory. -/
def maxFields : Nat := 0xFFFFFFFFFFFFFFF

def instanceType (r : Registry) (id : TypeId) : Except Fault ObjectType :=
  match r.get? id with
  | none => .error (.unknownType id)
  | some t => if id.isSealed then .error (.sealedInstance t.name) else .ok t

def filledType (r : Registry) (id : TypeId) (values : List Slot) : Except Fault ObjectType := do
  let t ← instanceType r id
  if values.length = t.fieldCount.toNat then .ok t
  else
    .error (.argumentMismatch "instantiate" s!"{t.fieldCount.toNat} fields"
      s!"{values.length} fields")

def construct (w : World) (type : TypeId) (values : List Slot) : Except Fault Handle × World :=
  w.checked values (w.allocate type (.fields values))

def releasable (w : World) (h : Handle) : Except Fault Object := do
  let object ← w.arena.get h
  match object.payload with
  | .typeObject _ => .error .pinnedTypeObject
  | _ => .ok object

def reclaim (w : World) (h : Handle) : Except Fault Unit × World :=
  let (result, a) := w.arena.release h
  (result.map fun _ => (), w.withArena a)

end World
end ManagedObjects

import ManagedObjects.Fault
import ManagedObjects.Slot.Basic

/-!
The store of objects. An object lives in a cell; a released cell takes the next generation and is
used again, the most recently released first. A cell in its last generation is retired when its
object is released, so that no handle ever denotes two objects.
-/

namespace ManagedObjects

inductive Payload
  | fields (values : List Slot)
  | text (s : String)
  | items (values : List Slot)
  | typeObject (id : TypeId)
  deriving DecidableEq

namespace Payload

def name : Payload → String
  | fields _ => "instance"
  | text _ => "Str"
  | items _ => "List"
  | typeObject _ => "Type"

end Payload

structure Object where
  id : Nat
  type : TypeId
  frozen : Bool
  payload : Payload
  deriving DecidableEq

structure Cell where
  generation : UInt16
  object : Option Object
  deriving DecidableEq

structure Arena where
  cells : Array Cell
  free : List UInt32
  nextId : Nat
  live : Nat
  retired : Nat
  limit : Option Nat
  deriving DecidableEq

namespace Arena

def maxCells : Nat := 0x100000000

def lastGeneration : UInt16 := 65535

def empty (capacity : Nat) (limit : Option Nat) : Arena where
  cells := Array.emptyWithCapacity (min capacity 4096)
  free := []
  nextId := 1
  live := 0
  retired := 0
  limit := limit

def total (a : Arena) : Nat := a.nextId - 1

def get? (a : Arena) (h : Handle) : Option Object :=
  a.cells[h.index.toNat]?.bind fun cell =>
    if cell.generation = h.generation then cell.object else none

def get (a : Arena) (h : Handle) : Except Fault Object :=
  match a.get? h with
  | some object => .ok object
  | none => .error (.invalidHandle h)

def contains (a : Arena) (h : Handle) : Bool :=
  (a.get? h).isSome

def exhausted? (a : Arena) : Option Fault :=
  a.limit.bind fun limit => if limit ≤ a.live then some (.heapExhausted limit) else none

/-- The index of the most recently released cell, which is no longer free then, or that of a new
cell. -/
def reserve (a : Arena) : Except Fault UInt32 × Arena :=
  match a.free with
  | index :: free => (.ok index, { a with free := free })
  | [] =>
      if maxCells ≤ a.cells.size then (.error .indexOverflow, a)
      else (.ok (.ofNat a.cells.size), { a with cells := a.cells.push ⟨0, none⟩ })

def occupy (a : Arena) (index : UInt32) (type : TypeId) (payload : Payload) : Handle × Arena :=
  let object : Object := ⟨a.nextId, type, false, payload⟩
  let cells := a.cells.modify index.toNat fun cell => { cell with object := some object }
  (⟨index, (cells[index.toNat]?.map Cell.generation).getD 0⟩,
    { a with cells := cells, nextId := a.nextId + 1, live := a.live + 1 })

def allocate (a : Arena) (type : TypeId) (payload : Payload) : Except Fault Handle × Arena :=
  match a.exhausted? with
  | some f => (.error f, a)
  | none =>
      match a.reserve with
      | (.error f, a) => (.error f, a)
      | (.ok index, a) =>
          let (h, a) := a.occupy index type payload
          (.ok h, a)

/-- Runs code on the object of a handle, which stays as the code leaves it, also if the code
fails. -/
def update {α : Type} (a : Arena) (h : Handle) (code : Object → Except Fault α × Object) :
    Except Fault α × Arena :=
  match a.get h with
  | .error f => (.error f, a)
  | .ok object =>
      let (result, object) := code object
      (result, { a with cells := a.cells.modify h.index.toNat fun cell =>
        { cell with object := some object } })

def recycle (a : Arena) (h : Handle) : Arena :=
  if h.generation = lastGeneration then { a with retired := a.retired + 1 }
  else
    { a with
      cells := a.cells.modify h.index.toNat fun cell =>
        { cell with generation := cell.generation + 1 }
      free := h.index :: a.free }

def release (a : Arena) (h : Handle) : Except Fault Object × Arena :=
  match a.cells[h.index.toNat]? with
  | none => (.error (.invalidHandle h), a)
  | some cell =>
      if cell.generation = h.generation then
        -- The object is taken out before it is known that there is one.
        let a := { a with cells := a.cells.modify h.index.toNat fun cell =>
          { cell with object := none } }
        match cell.object with
        | none => (.error (.invalidHandle h), a)
        | some object =>
            let a := a.recycle h
            (.ok object, { a with live := a.live - 1 })
      else (.error (.invalidHandle h), a)

def checkHandles (a : Arena) (slots : List Slot) : Except Fault Unit :=
  (Slot.handles slots).forM fun h => (a.get h).map fun _ => ()

end Arena
end ManagedObjects

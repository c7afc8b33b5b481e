import ManagedObjects.Arena

namespace ManagedObjects

/-- If the change failed, the state is as it was. -/
def Atomic {σ α : Type} (s : σ) (change : Except Fault α × σ) : Prop :=
  ∀ f, change.1 = .error f → change.2 = s

namespace Arena

def refusal? (a : Arena) : Option Fault :=
  a.exhausted?.or (if a.free = [] ∧ maxCells ≤ a.cells.size then some .indexOverflow else none)

/-- The handle that the next object will have: a released cell in its present generation, else a
new cell. -/
def nextHandle (a : Arena) : Handle :=
  match a.free with
  | index :: _ => ⟨index, (a.cells[index.toNat]?.map Cell.generation).getD 0⟩
  | [] => ⟨UInt32.ofNat a.cells.size, 0⟩

def place (a : Arena) (type : TypeId) (payload : Payload) : Arena :=
  let cell : Cell := ⟨a.nextHandle.generation, some ⟨a.nextId, type, false, payload⟩⟩
  { a with
    cells := match a.free with
      | index :: _ => a.cells.setIfInBounds index.toNat cell
      | [] => a.cells.push cell
    free := a.free.tail
    nextId := a.nextId + 1
    live := a.live + 1 }

variable {a : Arena} {h : Handle} {object : Object} {α : Type}

theorem modify_eq_setIfInBounds {cells : Array Cell} {i : Nat} {cell : Cell}
    (located : cells[i]? = some cell) (change : Cell → Cell) :
    cells.modify i change = cells.setIfInBounds i (change cell) := by
  obtain ⟨bound, rfl⟩ := Array.getElem?_eq_some_iff.mp located
  apply Array.ext_getElem?
  intro j
  rw [Array.getElem?_modify, Array.getElem?_setIfInBounds]
  split
  · rename_i here
    subst here
    simp [bound]
  · rfl

theorem modify_congr_cell {cells : Array Cell} {i : Nat} {f g : Cell → Cell}
    (same : ∀ cell, cells[i]? = some cell → f cell = g cell) :
    cells.modify i f = cells.modify i g := by
  apply Array.ext_getElem?
  intro j
  rw [Array.getElem?_modify, Array.getElem?_modify]
  split
  · rename_i here
    subst here
    exact Option.map_congr same
  · rfl

theorem map_generation_modify (cells : Array Cell) (i : Nat) (object : Object) :
    (cells.modify i fun cell => { cell with object := some object })[i]?.map Cell.generation =
      cells[i]?.map Cell.generation := by
  rw [Array.getElem?_modify, if_pos rfl, Option.map_map]
  rfl

theorem occupy_free {index : UInt32} {rest : List UInt32} (listed : a.free = index :: rest)
    (type : TypeId) (payload : Payload) :
    ({ a with free := rest }).occupy index type payload = (a.nextHandle, a.place type payload) := by
  have cells : a.cells.modify index.toNat (fun cell =>
      { cell with object := some ⟨a.nextId, type, false, payload⟩ }) =
        (a.place type payload).cells := by
    simp only [place, nextHandle, listed]
    cases located : a.cells[index.toNat]? with
    | some cell => exact modify_eq_setIfInBounds located _
    | none =>
        have outside := Nat.not_lt.mpr (Array.getElem?_eq_none_iff.mp located)
        rw [Array.setIfInBounds, dif_neg outside]
        apply Array.ext_getElem?
        intro i
        rw [Array.getElem?_modify]
        split
        · rename_i here
          rw [← here, located, Option.map_none]
        · rfl
  unfold occupy
  refine Prod.ext ?_ ?_
  · simp only [map_generation_modify, nextHandle, listed]
  · simp only [cells]
    simp [place, listed]

theorem occupy_new (full : a.free = []) (room : a.cells.size < maxCells) (type : TypeId)
    (payload : Payload) :
    ({ a with cells := a.cells.push ⟨0, none⟩ }).occupy (.ofNat a.cells.size) type payload =
      (a.nextHandle, a.place type payload) := by
  have index : (UInt32.ofNat a.cells.size).toNat = a.cells.size := by
    rw [UInt32.toNat_ofNat']
    exact Nat.mod_eq_of_lt (by unfold maxCells at room; omega)
  have cells : (a.cells.push ⟨0, none⟩).modify a.cells.size (fun cell =>
      { cell with object := some ⟨a.nextId, type, false, payload⟩ }) =
        (a.place type payload).cells := by
    simp only [place, nextHandle, full]
    apply Array.ext_getElem?
    intro i
    rw [Array.getElem?_modify, Array.getElem?_push, Array.getElem?_push]
    by_cases last : i = a.cells.size
    · simp [last]
    · simp [last, Ne.symm last]
  unfold occupy
  refine Prod.ext ?_ ?_
  · simp only [index, map_generation_modify, nextHandle, full]
    simp
  · simp only [index, cells]
    simp [place, full]

theorem allocate_eq (a : Arena) (type : TypeId) (payload : Payload) :
    a.allocate type payload =
      match a.refusal? with
      | some f => (.error f, a)
      | none => (.ok a.nextHandle, a.place type payload) := by
  unfold allocate refusal?
  cases a.exhausted? with
  | some f => rfl
  | none =>
      rw [Option.none_or]
      cases listed : a.free with
      | cons index rest =>
          simp only [reserve, listed, occupy_free listed, reduceCtorEq, false_and, if_false]
      | nil =>
          by_cases full : maxCells ≤ a.cells.size
          · simp [reserve, listed, full]
          · have placed := occupy_new listed (Nat.lt_of_not_le full) type payload
            simp only [reserve, listed, full, if_false, and_false] at placed ⊢
            rw [placed]

theorem atomic_allocate (a : Arena) (type : TypeId) (payload : Payload) :
    Atomic a (a.allocate type payload) := by
  intro f refused
  rw [allocate_eq] at refused ⊢
  cases reason : a.refusal? with
  | some g => rfl
  | none =>
      rw [reason] at refused
      cases refused

theorem allocate_ok {b : Arena} {type : TypeId} {payload : Payload}
    (made : a.allocate type payload = (.ok h, b)) :
    a.refusal? = none ∧ h = a.nextHandle ∧ b = a.place type payload := by
  rw [allocate_eq] at made
  split at made
  · cases made
  · cases made
    exact ⟨‹_›, rfl, rfl⟩

theorem get?_eq_some_iff : a.get? h = some object ↔
    a.cells[h.index.toNat]? = some ⟨h.generation, some object⟩ := by
  unfold get?
  cases located : a.cells[h.index.toNat]? with
  | none => simp
  | some cell =>
      obtain ⟨generation, occupant⟩ := cell
      by_cases same : generation = h.generation <;> simp [same]

theorem get_eq_ok_iff : a.get h = .ok object ↔ a.get? h = some object := by
  unfold get
  cases a.get? h <;> simp

theorem get_eq_error (dead : a.get? h = none) : a.get h = .error (.invalidHandle h) := by
  simp [get, dead]

theorem contains_iff : a.contains h = true ↔ ∃ object, a.get? h = some object := by
  unfold contains
  exact Option.isSome_iff_exists

def modify (a : Arena) (h : Handle) (change : Object → Object) : Arena :=
  { a with cells := a.cells.modify h.index.toNat fun cell =>
      { cell with object := cell.object.map change } }

theorem cells_modify (a : Arena) (h : Handle) (change : Object → Object) (i : Nat) :
    (a.modify h change).cells[i]? =
      if h.index.toNat = i then
        a.cells[i]?.map fun cell => { cell with object := cell.object.map change }
      else a.cells[i]? :=
  Array.getElem?_modify

theorem modify_id (a : Arena) (h : Handle) : a.modify h id = a := by
  have cells : (a.modify h id).cells = a.cells := by
    apply Array.ext_getElem?
    intro i
    simp [cells_modify]
  exact congrArg (fun cells => { a with cells := cells }) cells

theorem modify_congr (live : a.get? h = some object) {f g : Object → Object}
    (same : f object = g object) : a.modify h f = a.modify h g := by
  refine congrArg (fun cells => { a with cells := cells })
    (modify_congr_cell fun cell located => ?_)
  cases (get?_eq_some_iff.mp live).symm.trans located
  simp [same]

theorem modify_self (live : a.get? h = some object) {change : Object → Object}
    (same : change object = object) : a.modify h change = a :=
  (modify_congr live same).trans (a.modify_id h)

theorem update_eq (live : a.get? h = some object) (code : Object → Except Fault α × Object) :
    a.update h code = ((code object).1, a.modify h fun object => (code object).2) := by
  have cells : (a.cells.modify h.index.toNat fun cell =>
      { cell with object := some (code object).2 }) =
      a.cells.modify h.index.toNat fun cell =>
        { cell with object := cell.object.map fun object => (code object).2 } := by
    refine modify_congr_cell fun cell located => ?_
    cases (get?_eq_some_iff.mp live).symm.trans located
    rfl
  simp only [update, get_eq_ok_iff.mpr live, cells]
  rfl

theorem update_dead (dead : a.get? h = none) (code : Object → Except Fault α × Object) :
    a.update h code = (.error (.invalidHandle h), a) := by
  simp only [update, get_eq_error dead]

theorem atomic_update {code : Object → Except Fault α × Object}
    (atomic : ∀ object, Atomic object (code object)) : Atomic a (a.update h code) := by
  intro f refused
  cases live : a.get? h with
  | none => rw [update_dead live]
  | some object =>
      rw [update_eq live] at refused ⊢
      exact modify_self live (atomic object f refused)

def vacate (a : Arena) (h : Handle) : Arena :=
  if h.generation = lastGeneration then
    { a with
      cells := a.cells.setIfInBounds h.index.toNat ⟨h.generation, none⟩
      retired := a.retired + 1
      live := a.live - 1 }
  else
    { a with
      cells := a.cells.setIfInBounds h.index.toNat ⟨h.generation + 1, none⟩
      free := h.index :: a.free
      live := a.live - 1 }

theorem release_dead (dead : a.get? h = none) :
    a.release h = (.error (.invalidHandle h), a) := by
  unfold release
  cases located : a.cells[h.index.toNat]? with
  | none => rfl
  | some cell =>
      obtain ⟨generation, occupant⟩ := cell
      by_cases same : generation = h.generation
      · subst same
        cases occupant with
        | some object =>
            rw [get?_eq_some_iff.mpr located] at dead
            cases dead
        | none =>
            have cells : (a.cells.modify h.index.toNat fun cell =>
                { cell with object := none }) = a.cells := by
              rw [modify_eq_setIfInBounds located]
              obtain ⟨bound, held⟩ := Array.getElem?_eq_some_iff.mp located
              rw [Array.setIfInBounds, dif_pos bound, ← held, Array.set_getElem_self]
            simp [cells]
      · simp [same]

theorem release_live (live : a.get? h = some object) :
    a.release h = (.ok object, a.vacate h) := by
  have located := get?_eq_some_iff.mp live
  have emptied : (a.cells.modify h.index.toNat fun cell => { cell with object := none }) =
      a.cells.setIfInBounds h.index.toNat ⟨h.generation, none⟩ :=
    modify_eq_setIfInBounds located _
  simp only [release, located, if_true, emptied, recycle, vacate]
  split
  · rfl
  · obtain ⟨bound, -⟩ := Array.getElem?_eq_some_iff.mp located
    have there : (a.cells.setIfInBounds h.index.toNat ⟨h.generation, none⟩)[h.index.toNat]? =
        some ⟨h.generation, none⟩ := by
      simp [bound]
    rw [modify_eq_setIfInBounds there, Array.setIfInBounds_setIfInBounds]

theorem atomic_release (a : Arena) (h : Handle) : Atomic a (a.release h) := by
  intro f refused
  cases live : a.get? h with
  | none => rw [release_dead live]
  | some object =>
      rw [release_live live] at refused
      cases refused

end Arena
end ManagedObjects

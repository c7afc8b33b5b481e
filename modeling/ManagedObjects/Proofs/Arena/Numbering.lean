import Mathlib.Data.List.Nodup
import ManagedObjects.Proofs.Arena.Handles

namespace ManagedObjects
namespace Arena

variable {a b : Arena} {history : List Handle}

def born? (a b : Arena) : Option Handle :=
  if a.contains a.nextHandle = false ∧ b.contains a.nextHandle = true then some a.nextHandle
  else none

theorem born?_eq_none
    (kept : ∀ h object, b.get? h = some object → ∃ before, a.get? h = some before) :
    a.born? b = none := by
  unfold born?
  rw [if_neg]
  rintro ⟨dead, live⟩
  obtain ⟨object, denoted⟩ := contains_iff.mp live
  obtain ⟨before, present⟩ := kept _ object denoted
  rw [contains_iff.mpr ⟨before, present⟩] at dead
  cases dead

theorem WellFormed.born?_place (formed : a.WellFormed) (room : a.refusal? = none) (type : TypeId)
    (payload : Payload) : a.born? (a.place type payload) = some a.nextHandle := by
  unfold born?
  rw [if_pos]
  constructor
  · rw [← Bool.not_eq_true, contains_iff]
    rintro ⟨object, live⟩
    exact formed.not_issued_nextHandle room (formed.issued live)
  · exact contains_iff.mpr ⟨_, by rw [formed.get?_place room, if_pos rfl]⟩

structure Chronicled (a : Arena) (history : List Handle) : Prop where
  nextId_eq : a.nextId = history.length + 1
  numbered : ∀ h object, a.get? h = some object →
    ∃ i, object.id = i + 1 ∧ history[i]? = some h
  issued : ∀ h ∈ history, a.Issued h
  nodup : history.Nodup

namespace Chronicled

theorem keep (chronicled : a.Chronicled history) (next : b.nextId = a.nextId)
    (kept : ∀ h object, b.get? h = some object →
      ∃ before, a.get? h = some before ∧ before.id = object.id)
    (issued : ∀ h, a.Issued h → b.Issued h) :
    b.Chronicled (history ++ (a.born? b).toList) := by
  have none_born : a.born? b = none := by
    refine born?_eq_none fun h object denoted => ?_
    obtain ⟨before, present, -⟩ := kept h object denoted
    exact ⟨before, present⟩
  rw [none_born, Option.toList_none, List.append_nil]
  refine ⟨next.trans chronicled.nextId_eq, fun h object denoted => ?_,
    fun h member => issued h (chronicled.issued h member), chronicled.nodup⟩
  obtain ⟨before, present, id⟩ := kept h object denoted
  exact id ▸ chronicled.numbered h before present

theorem place (chronicled : a.Chronicled history) (formed : a.WellFormed)
    (room : a.refusal? = none) (type : TypeId) (payload : Payload) :
    (a.place type payload).Chronicled
      (history ++ (a.born? (a.place type payload)).toList) := by
  rw [formed.born?_place room]
  constructor
  · simp [Arena.place, chronicled.nextId_eq]
  · intro h object denoted
    rw [formed.get?_place room] at denoted
    split at denoted
    · rename_i new
      cases denoted
      exact ⟨history.length, chronicled.nextId_eq, by simp [new]⟩
    · obtain ⟨i, id, place⟩ := chronicled.numbered h object denoted
      obtain ⟨bound, -⟩ := List.getElem?_eq_some_iff.mp place
      exact ⟨i, id, by rw [List.getElem?_append_left bound, place]⟩
  · intro h member
    refine formed.issued_place room type payload ?_
    rcases List.mem_append.mp member with earlier | last
    · exact .inr (chronicled.issued h earlier)
    · exact .inl (List.mem_singleton.mp last)
  · refine chronicled.nodup.append (List.nodup_singleton _) ?_
    rintro h member last
    rw [Option.toList_some, List.mem_singleton] at last
    exact formed.not_issued_nextHandle room (last ▸ chronicled.issued h member)

theorem change (chronicled : a.Chronicled history) (formed : a.WellFormed) (change : a.Change b) :
    b.Chronicled (history ++ (a.born? b).toList) := by
  have issued : ∀ h, a.Issued h → b.Issued h := fun h => formed.issued_change change
  cases change with
  | place type payload room => exact chronicled.place formed room type payload
  | modify h object change live id type =>
      refine chronicled.keep rfl (fun k changed denoted => ?_) issued
      rw [get?_modify live] at denoted
      split at denoted
      · rename_i same
        cases denoted
        exact ⟨object, same ▸ live, id.symm⟩
      · exact ⟨changed, denoted, rfl⟩
  | vacate h object live =>
      refine chronicled.keep (nextId_vacate a h) (fun k other denoted => ?_) issued
      rw [get?_vacate live] at denoted
      split at denoted
      · cases denoted
      · exact ⟨other, denoted, rfl⟩

variable {h k : Handle} {x y : Object}

theorem idxOf_eq (chronicled : a.Chronicled history) (live : a.get? h = some x) :
    h ∈ history ∧ x.id = history.idxOf h + 1 := by
  obtain ⟨i, id, place⟩ := chronicled.numbered h x live
  obtain ⟨bound, located⟩ := List.getElem?_eq_some_iff.mp place
  refine ⟨List.mem_of_getElem? place, ?_⟩
  rw [id, ← located, chronicled.nodup.idxOf_getElem i bound]

theorem eq_iff (chronicled : a.Chronicled history) (one : a.get? h = some x)
    (two : a.get? k = some y) : h = k ↔ x.id = y.id := by
  obtain ⟨-, first⟩ := chronicled.idxOf_eq one
  obtain ⟨member, second⟩ := chronicled.idxOf_eq two
  constructor
  · rintro rfl
    rw [first, second]
  · intro same
    have place : history.idxOf k = history.idxOf h := by omega
    exact ((List.idxOf_inj member).mp place).symm

theorem id_le (chronicled : a.Chronicled history) (live : a.get? h = some x) :
    1 ≤ x.id ∧ x.id ≤ history.length := by
  obtain ⟨member, id⟩ := chronicled.idxOf_eq live
  have bound := List.idxOf_lt_length_of_mem member
  omega

end Chronicled
end Arena
end ManagedObjects

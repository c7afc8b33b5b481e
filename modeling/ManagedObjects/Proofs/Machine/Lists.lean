import Mathlib.Logic.Relation
import ManagedObjects.Proofs.Machine.Coherence

namespace ManagedObjects

open Relation

namespace Arena

variable {a : Arena} {l k : Handle} {list element : Object}

def Includes (a : Arena) (l k : Handle) : Prop :=
  ∃ list items, a.get? l = some list ∧ list.payload = .items items ∧ .handle k ∈ items

/-- Each handle in a list has been given out, and what it denotes, if anything, has a lower number
than the list. -/
def Descending (a : Arena) : Prop :=
  ∀ l list items, a.get? l = some list → list.payload = .items items → ∀ k, .handle k ∈ items →
    a.Issued k ∧ ∀ element, a.get? k = some element → element.id < list.id

theorem descending_empty (capacity : Nat) (limit : Option Nat) :
    (empty capacity limit).Descending := by
  intro l list items live
  rw [get?_empty] at live
  cases live

theorem Descending.id_lt_of_includes (descending : a.Descending) (included : a.Includes l k)
    (live : a.get? l = some list) (denoted : a.get? k = some element) : element.id < list.id := by
  obtain ⟨found, items, present, held, member⟩ := included
  obtain rfl := Option.some.inj (present.symm.trans live)
  exact (descending l found items live held k member).2 element denoted

theorem Descending.id_lt (descending : a.Descending) (path : TransGen a.Includes l k)
    (live : a.get? l = some list) (denoted : a.get? k = some element) : element.id < list.id := by
  induction path generalizing element with
  | single included => exact descending.id_lt_of_includes included live denoted
  | tail _ included ih =>
      have held := included
      obtain ⟨between, _, present, -⟩ := held
      exact Nat.lt_trans (descending.id_lt_of_includes included present denoted) (ih present)

theorem Descending.irreflexive (descending : a.Descending) (l : Handle) :
    ¬ TransGen a.Includes l l := by
  intro path
  obtain ⟨_, ⟨list, _, live, -⟩, -⟩ := TransGen.head'_iff.mp path
  exact Nat.lt_irrefl _ (descending.id_lt path live live)

end Arena

namespace World

variable {r : Registry} {w : World} {request : Request} {b : Arena}

theorem readList_ok {value : Slot} {items : List Slot} (read : w.readList value = .ok items) :
    ∃ h list, value = .handle h ∧ w.arena.get? h = some list ∧ list.payload = .items items := by
  cases value with
  | handle h =>
      obtain ⟨list, found, read⟩ := bind_ok (x := w.arena.get h) read
      cases held : list.payload with
      | items values =>
          rw [held] at read
          cases read
          exact ⟨h, list, rfl, Arena.get_eq_ok_iff.mp found, held⟩
      | _ =>
          rw [held] at read
          cases read
  | _ => cases read

theorem Alters.items_before (altered : w.Alters r request b) (formed : w.arena.WellFormed)
    {l : Handle} {list : Object} {items : List Slot} (live : b.get? l = some list)
    (held : list.payload = .items items) :
    (∃ before, w.arena.get? l = some before ∧ before.id = list.id ∧
      before.payload = .items items) ∨
    list.id = w.arena.nextId ∧
      ∀ k, .handle k ∈ items → ∃ element, w.arena.get? k = some element := by
  cases altered with
  | nothing => exact .inl ⟨list, live, rfl, held⟩
  | make makes room =>
      rw [formed.get?_place room] at live
      split at live
      · cases live
        cases held
        cases makes with
        | list elements => exact .inr ⟨rfl, elements⟩
      · exact .inl ⟨list, live, rfl, held⟩
  | setField _ found =>
      rw [Arena.get?_modify found] at live
      split at live
      · cases live
        cases held
      · exact .inl ⟨list, live, rfl, held⟩
  | @freeze h frozen found =>
      rw [Arena.get?_modify found] at live
      split at live
      · rename_i same
        cases live
        exact .inl ⟨frozen, same ▸ found, rfl, held⟩
      · exact .inl ⟨list, live, rfl, held⟩
  | release found =>
      rw [Arena.get?_vacate found] at live
      split at live
      · cases live
      · exact .inl ⟨list, live, rfl, held⟩

theorem Alters.descending (altered : w.Alters r request b) (formed : w.arena.WellFormed)
    (descending : w.arena.Descending) : b.Descending := by
  intro l list items live held k member
  have before := altered.items_before formed live held
  rcases altered.change with same | change
  · subst same
    exact descending l list items live held k member
  · rcases before with ⟨earlier, present, number, items⟩ | ⟨number, elements⟩
    · obtain ⟨issued, older⟩ := descending l earlier _ present items k member
      refine ⟨formed.issued_change change issued, fun element denoted => ?_⟩
      obtain ⟨first, denotedBefore, id, -⟩ := formed.denoted_before change issued denoted
      rw [← id, ← number]
      exact older first denotedBefore
    · obtain ⟨first, present⟩ := elements k member
      have issued := formed.issued present
      refine ⟨formed.issued_change change issued, fun element denoted => ?_⟩
      obtain ⟨before, denotedBefore, id, -⟩ := formed.denoted_before change issued denoted
      rw [← id, number]
      exact formed.id_lt k before denotedBefore

end World

theorem Machine.Run.descending {α : Type} {r : Registry} {options : Options} {sink : Sink}
    {program : Program α} {entries : List Entry} {m : Machine α}
    (run : Run r (start options sink program) entries m) : m.world.arena.Descending := by
  refine (run.keeps (P := fun c => c.world.arena.Descending) ?_ ?_ ?_
    (coherent_initial options sink) ?_).2
  · intro c d _ descending shift
    cases shift <;> exact descending
  · intro w w' s x _ descending entered
    cases entered <;> exact descending
  · exact fun coherent descending performed =>
      performed.alters.descending coherent.formed descending
  · exact Arena.descending_empty _ _

end ManagedObjects

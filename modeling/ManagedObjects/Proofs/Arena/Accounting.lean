import ManagedObjects.Proofs.Arena.History

namespace ManagedObjects
namespace Arena

/-- Why the arena makes no further object: as many are live as the limit allows, or all cells are in
use or retired and there are as many cells as indices. -/
inductive Refuses (a : Arena) : Fault → Prop
  | exhausted {limit : Nat} :
      a.limit = some limit → limit ≤ a.live → Refuses a (.heapExhausted limit)
  | overflow : (∀ limit, a.limit = some limit → a.live < limit) → a.free = [] →
      maxCells ≤ a.cells.size → Refuses a .indexOverflow

theorem exhausted?_eq_some_iff {a : Arena} {f : Fault} :
    a.exhausted? = some f ↔
      ∃ limit, a.limit = some limit ∧ limit ≤ a.live ∧ f = .heapExhausted limit := by
  simp only [exhausted?, Option.bind_eq_some_iff, Option.ite_none_right_eq_some, Option.some.injEq,
    eq_comm (a := f)]

theorem exhausted?_eq_none_iff {a : Arena} :
    a.exhausted? = none ↔ ∀ limit, a.limit = some limit → a.live < limit := by
  simp [exhausted?]

theorem refusal?_eq_some_iff {a : Arena} {f : Fault} : a.refusal? = some f ↔ a.Refuses f := by
  rw [refusal?, Option.or_eq_some_iff, exhausted?_eq_some_iff, exhausted?_eq_none_iff,
    Option.ite_none_right_eq_some, Option.some.injEq]
  constructor
  · rintro (⟨limit, bound, reached, rfl⟩ | ⟨room, ⟨full, size⟩, rfl⟩)
    · exact .exhausted bound reached
    · exact .overflow room full size
  · rintro (⟨bound, reached⟩ | ⟨room, full, size⟩)
    · exact .inl ⟨_, bound, reached, rfl⟩
    · exact .inr ⟨room, ⟨full, size⟩, rfl⟩

theorem allocate_eq_error_iff {a : Arena} {type : TypeId} {payload : Payload} {f : Fault} :
    (a.allocate type payload).1 = .error f ↔ a.Refuses f := by
  rw [← refusal?_eq_some_iff, allocate_eq]
  cases a.refusal? <;> simp

theorem exists_allocate_iff {a : Arena} {type : TypeId} {payload : Payload} :
    (∃ h, (a.allocate type payload).1 = .ok h) ↔ ∀ f, ¬ a.Refuses f := by
  simp only [← refusal?_eq_some_iff, allocate_eq]
  cases a.refusal? <;> simp

theorem refuses_heapExhausted_iff {a : Arena} {limit : Nat} :
    a.Refuses (.heapExhausted limit) ↔ a.limit = some limit ∧ limit ≤ a.live := by
  constructor
  · rintro ⟨bound, reached⟩
    exact ⟨bound, reached⟩
  · rintro ⟨bound, reached⟩
    exact .exhausted bound reached

theorem refuses_indexOverflow_iff {a : Arena} :
    a.Refuses .indexOverflow ↔ (∀ limit, a.limit = some limit → a.live < limit) ∧ a.free = [] ∧
      maxCells ≤ a.cells.size := by
  constructor
  · intro refuses
    cases refuses with
    | overflow room free size => exact ⟨room, free, size⟩
  · rintro ⟨room, free, size⟩
    exact .overflow room free size

theorem not_refuses_iff {a : Arena} :
    (∀ f, ¬ a.Refuses f) ↔ (∀ limit, a.limit = some limit → a.live < limit) ∧
      (a.free = [] → a.cells.size < maxCells) := by
  constructor
  · intro admits
    have room : ∀ limit, a.limit = some limit → a.live < limit := fun limit bound =>
      Nat.not_le.mp fun reached => admits _ (.exhausted bound reached)
    exact ⟨room, fun free => Nat.not_le.mp fun size => admits _ (.overflow room free size)⟩
  · rintro ⟨room, below⟩ f refuses
    cases refuses with
    | exhausted bound reached => exact absurd reached (Nat.not_le.mpr (room _ bound))
    | overflow _ free size => exact absurd size (Nat.not_le.mpr (below free))

def occupied (a : Arena) : Nat := a.cells.countP fun cell => cell.object.isSome

theorem occupied_empty (capacity : Nat) (limit : Option Nat) :
    (empty capacity limit).occupied = 0 := by
  simp [occupied, empty]

theorem countP_setIfInBounds {cells : Array Cell} {i : Nat} {before : Cell}
    (located : cells[i]? = some before) (p : Cell → Bool) (after : Cell) :
    (cells.setIfInBounds i after).countP p + (if p before then 1 else 0) =
      cells.countP p + (if p after then 1 else 0) := by
  obtain ⟨bound, rfl⟩ := Array.getElem?_eq_some_iff.mp located
  have counted : (if p cells[i] then 1 else 0) ≤ cells.countP p := by
    split
    · exact Array.countP_pos_iff.mpr ⟨_, Array.getElem_mem bound, ‹_›⟩
    · exact Nat.zero_le _
  rw [Array.setIfInBounds, dif_pos bound, Array.countP_set]
  omega

theorem WellFormed.occupied_place {a : Arena} (formed : a.WellFormed) (type : TypeId)
    (payload : Payload) : (a.place type payload).occupied = a.occupied + 1 := by
  unfold occupied
  cases listed : a.free with
  | nil => simp [Arena.place, listed]
  | cons index rest =>
      obtain ⟨generation, vacant⟩ := formed.free_vacant index (by simp [listed])
      have counted := countP_setIfInBounds vacant (fun cell => cell.object.isSome)
        ⟨a.nextHandle.generation, some ⟨a.nextId, type, false, payload⟩⟩
      simpa [Arena.place, listed] using counted

theorem occupied_modify (a : Arena) (h : Handle) (change : Object → Object) :
    (a.modify h change).occupied = a.occupied := by
  have same : (a.modify h change).cells.map (fun cell => cell.object.isSome) =
      a.cells.map fun cell => cell.object.isSome := by
    apply Array.ext_getElem?
    intro i
    rw [Array.getElem?_map, Array.getElem?_map, cells_modify]
    split
    · simp [Function.comp_def]
    · rfl
  have counted := congrArg (Array.countP id) same
  rwa [Array.countP_map, Array.countP_map] at counted

theorem occupied_vacate {a : Arena} {h : Handle} {object : Object}
    (live : a.get? h = some object) : (a.vacate h).occupied + 1 = a.occupied := by
  have located := get?_eq_some_iff.mp live
  unfold occupied vacate
  split
  · exact countP_setIfInBounds located _ _
  · exact countP_setIfInBounds located _ _

section Fields
variable (a : Arena) (h : Handle)

theorem live_vacate : (a.vacate h).live = a.live - 1 := by
  unfold vacate
  split <;> rfl

theorem limit_vacate : (a.vacate h).limit = a.limit := by
  unfold vacate
  split <;> rfl

theorem size_vacate : (a.vacate h).cells.size = a.cells.size := by
  unfold vacate
  split <;> exact Array.size_setIfInBounds

theorem free_vacate :
    (a.vacate h).free = if h.generation = lastGeneration then a.free else h.index :: a.free := by
  unfold vacate
  split <;> rfl

theorem retired_vacate :
    (a.vacate h).retired = a.retired + if h.generation = lastGeneration then 1 else 0 := by
  unfold vacate
  split <;> rfl

end Fields

structure Accounted (a : Arena) : Prop where
  live_eq : a.live = a.occupied
  size_eq : a.cells.size = a.live + a.free.length + a.retired
  live_le : ∀ limit, a.limit = some limit → a.live ≤ limit

theorem accounted_empty (capacity : Nat) (limit : Option Nat) :
    (empty capacity limit).Accounted where
  live_eq := (occupied_empty capacity limit).symm
  size_eq := by simp [empty]
  live_le := fun bound _ => Nat.zero_le bound

theorem live_lt_of_room {a : Arena} (room : a.refusal? = none) {limit : Nat}
    (bound : a.limit = some limit) : a.live < limit := by
  rw [← Nat.not_le]
  intro reached
  rw [refusal?_eq_some_iff.mpr (.exhausted bound reached)] at room
  cases room

section Changes
variable {a : Arena} (accounted : a.Accounted)
include accounted

theorem Accounted.place (formed : a.WellFormed) (room : a.refusal? = none) (type : TypeId)
    (payload : Payload) : (a.place type payload).Accounted where
  live_eq := by
    rw [formed.occupied_place, ← accounted.live_eq]
    rfl
  size_eq := by
    have size := accounted.size_eq
    cases listed : a.free with
    | nil =>
        simp only [listed, List.length_nil] at size
        simp only [Arena.place, listed, Array.size_push, List.tail_nil, List.length_nil]
        omega
    | cons index rest =>
        simp only [listed, List.length_cons] at size
        simp only [Arena.place, listed, Array.size_setIfInBounds, List.tail_cons]
        omega
  live_le := fun _ bound => live_lt_of_room room bound

theorem Accounted.modify (h : Handle) (change : Object → Object) :
    (a.modify h change).Accounted where
  live_eq := by
    rw [occupied_modify]
    exact accounted.live_eq
  size_eq := by
    simp only [Arena.modify, Array.size_modify]
    exact accounted.size_eq
  live_le := accounted.live_le

theorem Accounted.live_pos {h : Handle} {object : Object} (live : a.get? h = some object) :
    0 < a.live := by
  have vacated := occupied_vacate live
  have counted := accounted.live_eq
  omega

theorem Accounted.vacate {h : Handle} {object : Object} (live : a.get? h = some object) :
    (a.vacate h).Accounted where
  live_eq := by
    have vacated := occupied_vacate live
    have counted := accounted.live_eq
    rw [live_vacate]
    omega
  size_eq := by
    have size := accounted.size_eq
    have some_live := accounted.live_pos live
    rw [size_vacate, live_vacate, free_vacate, retired_vacate]
    split
    · omega
    · rw [List.length_cons]
      omega
  live_le := by
    intro limit bound
    rw [limit_vacate] at bound
    rw [live_vacate]
    exact Nat.le_trans (Nat.sub_le _ _) (accounted.live_le limit bound)

theorem Accounted.refuses_vacate_iff {h : Handle} {object : Object}
    (live : a.get? h = some object) {f : Fault} :
    (a.vacate h).Refuses f ↔ f = .indexOverflow ∧ h.generation = lastGeneration ∧ a.free = [] ∧
      maxCells ≤ a.cells.size := by
  have below : ∀ limit, (a.vacate h).limit = some limit → (a.vacate h).live < limit := by
    intro limit bound
    rw [limit_vacate] at bound
    have some_live := accounted.live_pos live
    have kept := accounted.live_le limit bound
    rw [live_vacate]
    omega
  constructor
  · intro refuses
    cases refuses with
    | exhausted bound reached => exact absurd reached (Nat.not_le.mpr (below _ bound))
    | overflow _ full size =>
        rw [free_vacate] at full
        rw [size_vacate] at size
        split at full
        · exact ⟨rfl, ‹_›, full, size⟩
        · cases full
  · rintro ⟨rfl, last, full, size⟩
    refine .overflow below ?_ (size_vacate a h ▸ size)
    rw [free_vacate, if_pos last, full]

end Changes

def retirements (events : List Event) : Nat :=
  (released events).countP fun h => h.generation == lastGeneration

namespace History

structure Tallied (limit : Option Nat) (history : History) : Prop where
  accounted : history.arena.Accounted
  limit_eq : history.arena.limit = limit
  live_eq : history.arena.live + (Arena.released history.events).length =
    (Arena.issued history.events).length
  retired_eq : history.arena.retired = retirements history.events

theorem tallied_new (capacity : Nat) (limit : Option Nat) :
    Tallied limit ⟨[], empty capacity limit⟩ where
  accounted := accounted_empty capacity limit
  limit_eq := rfl
  live_eq := rfl
  retired_eq := rfl

theorem Tallied.released {limit : Option Nat} {history : History}
    (tallied : history.Tallied limit) {h : Handle} {object : Object}
    (live : history.arena.get? h = some object) :
    Tallied limit ⟨.released h object :: history.events, history.arena.vacate h⟩ where
  accounted := tallied.accounted.vacate live
  limit_eq := (limit_vacate _ h).trans tallied.limit_eq
  live_eq := by
    have before := tallied.live_eq
    have some_live := tallied.accounted.live_pos live
    simp only [live_vacate, Arena.released, Arena.issued, List.filterMap_cons,
      List.length_cons] at *
    omega
  retired_eq := by
    have before := tallied.retired_eq
    simp only [retired_vacate, retirements, Arena.released, List.filterMap_cons, List.countP_cons,
      beq_iff_eq] at *
    rw [before]

theorem Tallied.grows {limit : Option Nat} {history next : History}
    (faithful : history.Faithful) (tallied : history.Tallied limit)
    (grows : history.Grows next) : next.Tallied limit := by
  cases grows with
  | allocated type payload room =>
      refine ⟨tallied.accounted.place faithful.formed room type payload, tallied.limit_eq, ?_,
        tallied.retired_eq⟩
      have before := tallied.live_eq
      simp only [Arena.place, Arena.released, Arena.issued, List.filterMap_cons,
        List.length_cons] at *
      omega
  | got h object =>
      exact ⟨tallied.accounted, tallied.limit_eq, tallied.live_eq, tallied.retired_eq⟩
  | wrote h object content live =>
      exact ⟨tallied.accounted.modify h _, tallied.limit_eq, tallied.live_eq, tallied.retired_eq⟩
  | released h object live => exact tallied.released live
  | refused operation fault =>
      exact ⟨tallied.accounted, tallied.limit_eq, tallied.live_eq, tallied.retired_eq⟩

theorem tallied_of (capacity : Nat) (limit : Option Nat) (operations : List Operation) :
    (of capacity limit operations).Tallied limit :=
  keeps (tallied_new capacity limit)
    (fun _ _ faithful tallied grows => tallied.grows faithful grows) operations

/-- An arena refuses an object exactly when it has to. The counters are the true counts: as many
objects are live as were allocated and not released, and every other cell is listed as free or was
retired. So the limit is kept, retired cells do not count against it, and an allocation fails just
when the limit is reached, or when it is not but no cell is free and all indices are in use. A
refusal changes nothing. After a release there is room again, unless the released cell was in its
last generation and the indices are exhausted. -/
theorem allocate_refused_exactly (capacity : Nat) (limit : Option Nat)
    (operations : List Operation) :
    let history := of capacity limit operations
    let a := history.arena
    (a.live = a.occupied ∧
      a.live + (Arena.released history.events).length = (Arena.issued history.events).length ∧
      a.retired = retirements history.events ∧
      a.cells.size = a.live + a.free.length + a.retired) ∧
    (∀ bound, limit = some bound → a.live ≤ bound) ∧
    (∀ type payload,
      (∀ bound, (a.allocate type payload).1 = .error (.heapExhausted bound) ↔
        limit = some bound ∧ bound ≤ a.live) ∧
      ((a.allocate type payload).1 = .error .indexOverflow ↔
        (∀ bound, limit = some bound → a.live < bound) ∧ a.free = [] ∧
          a.cells.size = maxCells) ∧
      ((∃ h, (a.allocate type payload).1 = .ok h) ↔
        (∀ bound, limit = some bound → a.live < bound) ∧
          (a.free = [] → a.cells.size < maxCells)) ∧
      ∀ f, (a.allocate type payload).1 = .error f →
        (a.allocate type payload).2 = a ∧
          a.perform (.allocate type payload) = (.refused (.allocate type payload) f, a)) ∧
    ∀ h, a.contains h = true → ∀ type payload,
      let b := (a.perform (.release h)).2
      (∃ k, (b.allocate type payload).1 = .ok k) ∨
        h.generation = lastGeneration ∧ b.free = [] ∧ b.cells.size = maxCells ∧
          (b.allocate type payload).1 = .error .indexOverflow := by
  intro history a
  have formed : a.WellFormed := (faithful_of capacity limit operations).formed
  have tallied : history.Tallied limit := tallied_of capacity limit operations
  have bounded : a.limit = limit := tallied.limit_eq
  have full : maxCells ≤ a.cells.size ↔ a.cells.size = maxCells :=
    ⟨Nat.le_antisymm formed.size_le, fun size => Nat.le_of_eq size.symm⟩
  refine ⟨⟨tallied.accounted.live_eq, tallied.live_eq, tallied.retired_eq,
    tallied.accounted.size_eq⟩, ?_, ?_, ?_⟩
  · rw [← bounded]
    exact tallied.accounted.live_le
  · intro type payload
    rw [← bounded, ← full]
    refine ⟨fun bound => ?_, ?_, ?_, fun f refused => ?_⟩
    · rw [allocate_eq_error_iff, refuses_heapExhausted_iff]
    · rw [allocate_eq_error_iff, refuses_indexOverflow_iff]
    · rw [exists_allocate_iff, not_refuses_iff]
    · have unchanged := atomic_allocate a type payload f refused
      have whole : a.allocate type payload = (.error f, a) := Prod.ext refused unchanged
      exact ⟨unchanged, by rw [perform, whole, Event.ofResult]⟩
  · intro h present type payload
    obtain ⟨object, live⟩ := contains_iff.mp present
    have left : (a.perform (.release h)).2 = a.vacate h := by
      rw [perform, release_live live, Event.ofResult]
    simp only [left]
    by_cases refuses : ∃ f, (a.vacate h).Refuses f
    · obtain ⟨f, refuses⟩ := refuses
      obtain ⟨rfl, last, free, size⟩ := (tallied.accounted.refuses_vacate_iff live).mp refuses
      refine .inr ⟨last, ?_, ?_, allocate_eq_error_iff.mpr refuses⟩
      · rw [free_vacate, if_pos last, free]
      · rw [size_vacate, full.mp size]
    · exact .inl (exists_allocate_iff.mpr (not_exists.mp refuses))

end History

end Arena
end ManagedObjects

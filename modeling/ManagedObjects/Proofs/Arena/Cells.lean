import Mathlib.Algebra.BigOperators.Group.Finset.Piecewise
import Mathlib.Algebra.Order.BigOperators.Group.Finset
import Mathlib.Data.Nat.Count
import ManagedObjects.Proofs.Arena.Accounting
import ManagedObjects.Proofs.Arena.Numbering

namespace ManagedObjects
namespace Arena

/-! ## Phases -/

inductive Phase
  | occupied
  | listed
  | retired

def InPhase (a : Arena) (i : Nat) : Phase → Prop
  | .occupied => (a.cells[i]?.any fun cell => cell.object.isSome) = true
  | .listed => i ∈ a.free.map UInt32.toNat
  | .retired => a.cells[i]? = some ⟨lastGeneration, none⟩ ∧ i ∉ a.free.map UInt32.toNat

instance (a : Arena) (i : Nat) : (phase : Phase) → Decidable (a.InPhase i phase)
  | .occupied => inferInstanceAs (Decidable (_ = true))
  | .listed => inferInstanceAs (Decidable (i ∈ _))
  | .retired => inferInstanceAs (Decidable (_ ∧ _))

def count (a : Arena) (phase : Phase) : Nat :=
  Nat.count (a.InPhase · phase) a.cells.size

theorem WellFormed.vacant_of_listed {a : Arena} (formed : a.WellFormed) {i : Nat}
    (listed : a.InPhase i .listed) : ∃ generation, a.cells[i]? = some ⟨generation, none⟩ := by
  obtain ⟨index, member, rfl⟩ := List.mem_map.mp listed
  exact formed.free_vacant index member

def Tended (a : Arena) : Prop :=
  ∀ i generation, a.cells[i]? = some ⟨generation, none⟩ → ¬ a.InPhase i .listed →
    generation = lastGeneration

theorem WellFormed.existsUnique_phase {a : Arena} (formed : a.WellFormed) (tended : a.Tended)
    {i : Nat} (bound : i < a.cells.size) : ∃! phase, a.InPhase i phase := by
  have located : a.cells[i]? = some a.cells[i] := Array.getElem?_eq_getElem bound
  by_cases listed : a.InPhase i .listed
  · obtain ⟨generation, vacant⟩ := formed.vacant_of_listed listed
    refine ⟨.listed, listed, fun phase held => ?_⟩
    cases phase with
    | occupied => simp [InPhase, vacant] at held
    | listed => rfl
    | retired => exact absurd listed held.2
  · generalize a.cells[i] = cell at located
    obtain ⟨generation, _ | object⟩ := cell
    · have last : generation = lastGeneration := tended i generation located listed
      refine ⟨.retired, ⟨last ▸ located, listed⟩, fun phase held => ?_⟩
      cases phase with
      | occupied => simp [InPhase, located] at held
      | listed => exact absurd held listed
      | retired => rfl
    · refine ⟨.occupied, by simp [InPhase, located], fun phase held => ?_⟩
      cases phase with
      | occupied => rfl
      | listed => exact absurd held listed
      | retired => simp [InPhase, located] at held

/-! ## Counting by phase -/

theorem countP_take {values : List Cell} {p : Cell → Bool} {q : Nat → Prop} [DecidablePred q]
    (decides : ∀ i, q i ↔ values[i]?.any p = true) (n : Nat) :
    (values.take n).countP p = Nat.count q n := by
  induction n with
  | zero => simp
  | succ n ih =>
      rw [List.take_add_one, List.countP_append, ih, Nat.count_succ]
      simp only [decides]
      cases values[n]? <;> simp [List.countP_singleton]

theorem count_occupied (a : Arena) : a.count .occupied = a.occupied := by
  have decides : ∀ i, a.InPhase i .occupied ↔
      a.cells.toList[i]?.any (fun cell => cell.object.isSome) = true := by
    simp [InPhase]
  have counted := countP_take decides a.cells.size
  rw [← Array.length_toList, List.take_length, Array.countP_toList] at counted
  exact counted.symm

theorem WellFormed.count_listed {a : Arena} (formed : a.WellFormed) :
    a.count .listed = a.free.length := by
  have distinct : (a.free.map UInt32.toNat).Nodup :=
    formed.free_nodup.map fun _ _ => UInt32.toNat.inj
  have below : (Finset.range a.cells.size).filter (a.InPhase · .listed) =
      (a.free.map UInt32.toNat).toFinset := by
    ext i
    rw [Finset.mem_filter, Finset.mem_range, List.mem_toFinset]
    refine and_iff_right_of_imp fun listed => ?_
    obtain ⟨generation, vacant⟩ := formed.vacant_of_listed listed
    exact (Array.getElem?_eq_some_iff.mp vacant).1
  rw [count, Nat.count_eq_card_filter_range, below, List.toFinset_card_of_nodup distinct,
    List.length_map]

theorem count_phases {p : Nat → Phase → Prop} [∀ i phase, Decidable (p i phase)] {n : Nat}
    (unique : ∀ i < n, ∃! phase, p i phase) :
    Nat.count (p · .occupied) n + Nat.count (p · .listed) n + Nat.count (p · .retired) n = n := by
  induction n with
  | zero => simp
  | succ n ih =>
      have before := ih fun i below => unique i (Nat.lt_succ_of_lt below)
      obtain ⟨phase, held, only⟩ := unique n (Nat.lt_succ_self n)
      have others : ∀ other, other ≠ phase → ¬ p n other := fun other differs also =>
        differs (only other also)
      simp only [Nat.count_succ]
      cases phase <;> simp [held, others] <;> omega

theorem WellFormed.count_retired {a : Arena} (formed : a.WellFormed) (tended : a.Tended)
    (accounted : a.Accounted) : a.count .retired = a.retired := by
  -- They are what the cells of the other two phases leave, which the counters count already.
  have phases : a.count .occupied + a.count .listed + a.count .retired = a.cells.size :=
    count_phases fun _ bound => formed.existsUnique_phase tended bound
  rw [count_occupied, ← accounted.live_eq, formed.count_listed, accounted.size_eq] at phases
  omega

/-! ## Generations -/

def generationAt (a : Arena) (i : Nat) : Nat :=
  (a.cells[i]?.map fun cell => cell.generation.toNat).getD 0

def generations (a : Arena) : Nat :=
  ∑ i ∈ Finset.range a.cells.size, a.generationAt i

theorem generationAt_le (a : Arena) (i : Nat) : a.generationAt i ≤ 65535 := by
  unfold generationAt
  cases a.cells[i]? with
  | none => exact Nat.zero_le _
  | some cell => exact Nat.le_of_lt_succ cell.generation.toNat_lt

theorem generationAt_of_size_le {a : Arena} {i : Nat} (beyond : a.cells.size ≤ i) :
    a.generationAt i = 0 := by
  simp [generationAt, beyond]

theorem generations_le (a : Arena) : a.generations ≤ 65535 * a.cells.size := by
  have bounded := Finset.sum_le_card_nsmul (Finset.range a.cells.size) a.generationAt 65535
    fun i _ => a.generationAt_le i
  rwa [Finset.card_range, Nat.nsmul_eq_mul, Nat.mul_comm] at bounded

theorem retired_le_generations (a : Arena) : 65535 * a.count .retired ≤ a.generations := by
  let spent := (Finset.range a.cells.size).filter (a.InPhase · .retired)
  have last : ∀ i ∈ spent, 65535 ≤ a.generationAt i := by
    intro i member
    have retired := (Finset.mem_filter.mp member).2
    simp [generationAt, retired.1, lastGeneration]
  calc
    65535 * a.count .retired = spent.card • 65535 := by
      rw [count, Nat.count_eq_card_filter_range, Nat.nsmul_eq_mul, Nat.mul_comm]
    _ ≤ ∑ i ∈ spent, a.generationAt i := Finset.card_nsmul_le_sum _ _ _ last
    _ ≤ a.generations := Finset.sum_le_sum_of_subset (Finset.filter_subset _ _)

theorem WellFormed.generationAt_place {a : Arena} (formed : a.WellFormed) (room : a.refusal? = none)
    (type : TypeId) (payload : Payload) (i : Nat) :
    (a.place type payload).generationAt i = a.generationAt i := by
  unfold generationAt
  rw [formed.cells_place room]
  split
  · rename_i same
    subst same
    cases located : a.cells[a.nextHandle.index.toNat]? with
    | some cell => simp [(formed.nextHandle_vacant room located).1]
    | none =>
        cases listed : a.free with
        | nil => simp [nextHandle, listed]
        | cons index rest =>
            obtain ⟨generation, vacant⟩ := formed.free_vacant index (by simp [listed])
            simp [nextHandle, listed, vacant] at located
  · rfl

theorem WellFormed.generations_place {a : Arena} (formed : a.WellFormed)
    (room : a.refusal? = none) (type : TypeId) (payload : Payload) :
    (a.place type payload).generations = a.generations := by
  simp only [generations, formed.generationAt_place room]
  cases listed : a.free with
  | nil =>
      have size : (a.place type payload).cells.size = a.cells.size + 1 := by
        simp [Arena.place, listed]
      rw [size, Finset.sum_range_succ, generationAt_of_size_le (Nat.le_refl _), Nat.add_zero]
  | cons index rest => simp [Arena.place, listed]

theorem generations_modify (a : Arena) (h : Handle) (change : Object → Object) :
    (a.modify h change).generations = a.generations := by
  have size : (a.modify h change).cells.size = a.cells.size := by simp [Arena.modify]
  have same : (a.modify h change).generationAt = a.generationAt := by
    funext i
    unfold generationAt
    rw [cells_modify]
    split
    · simp [Function.comp_def]
    · rfl
  rw [generations, size, same, generations]

theorem generationAt_vacate {a : Arena} {h : Handle} {object : Object}
    (live : a.get? h = some object) (i : Nat) :
    (a.vacate h).generationAt i =
      a.generationAt i +
        if h.index.toNat = i then (if h.generation = lastGeneration then 0 else 1) else 0 := by
  unfold generationAt
  rw [cells_vacate live]
  split
  · rename_i same
    rw [← same, get?_eq_some_iff.mp live]
    split
    · rfl
    · rename_i below
      simp [toNat_next below]
  · rfl

theorem generations_vacate {a : Arena} {h : Handle} {object : Object}
    (live : a.get? h = some object) :
    (a.vacate h).generations + (a.vacate h).retired = a.generations + a.retired + 1 := by
  obtain ⟨bound, -⟩ := Array.getElem?_eq_some_iff.mp (get?_eq_some_iff.mp live)
  have generations : (a.vacate h).generations =
      a.generations + if h.generation = lastGeneration then 0 else 1 := by
    simp only [Arena.generations, generationAt_vacate live, size_vacate, Finset.sum_add_distrib]
    rw [Finset.sum_ite_eq, if_pos (Finset.mem_range.mpr bound)]
  rw [generations, retired_vacate]
  split <;> omega

/-! ## What the operations keep -/

structure Worn (a : Arena) (releases : Nat) : Prop where
  tended : a.Tended
  releases_eq : releases = a.generations + a.retired
  within : ∀ limit, a.limit = some limit → a.live + a.free.length ≤ limit

theorem worn_empty (capacity : Nat) (limit : Option Nat) : (empty capacity limit).Worn 0 where
  tended := by simp [Tended, empty]
  releases_eq := by simp [generations, empty]
  within := fun bound _ => Nat.zero_le bound

section Changes
variable {a : Arena} {releases : Nat} (worn : a.Worn releases)
include worn

theorem Worn.place (formed : a.WellFormed) (room : a.refusal? = none) (type : TypeId)
    (payload : Payload) : (a.place type payload).Worn releases where
  tended := by
    intro i generation vacant unlisted
    rw [formed.cells_place room] at vacant
    split at vacant
    · simp at vacant
    · rename_i differs
      refine worn.tended i generation vacant fun listed => unlisted ?_
      obtain ⟨index, member, rfl⟩ := List.mem_map.mp listed
      refine List.mem_map.mpr ⟨index, ?_, rfl⟩
      cases free : a.free with
      | nil => simp [free] at member
      | cons first rest =>
          -- The only entry that the list loses is the cell of the new object.
          have other : index ≠ first := by
            rintro rfl
            simp [nextHandle, free] at differs
          simpa [Arena.place, free, other] using member
  releases_eq := by
    rw [formed.generations_place room]
    exact worn.releases_eq
  within := by
    intro limit bound
    have before := worn.within limit bound
    have below := live_lt_of_room room bound
    cases listed : a.free with
    | nil =>
        simp only [Arena.place, listed, List.tail_nil, List.length_nil]
        exact below
    | cons index rest =>
        rw [listed, List.length_cons] at before
        simp only [Arena.place, listed, List.tail_cons]
        omega

theorem Worn.modify (h : Handle) (change : Object → Object) :
    (a.modify h change).Worn releases where
  tended := by
    intro i generation vacant unlisted
    rw [cells_modify] at vacant
    split at vacant
    · obtain ⟨⟨before, object⟩, located, changed⟩ := Option.map_eq_some_iff.mp vacant
      simp only [Cell.mk.injEq, Option.map_eq_none_iff] at changed
      obtain ⟨rfl, rfl⟩ := changed
      exact worn.tended i before located unlisted
    · exact worn.tended i generation vacant unlisted
  releases_eq := by
    rw [generations_modify]
    exact worn.releases_eq
  within := worn.within

theorem Worn.vacate (accounted : a.Accounted) {h : Handle} {object : Object}
    (live : a.get? h = some object) : (a.vacate h).Worn (releases + 1) where
  tended := by
    intro i generation vacant unlisted
    rw [cells_vacate live] at vacant
    simp only [InPhase, free_vacate] at unlisted
    split at vacant
    · rename_i same
      split at unlisted
      · rename_i last
        simp only [if_pos last, Option.some.injEq, Cell.mk.injEq, and_true] at vacant
        exact vacant ▸ last
      · exact absurd (by simp [same]) unlisted
    · refine worn.tended i generation vacant fun listed => unlisted ?_
      split
      · exact listed
      · rw [List.map_cons]
        exact List.mem_cons_of_mem _ listed
  releases_eq := by
    rw [generations_vacate live, worn.releases_eq]
  within := by
    intro limit bound
    rw [limit_vacate] at bound
    have before := worn.within limit bound
    have some_live := accounted.live_pos live
    rw [live_vacate, free_vacate]
    split
    · omega
    · rw [List.length_cons]
      omega

end Changes

theorem Accounted.release_exact {a : Arena} (accounted : a.Accounted) {h : Handle}
    {object : Object} (live : a.get? h = some object) :
    let b := (a.perform (.release h)).2
    b.live + 1 = a.live ∧
      ∃ generation, b.cells[h.index.toNat]? = some ⟨generation, none⟩ ∧
        (h.generation ≠ lastGeneration →
          generation.toNat = h.generation.toNat + 1 ∧ b.retired = a.retired) ∧
        (h.generation = lastGeneration → generation = lastGeneration ∧
          b.retired = a.retired + 1) := by
  have left : (a.perform (.release h)).2 = a.vacate h := by
    rw [perform, release_live live, Event.ofResult]
  have some_live := accounted.live_pos live
  simp only [left]
  refine ⟨?_, _, by rw [cells_vacate live, if_pos rfl], ?_, ?_⟩
  · rw [live_vacate]
    omega
  · intro below
    rw [if_neg below, toNat_next below, retired_vacate, if_neg below]
    exact ⟨rfl, rfl⟩
  · intro last
    rw [if_pos last, retired_vacate, if_pos last]
    exact ⟨last, rfl⟩

/-! ## Live objects -/

def objects (a : Arena) : List Object := a.cells.toList.filterMap Cell.object

theorem WellFormed.exists_handle {a : Arena} (formed : a.WellFormed) {i : Nat} {cell : Cell}
    (located : a.cells[i]? = some cell) {object : Object} (occupied : cell.object = some object) :
    ∃ h : Handle, h.index.toNat = i ∧ a.get? h = some object := by
  obtain ⟨bound, -⟩ := Array.getElem?_eq_some_iff.mp located
  have size := formed.size_le
  unfold maxCells at size
  have index : (UInt32.ofNat i).toNat = i := by
    rw [UInt32.toNat_ofNat']
    exact Nat.mod_eq_of_lt (by omega)
  refine ⟨⟨UInt32.ofNat i, cell.generation⟩, index, ?_⟩
  rw [get?_eq_some_iff, index, located, ← occupied]

theorem Chronicled.numbers_nodup {a : Arena} {handles : List Handle}
    (chronicled : a.Chronicled handles) (formed : a.WellFormed) :
    (a.objects.map Object.id).Nodup := by
  rw [List.Nodup, List.pairwise_map, objects, List.pairwise_filterMap,
    List.pairwise_iff_getElem]
  intro i j iBound jBound before x one y two same
  obtain ⟨h, rfl, first⟩ := formed.exists_handle (Array.getElem?_eq_getElem iBound) one
  obtain ⟨k, rfl, second⟩ := formed.exists_handle (Array.getElem?_eq_getElem jBound) two
  rw [(chronicled.eq_iff first second).mpr same] at before
  exact Nat.lt_irrefl _ before

theorem Chronicled.number_lt {a : Arena} {handles : List Handle}
    (chronicled : a.Chronicled handles) (formed : a.WellFormed) {object : Object}
    (member : object ∈ a.objects) : 1 ≤ object.id ∧ object.id < a.nextId := by
  obtain ⟨cell, listed, occupied⟩ := List.mem_filterMap.mp member
  obtain ⟨i, located⟩ := List.mem_iff_getElem?.mp listed
  rw [Array.getElem?_toList] at located
  obtain ⟨h, -, live⟩ := formed.exists_handle located occupied
  have number := chronicled.id_le live
  rw [chronicled.nextId_eq]
  omega

/-! ## Histories -/

namespace History

theorem chronicled_of (capacity : Nat) (limit : Option Nat) (operations : List Operation) :
    ∃ handles, (of capacity limit operations).arena.Chronicled handles := by
  refine keeps (P := fun history => ∃ handles, history.arena.Chronicled handles)
    ⟨[], rfl, by simp [get?_empty], by simp, List.nodup_nil⟩ ?_ operations
  rintro history next faithful ⟨handles, chronicled⟩ grows
  have change {b : Arena} (change : history.arena.Change b) : ∃ handles, b.Chronicled handles :=
    ⟨_, chronicled.change faithful.formed change⟩
  cases grows with
  | allocated type payload room => exact change (.place type payload room)
  | got h object => exact ⟨handles, chronicled⟩
  | wrote h object content live => exact change (.modify h object _ live rfl rfl)
  | released h object live => exact change (.vacate h object live)
  | refused operation fault => exact ⟨handles, chronicled⟩

theorem worn_grows {limit : Option Nat} {history next : History} (faithful : history.Faithful)
    (tallied : history.Tallied limit)
    (worn : history.arena.Worn (Arena.released history.events).length)
    (grows : history.Grows next) : next.arena.Worn (Arena.released next.events).length := by
  cases grows with
  | allocated type payload room => exact worn.place faithful.formed room type payload
  | got h object => exact worn
  | wrote h object content live => exact worn.modify h _
  | released h object live => exact worn.vacate tallied.accounted live
  | refused operation fault => exact worn

theorem worn_of (capacity : Nat) (limit : Option Nat) (operations : List Operation) :
    let history := of capacity limit operations
    history.arena.Worn (Arena.released history.events).length := by
  intro history
  have both : history.Tallied limit ∧
      history.arena.Worn (Arena.released history.events).length := by
    refine keeps (P := fun history => history.Tallied limit ∧
      history.arena.Worn (Arena.released history.events).length)
      ⟨tallied_new capacity limit, worn_empty capacity limit⟩ ?_ operations
    intro history next faithful ⟨tallied, worn⟩ grows
    exact ⟨tallied.grows faithful grows, worn_grows faithful tallied worn grows⟩
  exact both.2

theorem Faithful.total_eq {history : History} (faithful : history.Faithful) :
    history.arena.total = (Arena.issued history.events).length := by
  rw [total, faithful.numbered, Nat.add_sub_cancel]

theorem Tallied.total_eq {limit : Option Nat} {history : History}
    (tallied : history.Tallied limit) (faithful : history.Faithful)
    (worn : history.arena.Worn (Arena.released history.events).length) :
    history.arena.total =
      history.arena.live + history.arena.generations + history.arena.retired := by
  calc
    history.arena.total = (Arena.issued history.events).length := faithful.total_eq
    _ = history.arena.live + (Arena.released history.events).length := tallied.live_eq.symm
    _ = history.arena.live + (history.arena.generations + history.arena.retired) := by
      rw [← worn.releases_eq]
    _ = history.arena.live + history.arena.generations + history.arena.retired :=
      (Nat.add_assoc _ _ _).symm

/-- Nothing of an arena is lost or counted twice. Its free list names empty cells, each once. Every
cell is occupied, listed or retired, only one of these, and the counters are the numbers of such
cells. Live objects have distinct numbers, from one up to the next number. As many objects were made
as are live, as the generations of the cells say, and one more for each retired cell. So a retired
cell has seen 65536 releases, there are at most 2^48 objects in all, no counter overflows, and no
release takes the live count below zero or a generation beyond the last. Under a limit there are no
more cells than the limit and the retired cells. -/
theorem cells_accounted (capacity : Nat) (limit : Option Nat) (operations : List Operation) :
    let history := of capacity limit operations
    let a := history.arena
    (a.free.Nodup ∧
      ∀ index ∈ a.free, ∃ generation, a.cells[index.toNat]? = some ⟨generation, none⟩) ∧
    (∀ i < a.cells.size, ∃! phase, a.InPhase i phase) ∧
    (a.live = a.count .occupied ∧ a.free.length = a.count .listed ∧
      a.retired = a.count .retired ∧ a.live + a.free.length + a.retired = a.cells.size) ∧
    ((a.objects.map Object.id).Nodup ∧
      ∀ object ∈ a.objects, 1 ≤ object.id ∧ object.id < a.nextId) ∧
    (a.nextId = a.total + 1 ∧ a.total = a.live + a.generations + a.retired) ∧
    a.retired * 65536 ≤ (Arena.released history.events).length ∧
    (a.total ≤ 0x1000000000000 ∧ a.nextId < UInt64.size ∧ a.live < UInt64.size ∧
      a.cells.size ≤ maxCells) ∧
    (∀ h object, a.get? h = some object →
      let b := (a.perform (.release h)).2
      b.live + 1 = a.live ∧
        ∃ generation, b.cells[h.index.toNat]? = some ⟨generation, none⟩ ∧
          (h.generation ≠ lastGeneration →
            generation.toNat = h.generation.toNat + 1 ∧ b.retired = a.retired) ∧
          (h.generation = lastGeneration → generation = lastGeneration ∧
            b.retired = a.retired + 1)) ∧
    ∀ bound, limit = some bound → a.cells.size ≤ bound + a.retired := by
  intro history a
  have faithful : history.Faithful := faithful_of capacity limit operations
  have formed : a.WellFormed := faithful.formed
  have tallied : history.Tallied limit := tallied_of capacity limit operations
  have accounted : a.Accounted := tallied.accounted
  have worn : a.Worn (Arena.released history.events).length :=
    worn_of capacity limit operations
  obtain ⟨handles, chronicled⟩ : ∃ handles, a.Chronicled handles :=
    chronicled_of capacity limit operations
  have size : a.cells.size = a.live + a.free.length + a.retired := accounted.size_eq
  have retired : a.count .retired = a.retired := formed.count_retired worn.tended accounted
  have numbered : a.nextId = a.total + 1 := by
    rw [faithful.total_eq]
    exact faithful.numbered
  have total_eq : a.total = a.live + a.generations + a.retired := tallied.total_eq faithful worn
  have spent : 65535 * a.retired ≤ a.generations := retired ▸ a.retired_le_generations
  have generations : a.generations ≤ 65535 * a.cells.size := a.generations_le
  have indices : a.cells.size ≤ 0x100000000 := formed.size_le
  refine ⟨⟨formed.free_nodup, formed.free_vacant⟩,
    fun i bound => formed.existsUnique_phase worn.tended bound,
    ⟨?_, formed.count_listed.symm, retired.symm, size.symm⟩,
    ⟨chronicled.numbers_nodup formed, fun object member => chronicled.number_lt formed member⟩,
    ⟨numbered, total_eq⟩, ?_, ⟨?_, ?_, ?_, formed.size_le⟩,
    fun h object live => accounted.release_exact live, ?_⟩
  · rw [count_occupied]
    exact accounted.live_eq
  · rw [worn.releases_eq]
    omega
  · omega
  · rw [numbered, UInt64.size]
    omega
  · rw [UInt64.size]
    omega
  · intro bound limited
    have within := worn.within bound (tallied.limit_eq.trans limited)
    omega

-- Two cells, of which the first was used once.
example :
    let a := (of 0 none [.allocate 4 (.fields []), .allocate 4 (.fields []), .release ⟨0, 0⟩]).arena
    (a.count .occupied, a.count .listed, a.generations, a.total) = (1, 1, 1, 2) := by
  decide

end History
end Arena
end ManagedObjects

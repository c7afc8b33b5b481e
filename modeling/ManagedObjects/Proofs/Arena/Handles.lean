import ManagedObjects.Proofs.Arena.Effects

namespace ManagedObjects

theorem Handle.eq_of_index_toNat {h k : Handle} (index : h.index.toNat = k.index.toNat)
    (generation : h.generation = k.generation) : h = k := by
  obtain ⟨i, g⟩ := h
  obtain ⟨j, g'⟩ := k
  simp only at index generation
  rw [generation, UInt32.toNat.inj index]

namespace Arena

/-! ## Arenas as operations leave them -/

/-- Released cells are listed once each and hold nothing, every cell has an index, and objects are
numbered below the next number. -/
structure WellFormed (a : Arena) : Prop where
  size_le : a.cells.size ≤ maxCells
  free_nodup : a.free.Nodup
  free_vacant : ∀ index ∈ a.free, ∃ generation, a.cells[index.toNat]? = some ⟨generation, none⟩
  id_lt : ∀ h object, a.get? h = some object → object.id < a.nextId

/-- The handle is that of the present or of an earlier occupant of its cell. A listed cell has had
no occupant in its present generation. -/
def Issued (a : Arena) (h : Handle) : Prop :=
  ∃ cell, a.cells[h.index.toNat]? = some cell ∧
    (h.generation < cell.generation ∨ h.generation = cell.generation ∧ h.index ∉ a.free)

theorem get?_empty (capacity : Nat) (limit : Option Nat) (h : Handle) :
    (empty capacity limit).get? h = none := by
  simp [get?, empty]

theorem wellFormed_empty (capacity : Nat) (limit : Option Nat) :
    (empty capacity limit).WellFormed where
  size_le := by simp [empty]
  free_nodup := List.nodup_nil
  free_vacant := by simp [empty]
  id_lt := by simp [get?_empty]

theorem WellFormed.not_mem_free {a : Arena} (formed : a.WellFormed) {h : Handle} {object : Object}
    (live : a.get? h = some object) : h.index ∉ a.free := by
  intro listed
  obtain ⟨generation, vacant⟩ := formed.free_vacant h.index listed
  rw [get?_eq_some_iff.mp live] at vacant
  simp at vacant

theorem WellFormed.issued {a : Arena} (formed : a.WellFormed) {h : Handle} {object : Object}
    (live : a.get? h = some object) : a.Issued h :=
  ⟨_, get?_eq_some_iff.mp live, .inr ⟨rfl, formed.not_mem_free live⟩⟩

/-! ## The next handle -/

theorem size_lt_of_room {a : Arena} (room : a.refusal? = none) (full : a.free = []) :
    a.cells.size < maxCells := by
  simpa [full] using (Option.or_eq_none_iff.mp room).2

theorem WellFormed.nextHandle_vacant {a : Arena} (formed : a.WellFormed) (room : a.refusal? = none)
    {cell : Cell} (located : a.cells[a.nextHandle.index.toNat]? = some cell) :
    cell = ⟨a.nextHandle.generation, none⟩ ∧ a.nextHandle.index ∈ a.free := by
  unfold nextHandle at located ⊢
  cases listed : a.free with
  | nil =>
      have bound := size_lt_of_room room listed
      unfold maxCells at bound
      simp only [listed, UInt32.toNat_ofNat'] at located
      rw [Nat.mod_eq_of_lt (by omega)] at located
      simp at located
  | cons index rest =>
      obtain ⟨generation, vacant⟩ := formed.free_vacant index (by simp [listed])
      simp only [listed] at located ⊢
      rw [vacant, Option.some.injEq] at located
      simp [vacant, ← located]

theorem WellFormed.cells_place {a : Arena} (formed : a.WellFormed) (room : a.refusal? = none)
    (type : TypeId) (payload : Payload) (i : Nat) :
    (a.place type payload).cells[i]? =
      if i = a.nextHandle.index.toNat then
        some ⟨a.nextHandle.generation, some ⟨a.nextId, type, false, payload⟩⟩
      else a.cells[i]? := by
  cases listed : a.free with
  | nil =>
      have bound := size_lt_of_room room listed
      unfold maxCells at bound
      have index : a.nextHandle.index.toNat = a.cells.size := by
        simp only [nextHandle, listed, UInt32.toNat_ofNat']
        exact Nat.mod_eq_of_lt (by omega)
      simp only [place, listed, index]
      exact Array.getElem?_push
  | cons first rest =>
      obtain ⟨generation, vacant⟩ := formed.free_vacant first (by simp [listed])
      obtain ⟨bound, -⟩ := Array.getElem?_eq_some_iff.mp vacant
      have index : a.nextHandle.index = first := by simp [nextHandle, listed]
      simp only [place, listed, index, Array.getElem?_setIfInBounds]
      by_cases same : i = first.toNat
      · simp [same, bound]
      · simp [same, Ne.symm same]

theorem WellFormed.get?_place {a : Arena} (formed : a.WellFormed) (room : a.refusal? = none)
    (type : TypeId) (payload : Payload) (h : Handle) :
    (a.place type payload).get? h =
      if h = a.nextHandle then some ⟨a.nextId, type, false, payload⟩ else a.get? h := by
  apply Option.ext
  intro object
  rw [get?_eq_some_iff, formed.cells_place room]
  by_cases same : h = a.nextHandle
  · simp [same, eq_comm]
  · rw [if_neg same, get?_eq_some_iff]
    split
    · rename_i index
      -- Another handle of the same cell denotes nothing before and after.
      have generation : h.generation ≠ a.nextHandle.generation :=
        fun equal => same (Handle.eq_of_index_toNat index equal)
      rw [index]
      constructor
      · intro placed
        simp only [Option.some.injEq, Cell.mk.injEq] at placed
        exact absurd placed.1.symm generation
      · intro located
        have vacant := (formed.nextHandle_vacant room located).1
        simp only [Cell.mk.injEq] at vacant
        exact absurd vacant.1 generation
    · rfl

theorem WellFormed.not_issued_nextHandle {a : Arena} (formed : a.WellFormed)
    (room : a.refusal? = none) : ¬ a.Issued a.nextHandle := by
  rintro ⟨cell, located, earlier | ⟨-, unlisted⟩⟩
  · rw [(formed.nextHandle_vacant room located).1] at earlier
    exact absurd earlier (UInt16.lt_irrefl _)
  · exact unlisted (formed.nextHandle_vacant room located).2

/-! ## What the operations change -/

theorem WellFormed.issued_place {a : Arena} (formed : a.WellFormed) (room : a.refusal? = none)
    (type : TypeId) (payload : Payload) {h : Handle} (issued : h = a.nextHandle ∨ a.Issued h) :
    (a.place type payload).Issued h := by
  have cells := formed.cells_place room type payload h.index.toNat
  have unlisted : a.nextHandle.index ∉ a.free.tail := by
    cases listed : a.free with
    | nil => simp
    | cons first rest =>
        have distinct := formed.free_nodup
        rw [listed, List.nodup_cons] at distinct
        simpa [nextHandle, listed] using distinct.1
  rcases issued with rfl | ⟨cell, located, issued⟩
  · exact ⟨_, by simpa using cells, .inr ⟨rfl, unlisted⟩⟩
  · by_cases same : h.index.toNat = a.nextHandle.index.toNat
    · rw [if_pos same] at cells
      rw [same] at located
      obtain ⟨rfl, listed⟩ := formed.nextHandle_vacant room located
      rcases issued with earlier | ⟨-, absent⟩
      · exact ⟨_, cells, .inl earlier⟩
      · exact absurd (UInt32.toNat.inj same ▸ listed) absent
    · rw [if_neg same] at cells
      refine ⟨cell, cells.trans located, issued.imp_right fun present => ⟨present.1, ?_⟩⟩
      exact fun listed => present.2 (List.mem_of_mem_tail listed)

theorem WellFormed.place {a : Arena} (formed : a.WellFormed) (room : a.refusal? = none)
    (type : TypeId) (payload : Payload) : (a.place type payload).WellFormed where
  size_le := by
    have bound := formed.size_le
    cases listed : a.free with
    | nil =>
        have below := size_lt_of_room room listed
        simpa [Arena.place, listed] using Nat.succ_le_of_lt below
    | cons first rest => simpa [Arena.place, listed] using bound
  free_nodup := formed.free_nodup.sublist (List.tail_sublist a.free)
  free_vacant := by
    intro index member
    obtain ⟨generation, vacant⟩ := formed.free_vacant index (List.mem_of_mem_tail member)
    refine ⟨generation, ?_⟩
    rw [formed.cells_place room, if_neg, vacant]
    intro same
    have distinct := formed.free_nodup
    cases listed : a.free with
    | nil => simp [listed, Arena.place] at member
    | cons first rest =>
        have first_eq : index = first := by
          simpa [nextHandle, listed, UInt32.toNat_inj] using same
        rw [listed, List.nodup_cons] at distinct
        exact distinct.1 (by simpa [Arena.place, listed, first_eq] using member)
  id_lt := by
    intro h object denoted
    rw [formed.get?_place room] at denoted
    split at denoted
    · rw [← Option.some.inj denoted]
      exact Nat.lt_succ_self _
    · exact Nat.lt_succ_of_lt (formed.id_lt h object denoted)

theorem get?_modify {a : Arena} {h : Handle} {object : Object} (live : a.get? h = some object)
    (change : Object → Object) (k : Handle) :
    (a.modify h change).get? k = if k = h then some (change object) else a.get? k := by
  have located := get?_eq_some_iff.mp live
  by_cases same : k = h
  · subst same
    rw [if_pos rfl, get?_eq_some_iff, cells_modify, if_pos rfl, located]
    rfl
  · rw [if_neg same]
    unfold get?
    rw [cells_modify]
    split
    · rename_i index
      have generation : h.generation ≠ k.generation :=
        fun equal => same (Handle.eq_of_index_toNat index.symm equal.symm)
      simp [← index, located, generation]
    · rfl

theorem issued_modify {a : Arena} {h : Handle} (change : Object → Object) {k : Handle}
    (issued : a.Issued k) : (a.modify h change).Issued k := by
  obtain ⟨cell, located, issued⟩ := issued
  by_cases same : h.index.toNat = k.index.toNat
  · refine ⟨{ cell with object := cell.object.map change }, ?_, issued⟩
    rw [cells_modify, if_pos same, located]
    rfl
  · exact ⟨cell, by rw [cells_modify, if_neg same, located], issued⟩

theorem WellFormed.modify {a : Arena} (formed : a.WellFormed) {h : Handle} {object : Object}
    (live : a.get? h = some object) {change : Object → Object}
    (same : (change object).id = object.id) : (a.modify h change).WellFormed where
  size_le := by simpa [Arena.modify] using formed.size_le
  free_nodup := formed.free_nodup
  free_vacant := by
    intro index member
    obtain ⟨generation, vacant⟩ := formed.free_vacant index member
    refine ⟨generation, ?_⟩
    rw [cells_modify, vacant]
    split <;> rfl
  id_lt := by
    intro k changed denoted
    rw [get?_modify live] at denoted
    split at denoted
    · rw [← Option.some.inj denoted, same]
      exact formed.id_lt h object live
    · exact formed.id_lt k changed denoted

theorem toNat_next {generation : UInt16} (below : generation ≠ lastGeneration) :
    (generation + 1).toNat = generation.toNat + 1 := by
  have bound := generation.toNat_lt
  have differs : generation.toNat ≠ 65535 := fun equal => below (UInt16.toNat.inj equal)
  rw [UInt16.toNat_add]
  exact Nat.mod_eq_of_lt (show generation.toNat + 1 < 65536 by omega)

theorem cells_vacate {a : Arena} {h : Handle} {object : Object} (live : a.get? h = some object)
    (i : Nat) :
    (a.vacate h).cells[i]? =
      if h.index.toNat = i then
        some ⟨if h.generation = lastGeneration then h.generation else h.generation + 1, none⟩
      else a.cells[i]? := by
  obtain ⟨bound, -⟩ := Array.getElem?_eq_some_iff.mp (get?_eq_some_iff.mp live)
  by_cases last : h.generation = lastGeneration
  · simp [vacate, last, Array.getElem?_setIfInBounds, bound]
  · simp [vacate, last, Array.getElem?_setIfInBounds, bound]

theorem get?_vacate {a : Arena} {h : Handle} {object : Object} (live : a.get? h = some object)
    (k : Handle) : (a.vacate h).get? k = if k = h then none else a.get? k := by
  have located := get?_eq_some_iff.mp live
  unfold get?
  rw [cells_vacate live]
  by_cases index : h.index.toNat = k.index.toNat
  · rw [if_pos index, ← index, located]
    by_cases same : k = h
    · simp [same]
    · have generation : h.generation ≠ k.generation :=
        fun equal => same (Handle.eq_of_index_toNat index.symm equal.symm)
      simp [same, generation]
  · have differs : k ≠ h := fun same => index (by rw [same])
    rw [if_neg index, if_neg differs]

theorem issued_vacate {a : Arena} {h : Handle} {object : Object} (live : a.get? h = some object)
    {k : Handle} (issued : a.Issued k) : (a.vacate h).Issued k := by
  have cells := cells_vacate live k.index.toNat
  obtain ⟨cell, located, issued⟩ := issued
  by_cases index : h.index.toNat = k.index.toNat
  · rw [if_pos index] at cells
    rw [← index, get?_eq_some_iff.mp live, Option.some.injEq] at located
    subst located
    refine ⟨_, cells, ?_⟩
    -- The cell takes a higher generation than that of the released handle, or it is not listed.
    by_cases last : h.generation = lastGeneration
    · simpa [last, vacate] using last ▸ issued
    · left
      simp only [if_neg last]
      rw [UInt16.lt_iff_toNat_lt, toNat_next last]
      rcases issued with earlier | ⟨present, -⟩
      · rw [UInt16.lt_iff_toNat_lt] at earlier
        exact Nat.lt_succ_of_lt earlier
      · rw [present]
        exact Nat.lt_succ_self _
  · rw [if_neg index] at cells
    refine ⟨cell, cells.trans located, issued.imp_right fun present => ⟨present.1, ?_⟩⟩
    have differs : k.index ≠ h.index := fun same => index (by rw [same])
    unfold vacate
    split
    · exact present.2
    · simp [differs, present.2]

theorem nextId_vacate (a : Arena) (h : Handle) : (a.vacate h).nextId = a.nextId := by
  unfold vacate
  split <;> rfl

theorem WellFormed.vacate {a : Arena} (formed : a.WellFormed) {h : Handle} {object : Object}
    (live : a.get? h = some object) : (a.vacate h).WellFormed where
  size_le := by
    unfold Arena.vacate
    split <;> simpa using formed.size_le
  free_nodup := by
    unfold Arena.vacate
    split
    · exact formed.free_nodup
    · exact List.nodup_cons.mpr ⟨formed.not_mem_free live, formed.free_nodup⟩
  free_vacant := by
    intro index member
    rw [cells_vacate live]
    split
    · exact ⟨_, rfl⟩
    · rename_i differs
      apply formed.free_vacant
      unfold Arena.vacate at member
      split at member
      · exact member
      · rcases List.mem_cons.mp member with same | listed
        · exact absurd (by rw [same]) differs
        · exact listed
  id_lt := by
    intro k other denoted
    rw [get?_vacate live] at denoted
    rw [nextId_vacate]
    split at denoted
    · cases denoted
    · exact formed.id_lt k other denoted

/-! ## Runs of operations -/

inductive Change (a : Arena) : Arena → Prop
  | place (type : TypeId) (payload : Payload) :
      a.refusal? = none → Change a (a.place type payload)
  | modify (h : Handle) (object : Object) (change : Object → Object) :
      a.get? h = some object → (change object).id = object.id →
        (change object).type = object.type → Change a (a.modify h change)
  | vacate (h : Handle) (object : Object) : a.get? h = some object → Change a (a.vacate h)

theorem WellFormed.change {a b : Arena} (formed : a.WellFormed) (change : a.Change b) :
    b.WellFormed := by
  cases change with
  | place type payload room => exact formed.place room type payload
  | modify h object change live id type => exact formed.modify live id
  | vacate h object live => exact formed.vacate live

theorem WellFormed.issued_change {a b : Arena} (formed : a.WellFormed) (change : a.Change b)
    {h : Handle} (issued : a.Issued h) : b.Issued h := by
  cases change with
  | place type payload room => exact formed.issued_place room type payload (.inr issued)
  | modify k object change live id type => exact issued_modify change issued
  | vacate k object live => exact issued_vacate live issued

theorem WellFormed.denoted_before {a b : Arena} (formed : a.WellFormed) (change : a.Change b)
    {h : Handle} (issued : a.Issued h) {object : Object} (denoted : b.get? h = some object) :
    ∃ before, a.get? h = some before ∧ before.id = object.id ∧ before.type = object.type := by
  cases change with
  | place type payload room =>
      rw [formed.get?_place room] at denoted
      split at denoted
      · rename_i same
        exact absurd (same ▸ issued) (formed.not_issued_nextHandle room)
      · exact ⟨object, denoted, rfl, rfl⟩
  | modify k changed change live id type =>
      rw [get?_modify live] at denoted
      split at denoted
      · rename_i same
        subst same
        rw [← Option.some.inj denoted]
        exact ⟨changed, live, id.symm, type.symm⟩
      · exact ⟨object, denoted, rfl, rfl⟩
  | vacate k released live =>
      rw [get?_vacate live] at denoted
      split at denoted
      · cases denoted
      · exact ⟨object, denoted, rfl, rfl⟩

end Arena
end ManagedObjects

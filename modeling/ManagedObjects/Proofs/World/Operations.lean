import ManagedObjects.Machine
import ManagedObjects.Proofs.Arena.Handles

namespace ManagedObjects

theorem bind_ok {α β : Type} {x : Except Fault α} {next : α → Except Fault β} {b : β}
    (ended : (x >>= next) = .ok b) : ∃ a, x = .ok a ∧ next a = .ok b := by
  cases x with
  | error f => cases ended
  | ok a => exact ⟨a, rfl, ended⟩

namespace Arena

theorem forM_get_eq_ok_iff {a : Arena} {handles : List Handle} :
    (handles.forM fun h => (a.get h).map fun _ => ()) = .ok () ↔
      ∀ h ∈ handles, ∃ object, a.get? h = some object := by
  induction handles with
  | nil => simp [List.forM_nil, pure, Except.pure]
  | cons h rest ih =>
      rw [List.forM_eq_forM, List.forM_cons, List.forall_mem_cons, ← ih]
      cases denoted : a.get? h with
      | none => simp [get, denoted, Except.map, bind, Except.bind]
      | some object => simp [get, denoted, Except.map, bind, Except.bind]

end Arena

theorem Slot.mem_handles {slots : List Slot} {h : Handle} :
    h ∈ Slot.handles slots ↔ .handle h ∈ slots := by
  unfold handles
  rw [List.mem_filterMap]
  constructor
  · rintro ⟨slot, member, same⟩
    cases slot with
    | handle k =>
        cases same
        exact member
    | _ => cases same
  · exact fun member => ⟨.handle h, member, rfl⟩

theorem Arena.checkHandles_eq_ok_iff {a : Arena} {slots : List Slot} :
    a.checkHandles slots = .ok () ↔
      ∀ h, .handle h ∈ slots → ∃ object, a.get? h = some object := by
  unfold checkHandles
  rw [forM_get_eq_ok_iff]
  simp only [Slot.mem_handles]

namespace World

theorem ofArena_ok {α : Type} {w w' : World} {change : Except Fault α × Arena} {x : α}
    (ended : w.ofArena change = (.ok x, w')) : change = (.ok x, w'.arena) ∧
      w' = w.withArena w'.arena := by
  obtain ⟨result, a⟩ := change
  cases ended
  exact ⟨rfl, rfl⟩

theorem checked_ok {α : Type} {w w' : World} {values : List Slot} {change : Except Fault α × World}
    {x : α} (ended : w.checked values change = (.ok x, w')) :
    (∀ k, .handle k ∈ values → ∃ object, w.arena.get? k = some object) ∧ change = (.ok x, w') := by
  unfold checked at ended
  split at ended
  · cases ended
  · rename_i live
    exact ⟨Arena.checkHandles_eq_ok_iff.mp live, ended⟩

theorem allocate_ok {w w' : World} {type : TypeId} {payload : Payload} {h : Handle}
    (made : w.allocate type payload = (.ok h, w')) :
    w.arena.refusal? = none ∧ h = w.arena.nextHandle ∧
      w' = w.withArena (w.arena.place type payload) := by
  obtain ⟨placed, left⟩ := ofArena_ok made
  obtain ⟨room, rfl, same⟩ := Arena.allocate_ok placed
  exact ⟨room, rfl, same ▸ left⟩

theorem typeObject_ok {r : Registry} {w w' : World} {id : TypeId} {h : Handle}
    (given : w.typeObject r id = (.ok h, w')) :
    (∃ t, r.get? id = some t) ∧
      (w.typeObjects.lookup id = some h ∧ w' = w ∨
        w.typeObjects.lookup id = none ∧ w.arena.refusal? = none ∧ h = w.arena.nextHandle ∧
          w' = { w.withArena (w.arena.place .type (.typeObject id)) with
            typeObjects := (id, h) :: w.typeObjects }) := by
  unfold typeObject at given
  split at given
  · cases given
  · rename_i t found
    refine ⟨⟨t, found⟩, ?_⟩
    split at given
    · rename_i k noted
      cases given
      exact .inl ⟨noted, rfl⟩
    · rename_i unnoted
      split at given
      · cases given
      · rename_i k left made
        obtain ⟨room, rfl, rfl⟩ := allocate_ok made
        cases given
        exact .inr ⟨unnoted, room, rfl, rfl⟩

theorem createList_ok {w w' : World} {values : List Slot} {h : Handle}
    (made : w.createList values = (.ok h, w')) :
    (∀ k, .handle k ∈ values → ∃ object, w.arena.get? k = some object) ∧
      w.arena.refusal? = none ∧ h = w.arena.nextHandle ∧
        w' = w.withArena (w.arena.place .list (.items values)) := by
  obtain ⟨live, made⟩ := checked_ok made
  exact ⟨live, allocate_ok made⟩

theorem construct_ok {w w' : World} {type : TypeId} {values : List Slot} {h : Handle}
    (made : w.construct type values = (.ok h, w')) :
    (∀ k, .handle k ∈ values → ∃ object, w.arena.get? k = some object) ∧
      w.arena.refusal? = none ∧ h = w.arena.nextHandle ∧
        w' = w.withArena (w.arena.place type (.fields values)) := by
  obtain ⟨live, made⟩ := checked_ok made
  exact ⟨live, allocate_ok made⟩

theorem writeField_ok {object written : Object} {index : Nat} {value : Slot}
    (set : writeField index value object = (.ok (), written)) :
    object.frozen = false ∧ ∃ values, object.payload = .fields values ∧ index < values.length ∧
      written = { object with payload := .fields (values.set index value) } := by
  unfold writeField at set
  split at set
  · cases set
  · rename_i unfrozen
    refine ⟨by simpa using unfrozen, ?_⟩
    split at set
    · rename_i values held
      split at set
      · rename_i bound
        cases set
        exact ⟨values, held, bound, rfl⟩
      · cases set
    · cases set

theorem setField_ok {w w' : World} {h : Handle} {index : Nat} {value : Slot}
    (set : w.setField h index value = (.ok (), w')) :
    (∀ k, value = .handle k → ∃ object, w.arena.get? k = some object) ∧
      ∃ object values, w.arena.get? h = some object ∧ object.frozen = false ∧
        object.payload = .fields values ∧ index < values.length ∧
          w' = w.withArena (w.arena.modify h fun object =>
            { object with payload := .fields (values.set index value) }) := by
  obtain ⟨checked, set⟩ := checked_ok set
  have live : ∀ k, value = .handle k → ∃ object, w.arena.get? k = some object :=
    fun k same => checked k (by simp [same])
  obtain ⟨updated, left⟩ := ofArena_ok set
  cases denoted : w.arena.get? h with
  | none =>
      rw [Arena.update_dead denoted] at updated
      cases updated
  | some object =>
      rw [Arena.update_eq denoted] at updated
      obtain ⟨result, same⟩ := Prod.mk.inj updated
      obtain ⟨unfrozen, values, held, bound, written⟩ := writeField_ok (Prod.ext result rfl)
      refine ⟨live, object, values, rfl, unfrozen, held, bound, ?_⟩
      rw [left, ← same]
      exact congrArg w.withArena (Arena.modify_congr denoted written)

theorem freeze_ok {w w' : World} {h : Handle} (frozen : w.freeze h = (.ok (), w')) :
    ∃ object, w.arena.get? h = some object ∧
      w' = w.withArena (w.arena.modify h fun object => { object with frozen := true }) := by
  unfold freeze at frozen
  cases denoted : w.arena.get? h with
  | none =>
      rw [Arena.update_dead denoted] at frozen
      cases frozen
  | some object =>
      rw [Arena.update_eq denoted] at frozen
      cases frozen
      exact ⟨object, rfl, rfl⟩

theorem reclaim_dead {w : World} {h : Handle} (dead : w.arena.get? h = none) :
    w.reclaim h = (.error (.invalidHandle h), w) := by
  rw [reclaim, Arena.release_dead dead]
  rfl

theorem reclaim_live {w : World} {h : Handle} {object : Object}
    (live : w.arena.get? h = some object) :
    w.reclaim h = (.ok (), w.withArena (w.arena.vacate h)) := by
  rw [reclaim, Arena.release_live live]
  rfl

theorem reclaim_ok {w w' : World} {h : Handle} (released : w.reclaim h = (.ok (), w')) :
    ∃ object, w.arena.get? h = some object ∧ w' = w.withArena (w.arena.vacate h) := by
  cases denoted : w.arena.get? h with
  | none =>
      rw [reclaim_dead denoted] at released
      cases released
  | some object =>
      rw [reclaim_live denoted] at released
      cases released
      exact ⟨object, rfl, rfl⟩

theorem atomic_ofArena {α : Type} {w : World} {change : Except Fault α × Arena}
    (atomic : Atomic w.arena change) : Atomic w (w.ofArena change) :=
  fun f refused => congrArg w.withArena (atomic f refused)

theorem atomic_checked {α : Type} {w : World} {values : List Slot} {change : Except Fault α × World}
    (atomic : Atomic w change) : Atomic w (w.checked values change) := by
  unfold checked
  split
  · exact fun _ _ => rfl
  · exact atomic

theorem atomic_allocate (w : World) (type : TypeId) (payload : Payload) :
    Atomic w (w.allocate type payload) :=
  atomic_ofArena (Arena.atomic_allocate _ _ _)

theorem atomic_typeObject (r : Registry) (w : World) (id : TypeId) :
    Atomic w (w.typeObject r id) := by
  unfold typeObject
  split
  · exact fun _ _ => rfl
  · split
    · exact fun _ refused => by cases refused
    · split
      · rename_i f left failed
        have unchanged := atomic_allocate w .type (.typeObject id) f (by rw [failed])
        rw [failed] at unchanged
        exact fun _ _ => unchanged
      · exact fun _ refused => by cases refused

theorem atomic_createList (w : World) (values : List Slot) : Atomic w (w.createList values) :=
  atomic_checked (atomic_allocate _ _ _)

theorem atomic_construct (w : World) (type : TypeId) (values : List Slot) :
    Atomic w (w.construct type values) :=
  atomic_checked (atomic_allocate _ _ _)

theorem atomic_writeField (index : Nat) (value : Slot) (object : Object) :
    Atomic object (writeField index value object) := by
  unfold writeField
  split
  · exact fun _ _ => rfl
  · split
    · split
      · exact fun _ refused => by cases refused
      · exact fun _ _ => rfl
    · exact fun _ _ => rfl

theorem atomic_setField (w : World) (h : Handle) (index : Nat) (value : Slot) :
    Atomic w (w.setField h index value) :=
  atomic_checked (atomic_ofArena (Arena.atomic_update (atomic_writeField index value)))

theorem atomic_freeze (w : World) (h : Handle) : Atomic w (w.freeze h) :=
  atomic_ofArena (Arena.atomic_update fun _ => nofun)

theorem atomic_reclaim (w : World) (h : Handle) : Atomic w (w.reclaim h) := by
  intro f refused
  cases released : (w.arena.release h).1 with
  | error g => exact congrArg w.withArena (Arena.atomic_release _ _ g released)
  | ok object =>
      change (w.arena.release h).1.map _ = _ at refused
      rw [released] at refused
      cases refused

section Handles
variable {w : World} {h : Handle} {object : Object}

theorem validate_eq_ok (live : w.arena.get? h = some object) : w.validate h = .ok () := by
  simp only [validate, Arena.get_eq_ok_iff.mpr live, Except.map]

theorem validate_eq_error (dead : w.arena.get? h = none) :
    w.validate h = .error (.invalidHandle h) := by
  simp only [validate, Arena.get_eq_error dead, Except.map]

theorem objectId_eq_ok (live : w.arena.get? h = some object) : w.objectId h = .ok object.id := by
  simp only [objectId, Arena.get_eq_ok_iff.mpr live, Except.map]

theorem objectId_eq_error (dead : w.arena.get? h = none) :
    w.objectId h = .error (.invalidHandle h) := by
  simp only [objectId, Arena.get_eq_error dead, Except.map]

end Handles

theorem instanceType_ok {r : Registry} {id : TypeId} {t : ObjectType}
    (admitted : instanceType r id = .ok t) : r.get? id = some t ∧ id.isSealed = false := by
  unfold instanceType at admitted
  split at admitted
  · cases admitted
  · split at admitted
    · cases admitted
    · rename_i found unsealed
      cases admitted
      exact ⟨found, by simpa using unsealed⟩

theorem filledType_ok {r : Registry} {id : TypeId} {values : List Slot} {t : ObjectType}
    (admitted : filledType r id values = .ok t) :
    instanceType r id = .ok t ∧ values.length = t.fieldCount.toNat := by
  obtain ⟨found, type, admitted⟩ := bind_ok admitted
  split at admitted
  · cases admitted
    exact ⟨type, ‹_›⟩
  · cases admitted

def Begun (w : World) (id : TypeId) : Prop :=
  w.progressOf id = some .done ∨ w.progressOf id = some .running

inductive Performs (r : Registry) (w : World) : Request → World → Prop
  | typeObject {id : TypeId} {h : Handle} {w' : World} :
      w.typeObject r id = (.ok h, w') → Performs r w (.typeObject id) w'
  | createString {s : String} {h : Handle} {w' : World} :
      w.createString s = (.ok h, w') → Performs r w (.createString s) w'
  | createList {values : List Slot} {h : Handle} {w' : World} :
      w.createList values = (.ok h, w') → Performs r w (.createList values) w'
  | setField {h : Handle} {index : Nat} {value : Slot} {w' : World} :
      w.setField h index value = (.ok (), w') → Performs r w (.setField h index value) w'
  | freeze {h : Handle} {w' : World} : w.freeze h = (.ok (), w') → Performs r w (.freeze h) w'
  | writeLine {line : String} : Performs r w (.writeLine line) (w.writeLine line).2
  | instantiate {id : TypeId} {t : ObjectType} {h : Handle} {w' : World} :
      instanceType r id = .ok t → (∀ a ∈ r.chain id, w.Begun a) →
        w.allocate id (.fields (List.replicate t.fieldCount.toNat .null)) = (.ok h, w') →
          Performs r w (.instantiate id) w'
  | instantiateWith {id : TypeId} {values : List Slot} {t : ObjectType} {h : Handle} {w' : World} :
      filledType r id values = .ok t → (∀ a ∈ r.chain id, w.Begun a) →
        w.construct id values = (.ok h, w') → Performs r w (.instantiateWith id values) w'
  | release {h : Handle} {w' : World} : w.reclaim h = (.ok (), w') → Performs r w (.release h) w'

inductive Makes (r : Registry) (w : World) : Request → TypeId → Payload → Prop
  | typeObject {id : TypeId} {t : ObjectType} :
      r.get? id = some t → Makes r w (.typeObject id) .type (.typeObject id)
  | string {s : String} : Makes r w (.createString s) .string (.text s)
  | list {values : List Slot} :
      (∀ k, .handle k ∈ values → ∃ object, w.arena.get? k = some object) →
        Makes r w (.createList values) .list (.items values)
  | blank {id : TypeId} {t : ObjectType} :
      instanceType r id = .ok t → (∀ a ∈ r.chain id, w.Begun a) →
        Makes r w (.instantiate id) id (.fields (List.replicate t.fieldCount.toNat .null))
  | filled {id : TypeId} {values : List Slot} {t : ObjectType} :
      filledType r id values = .ok t → (∀ a ∈ r.chain id, w.Begun a) →
        (∀ k, .handle k ∈ values → ∃ object, w.arena.get? k = some object) →
          Makes r w (.instantiateWith id values) id (.fields values)

inductive Alters (r : Registry) (w : World) : Request → Arena → Prop
  | nothing {request : Request} : Alters r w request w.arena
  | make {request : Request} {type : TypeId} {payload : Payload} :
      Makes r w request type payload → w.arena.refusal? = none →
        Alters r w request (w.arena.place type payload)
  | setField {h : Handle} {index : Nat} {value : Slot} {object : Object} {values : List Slot} :
      (∀ k, value = .handle k → ∃ object, w.arena.get? k = some object) →
        w.arena.get? h = some object → object.frozen = false →
          object.payload = .fields values → index < values.length →
            Alters r w (.setField h index value) (w.arena.modify h fun object =>
              { object with payload := .fields (values.set index value) })
  | freeze {h : Handle} {object : Object} : w.arena.get? h = some object →
      Alters r w (.freeze h) (w.arena.modify h fun object => { object with frozen := true })
  | release {h : Handle} {object : Object} : w.arena.get? h = some object →
      Alters r w (.release h) (w.arena.vacate h)

variable {r : Registry} {w w' : World} {request : Request}

theorem Performs.alters (performed : Performs r w request w') : Alters r w request w'.arena := by
  cases performed with
  | typeObject given =>
      obtain ⟨⟨t, found⟩, ⟨-, rfl⟩ | ⟨-, room, -, rfl⟩⟩ := typeObject_ok given
      · exact .nothing
      · exact .make (.typeObject found) room
  | createString made =>
      obtain ⟨room, -, rfl⟩ := allocate_ok made
      exact .make .string room
  | createList made =>
      obtain ⟨live, room, -, rfl⟩ := createList_ok made
      exact .make (.list live) room
  | setField set =>
      obtain ⟨live, object, values, denoted, unfrozen, held, bound, rfl⟩ := setField_ok set
      exact .setField live denoted unfrozen held bound
  | freeze frozen =>
      obtain ⟨object, denoted, rfl⟩ := freeze_ok frozen
      exact .freeze denoted
  | writeLine => exact .nothing
  | instantiate admitted begun made =>
      obtain ⟨room, -, rfl⟩ := allocate_ok made
      exact .make (.blank admitted begun) room
  | instantiateWith admitted begun made =>
      obtain ⟨live, room, -, rfl⟩ := construct_ok made
      exact .make (.filled admitted begun live) room
  | release released =>
      obtain ⟨object, denoted, rfl⟩ := reclaim_ok released
      exact .release denoted

theorem Performs.changes (performed : Performs r w request w') :
    (∃ a, w' = w.withArena a) ∨
      (∃ id h a, request = .typeObject id ∧
        w' = { w.withArena a with typeObjects := (id, h) :: w.typeObjects }) ∨
      ∃ line, request = .writeLine line ∧ w' = (w.writeLine line).2 := by
  cases performed with
  | typeObject given =>
      obtain ⟨-, ⟨-, rfl⟩ | ⟨-, -, -, rfl⟩⟩ := typeObject_ok given
      · exact .inl ⟨_, rfl⟩
      · exact .inr (.inl ⟨_, _, _, rfl, rfl⟩)
  | createString made =>
      obtain ⟨-, -, rfl⟩ := allocate_ok made
      exact .inl ⟨_, rfl⟩
  | createList made =>
      obtain ⟨-, -, -, rfl⟩ := createList_ok made
      exact .inl ⟨_, rfl⟩
  | setField set =>
      obtain ⟨-, -, -, -, -, -, -, rfl⟩ := setField_ok set
      exact .inl ⟨_, rfl⟩
  | freeze frozen =>
      obtain ⟨-, -, rfl⟩ := freeze_ok frozen
      exact .inl ⟨_, rfl⟩
  | writeLine => exact .inr (.inr ⟨_, rfl, rfl⟩)
  | instantiate _ _ made =>
      obtain ⟨-, -, rfl⟩ := allocate_ok made
      exact .inl ⟨_, rfl⟩
  | instantiateWith _ _ made =>
      obtain ⟨-, -, -, rfl⟩ := construct_ok made
      exact .inl ⟨_, rfl⟩
  | release released =>
      obtain ⟨-, -, rfl⟩ := reclaim_ok released
      exact .inl ⟨_, rfl⟩

theorem Performs.progress_eq (performed : Performs r w request w') : w'.progress = w.progress := by
  obtain ⟨a, rfl⟩ | ⟨id, h, a, -, rfl⟩ | ⟨line, -, rfl⟩ := performed.changes <;> rfl

theorem Performs.typeObjects_eq (performed : Performs r w request w')
    (other : ∀ id, request ≠ .typeObject id) : w'.typeObjects = w.typeObjects := by
  obtain ⟨a, rfl⟩ | ⟨id, h, a, asked, -⟩ | ⟨line, -, rfl⟩ := performed.changes
  · rfl
  · exact absurd asked (other id)
  · rfl

theorem Performs.sink_eq (performed : Performs r w request w')
    (other : ∀ line, request ≠ .writeLine line) : w'.sink = w.sink := by
  obtain ⟨a, rfl⟩ | ⟨id, h, a, -, rfl⟩ | ⟨line, asked, -⟩ := performed.changes
  · rfl
  · rfl
  · exact absurd asked (other line)

theorem Performs.progressOf_eq (performed : Performs r w request w') (id : TypeId) :
    w'.progressOf id = w.progressOf id := by
  unfold progressOf
  rw [performed.progress_eq]

theorem Alters.change {b : Arena} (altered : Alters r w request b) :
    b = w.arena ∨ w.arena.Change b := by
  cases altered with
  | nothing => exact .inl rfl
  | make _ room => exact .inr (.place _ _ room)
  | setField _ denoted _ _ _ => exact .inr (.modify _ _ _ denoted rfl rfl)
  | freeze denoted => exact .inr (.modify _ _ _ denoted rfl rfl)
  | release denoted => exact .inr (.vacate _ _ denoted)

theorem Alters.forall_live {b : Arena} {P : TypeId → Payload → Prop}
    (formed : w.arena.WellFormed) (altered : Alters r w request b)
    (made : ∀ type payload, Makes r w request type payload → P type payload)
    (set : ∀ type values index value, P type (.fields values) →
      P type (.fields (values.set index value)))
    (live : ∀ h object, w.arena.get? h = some object → P object.type object.payload) :
    ∀ h object, b.get? h = some object → P object.type object.payload := by
  intro k object denoted
  cases altered with
  | nothing => exact live k object denoted
  | make makes room =>
      rw [formed.get?_place room] at denoted
      split at denoted
      · cases denoted
        exact made _ _ makes
      · exact live k object denoted
  | @setField h index value changed values _ found _ held _ =>
      rw [Arena.get?_modify found] at denoted
      split at denoted
      · cases denoted
        exact set _ _ _ _ (held ▸ live h changed found)
      · exact live k object denoted
  | @freeze h frozen found =>
      rw [Arena.get?_modify found] at denoted
      split at denoted
      · cases denoted
        exact live h frozen found
      · exact live k object denoted
  | release found =>
      rw [Arena.get?_vacate found] at denoted
      split at denoted
      · cases denoted
      · exact live k object denoted

end World
end ManagedObjects

import ManagedObjects.Proofs.Machine.Coherence

namespace ManagedObjects

def Payload.slots : Payload → List Slot
  | fields values => values
  | items values => values
  | _ => []

namespace Arena

def Holds (a : Arena) (container : Handle) (index : Nat) (v : Handle) : Prop :=
  ∃ object, a.get? container = some object ∧ object.payload.slots[index]? = some (.handle v)

inductive Stores (a : Arena) (container : Handle) (index : Nat) (v : Handle) : Request → Prop
  | createList {values : List Slot} : container = a.nextHandle →
      values[index]? = some (.handle v) → Stores a container index v (.createList values)
  | instantiateWith {id : TypeId} {values : List Slot} : container = a.nextHandle →
      values[index]? = some (.handle v) → Stores a container index v (.instantiateWith id values)
  | setField : Stores a container index v (.setField container index (.handle v))

end Arena

variable {r : Registry}

theorem World.Alters.stores {w : World} {request : Request} {b : Arena}
    (altered : w.Alters r request b) (formed : w.arena.WellFormed) {container v : Handle}
    {index : Nat} (absent : ¬ w.arena.Holds container index v) (held : b.Holds container index v) :
    w.arena.Stores container index v request ∧ ∃ target, w.arena.get? v = some target := by
  obtain ⟨object, denoted, place⟩ := held
  cases altered with
  | nothing => exact absurd ⟨object, denoted, place⟩ absent
  | make made room =>
      rw [formed.get?_place room] at denoted
      split at denoted
      · rename_i new
        cases denoted
        cases made with
        | typeObject _ => simp [Payload.slots] at place
        | string => simp [Payload.slots] at place
        | list live => exact ⟨.createList new place, live v (List.mem_of_getElem? place)⟩
        | blank _ _ => simp [Payload.slots, List.getElem?_replicate] at place
        | filled _ _ live => exact ⟨.instantiateWith new place, live v (List.mem_of_getElem? place)⟩
      · exact absurd ⟨object, denoted, place⟩ absent
  | @setField h i value changed values live found _ filled bound =>
      rw [Arena.get?_modify found] at denoted
      split at denoted
      · rename_i same
        subst same
        cases denoted
        by_cases here : i = index
        · subst here
          have stored : value = .handle v := by
            simpa [Payload.slots, List.getElem?_set_self bound] using place
          exact ⟨stored ▸ .setField, live v stored⟩
        · have before : values[index]? = some (.handle v) := by
            simpa [Payload.slots, List.getElem?_set_ne here] using place
          exact absurd ⟨changed, found, by rw [filled]; exact before⟩ absent
      · exact absurd ⟨object, denoted, place⟩ absent
  | @freeze h frozen found =>
      rw [Arena.get?_modify found] at denoted
      split at denoted
      · rename_i same
        cases denoted
        exact absurd ⟨frozen, same ▸ found, place⟩ absent
      · exact absurd ⟨object, denoted, place⟩ absent
  | release found =>
      rw [Arena.get?_vacate found] at denoted
      split at denoted
      · cases denoted
      · exact absurd ⟨object, denoted, place⟩ absent

theorem Arena.WellFormed.given_out {a b : Arena} (formed : a.WellFormed) (change : a.Change b)
    {v : Handle} {number : Nat} (absent : ¬ ∃ object, a.get? v = some object ∧ object.id = number)
    (denoted : ∃ object, b.get? v = some object ∧ object.id = number) :
    a.nextHandle = v ∧ a.nextId = number := by
  obtain ⟨object, denoted, rfl⟩ := denoted
  cases change with
  | place type payload room =>
      rw [formed.get?_place room] at denoted
      split at denoted
      · rename_i same
        cases denoted
        exact ⟨same.symm, rfl⟩
      · exact absurd ⟨object, denoted, rfl⟩ absent
  | modify h before change live id type =>
      rw [get?_modify live] at denoted
      split at denoted
      · rename_i same
        subst same
        cases denoted
        exact absurd ⟨before, live, id.symm⟩ absent
      · exact absurd ⟨object, denoted, rfl⟩ absent
  | vacate h released live =>
      rw [get?_vacate live] at denoted
      split at denoted
      · cases denoted
      · exact absurd ⟨object, denoted, rfl⟩ absent

namespace Machine

variable {α : Type} {options : Options} {sink : Sink} {program : Program α} {entries : List Entry}
  {m n : Machine α}

theorem Run.denotes (coherent : Coherent r m.configuration) {v : Handle} {target : Object}
    (live : m.world.arena.get? v = some target) (run : Run r m entries n) :
    ∀ object, n.world.arena.get? v = some object → object.id = target.id := by
  intro object denoted
  obtain ⟨before, present, id, -⟩ :=
    (run.issued_and_live_before coherent (coherent.formed.issued live)).2 object denoted
  rw [live, Option.some.injEq] at present
  rw [present, id]

theorem Run.given_out (run : Run r (start options sink program) entries m) {v : Handle}
    {target : Object} (live : m.world.arena.get? v = some target) :
    Passes r (start options sink program) m fun maker after =>
      maker.world.arena.nextHandle = v ∧ maker.world.arena.nextId = target.id ∧
        ∃ object, after.world.arena.get? v = some object ∧ object.id = target.id := by
  have absent : ¬ ∃ object, (start options sink program).world.arena.get? v = some object ∧
      object.id = target.id := by
    rintro ⟨object, denoted, -⟩
    simp [start, world, World.initial, Arena.get?_empty] at denoted
  obtain ⟨earlier, later, maker, after, other, toMaker, step, recoded, fromAfter, turned⟩ :=
    run.turn (P := fun w => ∃ object, w.arena.get? v = some object ∧ object.id = target.id)
      absent ⟨target, live, rfl⟩
  refine ⟨earlier, later, maker, after, other, toMaker, step, recoded, fromAfter, ?_⟩
  obtain ⟨before, denoted⟩ := turned
  have coherent := toMaker.coherent_start
  rcases step_alters coherent step with same | ⟨q, w, -, arena, altered⟩
  · exact absurd (same ▸ denoted) before
  · rcases altered.change with same | change
    · exact absurd (arena ▸ same ▸ denoted) before
    · rw [arena] at change
      obtain ⟨handle, number⟩ := coherent.formed.given_out change before denoted
      exact ⟨handle, number, denoted⟩

/-- Stored references never change their target. A handle that a live instance or list holds was
stored there in some step, by a request that stores it. At that moment it was live, having been
given out for its target in an earlier step, and at every moment after that it denotes its target,
which is older than what is made after the store, or is refused. -/
theorem run_reference_keeps_target (run : Run r (start options sink program) entries n)
    {container v : Handle} {index : Nat} (held : n.world.arena.Holds container index v) :
    Passes r (start options sink program) n fun m next => ∃ request target,
      m.request? = some request ∧ m.world.arena.Stores container index v request ∧
      next.world.arena.Holds container index v ∧
      m.world.arena.get? v = some target ∧ target.id < m.world.arena.nextId ∧
      (Passes r (start options sink program) m fun maker after =>
        maker.world.arena.nextHandle = v ∧ maker.world.arena.nextId = target.id ∧
          ∃ object, after.world.arena.get? v = some object ∧ object.id = target.id) ∧
      ∀ later k, Run r m later k →
        k.world.arena.get v = .error (.invalidHandle v) ∨
          ∃ object, k.world.arena.get v = .ok object ∧ object.id = target.id := by
  have absent : ¬ (start options sink program).world.arena.Holds container index v := by
    rintro ⟨object, denoted, -⟩
    simp [start, world, World.initial, Arena.get?_empty] at denoted
  obtain ⟨earlier, later, m, next, other, toStore, step, recoded, fromStore, before, stored⟩ :=
    run.turn (P := fun w => w.arena.Holds container index v) absent held
  have coherent := toStore.coherent_start
  have faithful : ∃ request, m.request? = some request ∧
      m.world.arena.Stores container index v request ∧
        ∃ target, m.world.arena.get? v = some target := by
    rcases step_alters coherent step with same | ⟨q, w, asked, arena, altered⟩
    · exact absurd (same ▸ stored) before
    · rw [← arena] at before ⊢
      exact ⟨q, asked, altered.stores (arena ▸ coherent.formed) before stored⟩
  obtain ⟨request, asked, stores, target, live⟩ := faithful
  refine ⟨earlier, later, m, next, other, toStore, step, recoded, fromStore, request, target, asked,
    stores, stored, live, coherent.formed.id_lt v target live, toStore.given_out live, ?_⟩
  intro after k run
  cases denoted : k.world.arena.get? v with
  | none => exact .inl (Arena.get_eq_error denoted)
  | some object =>
      exact .inr ⟨object, Arena.get_eq_ok_iff.mpr denoted, run.denotes coherent live object denoted⟩

theorem run_reference_keeps_target_list :
    ∃ (entries : List Entry) (n : Machine Handle),
      Run .initial (start {} .reliable do
        let text ← Native.createString "a"
        Native.createList [.handle text]) entries n ∧
      n.world.arena.Holds ⟨1, 0⟩ 0 ⟨0, 0⟩ ∧
      ∀ later k, Run .initial n later k →
        k.world.arena.get ⟨0, 0⟩ = .error (.invalidHandle ⟨0, 0⟩) ∨
          ∃ object, k.world.arena.get ⟨0, 0⟩ = .ok object ∧ object.id = 1 := by
  let program : Program Handle := do
    let text ← Native.createString "a"
    Native.createList [.handle text]
  let empty := World.initial {} .reliable
  let single := empty.withArena (empty.arena.place .string (.text "a"))
  let full := single.withArena (single.arena.place .list (.items [.handle ⟨0, 0⟩]))
  let last : Machine Handle := .outer full (.finish (.value ⟨1, 0⟩))
  have first : (start {} .reliable program).step .initial =
      .running (.outer single (Native.createList [.handle ⟨0, 0⟩])) := rfl
  have second : (Machine.outer single (Native.createList [.handle ⟨0, 0⟩])).step .initial =
      .running last := rfl
  have run := (Run.step .refl first (.refl _)).step second (.refl _)
  have held : last.world.arena.Holds ⟨1, 0⟩ 0 ⟨0, 0⟩ := ⟨_, rfl, rfl⟩
  obtain ⟨earlier, later, m, next, other, toStore, step, recoded, fromStore, facts⟩ :=
    run_reference_keeps_target run held
  obtain ⟨request, target, -, -, -, -, -, -, faithful⟩ := facts
  have onward := (Run.step .refl step recoded).trans fromStore
  refine ⟨_, last, run, held, fun rest k continued => ?_⟩
  have number : target.id = 1 := by
    rcases faithful _ _ onward with refused | ⟨object, denoted, same⟩
    · cases refused
    · cases denoted
      exact same.symm
  rw [← number]
  exact faithful _ k (onward.trans continued)

end Machine
end ManagedObjects

import ManagedObjects.Proofs.Machine.Coherence

namespace ManagedObjects

theorem Registry.Tree.registered_builtin {r : Registry} (tree : r.Tree) {id : TypeId}
    (low : id ≤ TypeId.type) : ∃ t, r.get? id = some t := by
  rw [tree.builtin id low]
  match id with
  | 0 | 1 | 2 | 3 => exact ⟨_, rfl⟩
  | n + 4 => exact absurd low (Nat.not_le.mpr (Nat.lt_add_left n (Nat.lt_succ_self 3)))

def Fits (r : Registry) (type : TypeId) : Payload → Prop
  | .text _ => type = .string
  | .items _ => type = .list
  | .typeObject id => type = .type ∧ ∃ t, r.get? id = some t
  | .fields values => type.isSealed = false ∧
      ∃ t, r.get? type = some t ∧ values.length = t.fieldCount.toNat

structure Object.WellTyped (r : Registry) (object : Object) : Prop where
  registered : ∃ t, r.get? object.type = some t
  text : (∃ s, object.payload = .text s) ↔ object.type = .string
  items : (∃ values, object.payload = .items values) ↔ object.type = .list
  typeObject : (∃ id t, object.payload = .typeObject id ∧ r.get? id = some t) ↔ object.type = .type
  fields : object.type.isSealed = false → ∃ values t, object.payload = .fields values ∧
    r.get? object.type = some t ∧ values.length = t.fieldCount.toNat

theorem TypeId.isSealed_eq_false {id : TypeId} (unsealed : id.isSealed = false) :
    id ≠ .string ∧ id ≠ .list ∧ id ≠ .type := by
  simpa [isSealed, and_assoc] using unsealed

theorem Fits.wellTyped {r : Registry} (tree : r.Tree) {object : Object}
    (fits : Fits r object.type object.payload) : object.WellTyped r := by
  obtain ⟨number, type, frozen, payload⟩ := object
  cases payload with
  | text s =>
      obtain rfl : type = .string := fits
      have low : TypeId.string ≤ TypeId.type := by decide
      exact ⟨tree.registered_builtin low, by simp, by simp [TypeId.string, TypeId.list],
        by simp [TypeId.string, TypeId.type], nofun⟩
  | items values =>
      obtain rfl : type = .list := fits
      have low : TypeId.list ≤ TypeId.type := by decide
      exact ⟨tree.registered_builtin low, by simp [TypeId.string, TypeId.list], by simp,
        by simp [TypeId.list, TypeId.type], nofun⟩
  | typeObject id =>
      obtain ⟨rfl, t, found⟩ := fits
      exact ⟨tree.registered_builtin (Nat.le_refl _), by simp [TypeId.string, TypeId.type],
        by simp [TypeId.list, TypeId.type], by simp [found], nofun⟩
  | fields values =>
      obtain ⟨unsealed, t, found, filled⟩ := fits
      obtain ⟨string, list, reflective⟩ := TypeId.isSealed_eq_false unsealed
      exact ⟨⟨t, found⟩, by simp [string], by simp [list], by simp [reflective],
        fun _ => ⟨values, t, rfl, found, filled⟩⟩

theorem World.Makes.fits {r : Registry} {w : World} {request : Request} {type : TypeId}
    {payload : Payload} (made : w.Makes r request type payload) : Fits r type payload := by
  cases made with
  | typeObject found => exact ⟨rfl, _, found⟩
  | string => rfl
  | list _ => rfl
  | blank admitted _ =>
      obtain ⟨found, unsealed⟩ := instanceType_ok admitted
      exact ⟨unsealed, _, found, List.length_replicate⟩
  | filled admitted _ _ =>
      obtain ⟨admitted, filled⟩ := filledType_ok admitted
      obtain ⟨found, unsealed⟩ := instanceType_ok admitted
      exact ⟨unsealed, _, found, filled⟩

theorem Fits.set {r : Registry} {type : TypeId} {values : List Slot}
    (fits : Fits r type (.fields values)) (index : Nat) (value : Slot) :
    Fits r type (.fields (values.set index value)) := by
  obtain ⟨unsealed, t, found, filled⟩ := fits
  exact ⟨unsealed, t, found, List.length_set.trans filled⟩

namespace World

variable {w : World} {h : Handle} {object : Object} {values : List Slot}

theorem getField_ok_iff (live : w.arena.get? h = some object)
    (held : object.payload = .fields values) (index : Nat) :
    (∃ value, w.getField h index = .ok value) ↔ index < values.length := by
  simp only [getField, Arena.get, live, bind, Except.bind, held]
  by_cases bound : index < values.length
  · simp [bound]
  · simp [bound]

theorem setField_ok_iff (live : w.arena.get? h = some object)
    (held : object.payload = .fields values) (index : Nat) {value : Slot}
    (sound : ∀ k, value = .handle k → w.arena.contains k = true) :
    (w.setField h index value).1 = .ok () ↔ index < values.length ∧ object.frozen = false := by
  have checked : w.arena.checkHandles [value] = .ok () := by
    rw [Arena.checkHandles_eq_ok_iff]
    intro k member
    exact Arena.contains_iff.mp (sound k (List.mem_singleton.mp member).symm)
  simp only [setField, World.checked, checked, ofArena, Arena.update_eq live, writeField, held]
  cases frozen : object.frozen with
  | true => simp
  | false =>
      by_cases bound : index < values.length
      · simp [bound]
      · simp [bound]

end World

namespace Machine

variable {α : Type} {r : Registry} {options : Options} {sink : Sink} {program : Program α}
  {entries : List Entry} {m : Machine α}

theorem Run.fits (run : Run r (start options sink program) entries m) :
    ∀ h object, m.world.arena.get? h = some object → Fits r object.type object.payload := by
  refine (run.keeps (P := fun c => ∀ h object, c.world.arena.get? h = some object →
    Fits r object.type object.payload) ?_ ?_ ?_ (coherent_initial options sink) ?_).2
  · intro c d _ fits shift
    cases shift <;> exact fits
  · intro w w' s x _ fits entered
    cases entered <;> exact fits
  · intro w w' s request coherent fits performed
    exact performed.alters.forall_live coherent.formed (fun _ _ made => made.fits)
      (fun _ _ index value fits => fits.set index value) fits
  · intro h object live
    simp [start, configuration, world, World.initial, Arena.get?_empty] at live

/-- The object store stays well typed. The type of a live object can be asked for, and the fields
of a live instance are those that its type says. -/
theorem run_wellTyped (built : r.Built) (run : Run r (start options sink program) entries m)
    {h : Handle} {object : Object} (live : m.world.arena.get? h = some object) :
    object.WellTyped r ∧
    (∃ t, r.get? object.type = some t ∧ m.world.typeOf r h = .ok t.descriptor) ∧
    ∀ values, object.payload = .fields values → ∃ t, r.get? object.type = some t ∧
      (∀ index, (∃ value, m.world.getField h index = .ok value) ↔
        index < t.fieldCount.toNat) ∧
      ∀ index value, (∀ k, value = .handle k → m.world.arena.contains k = true) →
        ((m.world.setField h index value).1 = .ok () ↔
          index < t.fieldCount.toNat ∧ object.frozen = false) := by
  have fits := run.fits h object live
  have typed := fits.wellTyped built.tree
  refine ⟨typed, ?_, ?_⟩
  · obtain ⟨t, found⟩ := typed.registered
    refine ⟨t, found, ?_⟩
    simp [World.typeOf, Arena.get, live, World.describe, found, bind, Except.bind]
  · intro values held
    rw [held] at fits
    obtain ⟨-, t, found, filled⟩ := fits
    refine ⟨t, found, ?_⟩
    rw [← filled]
    exact ⟨World.getField_ok_iff live held, fun index value sound =>
      World.setField_ok_iff live held index sound⟩

theorem run_wellTyped_instantiate :
    ∃ (r : Registry) (entries : List Entry) (m : Machine Handle) (h : Handle),
      r.Built ∧ Run r (start {} .reliable (Host.instantiate 4)) entries m ∧
        ∀ index, (∃ value, m.world.getField h index = .ok value) ↔ index < 2 := by
  let pair : TypeDeclaration := { name := "Pair", fields := 2 }
  let root := Registry.builtin .object "Obj" none MethodTable.empty.install
  let r : Registry := Registry.initial.add (Registry.declared 4 root pair)
  let ready := ((World.initial {} .reliable).note 0 .done).note 4 .done
  let filled := ready.withArena (ready.arena.place 4 (.fields [.null, .null]))
  have registered : Registry.initial.register pair = (.ok 4, r) := rfl
  have built : r.Built := .register .initial registered
  have chain : r.chain 4 = [0, 4] := by decide +kernel
  have type : World.instanceType r 4 = .ok (Registry.declared 4 root pair) := rfl
  have served : (World.initial {} .reliable).serve r (.instantiate 4) .ofExcept =
      .proceed filled (Program.ofExcept (.ok ⟨0, 0⟩)) := by
    simp only [World.serve, type, chain]
    rfl
  have step : (start {} .reliable (Host.instantiate 4)).step r =
      .running (.outer filled (Program.ofExcept (.ok ⟨0, 0⟩))) := congrArg Action.atBase served
  have run := Run.step .refl step (.refl _)
  have live : filled.arena.get? ⟨0, 0⟩ = some ⟨1, 4, false, .fields [.null, .null]⟩ := rfl
  obtain ⟨-, -, fields⟩ := run_wellTyped built run live
  obtain ⟨t, found, read, -⟩ := fields _ rfl
  cases found
  exact ⟨r, _, _, ⟨0, 0⟩, built, run, read⟩

end Machine
end ManagedObjects

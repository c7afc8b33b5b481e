import ManagedObjects.Proofs.Machine.Coherence
import ManagedObjects.Proofs.Machine.Site

namespace ManagedObjects

def Payload.rewrite (writes : List (Nat × Slot)) : Payload → Payload
  | fields values => fields (writes.foldr (fun write values => values.set write.1 write.2) values)
  | payload => payload

theorem Payload.rewrite_nil (payload : Payload) : payload.rewrite [] = payload := by
  cases payload <;> rfl

theorem Payload.rewrite_append (later earlier : List (Nat × Slot)) (payload : Payload) :
    payload.rewrite (later ++ earlier) = (payload.rewrite earlier).rewrite later := by
  cases payload with
  | fields values => simp [rewrite]
  | _ => rfl

theorem length_writes (writes : List (Nat × Slot)) (values : List Slot) :
    (writes.foldr (fun write values => values.set write.1 write.2) values).length =
      values.length := by
  induction writes with
  | nil => rfl
  | cons write earlier ih => rw [List.foldr_cons, List.length_set, ih]

theorem getElem?_writes (writes : List (Nat × Slot)) (values : List Slot) (index : Nat) :
    (writes.foldr (fun write values => values.set write.1 write.2) values)[index]? =
      values[index]?.map fun first => (writes.lookup index).getD first := by
  induction writes with
  | nil => simp
  | cons write earlier ih =>
      obtain ⟨place, value⟩ := write
      rw [List.foldr_cons, List.getElem?_set, length_writes, List.lookup_cons]
      by_cases same : place = index
      · subst same
        by_cases bound : place < values.length
        · simp [bound]
        · simp [bound]
      · have differs : (index == place) = false := by simpa using Ne.symm same
        simp [same, differs, ih]

theorem Arena.get?_eq_none_of_index {a : Arena} {h k : Handle} {object : Object}
    (live : a.get? h = some object) (index : k.index = h.index) (differs : k ≠ h) :
    a.get? k = none := by
  rw [Option.eq_none_iff_forall_ne_some]
  intro other denoted
  have located := get?_eq_some_iff.mp denoted
  rw [index, get?_eq_some_iff.mp live, Option.some.injEq, Cell.mk.injEq] at located
  exact differs (Handle.eq_of_index_toNat (by rw [index]) located.1.symm)

theorem Arena.modify_cases {a : Arena} {h k : Handle} {change : Object → Object}
    {found object later : Object} (denoted : a.get? k = some found)
    (live : a.get? h = some object) (still : (a.modify k change).get? h = some later) :
    h = k ∧ found = object ∧ later = change object ∨ h ≠ k ∧ later = object := by
  rw [get?_modify denoted] at still
  split at still
  · rename_i same
    rw [← same, live] at denoted
    cases denoted
    exact .inl ⟨same, rfl, (Option.some.inj still).symm⟩
  · rename_i differs
    exact .inr ⟨differs, Option.some.inj (still.symm.trans live)⟩

theorem World.Alters.object_eq {r : Registry} {w : World} {request : Request} {b : Arena}
    (altered : w.Alters r request b) (formed : w.arena.WellFormed)
    (unset : ∀ k index value, request ≠ .setField k index value)
    (unfrozen : ∀ k, request ≠ .freeze k) {h : Handle} {object later : Object}
    (live : w.arena.get? h = some object) (still : b.get? h = some later) : later = object := by
  cases altered with
  | nothing => exact Option.some.inj (still.symm.trans live)
  | make _ room =>
      rw [formed.get?_place room] at still
      split at still
      · rename_i new
        exact absurd (new ▸ formed.issued live) (formed.not_issued_nextHandle room)
      · exact Option.some.inj (still.symm.trans live)
  | setField => exact absurd rfl (unset _ _ _)
  | freeze => exact absurd rfl (unfrozen _)
  | release found =>
      rw [Arena.get?_vacate found] at still
      split at still
      · cases still
      · exact Option.some.inj (still.symm.trans live)

theorem World.Alters.made {r : Registry} {w : World} {request : Request} {b : Arena}
    (altered : w.Alters r request b) (formed : w.arena.WellFormed) {h : Handle} {object : Object}
    (dead : w.arena.get? h = none) (live : b.get? h = some object) :
    ∃ type payload, w.Makes r request type payload ∧ w.arena.nextHandle = h ∧
      object = ⟨w.arena.nextId, type, false, payload⟩ := by
  cases altered with
  | nothing =>
      rw [dead] at live
      cases live
  | make makes room =>
      rw [formed.get?_place room] at live
      split at live
      · rename_i new
        exact ⟨_, _, makes, new.symm, (Option.some.inj live).symm⟩
      · rw [dead] at live
        cases live
  | setField _ found =>
      rw [Arena.get?_modify found] at live
      split at live
      · rename_i same
        rw [same, found] at dead
        cases dead
      · rw [dead] at live
        cases live
  | freeze found =>
      rw [Arena.get?_modify found] at live
      split at live
      · rename_i same
        rw [same, found] at dead
        cases dead
      · rw [dead] at live
        cases live
  | release found =>
      rw [Arena.get?_vacate found] at live
      split at live
      · cases live
      · rw [dead] at live
        cases live

theorem isOk_iff {result : Except Fault Unit} : result.isOk = true ↔ result = .ok () := by
  cases result <;> simp [Except.isOk, Except.toBool]

namespace Machine

variable {α : Type} {r : Registry} {m n : Machine α} {h : Handle} {object later : Object}

def stored? (h : Handle) (m : Machine α) : Option (Nat × Slot) :=
  match m.request? with
  | some (.setField k index value) =>
      if k = h ∧ (m.world.setField k index value).1.isOk then some (index, value) else none
  | _ => none

def Freezes (h : Handle) (m : Machine α) : Prop :=
  m.request? = some (.freeze h) ∧ (m.world.freeze h).1.isOk

def writes (h : Handle) (passed : List (Machine α)) : List (Nat × Slot) :=
  passed.filterMap (stored? h)

theorem writes_append (h : Handle) (later earlier : List (Machine α)) :
    writes h (later ++ earlier) = writes h later ++ writes h earlier :=
  List.filterMap_append

theorem step_setField {h : Handle} {index : Nat} {value : Slot}
    (asked : m.request? = some (.setField h index value)) (step : m.step r = .running n) :
    n.world = (m.world.setField h index value).2 :=
  world_of_proceed asked rfl (fun _ _ => ⟨_, rfl⟩) step

theorem step_freeze {h : Handle} (asked : m.request? = some (.freeze h))
    (step : m.step r = .running n) : n.world = (m.world.freeze h).2 :=
  world_of_proceed asked rfl (fun _ _ => ⟨_, rfl⟩) step

theorem stored?_eq_some_iff {index : Nat} {value : Slot} :
    m.stored? h = some (index, value) ↔ m.request? = some (.setField h index value) ∧
      (m.world.setField h index value).1 = .ok () := by
  unfold stored?
  split
  · rename_i k place slot asked
    rw [asked, Option.ite_none_right_eq_some]
    simp only [Option.some.injEq, Prod.mk.injEq, Request.setField.injEq]
    constructor
    · rintro ⟨⟨rfl, done⟩, rfl, rfl⟩
      exact ⟨⟨rfl, rfl, rfl⟩, isOk_iff.mp done⟩
    · rintro ⟨⟨rfl, rfl, rfl⟩, done⟩
      exact ⟨⟨rfl, isOk_iff.mpr done⟩, rfl, rfl⟩
  · rename_i unasked
    simp only [reduceCtorEq, false_iff]
    exact fun facts => unasked _ _ _ facts.1

/-- How the object of `h` at one point of a run and at a later one belong together, by the machines
that the run left behind between them. -/
structure Evolves (h : Handle) (passed : List (Machine α)) (object later : Object) : Prop where
  id_eq : later.id = object.id
  type_eq : later.type = object.type
  payload_eq : later.payload = object.payload.rewrite (writes h passed)
  frozen_iff : later.frozen = true ↔ object.frozen = true ∨ ∃ k ∈ passed, k.Freezes h

theorem Evolves.refl (h : Handle) (object : Object) :
    Evolves h ([] : List (Machine α)) object object :=
  ⟨rfl, rfl, (Payload.rewrite_nil _).symm, by simp⟩

theorem Evolves.trans {earlier later : List (Machine α)} {a b c : Object}
    (first : Evolves h earlier a b) (second : Evolves h later b c) :
    Evolves h (later ++ earlier) a c where
  id_eq := second.id_eq.trans first.id_eq
  type_eq := second.type_eq.trans first.type_eq
  payload_eq := by
    rw [second.payload_eq, first.payload_eq, writes_append, Payload.rewrite_append]
  frozen_iff := by
    rw [second.frozen_iff, first.frozen_iff]
    simp only [List.mem_append, or_and_right, exists_or]
    exact or_assoc.trans (or_congr_right or_comm)

theorem Evolves.unchanged (unset : m.stored? h = none) (unfrozen : ¬ m.Freezes h)
    (object : Object) : Evolves h [m] object object where
  id_eq := rfl
  type_eq := rfl
  payload_eq := by simp [writes, unset, Payload.rewrite_nil]
  frozen_iff := by simp [unfrozen]

theorem Freezes.not_of_request {request : Request} (asked : m.request? = some request)
    (other : request ≠ .freeze h) : ¬ m.Freezes h := by
  rintro ⟨freezes, -⟩
  rw [asked, Option.some.injEq] at freezes
  exact other freezes

theorem stored?_of_request {request : Request} (asked : m.request? = some request)
    (other : ∀ index value, request ≠ .setField h index value) : m.stored? h = none := by
  cases stored : m.stored? h with
  | none => rfl
  | some write =>
      obtain ⟨sets, -⟩ := stored?_eq_some_iff.mp stored
      rw [asked, Option.some.injEq] at sets
      exact absurd sets (other _ _)

theorem step_evolves_setField {k : Handle} {index : Nat} {value : Slot}
    (asked : m.request? = some (.setField k index value)) (step : m.step r = .running n)
    (live : m.world.arena.get? h = some object) (still : n.world.arena.get? h = some later) :
    Evolves h [m] object later := by
  have unfrozen : ¬ m.Freezes h := Freezes.not_of_request asked (by simp)
  rw [step_setField asked step] at still
  cases set : (m.world.setField k index value).1 with
  | error f =>
      rw [World.atomic_setField _ _ _ _ f set] at still
      obtain rfl := Option.some.inj (still.symm.trans live)
      refine .unchanged ?_ unfrozen later
      cases stored : m.stored? h with
      | none => rfl
      | some write =>
          obtain ⟨sets, done⟩ := stored?_eq_some_iff.mp stored
          rw [asked] at sets
          cases sets
          rw [set] at done
          cases done
  | ok _ =>
      obtain ⟨-, before, values, denoted, -, held, -, left⟩ :=
        World.setField_ok (Prod.ext set rfl)
      rw [show (m.world.setField k index value).2 = _ from left] at still
      rcases Arena.modify_cases denoted live still with ⟨rfl, rfl, rfl⟩ | ⟨differs, rfl⟩
      · have stored := stored?_eq_some_iff.mpr ⟨asked, set⟩
        exact ⟨rfl, rfl, by simp [writes, stored, held, Payload.rewrite], by simp [unfrozen]⟩
      · refine .unchanged (stored?_of_request asked fun place slot same => ?_) unfrozen later
        cases same
        exact differs rfl

theorem step_evolves_freeze {k : Handle} (asked : m.request? = some (.freeze k))
    (step : m.step r = .running n) (live : m.world.arena.get? h = some object)
    (still : n.world.arena.get? h = some later) : Evolves h [m] object later := by
  have unset : m.stored? h = none := stored?_of_request asked (by simp)
  rw [step_freeze asked step] at still
  cases done : (m.world.freeze k).1 with
  | error f =>
      rw [World.atomic_freeze _ _ f done] at still
      obtain rfl := Option.some.inj (still.symm.trans live)
      refine .unchanged unset ?_ later
      rintro ⟨freezes, ok⟩
      rw [asked] at freezes
      cases freezes
      rw [isOk_iff.mp ok] at done
      cases done
  | ok _ =>
      obtain ⟨before, denoted, left⟩ := World.freeze_ok (Prod.ext done rfl)
      rw [show (m.world.freeze k).2 = _ from left] at still
      rcases Arena.modify_cases denoted live still with ⟨rfl, rfl, rfl⟩ | ⟨differs, rfl⟩
      · have freezes : m.Freezes h := ⟨asked, isOk_iff.mpr done⟩
        exact ⟨rfl, rfl, by simp [writes, unset, Payload.rewrite_nil], by simp [freezes]⟩
      · refine .unchanged unset (Freezes.not_of_request asked fun same => ?_) later
        cases same
        exact differs rfl

theorem step_evolves (coherent : Coherent r m.configuration) (step : m.step r = .running n)
    (live : m.world.arena.get? h = some object) (still : n.world.arena.get? h = some later) :
    Evolves h [m] object later := by
  by_cases sets : ∃ k index value, m.request? = some (.setField k index value)
  · obtain ⟨k, index, value, asked⟩ := sets
    exact step_evolves_setField asked step live still
  by_cases freezes : ∃ k, m.request? = some (.freeze k)
  · obtain ⟨k, asked⟩ := freezes
    exact step_evolves_freeze asked step live still
  have unset : m.stored? h = none := by
    cases stored : m.stored? h with
    | none => rfl
    | some write => exact absurd ⟨h, _, _, (stored?_eq_some_iff.mp stored).1⟩ sets
  have unfrozen : ¬ m.Freezes h := fun frozen => freezes ⟨h, frozen.1⟩
  have same : later = object := by
    rcases step_alters coherent step with same | ⟨request, w, asked, arena, altered⟩
    · rw [same, live] at still
      exact (Option.some.inj still).symm
    · refine altered.object_eq (arena ▸ coherent.formed) ?_ ?_ (arena ▸ live) still
      · rintro k index value rfl
        exact sets ⟨k, index, value, asked⟩
      · rintro k rfl
        exact freezes ⟨k, asked⟩
  exact same ▸ .unchanged unset unfrozen object

theorem Trail.live_before_step {passed : List (Machine α)} {next : Machine α}
    (coherent : Coherent r m.configuration) (live : m.world.arena.get? h = some object)
    (trail : Trail r m passed n) (step : n.step r = .running next)
    (still : next.world.arena.get? h = some later) :
    ∃ between, n.world.arena.get? h = some between := by
  have issued := (trail.run.issued_and_live_before coherent (coherent.formed.issued live)).1
  obtain ⟨between, present, -⟩ := ((Run.step .refl step (.refl next)).issued_and_live_before
    (trail.run.coherent coherent) issued).2 later still
  exact ⟨between, present⟩

theorem Trail.evolves {passed : List (Machine α)} (coherent : Coherent r m.configuration)
    (live : m.world.arena.get? h = some object) (trail : Trail r m passed n)
    (still : n.world.arena.get? h = some later) : Evolves h passed object later := by
  induction trail generalizing later with
  | refl =>
      rw [live, Option.some.injEq] at still
      exact still ▸ .refl h object
  | @step passed n next other trail step recoded ih =>
      rw [recoded.world_eq] at still
      obtain ⟨between, present⟩ := trail.live_before_step coherent live step still
      exact (ih present).trans (step_evolves (trail.run.coherent coherent) step present still)

theorem Trail.writes_of_frozen {passed : List (Machine α)} (coherent : Coherent r m.configuration)
    (live : m.world.arena.get? h = some object) (frozen : object.frozen = true)
    (trail : Trail r m passed n) (still : n.world.arena.get? h = some later) :
    writes h passed = [] := by
  induction trail generalizing later with
  | refl => rfl
  | @step passed n next other trail step recoded ih =>
      rw [recoded.world_eq] at still
      obtain ⟨between, present⟩ := trail.live_before_step coherent live step still
      have unset : n.stored? h = none := by
        cases stored : n.stored? h with
        | none => rfl
        | some write =>
            obtain ⟨-, set⟩ := stored?_eq_some_iff.mp stored
            obtain ⟨-, found, values, denoted, unfrozen, -⟩ :=
              World.setField_ok (Prod.ext set rfl)
            obtain rfl := Option.some.inj (denoted.symm.trans present)
            have kept := (trail.evolves coherent live present).frozen_iff.mpr (.inl frozen)
            rw [unfrozen] at kept
            cases kept
      rw [writes, List.filterMap_cons, unset]
      exact ih present

def Gives (r : Registry) (m : Machine α) (h : Handle) (object : Object) : Prop :=
  ∃ (request : Request) (w : World) (type : TypeId) (payload : Payload) (next : Machine α),
    m.request? = some request ∧ w.arena = m.world.arena ∧ w.Makes r request type payload ∧
      m.world.arena.nextHandle = h ∧ object = ⟨m.world.arena.nextId, type, false, payload⟩ ∧
        m.step r = .running next ∧ next.world.arena.get? h = some object

theorem Gives.unfrozen (gives : Gives r m h object) : object.frozen = false := by
  obtain ⟨_, _, _, _, _, _, _, _, _, rfl, _⟩ := gives
  rfl

theorem step_gives (coherent : Coherent r m.configuration) (step : m.step r = .running n)
    (dead : m.world.arena.get? h = none) (live : n.world.arena.get? h = some object) :
    Gives r m h object := by
  rcases step_alters coherent step with same | ⟨request, w, asked, arena, altered⟩
  · rw [same, dead] at live
    cases live
  · obtain ⟨type, payload, makes, handle, rfl⟩ :=
      altered.made (arena ▸ coherent.formed) (arena ▸ dead) live
    rw [arena] at handle live ⊢
    exact ⟨request, w, type, payload, n, asked, arena, makes, handle, rfl, step, live⟩

theorem Trail.origin {passed : List (Machine α)} (coherent : Coherent r m.configuration)
    (dead : m.world.arena.get? h = none) (trail : Trail r m passed n)
    (live : n.world.arena.get? h = some object) :
    ∃ late maker early first, passed = late ++ maker :: early ∧ Gives r maker h first ∧
      first.frozen = false ∧ Evolves h late first object := by
  induction trail generalizing object with
  | refl =>
      rw [dead] at live
      cases live
  | @step passed n next other trail step recoded ih =>
      rw [recoded.world_eq] at live
      have coherentN := trail.run.coherent coherent
      cases present : n.world.arena.get? h with
      | none =>
          have gives := step_gives coherentN step present live
          exact ⟨[], n, passed, object, rfl, gives, gives.unfrozen, .refl h object⟩
      | some between =>
          obtain ⟨late, maker, early, first, rfl, gives, unfrozen, evolves⟩ := ih present
          exact ⟨n :: late, maker, early, first, rfl, gives, unfrozen,
            evolves.trans (step_evolves coherentN step present live)⟩

end Machine

namespace World

theorem getField_eq {w : World} {h : Handle} {object : Object} {values : List Slot}
    (live : w.arena.get? h = some object) (held : object.payload = .fields values) (index : Nat) :
    w.getField h index = values[index]?.elim (.error (.fieldIndex index)) .ok := by
  simp only [getField, Arena.get, live, bind, Except.bind, held]
  cases values[index]? <;> rfl

theorem setField_frozen {w : World} {h : Handle} {object : Object}
    (live : w.arena.get? h = some object) (frozen : object.frozen = true) (index : Nat)
    (value : Slot) : ∃ f, w.setField h index value = (.error f, w) := by
  cases set : (w.setField h index value).1 with
  | error f => exact ⟨f, Prod.ext set (w.atomic_setField h index value f set)⟩
  | ok _ =>
      obtain ⟨-, held, values, denoted, unfrozen, -⟩ := setField_ok (Prod.ext set rfl)
      obtain rfl := Option.some.inj (denoted.symm.trans live)
      rw [unfrozen] at frozen
      cases frozen

end World

namespace Machine

variable {α : Type} {r : Registry} {m n : Machine α} {h : Handle} {object later : Object}

theorem Evolves.getField_eq {passed : List (Machine α)} (evolves : Evolves h passed object later)
    (still : n.world.arena.get? h = some later) {values : List Slot}
    (held : object.payload = .fields values) {index : Nat} {first : Slot}
    (given : values[index]? = some first) :
    n.world.getField h index = .ok (((writes h passed).lookup index).getD first) := by
  have payload := evolves.payload_eq
  rw [held] at payload
  rw [World.getField_eq still payload, getElem?_writes, given]
  rfl

/-- What an object holds persists. An object that is live at some point of a run was made by a
request, unfrozen and with the payload that the request says, and has since then changed by the
writes to its fields alone. At each later point at which it is live it has the same number and the
same type, its payload differs by the writes in between, each of them carried out while it was an
unfrozen instance, a field has the value of the last write to it, and what is no instance has not
changed. Once it is frozen, by whatever code, it stays so: it refuses to be written to and its
fields keep their values. A later occupant of its cell starts unfrozen again. -/
theorem run_contents_persist {options : Options} {sink : Sink} {program : Program α}
    {passed : List (Machine α)} (before : Trail r (start options sink program) passed m)
    (live : m.world.arena.get? h = some object) :
    (∃ late maker early first, passed = late ++ maker :: early ∧ Gives r maker h first ∧
      first.frozen = false ∧ Evolves h late first object ∧
      ∀ values, first.payload = .fields values → ∀ index given, values[index]? = some given →
        m.world.getField h index = .ok (((writes h late).lookup index).getD given)) ∧
    (∀ between n later, Trail r m between n → n.world.arena.get? h = some later →
      Evolves h between object later ∧
      (∀ k ∈ between, ∀ write, k.stored? h = some write → ∃ held values,
        k.world.arena.get? h = some held ∧ held.frozen = false ∧ held.payload = .fields values) ∧
      (∀ values, object.payload = .fields values → ∀ index first, values[index]? = some first →
        n.world.getField h index = .ok (((writes h between).lookup index).getD first)) ∧
      ((∀ values, object.payload ≠ .fields values) → later.payload = object.payload) ∧
      (object.frozen = true ∨ (∃ k ∈ between, k.Freezes h) →
        n.world.isFrozen h = .ok true ∧
          ∀ index value, ∃ f, n.world.setField h index value = (.error f, n.world)) ∧
      (object.frozen = true → later.payload = object.payload ∧
        ∀ index, n.world.getField h index = m.world.getField h index)) ∧
    ∀ between n next occupant, Trail r m between n → next.index = h.index → next ≠ h →
      n.world.arena.get? next = some occupant →
        ∃ late maker early first, between = late ++ maker :: early ∧ Gives r maker next first ∧
          first.frozen = false ∧ Evolves next late first occupant := by
  have coherent := before.run.coherent_start
  refine ⟨?_, ?_, ?_⟩
  · have dead : (start options sink program).world.arena.get? h = none := Arena.get?_empty _ _ h
    obtain ⟨late, maker, early, first, split, gives, unfrozen, evolves⟩ :=
      before.origin (coherent_initial options sink) dead live
    exact ⟨late, maker, early, first, split, gives, unfrozen, evolves,
      fun values held index given place => evolves.getField_eq live held place⟩
  · intro between n later trail still
    have evolves := trail.evolves coherent live still
    refine ⟨evolves, ?_, ?_, ?_, ?_, ?_⟩
    · intro k _ write stored
      obtain ⟨-, set⟩ := stored?_eq_some_iff.mp stored
      obtain ⟨-, held, values, denoted, unfrozen, fields, -⟩ :=
        World.setField_ok (Prod.ext set rfl)
      exact ⟨held, values, denoted, unfrozen, fields⟩
    · exact fun values held index first place => evolves.getField_eq still held place
    · intro other
      rw [evolves.payload_eq]
      cases payload : object.payload with
      | fields values => exact absurd payload (other values)
      | _ => rfl
    · intro frozen
      have kept := evolves.frozen_iff.mpr frozen
      exact ⟨by simp [World.isFrozen, Arena.get, still, kept, Except.map],
        World.setField_frozen still kept⟩
    · intro frozen
      have payload : later.payload = object.payload := by
        rw [evolves.payload_eq, trail.writes_of_frozen coherent live frozen still,
          Payload.rewrite_nil]
      refine ⟨payload, fun index => ?_⟩
      simp only [World.getField, Arena.get, live, still, bind, Except.bind, payload]
  · intro between n next occupant trail index differs denoted
    exact trail.origin coherent (Arena.get?_eq_none_of_index live index differs) denoted

theorem run_contents_persist_instance :
    ∃ (r : Registry) (passed between : List (Machine Handle)) (m n : Machine Handle),
      Trail r (start {} .reliable (Host.instantiate 4)) passed m ∧ Trail r m between n ∧
        m.world.getField ⟨0, 0⟩ 1 = .ok .null ∧ n.world.getField ⟨0, 0⟩ 1 = .ok (.bool true) ∧
        n.world.isFrozen ⟨0, 0⟩ = .ok true ∧
        ∀ index value, ∃ f, n.world.setField ⟨0, 0⟩ index value = (.error f, n.world) := by
  let pair : TypeDeclaration := { name := "Pair", fields := 2 }
  let root := Registry.builtin .object "Obj" none MethodTable.empty.install
  let r : Registry := Registry.initial.add (Registry.declared 4 root pair)
  let ready := ((World.initial {} .reliable).note 0 .done).note 4 .done
  let made := ready.withArena (ready.arena.place 4 (.fields [.null, .null]))
  let set := made.withArena (made.arena.modify ⟨0, 0⟩ fun object =>
    { object with payload := .fields [.null, .bool true] })
  let frozen := set.withArena (set.arena.modify ⟨0, 0⟩ fun object => { object with frozen := true })
  have chain : r.chain 4 = [0, 4] := by decide +kernel
  have type : World.instanceType r 4 = .ok (Registry.declared 4 root pair) := rfl
  have served : (World.initial {} .reliable).serve r (.instantiate 4) .ofExcept =
      .proceed made (Program.ofExcept (.ok ⟨0, 0⟩)) := by
    simp only [World.serve, type, chain]
    rfl
  have makes : (start {} .reliable (Host.instantiate 4)).step r =
      .running (.outer made (Program.ofExcept (.ok ⟨0, 0⟩))) := congrArg Action.atBase served
  let setting : Machine Handle :=
    .outer made (.ask (.setField ⟨0, 0⟩ 1 (.bool true)) fun _ => .abort)
  let freezing : Machine Handle := .outer set (.ask (.freeze ⟨0, 0⟩) fun _ => .abort)
  have sets : setting.step r = .running (.outer set .abort) := rfl
  have freezes : freezing.step r = .running (.outer frozen .abort) := rfl
  have before : Trail r (start {} .reliable (Host.instantiate 4)) _ setting :=
    Trail.step .refl makes (.outer made _ _)
  have between : Trail r setting [freezing, setting] (.outer frozen .abort) :=
    (Trail.step .refl sets (.outer set _ _)).step freezes (.refl _)
  have live : setting.world.arena.get? ⟨0, 0⟩ = some ⟨1, 4, false, .fields [.null, .null]⟩ := rfl
  have still : frozen.arena.get? ⟨0, 0⟩ = some ⟨1, 4, true, .fields [.null, .bool true]⟩ := rfl
  obtain ⟨-, persists, -⟩ := run_contents_persist before live
  obtain ⟨-, -, field, -, stays, -⟩ := persists _ _ _ between still
  obtain ⟨isFrozen, refused⟩ := stays (.inr ⟨freezing, by simp, rfl, rfl⟩)
  exact ⟨r, _, _, _, _, before, between, rfl, field _ rfl 1 .null rfl, isFrozen, refused⟩

end Machine
end ManagedObjects

import ManagedObjects.Proofs.Machine.Answers
import ManagedObjects.Proofs.Machine.Deferral
import ManagedObjects.Proofs.Machine.Typing

namespace ManagedObjects

namespace Arena

def Represents (a : Arena) (h : Handle) (id : TypeId) : Prop :=
  ∃ object, a.get? h = some object ∧ object.payload = .typeObject id

variable {a : Arena} {h k : Handle} {id other : TypeId}

theorem Represents.unique (one : a.Represents h id) (two : a.Represents h other) : id = other := by
  obtain ⟨object, denoted, payload⟩ := one
  obtain ⟨_, again, second⟩ := two
  cases denoted.symm.trans again
  exact Payload.typeObject.inj (payload.symm.trans second)

theorem WellFormed.represents_place (formed : a.WellFormed) (room : a.refusal? = none)
    (type : TypeId) (payload : Payload) :
    (a.place type payload).Represents h id ↔
      h = a.nextHandle ∧ payload = .typeObject id ∨ a.Represents h id := by
  unfold Represents
  rw [formed.get?_place room]
  by_cases new : h = a.nextHandle
  · have unused : ∀ object, a.get? a.nextHandle ≠ some object := fun object live =>
      formed.not_issued_nextHandle room (formed.issued live)
    simp [new, unused]
  · simp [new]

theorem represents_modify {object : Object} {change : Object → Object}
    (live : a.get? h = some object)
    (kept : (change object).payload = .typeObject id ↔ object.payload = .typeObject id) :
    (a.modify h change).Represents k id ↔ a.Represents k id := by
  unfold Represents
  rw [get?_modify live]
  by_cases same : k = h
  · simp [same, live, kept]
  · simp [same]

theorem represents_vacate {object : Object} (live : a.get? h = some object) :
    (a.vacate h).Represents k id ↔ k ≠ h ∧ a.Represents k id := by
  unfold Represents
  rw [get?_vacate live]
  by_cases same : k = h
  · simp [same]
  · simp [same]

def Ordinary (a : Arena) (h : Handle) : Prop :=
  a.Issued h ∧ ∀ id, ¬ a.Represents h id

end Arena

namespace World

variable {r : Registry} {w w' : World} {request : Request} {h : Handle}

theorem Alters.ordinary {b : Arena} (formed : w.arena.WellFormed) (altered : w.Alters r request b)
    (ordinary : w.arena.Ordinary h) : b.Ordinary h := by
  obtain ⟨issued, other⟩ := ordinary
  constructor
  · rcases altered.change with same | change
    · exact same ▸ issued
    · exact formed.issued_change change issued
  · intro id represents
    refine other id ?_
    cases altered with
    | nothing => exact represents
    | make _ room =>
        rw [formed.represents_place room] at represents
        rcases represents with ⟨rfl, -⟩ | before
        · exact absurd issued (formed.not_issued_nextHandle room)
        · exact before
    | setField _ live _ held _ =>
        exact (Arena.represents_modify live (by simp [held])).mp represents
    | freeze live => exact (Arena.represents_modify live Iff.rfl).mp represents
    | release live => exact ((Arena.represents_vacate live).mp represents).2

def Catalogued (w : World) : Prop :=
  ∀ id h, w.typeObjects.lookup id = some h ↔ w.arena.Represents h id

theorem Catalogued.of_marks (catalogued : w.Catalogued) (marks : w.Marks w') : w'.Catalogued := by
  obtain ⟨progress, rfl⟩ := marks
  exact catalogued

theorem Catalogued.place (catalogued : w.Catalogued) (formed : w.arena.WellFormed)
    (room : w.arena.refusal? = none) (type : TypeId) {payload : Payload}
    (other : ∀ id, payload ≠ .typeObject id) :
    (w.withArena (w.arena.place type payload)).Catalogued := by
  intro id h
  rw [withArena, formed.represents_place room]
  simpa [other] using catalogued id h

theorem Catalogued.note (catalogued : w.Catalogued) (formed : w.arena.WellFormed)
    (room : w.arena.refusal? = none) {id : TypeId} (unnoted : w.typeObjects.lookup id = none) :
    ({ w.withArena (w.arena.place .type (.typeObject id)) with
      typeObjects := (id, w.arena.nextHandle) :: w.typeObjects } : World).Catalogued := by
  intro a h
  simp only [withArena]
  rw [formed.represents_place room, List.lookup_cons, ← catalogued a h]
  by_cases same : a = id
  · simp [same, unnoted, eq_comm]
  · have differs : (a == id) = false := by simpa using same
    simp [differs, Ne.symm same]

theorem Performs.catalogued (performed : w.Performs r request w') (catalogued : w.Catalogued)
    (formed : w.arena.WellFormed) (spared : ∀ h, request = .release h → w.arena.Ordinary h) :
    w'.Catalogued := by
  cases performed with
  | typeObject given =>
      obtain ⟨-, ⟨-, rfl⟩ | ⟨unnoted, room, rfl, rfl⟩⟩ := typeObject_ok given
      · exact catalogued
      · exact catalogued.note formed room unnoted
  | createString made =>
      obtain ⟨room, -, rfl⟩ := allocate_ok made
      exact catalogued.place formed room _ (by simp)
  | createList made =>
      obtain ⟨-, room, -, rfl⟩ := createList_ok made
      exact catalogued.place formed room _ (by simp)
  | setField set =>
      obtain ⟨-, object, values, live, -, held, -, rfl⟩ := setField_ok set
      intro id h
      rw [withArena, Arena.represents_modify live (by simp [held])]
      exact catalogued id h
  | freeze frozen =>
      obtain ⟨object, live, rfl⟩ := freeze_ok frozen
      intro id h
      rw [withArena, Arena.represents_modify live Iff.rfl]
      exact catalogued id h
  | writeLine => exact catalogued
  | instantiate _ _ made =>
      obtain ⟨room, -, rfl⟩ := allocate_ok made
      exact catalogued.place formed room _ (by simp)
  | instantiateWith _ _ made =>
      obtain ⟨-, room, -, rfl⟩ := construct_ok made
      exact catalogued.place formed room _ (by simp)
  | @release k _ released =>
      obtain ⟨object, live, rfl⟩ := reclaim_ok released
      intro id h
      rw [withArena, Arena.represents_vacate live, catalogued id h, iff_and_self]
      rintro represents rfl
      exact (spared h rfl).2 id represents

theorem replies_release_of_represents {id : TypeId} (represents : w.arena.Represents h id) :
    w.Replies r (.release h) (.error .pinnedTypeObject) := by
  obtain ⟨object, live, payload⟩ := represents
  intro β resume
  simp only [serve, releasable, Arena.get_eq_ok_iff.mpr live, bind, Except.bind, payload]

theorem reflect_of_represents {id : TypeId} (represents : w.arena.Represents h id) :
    w.reflect r h = describe r id := by
  obtain ⟨object, live, payload⟩ := represents
  simp only [reflect, Arena.get_eq_ok_iff.mpr live, bind, Except.bind, payload]

theorem typeOf_eq {object : Object} {t : ObjectType} (live : w.arena.get? h = some object)
    (found : r.get? object.type = some t) : w.typeOf r h = .ok t.descriptor := by
  simp only [typeOf, Arena.get_eq_ok_iff.mpr live, bind, Except.bind, describe, found]

theorem Catalogued.represents_typeObject {id : TypeId} (catalogued : w.Catalogued)
    (formed : w.arena.WellFormed) (given : w.typeObject r id = (.ok h, w')) :
    w'.arena.Represents h id := by
  obtain ⟨-, ⟨noted, rfl⟩ | ⟨-, room, rfl, rfl⟩⟩ := typeObject_ok given
  · exact (catalogued id h).mp noted
  · exact (formed.represents_place room _ _).mpr (.inl ⟨rfl, rfl⟩)

end World

namespace Machine

variable {α : Type} {r : Registry} {options : Options} {sink : Sink} {program : Program α}
  {entries : List Entry} {passed : List (Machine α)} {m n : Machine α} {id : TypeId} {h : Handle}

def SparesTypes (m : Machine α) : Prop :=
  ∀ x ∈ m.suspended, ∀ h, x.request? = some (.release h) → m.world.arena.Ordinary h

theorem ordinary_of_releasable {w : World} {object : Object} (formed : w.arena.WellFormed)
    (releasable : w.releasable h = .ok object) : w.arena.Ordinary h := by
  obtain ⟨found, denoted, admitted⟩ := bind_ok releasable
  have live := Arena.get_eq_ok_iff.mp denoted
  refine ⟨formed.issued live, ?_⟩
  rintro id ⟨other, again, payload⟩
  cases live.symm.trans again
  simp [payload] at admitted

theorem step_ordinary (coherent : Coherent r m.configuration) (step : m.step r = .running n)
    (ordinary : m.world.arena.Ordinary h) : n.world.arena.Ordinary h := by
  rcases step_alters coherent step with same | ⟨q, w, -, arena, altered⟩
  · exact same ▸ ordinary
  · exact altered.ordinary (arena ▸ coherent.formed) (arena ▸ ordinary)

theorem step_sparesTypes (coherent : Coherent r m.configuration) (spares : m.SparesTypes)
    (step : m.step r = .running n) : n.SparesTypes := by
  intro x waiting h waits
  refine step_ordinary coherent step ?_
  rcases step_deferred step waiting waits with ⟨y, before, waited⟩ | ⟨-, admitted⟩
  · exact spares y before h waited
  · obtain ⟨object, releasable⟩ := admitted h rfl
    exact ordinary_of_releasable coherent.formed releasable

theorem step_catalogued (coherent : Coherent r m.configuration) (spares : m.SparesTypes)
    (catalogued : m.world.Catalogued) (step : m.step r = .running n) : n.world.Catalogued := by
  rcases (step_leads coherent.ready step).performs with marks | ⟨q, w, asked, marks, performed⟩
  · exact catalogued.of_marks marks
  by_cases unchanged : n.world = m.world
  · exact unchanged ▸ catalogued
  refine performed.catalogued (catalogued.of_marks marks) (marks.arena_eq ▸ coherent.formed) ?_
  rintro h rfl
  rw [marks.arena_eq]
  rcases step_release_admitted asked step with same | ⟨object, releasable⟩ | ⟨x, below, waits⟩
  · exact absurd same unchanged
  · exact ordinary_of_releasable coherent.formed releasable
  · exact spares x below h waits

theorem Run.catalogued (run : Run r (start options sink program) entries m) :
    m.world.Catalogued ∧ m.SparesTypes := by
  -- The two go together: what keeps a release that waits from taking a type object away is that its
  -- object was an ordinary one when the release was asked for, and ordinary objects stay so.
  induction run with
  | refl =>
      refine ⟨fun id h => ?_, fun x member => absurd member List.not_mem_nil⟩
      simp [start, world, World.initial, Arena.Represents, Arena.get?_empty]
  | @step entries m next other run step recoded ih =>
      have coherent := run.coherent_start
      have suspended := congrArg Configuration.suspended recoded.configuration_eq
      have spares := step_sparesTypes coherent ih.2 step
      rw [recoded.world_eq]
      refine ⟨step_catalogued coherent ih.2 ih.1 step, ?_⟩
      simpa only [SparesTypes, recoded.world_eq,
        show other.suspended = next.suspended from suspended] using spares

def Obtains (r : Registry) (m : Machine α) (id : TypeId) (h : Handle) : Prop :=
  m.request? = some (.typeObject id) ∧ (m.world.typeObject r id).1 = .ok h

theorem step_typeObject (asked : m.request? = some (.typeObject id))
    (step : m.step r = .running n) :
    n.world = (m.world.typeObject r id).2 :=
  world_of_proceed asked rfl (fun _ _ => ⟨_, rfl⟩) step

theorem step_typeObjects_eq (coherent : Coherent r m.configuration)
    (other : ∀ id, m.request? ≠ some (.typeObject id)) (step : m.step r = .running n) :
    n.world.typeObjects = m.world.typeObjects := by
  rcases (step_leads coherent.ready step).performs with marks | ⟨q, w, asked, marks, performed⟩
  · exact marks.typeObjects_eq
  · refine (performed.typeObjects_eq fun id same => other id ?_).trans marks.typeObjects_eq
    rw [asked, same]

theorem step_lookup_iff (coherent : Coherent r m.configuration) (step : m.step r = .running n)
    (id : TypeId) (h : Handle) :
    n.world.typeObjects.lookup id = some h ↔
      m.world.typeObjects.lookup id = some h ∨ m.Obtains r id h := by
  by_cases asks : ∃ a, m.request? = some (.typeObject a)
  · obtain ⟨a, asked⟩ := asks
    have obtains : m.Obtains r id h ↔ a = id ∧ (m.world.typeObject r id).1 = .ok h := by
      simp [Obtains, asked]
    rw [obtains, step_typeObject asked step]
    cases given : m.world.typeObject r a with
    | mk result left =>
        cases result with
        | error f =>
            have refused : ¬ (a = id ∧ (m.world.typeObject r id).1 = .ok h) := by
              rintro ⟨rfl, again⟩
              rw [given] at again
              cases again
            have unchanged := World.atomic_typeObject r m.world a f (by rw [given])
            rw [given] at unchanged
            simp only [show left = m.world from unchanged, refused, or_false]
        | ok k =>
            have answered : (a = id ∧ (m.world.typeObject r id).1 = .ok h) ↔ a = id ∧ k = h := by
              refine and_congr_right ?_
              rintro rfl
              simp [given]
            rw [answered]
            obtain ⟨-, ⟨noted, rfl⟩ | ⟨unnoted, -, -, rfl⟩⟩ := World.typeObject_ok given
            · simp only [iff_self_or]
              rintro ⟨rfl, rfl⟩
              exact noted
            · simp only [List.lookup_cons]
              by_cases same : id = a
              · subst same
                simp [unnoted]
              · have differs : (id == a) = false := by simpa using same
                simp [differs, Ne.symm same]
  · have other : ∀ a, m.request? ≠ some (.typeObject a) := fun a asked => asks ⟨a, asked⟩
    rw [step_typeObjects_eq coherent other step]
    simp [Obtains, other]

theorem Trail.lookup_iff (trail : Trail r (start options sink program) passed m) (id : TypeId)
    (h : Handle) :
    m.world.typeObjects.lookup id = some h ↔ ∃ k ∈ passed, k.Obtains r id h := by
  induction trail with
  | refl => simp [start, world, World.initial]
  | @step passed n next other trail step recoded ih =>
      rw [recoded.world_eq, step_lookup_iff trail.run.coherent_start step, ih, or_comm]
      simp

theorem Run.lookup_kept (coherent : Coherent r m.configuration)
    (noted : m.world.typeObjects.lookup id = some h) (run : Run r m entries n) :
    n.world.typeObjects.lookup id = some h := by
  induction run with
  | refl => exact noted
  | step run step recoded ih =>
      rw [recoded.world_eq, step_lookup_iff (run.coherent coherent) step]
      exact .inl ih

/-- Type objects are unique, pinned and faithful. In every state of a run the objects that stand for
types are those that the environment has noted, and it has noted the answers that requests for type
objects were given: one handle for each type that was asked for with success, and different ones for
different types. From then on the handle denotes the object for its type, each request for it is
answered with it and changes nothing, and its release is refused at once, before any other code
runs. If the type object of a live object can be had, it leads back to the type of that object. -/
theorem run_typeObjects_pinned (built : r.Built)
    (trail : Trail r (start options sink program) passed m) :
    (∀ h id, m.world.arena.Represents h id ↔ m.world.typeObjects.lookup id = some h) ∧
    (∀ id h, m.world.typeObjects.lookup id = some h ↔ ∃ k ∈ passed, k.Obtains r id h) ∧
    (∀ k ∈ passed, ∀ l ∈ passed, ∀ id h other g, k.Obtains r id h → l.Obtains r other g →
      (h = g ↔ id = other)) ∧
    (∀ k ∈ passed, ∀ id h, k.Obtains r id h → ∀ later n, Run r m later n →
      n.world.arena.Represents h id ∧ n.world.Replies r (.typeObject id) (.ok h) ∧
        n.world.Replies r (.release h) (.error .pinnedTypeObject)) ∧
    ∀ x object, m.world.arena.get? x = some object → ∀ h w,
      m.world.typeObject r object.type = (.ok h, w) → ∃ d,
        (Native.typeOf x).Answers r m.world (.value d) m.world ∧
          (Protocol.typeOf x).Answers r m.world (.value h) w ∧
            (Host.reflect h).Answers r w (.value d) w := by
  have run := trail.run
  have coherent := run.coherent_start
  have catalogued := run.catalogued.1
  have noted : ∀ k ∈ passed, ∀ id h, k.Obtains r id h →
      m.world.typeObjects.lookup id = some h := fun k member id h obtained =>
    (trail.lookup_iff id h).mpr ⟨k, member, obtained⟩
  refine ⟨fun h id => (catalogued id h).symm, trail.lookup_iff, ?_, ?_, ?_⟩
  · intro k before l after id h other g first second
    have one := noted k before id h first
    have two := noted l after other g second
    constructor
    · rintro rfl
      exact ((catalogued id h).mp one).unique ((catalogued other h).mp two)
    · rintro rfl
      exact Option.some.inj (one.symm.trans two)
  · intro k member id h obtained later n onward
    have kept := onward.lookup_kept coherent (noted k member id h obtained)
    have reached := run.trans onward
    have represents := (reached.catalogued.1 id h).mp kept
    refine ⟨represents, fun β resume => ?_, World.replies_release_of_represents represents⟩
    obtain ⟨object, live, payload⟩ := represents
    have fits := reached.fits h object live
    rw [payload] at fits
    obtain ⟨-, t, found⟩ := fits
    have given : n.world.typeObject r id = (.ok h, n.world) := by
      simp only [World.typeObject, found, kept]
    simp only [World.serve, given, Action.ofChange]
  · intro x object live h w given
    obtain ⟨⟨t, found⟩, -⟩ := World.typeObject_ok given
    have type := World.typeOf_eq live found
    have named : t.id = object.type := built.tree.id_eq _ t found
    have represents := catalogued.represents_typeObject coherent.formed given
    have reflected : w.reflect r h = .ok t.descriptor := by
      rw [World.reflect_of_represents represents, World.describe, found]
    have typed : (Native.typeOf x).eval r m.world = some (.value t.descriptor, m.world) := by
      rw [Program.eval_typeOf, type, Outcome.ofExcept]
    refine ⟨t.descriptor, Program.answers_of_eval typed, Program.answers_of_eval ?_,
      Program.answers_of_eval ?_⟩
    · change ((Native.typeOf x).bind fun d => Native.typeObject d.id).eval r m.world = _
      rw [Program.eval_bind_value typed, Native.typeObject, Program.eval, World.reply,
        show t.descriptor.id = object.type from named, given]
      rfl
    · simp [Host.reflect, Program.eval, World.reply, reflected, Outcome.ofExcept]

theorem run_typeObjects_pinned_root :
    ∃ (passed : List (Machine Handle)) (m : Machine Handle),
      Trail .initial (start {} .reliable (Native.typeObject .object)) passed m ∧
        m.world.arena.Represents ⟨0, 0⟩ .object ∧
          m.world.Replies .initial (.typeObject .object) (.ok ⟨0, 0⟩) ∧
            m.world.Replies .initial (.release ⟨0, 0⟩) (.error .pinnedTypeObject) := by
  let asking : Machine Handle := start {} .reliable (Native.typeObject .object)
  let noted : World :=
    { (World.initial {} .reliable).withArena
        ((World.initial {} .reliable).arena.place .type (.typeObject .object)) with
      typeObjects := [(.object, ⟨0, 0⟩)] }
  have step : asking.step .initial =
      .running (.outer noted (Program.ofExcept (.ok ⟨0, 0⟩))) := rfl
  have trail := Trail.step .refl step (.refl _)
  have obtains : asking.Obtains .initial .object ⟨0, 0⟩ := ⟨rfl, rfl⟩
  obtain ⟨-, -, -, pinned, -⟩ := run_typeObjects_pinned .initial trail
  have member : asking ∈ [asking] := List.mem_cons_self
  exact ⟨_, _, trail, pinned asking member _ _ obtains _ _ .refl⟩

end Machine
end ManagedObjects

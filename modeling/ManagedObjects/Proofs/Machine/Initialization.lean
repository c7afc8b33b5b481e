import ManagedObjects.Proofs.Machine.Coherence
import ManagedObjects.Proofs.Machine.Dispatch

namespace ManagedObjects

def started (entries : List Entry) : List TypeId := entries.filterMap Entry.initializer?

theorem started_append (later earlier : List Entry) :
    started (later ++ earlier) = started later ++ started earlier :=
  List.filterMap_append

variable {r : Registry}

theorem Shift.progress_none {c d : Configuration} (shift : Shift r c d) (coherent : Coherent r c)
    {id : TypeId} (declared : r.initializer? id ≠ none) :
    d.world.progressOf id = none ↔ c.world.progressOf id = none := by
  have noted : ∀ {w : World} {a : TypeId} {p : Progress},
      (id = a → w.progressOf a ≠ none) →
        ((w.note a p).progressOf id = none ↔ w.progressOf id = none) := by
    intro w a p present
    rw [World.progressOf_note]
    split
    · rename_i same
      subst same
      simp [present rfl]
    · rfl
  cases shift with
  | settle _ undeclared =>
      refine noted fun same => ?_
      subst same
      exact absurd undeclared declared
  | finish =>
      refine noted fun _ => ?_
      rw [(coherent.running _).mpr List.mem_cons_self]
      simp
  | fail =>
      refine noted fun _ => ?_
      rw [(coherent.running _).mpr List.mem_cons_self]
      simp
  | leave => rfl

theorem shifts_progress_none {c d : Configuration} (coherent : Coherent r c)
    (shifts : Relation.ReflTransGen (Shift r) c d) {id : TypeId}
    (declared : r.initializer? id ≠ none) :
    d.world.progressOf id = none ↔ c.world.progressOf id = none := by
  induction shifts with
  | refl => rfl
  | tail earlier last ih => exact (last.progress_none (coherent.shifts earlier) declared).trans ih

theorem Leads.progress_none {request : Option Request} {c d : Configuration}
    {entry : Option Entry} (leads : Leads r request c entry d) (coherent : Coherent r c)
    {id : TypeId} (declared : r.initializer? id ≠ none) :
    d.world.progressOf id = none ↔
      c.world.progressOf id = none ∧ id ∉ started entry.toList := by
  cases leads with
  | idle shifts => simpa [started] using shifts_progress_none coherent shifts declared
  | perform shifts _ performed =>
      rw [performed.progressOf_eq]
      simpa [started] using shifts_progress_none coherent shifts declared
  | @enter w w' s x shifts entered =>
      rw [← shifts_progress_none coherent shifts declared]
      cases entered with
      | method => simp [started, Suspended.entry, Entry.initializer?]
      | @initializer a type before rest request hook fresh _ _ _ _ =>
          rw [World.progressOf_note]
          by_cases same : id = a
          · simp [same, started, Suspended.entry, Entry.initializer?]
          · simp [same, started, Suspended.entry, Entry.initializer?]

theorem Leads.started_in_turn {request : Option Request} {c d : Configuration} {id : TypeId}
    (tree : r.Tree) (leads : Leads r request c (some (.initializer id)) d)
    (coherent : Coherent r c) :
    r.initializer? id ≠ none ∧ c.world.progressOf id = none ∧
      ∀ a ∈ r.chain id, a ≠ id → d.world.progressOf a = some .done ∨
        d.world.progressOf a = some .running ∧ a ∈ initializers d.suspended := by
  generalize same : some (Entry.initializer id) = entry at leads
  cases leads with
  | idle _ => cases same
  | perform _ _ _ => cases same
  | @enter w w' s x shifts entered =>
      cases entered with
      | method => cases same
      | @initializer _ type before rest request hook fresh declared path begun _ =>
          cases same
          have isDeclared : r.initializer? id ≠ none := by simp [declared]
          refine ⟨isDeclared, (shifts_progress_none coherent shifts isDeclared).mp fresh, ?_⟩
          intro a member other
          have above : a ∈ before := by
            rw [tree.chain_upto path] at member
            simpa [other] using member
          rw [World.progressOf_note_ne _ _ other]
          refine (begun a above).imp_right fun running => ⟨running, ?_⟩
          exact List.mem_cons_of_mem _ (((coherent.shifts shifts).running a).mp running)

def InstancesInitialized (r : Registry) (w : World) : Prop :=
  ∀ h object, w.arena.get? h = some object → object.type.isSealed = false →
    ∀ a ∈ r.chain object.type, w.progressOf a ≠ none

theorem World.progressOf_note_kept {w : World} {a : TypeId} (present : w.progressOf a ≠ none)
    (id : TypeId) (p : Progress) : (w.note id p).progressOf a ≠ none := by
  rw [progressOf_note]
  split
  · simp
  · exact present

theorem World.Begun.progress_ne_none {w : World} {a : TypeId} (begun : w.Begun a) :
    w.progressOf a ≠ none := by
  rcases begun with progress | progress <;> simp [progress]

theorem InstancesInitialized.note {w : World} (initialized : InstancesInitialized r w)
    (id : TypeId) (p : Progress) : InstancesInitialized r (w.note id p) :=
  fun h object live unsealed a member =>
    World.progressOf_note_kept (initialized h object live unsealed a member) id p

theorem InstancesInitialized.perform {w w' : World} {request : Request}
    (initialized : InstancesInitialized r w) (formed : w.arena.WellFormed)
    (performed : w.Performs r request w') : InstancesInitialized r w' := by
  have kept := performed.alters.forall_live (P := fun type _ =>
    type.isSealed = false → ∀ a ∈ r.chain type, w.progressOf a ≠ none) formed ?_ ?_ initialized
  · intro h object live unsealed a member
    rw [performed.progressOf_eq]
    exact kept h object live unsealed a member
  · intro type payload made unsealed a member
    cases made with
    | typeObject _ => cases unsealed
    | string => cases unsealed
    | list _ => cases unsealed
    | blank _ begun => exact (begun a member).progress_ne_none
    | filled _ begun _ => exact (begun a member).progress_ne_none
  · exact fun type values index value before => before

theorem InstancesInitialized.undeclared {w : World} (initialized : InstancesInitialized r w)
    (tree : r.Tree) {h : Handle} {object : Object} (live : w.arena.get? h = some object)
    {a : TypeId} (member : a ∈ r.chain object.type) (fresh : w.progressOf a = none) :
    r.initializer? a = none := by
  cases isSealed : object.type.isSealed with
  | true => exact tree.initializer?_sealed isSealed member
  | false => exact absurd fresh (initialized h object live isSealed a member)

theorem InstancesInitialized.entered?_beginCall {α : Type} {w : World}
    (initialized : InstancesInitialized r w) (tree : r.Tree) (name : String) (argv : List Slot)
    (result : Return α) (id : TypeId) :
    (Goal.beginCall r w name argv result).entered? ≠ some (.initializer id) := by
  have called := Goal.called (r := r) w name argv result
  generalize Goal.beginCall r w name argv result = action at called ⊢
  cases called with
  | @refused w' f marks =>
      obtain ⟨_, _, delivered⟩ := result.deliver_eq_proceed w' (.error f)
      simp [delivered, Action.entered?]
  | entered => simp [Action.entered?, Frame.entry]
  | started _ live member fresh declared =>
      rw [initialized.undeclared tree live member fresh] at declared
      cases declared

namespace Machine

variable {α : Type} {options : Options} {sink : Sink} {program : Program α} {entries : List Entry}
  {m : Machine α}

theorem Run.instancesInitialized (run : Run r (start options sink program) entries m) :
    InstancesInitialized r m.world := by
  refine (run.keeps (P := fun c => InstancesInitialized r c.world) ?_ ?_ ?_
    (coherent_initial options sink) ?_).2
  · intro c d _ initialized shift
    cases shift with
    | settle => exact initialized.note _ _
    | finish => exact initialized.note _ _
    | fail => exact initialized.note _ _
    | leave => exact initialized
  · intro w w' s x _ initialized entered
    cases entered with
    | method => exact initialized
    | initializer => exact initialized.note _ _
  · exact fun coherent initialized performed => initialized.perform coherent.formed performed
  · intro h object live
    simp [start, configuration, world, World.initial, Arena.get?_empty] at live

theorem Run.started_once (tree : r.Tree) (run : Run r (start options sink program) entries m) :
    (started entries).Nodup ∧ ∀ id, r.initializer? id ≠ none →
      (m.world.progressOf id = none ↔ id ∉ started entries) := by
  induction run with
  | refl =>
      refine ⟨List.nodup_nil, fun id _ => ?_⟩
      simp [start, world, World.progressOf, World.initial, started]
  | @step entries m next other run step recoded ih =>
      obtain ⟨distinct, noted⟩ := ih
      have coherent := run.coherent_start
      have leads := step_leads coherent.ready step
      rw [recoded.world_eq, started_append]
      constructor
      · cases entry : m.entered? r with
        | none => exact distinct
        | some entered =>
            cases entered with
            | method call => exact distinct
            | initializer id =>
                rw [entry] at leads
                obtain ⟨declared, fresh, -⟩ := leads.started_in_turn tree coherent
                exact List.nodup_cons.mpr ⟨(noted id declared).mp fresh, distinct⟩
      · intro id declared
        have progress := leads.progress_none coherent declared
        rw [List.mem_append, not_or, and_comm, ← noted id declared]
        exact progress

/-- Static initializers run at most once, root first and before there is an instance. No
declared initializer is set going twice. When one is set going, each type above it has been
initialized or is being initialized further down in the call stack. All types above a live instance
have started their initialization, so that no call has to start one; and when no initializer is on
the call stack, no type is marked as running. -/
theorem run_initializes_root_first (built : r.Built)
    (run : Run r (start options sink program) entries m) :
    (started entries).Nodup ∧
    (∀ id, r.initializer? id ≠ none → (id ∈ started entries ↔ m.world.progressOf id ≠ none)) ∧
    (∀ next id, m.step r = .running next → m.entered? r = some (.initializer id) →
      ∀ a ∈ r.chain id, a ≠ id → next.world.progressOf a = some .done ∨
        next.world.progressOf a = some .running ∧ a ∈ next.initializing) ∧
    (∀ h object, m.world.arena.get? h = some object → object.type.isSealed = false →
      ∀ a ∈ r.chain object.type, m.world.progressOf a ≠ none) ∧
    (∀ (β : Type) (name : String) (argv : List Slot) (result : Return β) (id : TypeId),
      (Goal.beginCall r m.world name argv result).entered? ≠ some (.initializer id)) ∧
    (m.initializing = [] → ∀ id, m.world.progressOf id ≠ some .running) := by
  have coherent := run.coherent_start
  have initialized := run.instancesInitialized
  obtain ⟨distinct, noted⟩ := run.started_once built.tree
  refine ⟨distinct, fun id declared => ?_, ?_, initialized, ?_, ?_⟩
  · rw [Ne, noted id declared, Decidable.not_not]
  · intro next id step entry
    have leads := step_leads coherent.ready step
    rw [entry] at leads
    exact (leads.started_in_turn built.tree coherent).2.2
  · exact fun β name argv result id =>
      initialized.entered?_beginCall built.tree name argv result id
  · intro idle id running
    have listed := (coherent.running id).mp running
    change id ∈ m.initializing at listed
    simp [idle] at listed

theorem run_initializes_root_first_instantiate :
    ∃ (r : Registry) (entries : List Entry) (m : Machine Handle),
      r.Built ∧ Run r (start {} .reliable (Host.instantiate 4)) entries m ∧
        4 ∈ started entries ∧ (started entries).Nodup ∧ m.world.progressOf 4 ≠ none := by
  let hooked : TypeDeclaration := { name := "Hooked", staticInit := some fun _ => pure () }
  let root := Registry.builtin .object "Obj" none MethodTable.empty.install
  let r : Registry := Registry.initial.add (Registry.declared 4 root hooked)
  let w := ((World.initial {} .reliable).note 0 .done).note 4 .running
  let frame : Frame Handle := .staticInit 4 [] (.construct 4 none .ofExcept)
  have registered : Registry.initial.register hooked = (.ok 4, r) := rfl
  have built : r.Built := .register .initial registered
  have chain : r.chain 4 = [0, 4] := by decide +kernel
  have type : World.instanceType r 4 = .ok (Registry.declared 4 root hooked) := rfl
  have served : (World.initial {} .reliable).serve r (.instantiate 4) .ofExcept =
      .enter w (pure .null) frame := by
    simp only [World.serve, type, chain]
    rfl
  have step : (start {} .reliable (Host.instantiate 4)).step r =
      .running (.inner w (pure .null) [] frame) := congrArg Action.atBase served
  have entry : (start {} .reliable (Host.instantiate 4)).entered? r = some (.initializer 4) :=
    congrArg Action.entered? served
  have run := Run.step .refl step (.refl _)
  rw [entry] at run
  obtain ⟨distinct, noted, -⟩ := run_initializes_root_first built run
  have declared : r.initializer? 4 ≠ none := Option.some_ne_none _
  exact ⟨r, _, _, built, run, List.mem_cons_self, distinct,
    (noted 4 declared).mp List.mem_cons_self⟩

end Machine
end ManagedObjects

import ManagedObjects.Proofs.Machine.Initialization
import ManagedObjects.Proofs.Machine.Site

namespace ManagedObjects

variable {r : Registry}

def Attempted (r : Registry) (w : World) : Prop :=
  ∀ id p, w.progressOf id = some p → p ≠ .done →
    r.initializer? id ≠ none ∧ ∀ a ∈ r.chain id, w.progressOf a ≠ none

theorem Attempted.note {w : World} (attempted : Attempted r w) {id : TypeId} {p : Progress}
    (marked : p ≠ .done → r.initializer? id ≠ none ∧
      ∀ a ∈ r.chain id, (w.note id p).progressOf a ≠ none) : Attempted r (w.note id p) := by
  intro a q noted unfinished
  by_cases same : a = id
  · subst same
    rw [World.progressOf_note_self] at noted
    cases noted
    exact marked unfinished
  · rw [World.progressOf_note_ne _ _ same] at noted
    obtain ⟨declared, above⟩ := attempted a q noted unfinished
    exact ⟨declared, fun b member => World.progressOf_note_kept (above b member) id p⟩

theorem Attempted.enter {w w' : World} {x : Suspended} (attempted : Attempted r w) (tree : r.Tree)
    (entered : Enters r w x w') : Attempted r w' := by
  cases entered with
  | method => exact attempted
  | @initializer id type before rest request hook fresh declared path begun _ =>
      refine attempted.note fun _ => ⟨by simp [declared], fun a member => ?_⟩
      rw [tree.chain_upto path, List.mem_append, List.mem_singleton] at member
      rcases member with above | rfl
      · exact World.progressOf_note_kept (begun a above).progress_ne_none id .running
      · simp [World.progressOf_note_self]

theorem Attempted.shift {c d : Configuration} (attempted : Attempted r c.world)
    (coherent : Coherent r c) (shift : Shift r c d) : Attempted r d.world := by
  cases shift with
  | settle => exact attempted.note fun unfinished => absurd rfl unfinished
  | finish => exact attempted.note fun unfinished => absurd rfl unfinished
  | @fail w s id type pending request f =>
      -- Up to now the type was marked as running, which tells the same of it.
      have running : w.progressOf id = some .running :=
        (coherent.running id).mpr List.mem_cons_self
      obtain ⟨declared, above⟩ := attempted id .running running (by simp)
      exact attempted.note fun _ =>
        ⟨declared, fun a member => World.progressOf_note_kept (above a member) id _⟩
  | leave => exact attempted

/-- Going down from the root, the first type on the chain that is not initialized has failed. -/
def World.Barred (r : Registry) (w : World) (type : TypeId) (f : Fault) : Prop :=
  ∃ before id rest, r.chain type = before ++ id :: rest ∧
    (∀ a ∈ before, w.progressOf a = some .done) ∧ w.progressOf id = some (.failed f)

theorem Goal.prepare_of_failed {α : Type} (goal : Goal α) {w : World} {before rest : List TypeId}
    {id : TypeId} {f : Fault} (done : ∀ a ∈ before, w.progressOf a = some .done)
    (failed : w.progressOf id = some (.failed f)) :
    goal.prepare r w (before ++ id :: rest) = goal.refuse w f := by
  induction before with
  | nil => simp [prepare, failed]
  | cons a before ih =>
      obtain ⟨first, others⟩ := List.forall_mem_cons.mp done
      simp only [List.cons_append, prepare, first]
      exact ih others

namespace World.Barred

variable {α : Type} {w : World} {type : TypeId} {f : Fault}

theorem prepare_eq (barred : w.Barred r type f) (goal : Goal α) :
    goal.prepare r w (r.chain type) = goal.refuse w f := by
  obtain ⟨before, id, rest, path, done, failed⟩ := barred
  rw [path, goal.prepare_of_failed done failed]

theorem replies_instantiate (barred : w.Barred r type f) {t : ObjectType}
    (admitted : instanceType r type = .ok t) : w.Replies r (.instantiate type) (.error f) := by
  intro β resume
  simp only [serve, admitted]
  exact barred.prepare_eq (.construct type none resume)

theorem replies_instantiateWith (barred : w.Barred r type f) {values : List Slot} {t : ObjectType}
    (admitted : filledType r type values = .ok t) :
    w.Replies r (.instantiateWith type values) (.error f) := by
  intro β resume
  simp only [serve, admitted]
  exact barred.prepare_eq (.construct type (some values) resume)

theorem beginCall_eq {h : Handle} {object : Object} (barred : w.Barred r object.type f)
    (live : w.arena.get? h = some object) (name : String) (args : List Slot) (result : Return α) :
    Goal.beginCall r w name (.handle h :: args) result = result.deliver w (.error f) := by
  simp only [Goal.beginCall, Slot.expectHandle, Arena.get_eq_ok_iff.mpr live]
  exact barred.prepare_eq (.dispatch object.type name (.handle h :: args) result)

end World.Barred

namespace Machine

variable {α : Type} {options : Options} {sink : Sink} {program : Program α}
  {entries earlier later : List Entry} {m n : Machine α}

theorem Run.attempted (tree : r.Tree) (run : Run r (start options sink program) entries m) :
    Attempted r m.world := by
  refine (run.keeps (P := fun c => Attempted r c.world) ?_ ?_ ?_
    (coherent_initial options sink) ?_).2
  · exact fun coherent attempted shift => attempted.shift coherent shift
  · exact fun _ attempted entered => attempted.enter tree entered
  · intro w w' s q _ attempted performed
    simpa only [Attempted, performed.progressOf_eq] using attempted
  · intro id p noted
    simp [start, configuration, world, World.progressOf, World.initial] at noted

theorem Run.progress_final (coherent : Coherent r m.configuration) {id : TypeId} {p : Progress}
    (ended : p ≠ .running) (progress : m.world.progressOf id = some p) (run : Run r m entries n) :
    n.world.progressOf id = some p := by
  have kept : ∀ {w : World} {a : TypeId} {q : Progress}, w.progressOf a ≠ some p →
      w.progressOf id = some p → (w.note a q).progressOf id = some p := by
    intro w a q other here
    have differs : id ≠ a := by
      rintro rfl
      exact other here
    rwa [World.progressOf_note_ne _ _ differs]
  refine (run.keeps (P := fun c => c.world.progressOf id = some p) ?_ ?_ ?_ coherent progress).2
  · intro c d coherent here shift
    cases shift with
    | settle fresh _ => exact kept (by simp [fresh]) here
    | finish => exact kept (by simp [(coherent.running _).mpr List.mem_cons_self, ended.symm]) here
    | fail => exact kept (by simp [(coherent.running _).mpr List.mem_cons_self, ended.symm]) here
    | leave => exact here
  · intro w w' s x _ here entered
    cases entered with
    | method => exact here
    | initializer fresh _ _ _ _ => exact kept (by simp [fresh]) here
  · intro w w' s q _ here performed
    rwa [performed.progressOf_eq]

theorem Run.barred (coherent : Coherent r m.configuration) {type : TypeId} {f : Fault}
    (barred : m.world.Barred r type f) (run : Run r m entries n) : n.world.Barred r type f := by
  obtain ⟨before, id, rest, path, done, failed⟩ := barred
  refine ⟨before, id, rest, path, fun a member => ?_, ?_⟩
  · exact run.progress_final coherent (by simp) (done a member)
  · exact run.progress_final coherent (by simp) failed

theorem Run.barred_of_failed (tree : r.Tree) (run : Run r (start options sink program) entries m)
    (idle : m.initializing = []) {type id : TypeId} {f : Fault} {before rest : List TypeId}
    (path : r.chain type = before ++ id :: rest)
    (failed : m.world.progressOf id = some (.failed f))
    (first : ∀ a ∈ before, ∀ g, m.world.progressOf a ≠ some (.failed g)) :
    m.world.Barred r type f := by
  refine ⟨before, id, rest, path, fun a member => ?_, failed⟩
  have above : a ∈ r.chain id := by
    rw [tree.chain_upto path]
    exact List.mem_append_left _ member
  have marked := (run.attempted tree id _ failed (by simp)).2 a above
  cases progress : m.world.progressOf a with
  | none => exact absurd progress marked
  | some p =>
      cases p with
      | done => rfl
      | failed g => exact absurd progress (first a member g)
      | running =>
          have listed : a ∈ m.initializing := (run.coherent_start.running a).mp progress
          simp [idle] at listed

/-- A failed initializer bars its type and all types below it. In a state in which no initializer is
on the call stack, let `id` be the first type on the chain of `type` that has failed. From then on,
in every state of the run and for all code that asks, at any depth of the call stack, the
instantiation of `type` and every call on a live object of it are answered at once with the fault
of that failure: nothing is entered and the state stays as it is. -/
theorem run_failure_sticks (built : r.Built)
    (run : Run r (start options sink program) earlier m) (idle : m.initializing = [])
    {type id : TypeId} {f : Fault} {before rest : List TypeId}
    (path : r.chain type = before ++ id :: rest)
    (failed : m.world.progressOf id = some (.failed f))
    (first : ∀ a ∈ before, ∀ g, m.world.progressOf a ≠ some (.failed g))
    (onward : Run r m later n) :
    n.world.Replies r (.instantiate type) (.error f) ∧
    (∀ t values, r.get? type = some t → values.length = t.fieldCount.toNat →
      n.world.Replies r (.instantiateWith type values) (.error f)) ∧
    ∀ h object, n.world.arena.get? h = some object → object.type = type → ∀ name args,
      n.world.Replies r (.call name (.handle h :: args)) (.error f) ∧
      ∀ (β : Type) (result : Return β), Goal.beginCall r n.world name (.handle h :: args) result =
        result.deliver n.world (.error f) := by
  have barred := onward.barred run.coherent_start
    (run.barred_of_failed built.tree idle path failed first)
  -- A type with a failed initializer above it is not one of the built-in types.
  have unsealed : type.isSealed = false := by
    have member : id ∈ r.chain type := by simp [path]
    have declared := (run.attempted built.tree id _ failed (by simp)).1
    cases isSealed : type.isSealed with
    | false => rfl
    | true => exact absurd (built.tree.initializer?_sealed isSealed member) declared
  refine ⟨?_, ?_, ?_⟩
  · cases found : r.get? type with
    | none => simp [Registry.chain_of_unknown found] at path
    | some t =>
        have admitted : World.instanceType r type = .ok t := by
          simp [World.instanceType, found, unsealed]
        exact barred.replies_instantiate admitted
  · intro t values found count
    have admitted : World.filledType r type values = .ok t := by
      simp [World.filledType, World.instanceType, found, unsealed, count, bind, Except.bind]
    exact barred.replies_instantiateWith admitted
  · rintro h object live rfl name args
    exact ⟨fun β resume => barred.beginCall_eq live name args (.answer resume),
      fun β result => barred.beginCall_eq live name args result⟩

/-- While the initializer of a type runs, an instance of a type below it is made, whose own
initialization is completed. Then the initializer fails, and the instance cannot be called. -/
theorem run_failure_sticks_below :
    ∃ (r : Registry) (entries : List Entry) (m : Machine Handle) (f : Fault),
      Run r (start {} .reliable (Host.instantiate 4)) entries m ∧
        m.world.progressOf 4 = some (.failed f) ∧ m.world.progressOf 5 = some .done ∧
        m.world.Replies r (.instantiate 5) (.error f) ∧
        m.world.Replies r (.call "hash" [.handle ⟨0, 0⟩]) (.error f) := by
  let f : Fault := .general "refused"
  let above : TypeDeclaration := { name := "Above", staticInit := some fun _ => .fail f }
  let below : TypeDeclaration := { name := "Below", parent := 4 }
  let root := Registry.builtin .object "Obj" none MethodTable.empty.install
  let one : Registry := Registry.initial.add (Registry.declared 4 root above)
  let parent := Registry.declared 4 root above
  let r : Registry := one.add (Registry.declared 5 parent below)
  have registered : Registry.initial.register above = (.ok 4, one) := rfl
  have registeredBelow : one.register below = (.ok 5, r) := rfl
  have built : r.Built := .register (.register .initial registered) registeredBelow
  have chain : r.chain 4 = [0, 4] := by decide +kernel
  have chainBelow : r.chain 5 = [0] ++ 4 :: [5] := by decide +kernel
  let starting := ((World.initial {} .reliable).note 0 .done).note 4 .running
  let settled := starting.note 5 .done
  let made := settled.withArena (settled.arena.place 5 (.fields []))
  let w := made.note 4 (.failed f)
  let frame : Frame Handle := .staticInit 4 [] (.construct 4 none .ofExcept)
  let making : Machine Handle := .inner starting (.ask (.instantiate 5) fun _ => .fail f) [] frame
  have enters : (start {} .reliable (Host.instantiate 4)).step r =
      .running (.inner starting (.fail f) [] frame) := by
    have served : (World.initial {} .reliable).serve r (.instantiate 4) .ofExcept =
        .enter starting (.fail f) frame := by
      change Goal.prepare r _ _ (r.chain 4) = _
      rw [chain]
      rfl
    exact congrArg Action.atBase served
  have makes : making.step r = .running (.inner made (.fail f) [] frame) := by
    have served : starting.serve r (.instantiate 5) (fun _ => Program.fail f) =
        .proceed made (.fail f : Program Slot) := by
      change Goal.prepare r _ _ (r.chain 5) = _
      rw [chainBelow]
      rfl
    exact congrArg (Action.within [] frame) served
  have fails : (Machine.inner made (.fail f) [] frame).step r = .running (.outer w (.fail f)) := rfl
  have entered : Run r (start {} .reliable (Host.instantiate 4)) _ making :=
    .step .refl enters (.inner starting _ _ [] frame)
  have run := (entered.step makes (.refl _)).step fails (.refl _)
  have failed : w.progressOf 4 = some (.failed f) := rfl
  have first : ∀ a ∈ [0], ∀ g, w.progressOf a ≠ some (.failed g) := by
    intro a member g
    cases List.mem_singleton.mp member
    exact nofun
  have live : w.arena.get? ⟨0, 0⟩ = some ⟨1, 5, false, .fields []⟩ := rfl
  obtain ⟨instantiate, -, calls⟩ :=
    run_failure_sticks built run rfl chainBelow failed first .refl
  exact ⟨r, _, _, f, run, failed, rfl, instantiate, (calls _ _ live rfl "hash" []).1⟩

end Machine
end ManagedObjects

import ManagedObjects.Proofs.Machine.Calls
import ManagedObjects.Proofs.Machine.Settling
import ManagedObjects.Proofs.Machine.TypeObjects

namespace ManagedObjects

open Relation

variable {r : Registry} {w w' : World}

namespace Program

variable {β : Type} {p : Program β}

/-- Wherever the code runs in the state, it ends, with no other code set going meanwhile, and where
it ends with a fault the state is the one that it began with. -/
def Traceless (r : Registry) (w : World) (p : Program β) : Prop :=
  ∃ result w', p.Answers r w (.ofExcept result) w' ∧ ∀ f, result = .error f → w' = w

def Refused (r : Registry) (w : World) (p : Program β) : Prop :=
  ∃ f, p.Answers r w (.fault f) w

/-- Wherever the code runs in the state, it fails or comes to start the body of a method. Up to then
no other code is set going, and the states differ in nothing but the progress of initializers. -/
def FailsOrBegins (r : Registry) (w : World) (p : Program Slot) : Prop :=
  ∀ (α β : Type) (site : Site α β) (next : Outcome Slot → Program β),
    (∃ f u, w.Marks u ∧ ReflTransGen (Machine.Prompt r) (site.plug w (p.into next))
      (site.plug u (next (.fault f)))) ∨
    ∃ m n call, ReflTransGen (Machine.Prompt r) (site.plug w (p.into next)) m ∧
      m.step r = .running n ∧ m.entered? r = some (.method call) ∧ Machine.Begins call w n

theorem Refused.traceless (refused : p.Refused r w) : p.Traceless r w := by
  obtain ⟨f, answers⟩ := refused
  exact ⟨.error f, w, answers, fun _ _ => rfl⟩

theorem traceless_read {result : Except Fault β}
    (evaluates : p.eval r w = some (.ofExcept result, w)) : p.Traceless r w :=
  ⟨result, w, answers_of_eval evaluates, fun _ _ => rfl⟩

theorem traceless_change {change : Except Fault β × World} (atomic : Atomic w change)
    (evaluates : p.eval r w = some (.ofExcept change.1, change.2)) : p.Traceless r w :=
  ⟨_, _, answers_of_eval evaluates, atomic⟩

theorem answers_of_serve {request : Request} {answer : request.Answer}
    {resume : request.Answer → Program β} {outcome : Outcome β}
    (served : ∀ (γ : Type) (resume : request.Answer → Program γ),
      w.serve r request resume = .proceed w' (resume answer))
    (ends : resume answer = finish outcome) : (ask request resume).Answers r w outcome w' := by
  intro α γ site next
  have action := served γ fun answer => (resume answer).into next
  rw [ends] at action
  refine .single ⟨?_, ?_⟩
  · rw [into, site.step_ask, action]
    exact site.carry_proceed _
  · rw [into, site.entered?_ask, action]
    rfl

end Program

/-- The operations of an environment for which no other code has to run, the output apart. -/
inductive Operation : {β : Type} → Program β → Prop
  | validate (h : Handle) : Operation (Native.validate h)
  | objectId (h : Handle) : Operation (Native.objectId h)
  | typeOf (h : Handle) : Operation (Native.typeOf h)
  | typeObject (id : TypeId) : Operation (Native.typeObject id)
  | createString (text : String) : Operation (Native.createString text)
  | readString (value : Slot) : Operation (Native.readString value)
  | createList (items : List Slot) : Operation (Native.createList items)
  | readList (value : Slot) : Operation (Native.readList value)
  | getField (h : Handle) (index : Nat) : Operation (Native.getField h index)
  | setField (h : Handle) (index : Nat) (value : Slot) : Operation (Native.setField h index value)
  | isFrozen (h : Handle) : Operation (Native.isFrozen h)
  | freeze (h : Handle) : Operation (Native.freeze h)
  | reflect (h : Handle) : Operation (Host.reflect h)

theorem Operation.traceless {β : Type} {p : Program β} (operation : Operation p) :
    p.Traceless r w := by
  cases operation with
  | typeObject id =>
      exact Program.traceless_change (w.atomic_typeObject r id) (Program.eval_ofExcept _ _)
  | createString text =>
      exact Program.traceless_change (w.atomic_allocate _ _) (Program.eval_ofExcept _ _)
  | createList items =>
      exact Program.traceless_change (w.atomic_createList items) (Program.eval_ofExcept _ _)
  | setField h index value =>
      exact Program.traceless_change (w.atomic_setField h index value) (Program.eval_ofExcept _ _)
  | freeze h => exact Program.traceless_change (w.atomic_freeze h) (Program.eval_ofExcept _ _)
  | _ => exact Program.traceless_read (Program.eval_ofExcept _ _)

theorem answers_release_of_dead {h : Handle} (dead : w.arena.get? h = none) :
    (Host.release h).Answers r w (.fault (.invalidHandle h)) w := by
  have replies : w.Replies r (.release h) (.error (.invalidHandle h)) := by
    intro β resume
    simp only [World.serve, World.releasable, Arena.get_eq_error dead, bind, Except.bind]
  exact Program.answers_of_serve replies rfl

theorem refused_instantiate {id : TypeId} {f : Fault}
    (refused : World.instanceType r id = .error f) : (Host.instantiate id).Refused r w := by
  have replies : w.Replies r (.instantiate id) (.error f) := by
    intro β resume
    simp only [World.serve, refused]
  exact ⟨f, Program.answers_of_serve replies rfl⟩

theorem refused_instantiateWith {id : TypeId} {values : List Slot} {f : Fault}
    (refused : World.filledType r id values = .error f) :
    (Host.instantiateWith id values).Refused r w := by
  have replies : w.Replies r (.instantiateWith id values) (.error f) := by
    intro β resume
    simp only [World.serve, refused]
  exact ⟨f, Program.answers_of_serve replies rfl⟩

theorem instanceType_error {id : TypeId} (barred : r.get? id = none ∨ id.isSealed = true) :
    ∃ f, World.instanceType r id = .error f := by
  unfold World.instanceType
  cases found : r.get? id with
  | none => exact ⟨_, rfl⟩
  | some t =>
      rw [found] at barred
      simp [barred.resolve_left (by simp)]

theorem filledType_error {id : TypeId} (values : List Slot)
    (barred : (r.get? id = none ∨ id.isSealed = true) ∨
      ∃ t, r.get? id = some t ∧ values.length ≠ t.fieldCount.toNat) :
    ∃ f, World.filledType r id values = .error f := by
  cases filled : World.filledType r id values with
  | error f => exact ⟨f, rfl⟩
  | ok t =>
      obtain ⟨admitted, count⟩ := World.filledType_ok filled
      obtain ⟨found, -⟩ := World.instanceType_ok admitted
      rcases barred with barred | ⟨other, known, differs⟩
      · obtain ⟨f, refused⟩ := instanceType_error barred
        rw [admitted] at refused
        cases refused
      · cases known.symm.trans found
        exact absurd count differs

section Done
variable {id : TypeId} (done : ∀ a ∈ r.chain id, w.progressOf a = some .done)
include done

theorem prepare_of_done {α : Type} (goal : Goal α) :
    goal.prepare r w (r.chain id) = goal.reach r w := by
  have ready : w.Unfailed r (r.chain id) := by
    refine ⟨fun a member f => ?_, fun a member fresh => ?_⟩
    · simp [done a member]
    · simp [done a member] at fresh
  have settled : w.settle (r.chain id) = w :=
    World.settle_of_begun fun a member => by simp [done a member]
  rw [Goal.prepare_eq_reach ready, settled]

theorem traceless_instantiateWith (values : List Slot) :
    (Host.instantiateWith id values).Traceless r w := by
  cases filled : World.filledType r id values with
  | error f => exact (refused_instantiateWith filled).traceless
  | ok t =>
      refine ⟨_, _, ?_, w.atomic_construct id values⟩
      apply Program.answers_of_serve _ (Program.ofExcept_eq_finish _)
      intro γ resume
      simp only [World.serve, filled, prepare_of_done done]
      rfl

theorem traceless_instantiate :
    (Host.instantiate id).Traceless r w ∨ ∀ (α β : Type) (site : Site α β)
      (next : Outcome Handle → Program β),
        (site.plug w ((Host.instantiate id).into next)).step r = .aborted := by
  cases admitted : World.instanceType r id with
  | error f => exact .inl (refused_instantiate admitted).traceless
  | ok t =>
      obtain ⟨found, -⟩ := World.instanceType_ok admitted
      -- Fields that fit into no memory are not a fault: nothing runs after that.
      by_cases huge : World.maxFields < t.fieldCount.toNat
      · right
        intro α β site next
        rw [Host.instantiate, Program.into, site.step_ask]
        simp only [World.serve, admitted, prepare_of_done done, Goal.reach, found, Option.map_some,
          huge, if_true]
        cases site <;> rfl
      · left
        let fields : Payload := .fields (List.replicate t.fieldCount.toNat .null)
        refine ⟨_, _, ?_, w.atomic_allocate id fields⟩
        apply Program.answers_of_serve _ (Program.ofExcept_eq_finish _)
        intro γ resume
        simp only [World.serve, admitted, prepare_of_done done, Goal.reach, found, Option.map_some,
          huge, if_false]
        rfl

end Done

theorem failsOrBegins_call (tree : r.Tree) (initialized : InstancesInitialized r w) (name : String)
    (argv : List Slot) : (Native.call name argv).FailsOrBegins r w := by
  intro α β site next
  obtain ⟨n, step, call⟩ := Machine.step_call tree initialized site next name argv
  generalize entered : Machine.entered? r _ = entry at call
  cases call with
  | refused marks => exact .inl ⟨_, _, marks, .single ⟨step, entered⟩⟩
  | entered marks =>
      refine .inr ⟨_, _, _, .refl, step, entered, ?_, ?_⟩
      · simpa using marks
      · cases site <;> exact ⟨_, _, by simp; rfl⟩

theorem Trap.Forwards.failsOrBegins {this : Handle} {given : Except Fault (String × List Slot)}
    {p : Program Slot} (forwards : Trap.Forwards r w this given p) (tree : r.Tree)
    (initialized : InstancesInitialized r w) : p.FailsOrBegins r w := by
  intro α β site next
  obtain ⟨rest, observed, ends⟩ := forwards
  have prompts := Machine.prompts_of_quiet (Machine.quiet_plug_into site next observed)
  rcases ends with ⟨f, rfl⟩ | ⟨name, args, -, rfl, -⟩
  · exact .inl ⟨f, w, .refl w, prompts⟩
  · rcases failsOrBegins_call tree initialized name (.handle this :: args) α β site next with
      ⟨f, u, marks, onward⟩ | ⟨m, n, call, onward, begins⟩
    · exact .inl ⟨f, u, marks, prompts.trans onward⟩
    · exact .inr ⟨m, n, call, prompts.trans onward, begins⟩

namespace Machine

variable {α : Type} {options : Options} {sink : Sink} {program : Program α} {entries : List Entry}
  {m : Machine α}

/-- Failed operations leave no trace, in whatever state a run has come to and wherever they are
asked for. An operation for which no other code has to run ends, and if it ends with a fault the
state is as it was. A release of a dead handle or of a type object is refused, and so is an instance
of a type that is unknown or has none, or with another number of fields than its type has; nothing
has changed then. Where all types on the chain are initialized, making an instance does not change
anything either if it fails, unless the fields fit into no memory and all ends. A call, by its name
or through the dispatcher, fails or comes to start the body of a method, and up to then nothing has
changed but the progress of initializers. -/
theorem run_refusals_leave_no_trace (built : r.Built)
    (run : Run r (start options sink program) entries m) :
    (∀ (β : Type) (p : Program β), Operation p → p.Traceless r m.world) ∧
    (∀ h, m.world.arena.get? h = none →
      (Host.release h).Answers r m.world (.fault (.invalidHandle h)) m.world) ∧
    (∀ h id, m.world.arena.Represents h id →
      (Host.release h).Answers r m.world (.fault .pinnedTypeObject) m.world) ∧
    (∀ id, r.get? id = none ∨ id.isSealed = true →
      (Host.instantiate id).Refused r m.world ∧
        ∀ values, (Host.instantiateWith id values).Refused r m.world) ∧
    (∀ id t values, r.get? id = some t → values.length ≠ t.fieldCount.toNat →
      (Host.instantiateWith id values).Refused r m.world) ∧
    (∀ id, (∀ a ∈ r.chain id, m.world.progressOf a = some .done) →
      ((Host.instantiate id).Traceless r m.world ∨ ∀ (γ β : Type) (site : Site γ β)
        (next : Outcome Handle → Program β),
          (site.plug m.world ((Host.instantiate id).into next)).step r = .aborted) ∧
        ∀ values, (Host.instantiateWith id values).Traceless r m.world) ∧
    (∀ name argv, (Native.call name argv).FailsOrBegins r m.world) ∧
    ∀ this (entrance : Trap.Entrance), (entrance.program this).FailsOrBegins r m.world := by
  have initialized := run.instancesInitialized
  refine ⟨fun β p operation => operation.traceless, fun h => answers_release_of_dead, ?_, ?_, ?_,
    ?_, failsOrBegins_call built.tree initialized, ?_⟩
  · exact fun h id represents =>
      Program.answers_of_serve (World.replies_release_of_represents represents) rfl
  · intro id barred
    obtain ⟨f, refused⟩ := instanceType_error barred
    refine ⟨refused_instantiate refused, fun values => ?_⟩
    obtain ⟨f, refused⟩ := filledType_error values (.inl barred)
    exact refused_instantiateWith refused
  · intro id t values found differs
    obtain ⟨f, refused⟩ := filledType_error values (.inr ⟨t, found, differs⟩)
    exact refused_instantiateWith refused
  · exact fun id done => ⟨traceless_instantiate done, traceless_instantiateWith done⟩
  · exact fun this entrance =>
      (entrance.forwards (w := m.world) this).failsOrBegins built.tree initialized

theorem run_refusals_leave_no_trace_full :
    ∃ (entries : List Entry) (m : Machine Handle),
      Run .initial (start { maxObjects := some 1 } .reliable (Native.createString "a")) entries m ∧
        (Native.createString "b").eval .initial m.world =
          some (.fault (.heapExhausted 1), m.world) ∧
        (Native.createString "b").Traceless .initial m.world ∧
        (Host.release ⟨1, 0⟩).Answers .initial m.world (.fault (.invalidHandle ⟨1, 0⟩)) m.world ∧
        (Host.instantiate .string).Refused .initial m.world ∧
        (Native.call "missing" [.handle ⟨0, 0⟩]).FailsOrBegins .initial m.world := by
  let options : Options := { maxObjects := some 1 }
  let empty := World.initial options .reliable
  let full := empty.withArena (empty.arena.place .string (.text "a"))
  let last : Machine Handle := .outer full (Program.ofExcept (.ok ⟨0, 0⟩))
  have makes : (start options .reliable (Native.createString "a")).step .initial =
      .running last := rfl
  have run := Run.step .refl makes (.refl _)
  have dead : last.world.arena.get? ⟨1, 0⟩ = none := rfl
  have exhausted : (Native.createString "b").eval .initial last.world =
      some (.fault (.heapExhausted 1), last.world) := rfl
  obtain ⟨operations, release, -, barred, -, -, calls, -⟩ :=
    run_refusals_leave_no_trace .initial run
  exact ⟨_, last, run, exhausted, operations _ _ (.createString "b"), release _ dead,
    (barred .string (.inr rfl)).1, calls "missing" _⟩

end Machine
end ManagedObjects

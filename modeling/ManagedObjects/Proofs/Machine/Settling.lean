import ManagedObjects.Proofs.Machine.Agreement
import ManagedObjects.Proofs.Machine.Initialization

namespace ManagedObjects

open Relation

variable {r : Registry} {w u : World}

namespace World

def settle (w : World) : List TypeId → World
  | [] => w
  | id :: pending => (if w.progressOf id = none then w.note id .done else w).settle pending

theorem marks_settle (w : World) (pending : List TypeId) : w.Marks (w.settle pending) := by
  induction pending generalizing w with
  | nil => exact .refl w
  | cons id pending ih =>
      unfold settle
      split
      · exact (Marks.of_note w id .done).trans (ih _)
      · exact ih w

theorem progressOf_settle (w : World) (pending : List TypeId) (a : TypeId) :
    (w.settle pending).progressOf a =
      (w.progressOf a).or (if a ∈ pending then some .done else none) := by
  induction pending generalizing w with
  | nil => simp [settle]
  | cons id pending ih =>
      rw [settle, ih]
      by_cases fresh : w.progressOf id = none
      · by_cases same : a = id
        · simp [fresh, same, progressOf_note_self]
        · simp [fresh, same, progressOf_note_ne]
      · by_cases same : a = id
        · obtain ⟨p, begun⟩ := Option.ne_none_iff_exists'.mp fresh
          simp [same, begun]
        · simp [fresh, same]

theorem settle_of_begun {pending : List TypeId} (begun : ∀ a ∈ pending, w.progressOf a ≠ none) :
    w.settle pending = w := by
  induction pending with
  | nil => rfl
  | cons id pending ih =>
      obtain ⟨first, rest⟩ := List.forall_mem_cons.mp begun
      rw [settle, if_neg first, ih rest]

theorem settle_settle (w : World) (pending : List TypeId) :
    (w.settle pending).settle pending = w.settle pending := by
  refine settle_of_begun fun a member => ?_
  rw [progressOf_settle, if_pos member]
  cases w.progressOf a <;> simp

structure Unfailed (r : Registry) (w : World) (chain : List TypeId) : Prop where
  unfailed : ∀ a ∈ chain, ∀ f, w.progressOf a ≠ some (.failed f)
  undeclared : ∀ a ∈ chain, w.progressOf a = none → r.initializer? a = none

/-- The second state is what the initialization of the chain makes of the first one. -/
structure Settles (r : Registry) (chain : List TypeId) (w u : World) : Prop where
  ready : w.Unfailed r chain
  settle_eq : w.settle chain = u

theorem Settles.marks {chain : List TypeId} (settles : Settles r chain w u) : w.Marks u :=
  settles.settle_eq ▸ w.marks_settle chain

theorem Settles.again {chain : List TypeId} (settles : Settles r chain w u) :
    Settles r chain u u := by
  obtain ⟨ready, rfl⟩ := settles
  refine ⟨⟨fun a member f => ?_, fun a member => ?_⟩, w.settle_settle chain⟩
  · rw [progressOf_settle, if_pos member]
    cases progress : w.progressOf a with
    | none => simp
    | some p => simpa [progress] using ready.unfailed a member f
  · rw [progressOf_settle, if_pos member]
    cases w.progressOf a <;> simp

end World

theorem Goal.prepare_eq_reach {α : Type} {pending : List TypeId} (ready : w.Unfailed r pending)
    (goal : Goal α) : goal.prepare r w pending = goal.reach r (w.settle pending) := by
  induction pending generalizing w with
  | nil => rfl
  | cons id pending ih =>
      obtain ⟨unfailed, unfailedBelow⟩ := List.forall_mem_cons.mp ready.unfailed
      obtain ⟨undeclared, undeclaredBelow⟩ := List.forall_mem_cons.mp ready.undeclared
      unfold prepare World.settle
      cases progress : w.progressOf id with
      | some p =>
          cases p with
          | running => exact ih ⟨unfailedBelow, undeclaredBelow⟩
          | done => exact ih ⟨unfailedBelow, undeclaredBelow⟩
          | failed f => exact absurd progress (unfailed f)
      | none =>
          -- The note on this type leaves the conditions on the types above the same.
          have absent := undeclared progress
          simp only [Registry.initializer?] at absent
          simp only [absent, if_true]
          refine ih ⟨fun a member f => ?_, fun a member fresh => ?_⟩
          · by_cases same : a = id
            · simp [same, World.progressOf_note_self]
            · simpa [World.progressOf_note_ne _ _ same] using unfailedBelow a member f
          · by_cases same : a = id
            · simp [same, World.progressOf_note_self] at fresh
            · rw [World.progressOf_note_ne _ _ same] at fresh
              exact undeclaredBelow a member fresh

def Registry.select (r : Registry) (type : TypeId) (name : String) (argv : List Slot) :
    Except Fault Method :=
  match r.get? type with
  | none => .error (.unknownType type)
  | some t =>
      match r.resolve? type name with
      | none => .error (.methodNotFound t.name name)
      | some (_, m) => (m.signature.check name (argv.drop 1)).map fun _ => m

theorem Goal.call_eq {α : Type} (w : World) (type : TypeId) (name : String) (argv : List Slot)
    (result : Return α) :
    Goal.call r w type name argv result =
      match r.select type name argv with
      | .ok m => .enter w (m.body argv) (.method ⟨m, name, argv⟩ result)
      | .error f => result.deliver w (.error f) := by
  unfold Goal.call Registry.select
  cases r.get? type with
  | none => rfl
  | some t =>
      simp only
      cases r.resolve? type name with
      | none => rfl
      | some found =>
          simp only [Action.enterMethod, Method.enter]
          cases found.2.signature.check name (argv.drop 1) <;> rfl

theorem comes_call {this : Handle} {object : Object}
    (settles : World.Settles r (r.chain object.type) w u) (live : w.arena.get? this = some object)
    (name : String) (args : List Slot) :
    (Native.call name (.handle this :: args)).Comes r w u
      ((r.select object.type name (.handle this :: args)).map fun m =>
        ⟨m, name, .handle this :: args⟩) := by
  intro α β site next
  let request : Request := .call name (.handle this :: args)
  let resume : request.Answer → Program β := fun answer => (Program.ofExcept answer).into next
  have served : w.serve r request resume =
      Goal.call r u object.type name (.handle this :: args) (.answer resume) := by
    change Goal.beginCall r w name (.handle this :: args) (.answer resume) = _
    simp only [Goal.beginCall, Slot.expectHandle, Arena.get_eq_ok_iff.mpr live]
    rw [Goal.prepare_eq_reach settles.ready, settles.settle_eq]
    rfl
  rw [Goal.call_eq] at served
  change Machine.Comes r u site next (site.plug w (.ask request resume)) _
  have step := site.step_ask (r := r) (w := w) request resume
  have entered := site.entered?_ask (r := r) (w := w) request resume
  rw [served] at step entered
  cases selected : r.select object.type name (.handle this :: args) with
  | error f =>
      rw [selected] at step entered
      have prompt : Machine.Prompt r (site.plug w (.ask request resume))
          (site.plug u (resume (.error f))) := ⟨step.trans (site.carry_proceed _), entered⟩
      exact .refused (.refl u) (.single prompt.advance)
  | ok m =>
      rw [selected] at step entered
      refine .entered .refl ⟨step.trans (site.carry_enter _ _), entered⟩ fun result v => ?_
      refine .single (Machine.Prompt.advance ?_)
      have returned := Machine.prompt_return (r := r) site ⟨m, name, .handle this :: args⟩ resume v
        result
      simp only [resume, Program.ofExcept_eq_finish, Program.into] at returned ⊢
      exact returned

end ManagedObjects

import ManagedObjects.Proofs.Machine.Calls
import ManagedObjects.Proofs.Machine.Settling
import ManagedObjects.Proofs.Registry.Resolution

namespace ManagedObjects

open Relation

variable {r : Registry} {w u : World}

namespace Registry

theorem select_eq {type owner : TypeId} {name : String} {m : Method} {this : Slot}
    {args : List Slot} (resolved : r.resolve? type name = some (owner, m))
    (accepted : m.signature.accepts args = true) : r.select type name (this :: args) = .ok m := by
  unfold select
  cases found : r.get? type with
  | none => simp [resolve?, ancestors, found] at resolved
  | some t => simp [resolved, Signature.check, accepted, Except.map]

end Registry

def World.admission (r : Registry) (w : World) (policy : TrapPolicy) (this : Handle)
    (name : String) (args : List Slot) : Except Fault Unit := do
  w.validate this
  if name = "" then
    let type ← w.typeOf r this
    .error (.methodNotFound type.name "")
  else
    w.arena.checkHandles args
    if policy = .receiverOnly ∧ args ≠ [] then
      .error (.argumentMismatch name "receiver only" (Signature.describeArguments args))
    else .ok ()

theorem World.Marks.admission_eq (marks : w.Marks u) (policy : TrapPolicy) (this : Handle)
    (name : String) (args : List Slot) :
    u.admission r policy this name args = w.admission r policy this name args := by
  obtain ⟨progress, rfl⟩ := marks
  rfl

namespace Trap

def precheck (policy : TrapPolicy) (this : Handle) (name : String) (args : List Slot) :
    Program Unit := do
  Native.validate this
  if name = "" then
    let type ← Native.typeOf this
    .fail (.methodNotFound type.name "")
  else
    validateAll (Slot.handles args)
    if policy = .receiverOnly ∧ args ≠ [] then
      .fail (.argumentMismatch name "receiver only" (Signature.describeArguments args))
    else pure ()

theorem dispatchWith_eq (policy : TrapPolicy) (this : Handle) (name : String)
    (given : Option (List Slot)) :
    dispatchWith policy this name given =
      (precheck policy this name (given.getD [])).bind fun _ =>
        Native.call name (.handle this :: given.getD []) := by
  change (Native.validate this).bind _ = ((Native.validate this).bind _).bind _
  rw [Program.bind_bind]
  congr 1
  funext _
  split
  · change Program.bind _ _ = (Program.bind _ _).bind _
    rw [Program.bind_bind]
    rfl
  · change (validateAll _).bind _ = ((validateAll _).bind _).bind _
    rw [Program.bind_bind]
    congr 1
    funext _
    unfold forward
    split <;> rfl

theorem eval_validateAll (handles : List Handle) :
    (validateAll handles).eval r w =
      some (.ofExcept (handles.forM fun h => (w.arena.get h).map fun _ => ()), w) := by
  induction handles with
  | nil => rfl
  | cons h rest ih =>
      change ((Native.validate h).bind fun _ => validateAll rest).eval r w = _
      have validated := Program.eval_validate (r := r) w h
      simp only [List.forM_eq_forM, List.forM_cons, bind, Except.bind] at ih ⊢
      unfold World.validate at validated
      cases denoted : w.arena.get h with
      | error f =>
          rw [denoted] at validated
          exact Program.eval_bind_fault validated
      | ok object =>
          rw [denoted] at validated
          rw [Program.eval_bind_value validated, ih]
          rfl

theorem eval_precheck (policy : TrapPolicy) (this : Handle) (name : String) (args : List Slot) :
    (precheck policy this name args).eval r w =
      some (.ofExcept (w.admission r policy this name args), w) := by
  change ((Native.validate this).bind _).eval r w = _
  have validated := Program.eval_validate (r := r) w this
  unfold World.admission
  cases live : w.validate this with
  | error f =>
      rw [live] at validated
      exact Program.eval_bind_fault validated
  | ok _ =>
      rw [live] at validated
      rw [Program.eval_bind_value validated]
      by_cases unnamed : name = ""
      · have typed := Program.eval_typeOf (r := r) w this
        simp only [unnamed, if_true]
        change ((Native.typeOf this).bind _).eval r w = _
        cases type : w.typeOf r this with
        | error f =>
            rw [type] at typed
            exact Program.eval_bind_fault typed
        | ok d =>
            rw [type] at typed
            exact Program.eval_bind_value typed
      · have checked := eval_validateAll (r := r) (w := w) (Slot.handles args)
        simp only [unnamed, if_false]
        change ((validateAll (Slot.handles args)).bind _).eval r w = _
        change _ = some (Outcome.ofExcept (w.arena.checkHandles args), w) at checked
        cases sound : w.arena.checkHandles args with
        | error f =>
            rw [sound] at checked
            exact Program.eval_bind_fault checked
        | ok _ =>
            rw [sound] at checked
            rw [Program.eval_bind_value checked]
            by_cases excess : policy = .receiverOnly ∧ args ≠ []
            · rw [if_pos excess, if_pos excess]
              rfl
            · rw [if_neg excess, if_neg excess]
              rfl

/-- The fault that the dispatcher or the type of the receiver refuses a call with, or the call. -/
def verdict (r : Registry) (w : World) (type : TypeId) (policy : TrapPolicy) (this : Handle)
    (name : String) (args : List Slot) : Except Fault Call :=
  (w.admission r policy this name args).bind fun _ =>
    (r.select type name (.handle this :: args)).map fun m => ⟨m, name, .handle this :: args⟩

theorem comes_dispatchWith {this : Handle} {object : Object}
    (settles : World.Settles r (r.chain object.type) w u) (live : w.arena.get? this = some object)
    (policy : TrapPolicy) (name : String) (given : Option (List Slot)) :
    (dispatchWith policy this name given).Comes r w u
      (verdict r u object.type policy this name (given.getD [])) := by
  rw [dispatchWith_eq, Program.bind_eq_into, verdict, settles.marks.admission_eq]
  have checked := eval_precheck (r := r) (w := w) policy this name (given.getD [])
  cases admitted : w.admission r policy this name (given.getD []) with
  | error f =>
      rw [admitted] at checked
      intro α β site next
      rw [Program.into_into]
      exact .refused settles.marks.symm
        (Machine.advances_of_prompts (Machine.prompts_into checked site _))
  | ok _ =>
      rw [admitted] at checked
      refine Program.Comes.head (fun α β site next => ?_)
        (comes_call settles live name (given.getD []))
      rw [Program.into_into]
      exact Machine.prompts_into checked site _

theorem comes_dispatchByOptions {this : Handle} {object : Object}
    (settles : World.Settles r (r.chain object.type) w u) (live : w.arena.get? this = some object)
    (name : String) (given : Option (List Slot)) :
    (dispatchByOptions this name given).Comes r w u
      (verdict r u object.type w.options.trapPolicy this name (given.getD [])) := by
  refine Program.Comes.head (fun α β site next => ?_)
    (comes_dispatchWith settles live w.options.trapPolicy name given)
  have replied : w.reply r .options = some (w.options, w) := rfl
  exact .single (Machine.prompt_ask site replied _)

end Trap
end ManagedObjects

import ManagedObjects.Proofs.Trap.Nesting

namespace ManagedObjects

open Relation

variable {r : Registry} {w u v : World}

/-- Wherever the code runs in the state, it ends with the outcome and leaves the second state. -/
def Program.Yields {γ : Type} (r : Registry) (w : World) (p : Program γ) (outcome : Outcome γ)
    (w' : World) : Prop :=
  ∀ (α β : Type) (site : Site α β) (next : Outcome γ → Program β),
    Machine.Reaches r (site.plug w (p.into next)) (site.plug w' (next outcome))

theorem Program.Comes.yields {p : Program Slot} {call : Call} {result : Except Fault Slot}
    (comes : p.Comes r w u (.ok call))
    (evaluates : (call.method.body call.argv).eval r u = some (.ofExcept result, v)) :
    p.Yields r w (.ofExcept result) v := by
  intro α β site next
  cases comes α β site next with
  | @entered δ place _ resume k toCall invokes back =>
      have within := Machine.prompts_into evaluates (place.enter (.method call (.answer resume)))
        finish
      rw [into_finish, ← ofExcept_eq_finish] at within
      have toBody := (Machine.reaches_of_advances toCall).step invokes.1
      have returned := Machine.reaches_of_advances
        ((Machine.advances_of_prompts within).trans (back result v))
      exact toBody.trans returned

namespace Trap

variable {this : Handle} {object : Object} {name : String}

theorem Entrance.comes {entrance : Entrance} {args : List Slot}
    (settles : World.Settles r (r.chain object.type) w u) (live : w.arena.get? this = some object)
    (given : entrance.given w = .ok (name, args)) :
    ∃ policy, (entrance.program this).Comes r w u
      (verdict r u object.type policy this name args) := by
  cases entrance with
  | withPolicy policy method items =>
      cases given
      exact ⟨policy, comes_dispatchWith settles live policy name items⟩
  | forwarding method items =>
      cases given
      exact ⟨.forward, comes_dispatchWith settles live .forward name items⟩
  | byOptions method items =>
      cases given
      exact ⟨_, comes_dispatchByOptions settles live name items⟩
  | managed text list =>
      exact ⟨_, .head (fun α β => (dispatchManaged_becomes given this).prompts)
        (comes_dispatchWith settles live _ name (some args))⟩

theorem verdict_nullary {type owner : TypeId} {m : Method} (policy : TrapPolicy)
    (live : w.arena.get? this = some object) (named : name ≠ "")
    (resolved : r.resolve? type name = some (owner, m))
    (accepted : m.signature.accepts [] = true) :
    verdict r w type policy this name [] = .ok ⟨m, name, [.handle this]⟩ := by
  have none : w.arena.checkHandles [] = .ok () := rfl
  have admitted : w.admission r policy this name [] = .ok () := by
    simp [World.admission, World.validate_eq_ok live, bind, Except.bind, named, none]
  rw [verdict, admitted, Registry.select_eq resolved accepted]
  rfl

theorem Entrance.yields {entrance : Entrance} {owner : TypeId} {m : Method}
    {result : Except Fault Slot} (settles : World.Settles r (r.chain object.type) w u)
    (live : w.arena.get? this = some object) (given : entrance.given w = .ok (name, []))
    (named : name ≠ "") (resolved : r.resolve? object.type name = some (owner, m))
    (accepted : m.signature.accepts [] = true)
    (evaluates : (m.body [.handle this]).eval r u = some (.ofExcept result, v)) :
    (entrance.program this).Yields r w (.ofExcept result) v := by
  obtain ⟨policy, comes⟩ := entrance.comes settles live given
  rw [verdict_nullary policy (settles.marks.arena_eq ▸ live) named resolved accepted] at comes
  exact comes.yields evaluates

end Trap
end ManagedObjects

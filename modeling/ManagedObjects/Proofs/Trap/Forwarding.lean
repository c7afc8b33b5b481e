import Mathlib.Logic.Relation
import ManagedObjects.Proofs.Machine.Site

namespace ManagedObjects

namespace Program

def into {α β : Type} : Program α → (Outcome α → Program β) → Program β
  | finish outcome, next => next outcome
  | ask request resume, next => ask request fun answer => (resume answer).into next

/-- One question of the code that the environment answers from its state. -/
inductive Observation (r : Registry) (w : World) {α : Type} : Program α → Program α → Prop
  | ask {request : Request} (answer : request.Answer) {resume : request.Answer → Program α} :
      w.Replies r request answer → Observation r w (.ask request resume) (resume answer)

variable {α β : Type} {r : Registry} {w : World}

theorem Observation.into {p q : Program α} (observation : Observation r w p q)
    (next : Outcome α → Program β) : Observation r w (p.into next) (q.into next) := by
  cases observation with
  | ask answer replies => exact .ask answer replies

end Program

namespace Trap

inductive Entrance
  | withPolicy (policy : TrapPolicy) (name : String) (args : Option (List Slot))
  | forwarding (name : String) (args : Option (List Slot))
  | byOptions (name : String) (args : Option (List Slot))
  | managed (name args : Slot)

namespace Entrance

def program (this : Handle) : Entrance → Program Slot
  | withPolicy policy name args => dispatchWith policy this name args
  | forwarding name args => dispatch this name args
  | byOptions name args => dispatchByOptions this name args
  | managed name args => dispatchManaged this name args

def given (w : World) : Entrance → Except Fault (String × List Slot)
  | withPolicy _ name args => .ok (name, args.getD [])
  | forwarding name args => .ok (name, args.getD [])
  | byOptions name args => .ok (name, args.getD [])
  | managed name args => do
      let name ← w.readString name
      let args ← if args.isNull then pure [] else w.readList args
      .ok (name, args)

end Entrance

variable {r : Registry} {w : World} {this : Handle} {given : Except Fault (String × List Slot)}

/-- After some questions the code fails, or it asks for the call that was given, and then the
receiver and every handle among the arguments are live. -/
def Forwards (r : Registry) (w : World) (this : Handle) (given : Except Fault (String × List Slot))
    (p : Program Slot) : Prop :=
  ∃ rest, Relation.ReflTransGen (Program.Observation r w) p rest ∧
    ((∃ f, rest = .fail f) ∨
      ∃ name args, given = .ok (name, args) ∧ rest = Native.call name (.handle this :: args) ∧
        ∀ h, .handle h ∈ Slot.handle this :: args → ∃ object, w.arena.get? h = some object)

theorem Forwards.fail (f : Fault) : Forwards r w this given (.fail f) :=
  ⟨_, .refl, .inl ⟨f, rfl⟩⟩

theorem Forwards.of_observation {p q : Program Slot} (observation : Program.Observation r w p q)
    (forwards : Forwards r w this given q) : Forwards r w this given p := by
  obtain ⟨rest, observed, ends⟩ := forwards
  exact ⟨rest, .head observation observed, ends⟩

theorem forwards_validate {h : Handle} {next : Unit → Program Slot}
    (forwards : ∀ object, w.arena.get? h = some object → Forwards r w this given (next ())) :
    Forwards r w this given ((Native.validate h).bind next) := by
  refine .of_observation (.ask (w.validate h) fun _ _ => rfl) ?_
  cases denoted : w.arena.get? h with
  | none =>
      simp only [World.validate, Arena.get_eq_error denoted, Except.map]
      exact .fail _
  | some object =>
      simp only [World.validate, Arena.get_eq_ok_iff.mpr denoted, Except.map]
      exact forwards object denoted

theorem forwards_validateAll {handles : List Handle} {next : Unit → Program Slot}
    (forwards : (∀ h ∈ handles, ∃ object, w.arena.get? h = some object) →
      Forwards r w this given (next ())) :
    Forwards r w this given ((validateAll handles).bind next) := by
  induction handles with
  | nil => exact forwards (by simp)
  | cons h rest ih =>
      change Forwards r w this given
        (((Native.validate h).bind fun _ => validateAll rest).bind next)
      rw [Program.bind_bind]
      refine forwards_validate fun object live => ?_
      refine ih fun others => forwards fun k member => ?_
      rcases List.mem_cons.mp member with rfl | other
      · exact ⟨object, live⟩
      · exact others k other

theorem forwards_forward {policy : TrapPolicy} {name : String} {args : List Slot} {object : Object}
    (live : w.arena.get? this = some object)
    (others : ∀ h ∈ Slot.handles args, ∃ object, w.arena.get? h = some object) :
    Forwards r w this (.ok (name, args)) (forward policy this name args) := by
  unfold forward
  split
  · exact .fail _
  · refine ⟨_, .refl, .inr ⟨name, args, rfl, rfl, fun h member => ?_⟩⟩
    rcases List.mem_cons.mp member with same | other
    · cases same
      exact ⟨object, live⟩
    · exact others h (Slot.mem_handles.mpr other)

theorem forwards_dispatchWith (policy : TrapPolicy) (this : Handle) (name : String)
    (args : Option (List Slot)) :
    Forwards r w this (.ok (name, args.getD [])) (dispatchWith policy this name args) := by
  refine forwards_validate fun object live => ?_
  by_cases unnamed : name = ""
  · simp only [unnamed, if_true]
    refine .of_observation (.ask (w.typeOf r this) fun _ _ => rfl) ?_
    cases w.typeOf r this <;> exact .fail _
  · simp only [unnamed, if_false]
    exact forwards_validateAll fun others => forwards_forward live others

theorem forwards_dispatchByOptions (this : Handle) (name : String) (args : Option (List Slot)) :
    Forwards r w this (.ok (name, args.getD [])) (dispatchByOptions this name args) :=
  .of_observation (.ask w.options fun _ _ => rfl)
    (forwards_dispatchWith w.options.trapPolicy this name args)

theorem observation_environmentPolicy {α : Type} (next : TrapPolicy → Program α) :
    Program.Observation r w (environmentPolicy.bind next) (next w.options.trapPolicy) := by
  let rest (forwards : Bool) : Program α :=
    (if forwards = true then pure .forward else pure .receiverOnly : Program TrapPolicy).bind next
  have asked : Program.Observation r w (environmentPolicy.bind next) (rest w.forwardsArguments) :=
    @Program.Observation.ask r w α .forwardsArguments _ rest fun _ _ => rfl
  have same : rest w.forwardsArguments = next w.options.trapPolicy := by
    simp only [rest, World.forwardsArguments]
    cases w.options.trapPolicy <;> rfl
  exact same ▸ asked

theorem forwards_dispatchManaged (this : Handle) (name args : Slot) :
    Forwards r w this ((Entrance.managed name args).given w) (dispatchManaged this name args) := by
  refine .of_observation (.ask (w.readString name) fun _ _ => rfl) ?_
  simp only [Entrance.given]
  cases w.readString name with
  | error f => exact .fail f
  | ok method =>
      change Forwards r w this _ ((readArguments args).bind fun args =>
        environmentPolicy.bind fun policy => dispatchWith policy this method args)
      have under (values : Option (List Slot)) :=
        (forwards_dispatchWith (r := r) w.options.trapPolicy this method values).of_observation
          (observation_environmentPolicy fun policy => dispatchWith policy this method values)
      unfold readArguments
      by_cases null : args.isNull = true
      · simp only [null, if_true]
        exact under none
      · simp only [null, if_false, Bool.false_eq_true]
        refine .of_observation (.ask (w.readList args) fun _ _ => rfl) ?_
        cases w.readList args with
        | error f => exact .fail f
        | ok values => exact under (some values)

theorem Entrance.forwards (entrance : Entrance) (this : Handle) :
    Forwards r w this (entrance.given w) (entrance.program this) := by
  cases entrance with
  | withPolicy policy name args => exact forwards_dispatchWith policy this name args
  | forwarding name args => exact forwards_dispatchWith .forward this name args
  | byOptions name args => exact forwards_dispatchByOptions this name args
  | managed name args => exact forwards_dispatchManaged this name args

end Trap
end ManagedObjects

import ManagedObjects.Proofs.Trap.Nesting

namespace ManagedObjects

open Relation

variable {r : Registry} {w u : World}

namespace Protocol

/-- The function that a method stands for, with the arguments that the method takes, and its result
as a value. -/
inductive Direct (this : Handle) : String → List Slot → Program Slot → Prop
  | equals (other : Slot) : Direct this "equals" [other] (Slot.bool <$> equals this other)
  | compare (other : Handle) :
      Direct this "compare" [.handle other] ((Slot.int ∘ Int48.ofOrdering) <$> order this other)
  | hash : Direct this "hash" [] (Slot.int <$> hash this)
  | toStr : Direct this "toStr" [] (Slot.handle <$> toStr this)
  | isImmutable : Direct this "isImmutable" [] (Slot.bool <$> isImmutable this)
  | toImmutable : Direct this "toImmutable" [] (Slot.handle <$> toImmutable this)
  | typeOf : Direct this "typeOf" [] (Slot.handle <$> typeOf this)
  | finalize : Direct this "finalize" [] ((fun _ => Slot.null) <$> finalize this)
  | echo : Direct this "echo" [] ((fun _ => Slot.null) <$> echo this)

end Protocol

theorem Signature.accepts_nullary {args : List Slot}
    (accepted : Signature.nullary.accepts args = true) : args = [] := by
  cases args with
  | nil => rfl
  | cons slot rest => simp [accepts, nullary] at accepted

theorem Signature.accepts_single {kind : Kind} {args : List Slot}
    (accepted : (Signature.exact [kind]).accepts args = true) :
    ∃ slot, args = [slot] ∧ kind.accepts slot.kind = true := by
  match args with
  | [] => simp [accepts, exact] at accepted
  | [slot] => exact ⟨slot, rfl, by simpa [accepts, exact] using accepted⟩
  | _ :: _ :: _ => simp [accepts, exact] at accepted

namespace Protocol

theorem direct_body {name : String} {m : Method} {args : List Slot}
    (root : (name, m) ∈ methods) (other : name ≠ "trap")
    (accepted : m.signature.accepts args = true)
    (this : Handle) : Direct this name args (m.body (.handle this :: args)) := by
  simp only [methods, List.mem_cons, Prod.mk.injEq, List.not_mem_nil, or_false] at root
  rcases root with ⟨rfl, rfl⟩ | ⟨rfl, rfl⟩ | ⟨rfl, rfl⟩ | ⟨rfl, rfl⟩ | ⟨rfl, rfl⟩ | ⟨rfl, rfl⟩ |
    ⟨rfl, rfl⟩ | ⟨rfl, rfl⟩ | ⟨rfl, rfl⟩ | ⟨rfl, rfl⟩
  · obtain ⟨slot, rfl, -⟩ := Signature.accepts_single accepted
    exact .equals slot
  · obtain ⟨slot, rfl, kind⟩ := Signature.accepts_single accepted
    obtain ⟨h, rfl⟩ := Kind.eq_handle_of_accepts kind
    exact .compare h
  · cases Signature.accepts_nullary accepted
    exact .hash
  · cases Signature.accepts_nullary accepted
    exact .toStr
  · cases Signature.accepts_nullary accepted
    exact .isImmutable
  · cases Signature.accepts_nullary accepted
    exact .toImmutable
  · cases Signature.accepts_nullary accepted
    exact .typeOf
  · cases Signature.accepts_nullary accepted
    exact .finalize
  · cases Signature.accepts_nullary accepted
    exact .echo
  · exact absurd rfl other

end Protocol

namespace Program.Asks

variable {α β : Type} {allowed : Request → Prop} {p : Program α}

theorem map (f : α → β) (asks : Asks allowed p) : Asks allowed (f <$> p) :=
  asks.bind fun a => .value (f a)

theorem answered (request : Request) (immediate : request.Immediate r)
    (read : request.Answer → Except Fault α) :
    Asks (Request.Immediate r) (.ask request fun answer => .ofExcept (read answer)) :=
  .ask immediate fun answer => .ofExcept (read answer)

end Program.Asks

namespace Protocol

open Program

theorem Direct.asks {this : Handle} {name : String} {args : List Slot} {p : Program Slot}
    (direct : Direct this name args p) (other : name ≠ "echo") :
    p.Asks (Request.Immediate r) := by
  have validates (h : Handle) : Asks (Request.Immediate r) (Native.validate h) :=
    .answered (.validate h) (fun _ => ⟨_, rfl⟩) id
  have numbers (h : Handle) : Asks (Request.Immediate r) (Native.objectId h) :=
    .answered (.objectId h) (fun _ => ⟨_, rfl⟩) id
  have types (h : Handle) : Asks (Request.Immediate r) (Native.typeOf h) :=
    .answered (.typeOf h) (fun _ => ⟨_, rfl⟩) id
  have strings (text : String) : Asks (Request.Immediate r) (Native.createString text) :=
    .answered (.createString text) (fun _ => ⟨_, rfl⟩) id
  have typeObjects (type : TypeId) : Asks (Request.Immediate r) (Native.typeObject type) :=
    .answered (.typeObject type) (fun _ => ⟨_, rfl⟩) id
  cases direct with
  | equals slot =>
      refine .map _ ((validates this).bind fun _ => ?_)
      cases slot.handle? with
      | none => exact .value false
      | some that => exact (validates that).bind fun _ => .value _
  | compare that =>
      exact .map _ ((numbers this).bind fun i => (numbers that).bind fun j => .value _)
  | hash => exact .map _ ((numbers this).bind fun i => .value _)
  | toStr => exact .map _ ((types this).bind fun type => strings _)
  | isImmutable => exact .map _ ((validates this).bind fun _ => .value false)
  | toImmutable => exact .map _ ((validates this).bind fun _ => .value this)
  | typeOf => exact .map _ ((types this).bind fun type => typeObjects _)
  | finalize => exact .map _ (validates this)
  | echo => exact absurd rfl other

theorem Direct.named {this : Handle} {name : String} {args : List Slot} {p : Program Slot}
    (direct : Direct this name args p) : name ≠ "" := by
  cases direct <;> decide

theorem Direct.stale {this h : Handle} {object : Object} {name : String} {args : List Slot}
    {p : Program Slot} (direct : Direct this name args p)
    (live : w.arena.get? this = some object) (member : .handle h ∈ args)
    (dead : w.arena.get? h = none) :
    w.admission r .forward this name args = .error (.invalidHandle h) ∧
      p.eval r w = some (.fault (.invalidHandle h), w) := by
  have admitted : args = [.handle h] →
      w.admission r .forward this name args = .error (.invalidHandle h) := by
    rintro rfl
    have unsound : w.arena.checkHandles [.handle h] = .error (.invalidHandle h) := by
      simp [Arena.checkHandles, Slot.handles, Slot.handle?, Arena.get_eq_error dead, Except.map,
        bind, Except.bind]
    simp [World.admission, World.validate_eq_ok live, direct.named, unsound, bind, Except.bind]
  cases direct with
  | equals other =>
      obtain rfl := List.mem_singleton.mp member
      refine ⟨admitted rfl, Program.eval_bind_fault ?_⟩
      exact (Program.eval_bind_value (Program.eval_validate_live live)).trans
        (Program.eval_bind_fault (Program.eval_validate_stale dead))
  | compare other =>
      cases List.mem_singleton.mp member
      refine ⟨admitted rfl, Program.eval_bind_fault ?_⟩
      exact (Program.eval_bind_value (Program.eval_objectId_live live)).trans
        (Program.eval_bind_fault (Program.eval_objectId_stale dead))
  | _ => cases member

def printed : Outcome Slot → Program Slot := fun outcome =>
  (finish outcome).bind fun rendered =>
    ((Native.readString rendered).bind Native.writeLine).bind fun _ => Program.pure .null

theorem Direct.eq_into {this : Handle} {name : String} {args : List Slot} {p : Program Slot}
    (direct : Direct this name args p) (echoes : name = "echo") :
    p = (Trap.dispatch this toStrName none).into printed := by
  cases direct with
  | echo =>
      change (((Trap.dispatch this toStrName none).bind fun rendered =>
        (Native.readString rendered).bind Native.writeLine).bind fun _ =>
          Program.pure Slot.null) = _
      rw [Program.bind_bind, bind_eq_into]
      rfl
  | _ => exact absurd echoes (by decide)

theorem eval_printed (result : Except Fault Slot) (v : World) :
    ∃ answer v', (printed (.ofExcept result)).eval r v = some (.ofExcept answer, v') := by
  cases result with
  | error f => exact ⟨.error f, v, rfl⟩
  | ok rendered =>
      have reads : Asks (Request.Immediate r) (Native.readString rendered) :=
        .answered (.readString rendered) (fun _ => ⟨_, rfl⟩) id
      have writes (line : String) : Asks (Request.Immediate r) (Native.writeLine line) :=
        .answered (.writeLine line) (fun _ => ⟨_, rfl⟩) id
      exact ((reads.bind writes).bind fun _ => .value Slot.null).eval_eq v

theorem alike_direct {this : Handle} {object : Object} {name : String} {m : Method}
    {given : Option (List Slot)} (root : (name, m) ∈ methods) (other : name ≠ "trap")
    (resolved : r.resolve? object.type name = some (.object, m))
    (accepted : m.signature.accepts (given.getD []) = true)
    (settles : World.Settles r (r.chain object.type) w u)
    (live : w.arena.get? this = some object) :
    Program.Alike r w (Trap.dispatch this name given)
      (m.body (.handle this :: given.getD [])) := by
  have direct := direct_body root other accepted this
  -- With a stale argument the dispatcher does not come as far as the function, which fails by
  -- itself, before it changes anything.
  by_cases sound : ∀ h, .handle h ∈ given.getD [] → ∃ object, w.arena.get? h = some object
  · have comes := Trap.comes_dispatchWith settles live .forward name given
    have called := Trap.verdict_eq_ok (settles.marks.arena_eq ▸ live) direct.named
      (settles.marks.arena_eq ▸ sound) resolved accepted
    rw [called] at comes
    by_cases echoes : name = "echo"
    -- Only the echo calls a method of its own, for the text, and then through the dispatcher too.
    · have rendered := Trap.comes_dispatchWith settles live .forward toStrName none
      have within := Trap.comes_dispatchWith settles.again (settles.marks.arena_eq ▸ live) .forward
        toStrName none
      have body := direct.eq_into echoes
      rw [body]
      exact comes.alike_into root body within rendered (fun _ => rfl) eval_printed
    · obtain ⟨result, u', evaluates⟩ := (direct.asks (r := r) echoes).eval_eq u
      obtain ⟨w', directly, marks⟩ := Program.eval_of_marks evaluates settles.marks.symm
      intro α β site next
      exact .ended marks (comes.ends_of_eval root evaluates site next)
        (Machine.advances_of_prompts (Machine.prompts_into directly site next))
  · obtain ⟨h, unsound⟩ := Classical.not_forall.mp sound
    obtain ⟨member, dead⟩ := Classical.not_imp.mp unsound
    have dead := Option.eq_none_iff_forall_ne_some.mpr fun object live => dead ⟨object, live⟩
    obtain ⟨refused, fails⟩ := direct.stale (r := r) live member dead
    have refusal := Trap.eval_dispatchWith_refused refused
    intro α β site next
    exact .ended (.refl w) (Machine.advances_of_prompts (Machine.prompts_into refusal site next))
      (Machine.advances_of_prompts (Machine.prompts_into fails site next))

end Protocol

namespace Machine

variable {α : Type} {options : Options} {sink : Sink} {program : Program α} {entries : List Entry}
  {m : Machine α}

/-- To call a method of the root type through the dispatcher is to call the function that it stands
for. On an object whose type has the method from the root type and whose initialization has not
failed, and with arguments that the method takes, both end in the same way, with the function's
result as a value or with its fault, and leave the same objects, type objects and output. -/
theorem run_trap_agrees_with_protocol (built : r.Built)
    (run : Run r (start options sink program) entries m) {this : Handle} {object : Object}
    (live : m.world.arena.get? this = some object)
    (unfailed : ∀ a ∈ r.chain object.type, ∀ f, m.world.progressOf a ≠ some (.failed f))
    {name : String} {method : Method} {given : Option (List Slot)} (other : name ≠ "trap")
    (resolved : r.resolve? object.type name = some (.object, method))
    (accepted : method.signature.accepts (given.getD []) = true) :
    ∃ p, Protocol.Direct this name (given.getD []) p ∧
      Program.Alike r m.world (Trap.dispatch this name given) p ∧
      Program.SameEnds r m.world (Trap.dispatch this name given) p := by
  have settles := World.settles_of_unfailed run.instancesInitialized built.tree live unfailed
  have root := built.tree.root_method resolved
  have alike := Protocol.alike_direct root other resolved accepted settles live
  exact ⟨_, Protocol.direct_body root other accepted this, alike, alike.sameEnds⟩

theorem run_trap_agrees_with_protocol_echo :
    ∃ (entries : List Entry) (m : Machine Handle) (p : Program Slot),
      Run .initial (start {} .reliable (Native.createString "text")) entries m ∧
        Protocol.Direct ⟨0, 0⟩ "echo" [] p ∧
          Program.Alike .initial m.world (Trap.dispatch ⟨0, 0⟩ "echo" none) p ∧
            Program.SameEnds .initial m.world (Trap.dispatch ⟨0, 0⟩ "echo" none) p := by
  let w := (World.initial {} .reliable).withArena
    ((World.initial {} .reliable).arena.place .string (.text "text"))
  let last : Machine Handle := .outer w (Program.ofExcept (.ok ⟨0, 0⟩))
  have makes : (start {} .reliable (Native.createString "text")).step .initial =
      .running last := rfl
  have run := Run.step .refl makes (.refl _)
  have live : last.world.arena.get? ⟨0, 0⟩ = some ⟨1, .string, false, .text "text"⟩ := rfl
  have resolved : Registry.initial.resolve? .string "echo" =
      some (.object, Protocol.echoMethod) := by
    rw [Registry.resolve?, Registry.ancestors_initial_string]
    rfl
  have unfailed : ∀ a ∈ Registry.initial.chain .string, ∀ f,
      last.world.progressOf a ≠ some (.failed f) := by
    intro a _ f failed
    cases failed
  obtain ⟨p, agrees⟩ := run_trap_agrees_with_protocol .initial run live unfailed
    (by decide) resolved (show Protocol.echoMethod.signature.accepts ((none : Option _).getD []) =
      true from rfl)
  exact ⟨_, last, p, run, agrees⟩

end Machine
end ManagedObjects

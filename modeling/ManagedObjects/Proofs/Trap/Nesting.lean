import ManagedObjects.Proofs.Trap.Dispatching

namespace ManagedObjects

open Relation

variable {r : Registry} {w u : World}

namespace Arena

def Text (a : Arena) (value : Slot) (text : String) : Prop :=
  ∃ h object, value = .handle h ∧ a.get? h = some object ∧ object.payload = .text text

inductive Bundle (a : Arena) : Slot → List Slot → Prop
  | null : Bundle a .null []
  | list {h : Handle} {object : Object} {items : List Slot} :
      a.get? h = some object → object.payload = .items items → Bundle a (.handle h) items

/-- A call of the dispatcher by its own name, with the name and the arguments of a call of the
dispatcher, and so on for the given number of levels. The innermost call is the one of `name` with
`items`. -/
inductive Nested (a : Arena) (name : String) (items : List Slot) : Nat → String → List Slot → Prop
  | direct : Nested a name items 0 name items
  | unlisted {depth : Nat} {inner : String} {value : Slot} :
      a.Text value inner → Nested a name items depth inner [] →
        Nested a name items (depth + 1) "trap" [value]
  | listed {depth : Nat} {inner : String} {value bundle : Slot} {args : List Slot} :
      a.Text value inner → a.Bundle bundle args → Nested a name items depth inner args →
        Nested a name items (depth + 1) "trap" [value, bundle]

end Arena

namespace Program

variable {γ : Type} {p q : Program γ}

/-- Wherever it runs in the state, the first piece of code asks some questions, which change
nothing, and then it is the second. -/
def Becomes (r : Registry) (w : World) (p q : Program γ) : Prop :=
  ∀ (α β : Type) (site : Site α β) (next : Outcome γ → Program β),
    ReflTransGen (Machine.Quiet r) (site.plug w (p.into next)) (site.plug w (q.into next))

/-- Wherever they run in the state, the two pieces of code come to the same code by questions that
change nothing. -/
def Agrees (r : Registry) (w : World) (p q : Program γ) : Prop :=
  ∃ common, p.Becomes r w common ∧ q.Becomes r w common

theorem becomes_of_observed (observed : ReflTransGen (Observation r w) p q) : p.Becomes r w q :=
  fun _ _ site next => Machine.quiet_plug_into site next observed

theorem Becomes.prompts (becomes : p.Becomes r w q) {α β : Type} (site : Site α β)
    (next : Outcome γ → Program β) :
    ReflTransGen (Machine.Prompt r) (site.plug w (p.into next)) (site.plug w (q.into next)) :=
  Machine.prompts_of_quiet (becomes α β site next)

theorem Becomes.answers {outcome : Outcome γ} (becomes : p.Becomes r w q)
    (answers : q.Answers r w outcome u) : p.Answers r w outcome u :=
  fun α β site next => (becomes.prompts site next).trans (answers α β site next)

theorem Becomes.ends_iff (becomes : p.Becomes r w q) (outcome : Outcome γ) :
    p.Ends r w outcome u ↔ q.Ends r w outcome u := by
  have onward := becomes.prompts .outer finish
  rw [into_finish, into_finish] at onward
  have reaches := Machine.reaches_of_advances (Machine.advances_of_prompts onward)
  exact ⟨fun ends => reaches.end_of ends, fun ends => reaches.trans ends⟩

theorem Agrees.ends_iff (agrees : p.Agrees r w q) (outcome : Outcome γ) :
    p.Ends r w outcome u ↔ q.Ends r w outcome u := by
  obtain ⟨common, left, right⟩ := agrees
  exact (left.ends_iff outcome).trans (right.ends_iff outcome).symm

end Program

namespace Trap

theorem dispatchByOptions_becomes (this : Handle) (name : String) (given : Option (List Slot)) :
    (dispatchByOptions this name given).Becomes r w
      (dispatchWith w.options.trapPolicy this name given) :=
  Program.becomes_of_observed (.single (@Program.Observation.ask r w Slot .options w.options
    (fun options => dispatchWith options.trapPolicy this name given) fun _ _ => rfl))

theorem dispatchManaged_becomes {text list : Slot} {name : String} {items : List Slot}
    (given : (Entrance.managed text list).given w = .ok (name, items)) (this : Handle) :
    (dispatchManaged this text list).Becomes r w
      (dispatchWith w.options.trapPolicy this name (some items)) := by
  refine Program.becomes_of_observed (.head (.ask (w.readString text) fun _ _ => rfl) ?_)
  simp only [Entrance.given, bind, Except.bind] at given
  cases named : w.readString text with
  | error f =>
      rw [named] at given
      cases given
  | ok method =>
      rw [named] at given
      have under (values : Option (List Slot)) := observation_environmentPolicy (r := r) (w := w)
        fun policy => dispatchWith policy this method values
      change ReflTransGen (Program.Observation r w) ((readArguments list).bind fun values =>
        environmentPolicy.bind fun policy => dispatchWith policy this method values) _
      unfold readArguments
      by_cases null : list.isNull = true
      · simp only [null, if_true] at given ⊢
        cases given
        exact .single (under none)
      · simp only [null, if_false, Bool.false_eq_true] at given ⊢
        refine .head (.ask (w.readList list) fun _ _ => rfl) ?_
        cases listed : w.readList list with
        | error f =>
            rw [listed] at given
            cases given
        | ok values =>
            rw [listed] at given
            cases given
            exact .single (under (some items))

theorem given_managed {text list : Slot} {name : String} {items : List Slot}
    (named : w.arena.Text text name) (bundled : w.arena.Bundle list items) :
    (Entrance.managed text list).given w = .ok (name, items) := by
  obtain ⟨h, object, rfl, live, payload⟩ := named
  have read : w.readString (.handle h) = .ok name := by
    simp only [World.readString, Slot.expectHandle, bind, Except.bind, Arena.get_eq_ok_iff.mpr live,
      payload]
  cases bundled with
  | null => simp [Entrance.given, read, bind, Except.bind, Slot.isNull, pure, Except.pure]
  | @list k list _ liveList held =>
      have readItems : w.readList (.handle k) = .ok items := by
        simp only [World.readList, Slot.expectHandle, bind, Except.bind,
          Arena.get_eq_ok_iff.mpr liveList, held]
      simp [Entrance.given, read, readItems, bind, Except.bind, Slot.isNull]

theorem admission_receiverOnly {args : List Slot} (given : args ≠ []) (this : Handle)
    (name : String) : ∃ f, w.admission r .receiverOnly this name args = .error f := by
  unfold World.admission
  cases w.validate this with
  | error f => exact ⟨f, rfl⟩
  | ok _ =>
      simp only [bind, Except.bind]
      split
      · cases w.typeOf r this <;> exact ⟨_, rfl⟩
      · cases w.arena.checkHandles args with
        | error f => exact ⟨f, rfl⟩
        | ok _ => exact ⟨_, if_pos ⟨trivial, given⟩⟩

theorem eval_dispatchWith_refused {policy : TrapPolicy} {this : Handle} {name : String}
    {given : Option (List Slot)} {f : Fault}
    (refused : w.admission r policy this name (given.getD []) = .error f) :
    (dispatchWith policy this name given).eval r w = some (.fault f, w) := by
  rw [dispatchWith_eq]
  refine Program.eval_bind_fault ?_
  rw [eval_precheck, refused]
  rfl

theorem answers_receiverOnly {args : List Slot} (given : args ≠ []) (this : Handle)
    (name : String) : ∃ f,
      (dispatchWith .receiverOnly this name (some args)).Answers r w (.fault f) w := by
  obtain ⟨f, refused⟩ := admission_receiverOnly (r := r) (w := w) given this name
  exact ⟨f, Program.answers_of_eval (eval_dispatchWith_refused refused)⟩

theorem verdict_eq_ok {type owner : TypeId} {this : Handle} {object : Object} {name : String}
    {args : List Slot} {m : Method} (live : w.arena.get? this = some object) (named : name ≠ "")
    (others : ∀ h, .handle h ∈ args → ∃ object, w.arena.get? h = some object)
    (resolved : r.resolve? type name = some (owner, m))
    (accepted : m.signature.accepts args = true) :
    verdict r w type .forward this name args = .ok ⟨m, name, .handle this :: args⟩ := by
  have admitted : w.admission r .forward this name args = .ok () := by
    simp [World.admission, World.validate, Arena.get_eq_ok_iff.mpr live, Except.map, bind,
      Except.bind, named, Arena.checkHandles_eq_ok_iff.mpr others]
  rw [verdict, admitted, Registry.select_eq resolved accepted]
  rfl

theorem comes_level {this : Handle} {object : Object} {bundle : List Slot} {value list : Slot}
    {inner : String} {args : List Slot} {answer : Except Fault Call}
    (settles : World.Settles r (r.chain object.type) w u) (live : u.arena.get? this = some object)
    (forwards : u.options.trapPolicy = .forward)
    (resolved : r.resolve? object.type "trap" = some (.object, Protocol.trapMethod))
    (others : ∀ h, .handle h ∈ bundle → ∃ object, u.arena.get? h = some object)
    (accepted : Protocol.trapMethod.signature.accepts bundle = true)
    (body : Protocol.trapMethod.body (.handle this :: bundle) = dispatchManaged this value list)
    (text : u.arena.Text value inner) (bundled : u.arena.Bundle list args)
    (comes : (dispatchWith .forward this inner (some args)).Comes r u u answer) :
    (dispatchWith .forward this "trap" (some bundle)).Comes r w u answer := by
  have root : ("trap", Protocol.trapMethod) ∈ Protocol.methods := by simp [Protocol.methods]
  have outer := comes_dispatchWith settles (settles.marks.arena_eq ▸ live) .forward "trap"
    (some bundle)
  rw [Option.getD_some, verdict_eq_ok live (by decide) others resolved accepted] at outer
  refine outer.through root ?_
  have becomes := dispatchManaged_becomes (r := r) (given_managed text bundled) this
  rw [forwards] at becomes
  rw [body]
  exact Program.Comes.head (fun α β => becomes.prompts) comes

theorem comes_nested {this : Handle} {object : Object} {name outer : String}
    {items args : List Slot} {depth : Nat} (live : u.arena.get? this = some object)
    (forwards : u.options.trapPolicy = .forward)
    (resolved : r.resolve? object.type "trap" = some (.object, Protocol.trapMethod))
    (nested : u.arena.Nested name items depth outer args)
    (settles : World.Settles r (r.chain object.type) w u) :
    (dispatchWith .forward this outer (some args)).Comes r w u
      (verdict r u object.type .forward this name items) := by
  -- Only the outermost level finds anything to settle: the inner ones begin in the settled state.
  induction nested generalizing w with
  | direct =>
      exact comes_dispatchWith settles (settles.marks.arena_eq ▸ live) .forward name (some items)
  | unlisted text _ ih =>
      have lives := text
      obtain ⟨h, string, rfl, present, -⟩ := lives
      refine comes_level settles live forwards resolved (fun k member => ?_) rfl rfl text .null
        (ih settles.again)
      cases List.mem_singleton.mp member
      exact ⟨string, present⟩
  | listed text bundled _ ih =>
      have lives := text
      obtain ⟨h, string, rfl, present, -⟩ := lives
      refine comes_level settles live forwards resolved (fun k member => ?_) rfl rfl text bundled
        (ih settles.again)
      rcases List.mem_cons.mp member with same | last
      · cases same
        exact ⟨string, present⟩
      · cases bundled with
        | null => cases List.mem_singleton.mp last
        | list liveList _ =>
            cases List.mem_singleton.mp last
            exact ⟨_, liveList⟩

theorem comes_nested_of_options {this : Handle} {object : Object} {name outer : String}
    {items args : List Slot} {depth : Nat} (live : w.arena.get? this = some object)
    (forwards : w.options.trapPolicy = .forward)
    (resolved : r.resolve? object.type "trap" = some (.object, Protocol.trapMethod))
    (nested : w.arena.Nested name items depth outer args)
    (settles : World.Settles r (r.chain object.type) w u) :
    (dispatchByOptions this outer (some args)).Comes r w u
      (verdict r u object.type .forward this name items) := by
  have becomes := dispatchByOptions_becomes (r := r) (w := w) this outer (some args)
  rw [forwards] at becomes
  rw [← settles.marks.arena_eq] at live nested
  rw [← settles.marks.options_eq] at forwards
  exact .head (fun α β => becomes.prompts) (comes_nested live forwards resolved nested settles)

end Trap

theorem World.settles_of_unfailed {h : Handle} {object : Object}
    (initialized : InstancesInitialized r w) (tree : r.Tree) (live : w.arena.get? h = some object)
    (unfailed : ∀ a ∈ r.chain object.type, ∀ f, w.progressOf a ≠ some (.failed f)) :
    World.Settles r (r.chain object.type) w (w.settle (r.chain object.type)) :=
  ⟨⟨unfailed, fun _ member fresh => initialized.undeclared tree live member fresh⟩, rfl⟩

namespace Machine

variable {α : Type} {options : Options} {sink : Sink} {program : Program α} {entries : List Entry}
  {m : Machine α}

/-- The managed dispatcher agrees with the one of the host. The one has the name in a string and the
arguments in a list, or null for no arguments, and asks whether arguments are passed on; the other
reads the policy of the options. By these questions both come to the same dispatcher under the same
policy. So they have the same ends, and where the policy is to call with the receiver only, both
refuse arguments with the same fault and nothing is called. Where the policy is to forward
arguments, a call through any number of levels of the dispatcher is like the innermost call, if the
receiver has the dispatcher from the root type and its initialization has not failed. -/
theorem run_managed_trap_agrees (built : r.Built)
    (run : Run r (start options sink program) entries m) :
    (∀ this value bundle name items given, m.world.arena.Text value name →
      m.world.arena.Bundle bundle items → given.getD [] = items →
        Program.Agrees r m.world (Trap.dispatchManaged this value bundle)
          (Trap.dispatchByOptions this name given) ∧
        (∀ outcome u, (Trap.dispatchManaged this value bundle).Ends r m.world outcome u ↔
          (Trap.dispatchByOptions this name given).Ends r m.world outcome u) ∧
        (m.world.options.trapPolicy = .receiverOnly → items ≠ [] → ∃ f,
          (Trap.dispatchManaged this value bundle).Answers r m.world (.fault f) m.world ∧
          (Trap.dispatchByOptions this name given).Answers r m.world (.fault f) m.world)) ∧
    (m.world.options.trapPolicy = .forward → ∀ this object trap,
      m.world.arena.get? this = some object →
      r.resolve? object.type "trap" = some (.object, trap) →
      (∀ a ∈ r.chain object.type, ∀ f, m.world.progressOf a ≠ some (.failed f)) →
      ∀ depth name items outer args, m.world.arena.Nested name items depth outer args →
        Program.Alike r m.world (Trap.dispatchByOptions this outer (some args))
          (Trap.dispatchByOptions this name (some items)) ∧
        Program.SameEnds r m.world (Trap.dispatchByOptions this outer (some args))
          (Trap.dispatchByOptions this name (some items))) := by
  constructor
  · rintro this value bundle name items given text bundled rfl
    have managed := Trap.dispatchManaged_becomes (r := r) (Trap.given_managed text bundled) this
    have native : (Trap.dispatchByOptions this name given).Becomes r m.world
        (Trap.dispatchWith m.world.options.trapPolicy this name (some (given.getD []))) :=
      Trap.dispatchByOptions_becomes this name given
    have agrees : Program.Agrees r m.world _ _ := ⟨_, managed, native⟩
    refine ⟨agrees, fun outcome u => agrees.ends_iff outcome, fun policy nonempty => ?_⟩
    rw [policy] at managed native
    obtain ⟨f, refuses⟩ := Trap.answers_receiverOnly nonempty this name
    exact ⟨f, managed.answers refuses, native.answers refuses⟩
  · intro forwards this object trap live resolved unfailed depth name items outer args nested
    have settles := World.settles_of_unfailed run.instancesInitialized built.tree live unfailed
    have bound : trap = Protocol.trapMethod := by
      simpa [Protocol.methods, Protocol.toStrName, Protocol.finalizeName] using
        built.tree.root_method resolved
    subst bound
    have noLevels : m.world.arena.Nested name items 0 name items := .direct
    have outermost := Trap.comes_nested_of_options live forwards resolved nested settles
    have innermost := Trap.comes_nested_of_options live forwards resolved noLevels settles
    have alike := outermost.alike innermost
    exact ⟨alike, alike.sameEnds⟩

theorem run_managed_trap_agrees_hash :
    ∃ (entries : List Entry) (m : Machine Handle),
      Run .initial (start {} .reliable (Native.createString "hash")) entries m ∧
        Program.Agrees .initial m.world (Trap.dispatchManaged ⟨0, 0⟩ (.handle ⟨0, 0⟩) .null)
          (Trap.dispatchByOptions ⟨0, 0⟩ "hash" none) ∧
        Program.Alike .initial m.world
          (Trap.dispatchByOptions ⟨0, 0⟩ "trap" (some [.handle ⟨0, 0⟩]))
          (Trap.dispatchByOptions ⟨0, 0⟩ "hash" (some [])) := by
  let w := (World.initial {} .reliable).withArena
    ((World.initial {} .reliable).arena.place .string (.text "hash"))
  let last : Machine Handle := .outer w (Program.ofExcept (.ok ⟨0, 0⟩))
  have makes : (start {} .reliable (Native.createString "hash")).step .initial =
      .running last := rfl
  have run := Run.step .refl makes (.refl _)
  have live : last.world.arena.get? ⟨0, 0⟩ = some ⟨1, .string, false, .text "hash"⟩ := rfl
  have text : last.world.arena.Text (.handle ⟨0, 0⟩) "hash" := ⟨_, _, rfl, live, rfl⟩
  have resolved : Registry.initial.resolve? .string "trap" =
      some (.object, Protocol.trapMethod) := by
    rw [Registry.resolve?, Registry.ancestors_initial_string]
    rfl
  have nested : last.world.arena.Nested "hash" [] 1 "trap" [.handle ⟨0, 0⟩] :=
    .unlisted text .direct
  have unfailed : ∀ a ∈ Registry.initial.chain .string, ∀ f,
      last.world.progressOf a ≠ some (.failed f) := by
    intro a _ f failed
    cases failed
  obtain ⟨managed, levels⟩ := run_managed_trap_agrees .initial run
  refine ⟨_, last, run, (managed _ _ _ _ _ none text .null rfl).1, ?_⟩
  exact (levels rfl _ _ _ live resolved unfailed _ _ _ _ _ nested).1

end Machine
end ManagedObjects

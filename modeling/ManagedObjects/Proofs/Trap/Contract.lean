import ManagedObjects.Proofs.Machine.Answers

/-!
What the dispatcher does in any environment. An environment answers each request from a state of its
own, in any way. The requests of a program and the answers to them are its conversation. That of the
dispatcher stops at the first check that fails, and a call is at most the last of its requests.
-/

namespace ManagedObjects

structure Exchange where
  request : Request
  answer : request.Answer

abbrev Environment (σ : Type) := (request : Request) → StateM σ request.Answer

structure Conversation (σ α : Type) where
  exchanges : List Exchange
  outcome : Outcome α
  state : σ

variable {σ α : Type} {env : Environment σ}

def Conversation.after (c : Conversation σ α) (exchanges : List Exchange) : Conversation σ α :=
  { c with exchanges := exchanges ++ c.exchanges }

namespace Program

def converse (env : Environment σ) : Program α → σ → Conversation σ α
  | finish outcome, s => ⟨[], outcome, s⟩
  | ask request resume, s =>
      let answered := env request s
      ((resume answered.1).converse env answered.2).after [⟨request, answered.1⟩]

theorem interpret_eq (p : Program α) (s : σ) :
    p.interpret env s = ((p.converse env s).outcome, (p.converse env s).state) := by
  induction p generalizing s with
  | finish outcome => rfl
  | ask request resume ih => exact ih (env request s).1 (env request s).2

end Program

namespace Environment

inductive Gives (env : Environment σ) : σ → List Exchange → σ → Prop
  | nil (s : σ) : Gives env s [] s
  | cons {s s' t : σ} {request : Request} {answer : request.Answer} {rest : List Exchange} :
      env request s = (answer, s') → Gives env s' rest t →
        Gives env s (⟨request, answer⟩ :: rest) t

theorem gives_converse (p : Program α) (s : σ) :
    env.Gives s (p.converse env s).exchanges (p.converse env s).state := by
  induction p generalizing s with
  | finish outcome => exact .nil s
  | ask request resume ih => exact .cons rfl (ih (env request s).1 (env request s).2)

theorem Gives.unique {s t u : σ} {before rest others : List Exchange} {request : Request}
    {answer other : request.Answer} (gives : env.Gives s (before ++ ⟨request, answer⟩ :: rest) t)
    (gives' : env.Gives s (before ++ ⟨request, other⟩ :: others) u) : answer = other := by
  induction before generalizing s with
  | nil =>
      cases gives with
      | cons first _ =>
          cases gives' with
          | cons second _ => exact congrArg Prod.fst (first.symm.trans second)
  | cons exchange before ih =>
      cases gives with
      | cons first later =>
          cases gives' with
          | cons second later' =>
              cases first.symm.trans second
              exact ih later later'

theorem Gives.earlier {s t : σ} {before rest : List Exchange}
    (gives : env.Gives s (before ++ rest) t) : ∃ u, env.Gives s before u := by
  induction before generalizing s with
  | nil => exact ⟨s, .nil s⟩
  | cons exchange before ih =>
      cases gives with
      | cons first later =>
          obtain ⟨u, earlier⟩ := ih later
          exact ⟨u, .cons first earlier⟩

end Environment

def Request.IsCheck : Request → Prop
  | validate _ | typeOf _ => True
  | _ => False

namespace Trap
open Program Environment

def passed (h : Handle) : Exchange := ⟨.validate h, .ok ()⟩

/-- The ends of a call by name, with all requests that were made before. -/
inductive Ending (policy : TrapPolicy) (this : Handle) (name : String) (args : List Slot) :
    List Exchange → Outcome Slot → Prop
  | unknown (f : Fault) : Ending policy this name args [⟨.validate this, .error f⟩] (.fault f)
  | untyped (f : Fault) : name = "" →
      Ending policy this name args [passed this, ⟨.typeOf this, .error f⟩] (.fault f)
  | unnamed (type : Descriptor) : name = "" →
      Ending policy this name args [passed this, ⟨.typeOf this, .ok type⟩]
        (.fault (.methodNotFound type.name ""))
  | rejected (before after : List Handle) (h : Handle) (f : Fault) :
      name ≠ "" → Slot.handles args = before ++ h :: after →
      Ending policy this name args ((this :: before).map passed ++ [⟨.validate h, .error f⟩])
        (.fault f)
  | excess : name ≠ "" → policy = .receiverOnly → args ≠ [] →
      Ending policy this name args ((this :: Slot.handles args).map passed)
        (.fault (.argumentMismatch name "receiver only" (Signature.describeArguments args)))
  | called (answer : Except Fault Slot) : name ≠ "" → policy = .forward ∨ args = [] →
      Ending policy this name args
        ((this :: Slot.handles args).map passed ++ [⟨.call name (.handle this :: args), answer⟩])
        (.ofExcept answer)

variable {policy : TrapPolicy} {this : Handle} {name : String} {args : List Slot}

theorem converse_ask {request : Request} {answer : request.Answer} {s s' : σ}
    (answered : env request s = (answer, s')) (resume : request.Answer → Program α) :
    (ask request resume).converse env s =
      ((resume answer).converse env s').after [⟨request, answer⟩] := by
  simp only [converse, answered]

theorem converse_validate {h : Handle} {answer : Except Fault Unit} {s s' : σ}
    (answered : env (.validate h) s = (answer, s')) (next : Unit → Program α) :
    ((Native.validate h).bind next).converse env s =
      (((ofExcept answer).bind next).converse env s').after [⟨.validate h, answer⟩] :=
  converse_ask answered _

theorem converse_validateAll (handles : List Handle) (next : Unit → Program α) (s : σ) :
    (∃ s', ((validateAll handles).bind next).converse env s =
      ((next ()).converse env s').after (handles.map passed)) ∨
    ∃ before h after f s', handles = before ++ h :: after ∧
      ((validateAll handles).bind next).converse env s =
        ⟨before.map passed ++ [⟨.validate h, .error f⟩], .fault f, s'⟩ := by
  induction handles generalizing s with
  | nil => exact .inl ⟨s, rfl⟩
  | cons h rest ih =>
      have unfolded : (validateAll (h :: rest)).bind next =
          (Native.validate h).bind fun _ => (validateAll rest).bind next := bind_bind ..
      obtain ⟨answer, s', answered⟩ : ∃ answer s', env (.validate h) s = (answer, s') := ⟨_, _, rfl⟩
      rw [unfolded, converse_validate answered]
      -- The other handles are looked at in the state that this answer left.
      cases answer with
      | error f => exact .inr ⟨[], h, rest, f, s', rfl, rfl⟩
      | ok _ =>
          obtain ⟨t, passes⟩ | ⟨before, k, after, f, t, split, fails⟩ := ih s'
          · exact .inl ⟨t, congrArg (·.after [passed h]) passes⟩
          · exact .inr ⟨h :: before, k, after, f, t, congrArg (h :: ·) split,
              congrArg (·.after [passed h]) fails⟩

theorem ending_forward (policy : TrapPolicy) (this : Handle) {name : String} (named : name ≠ "")
    (args : List Slot) (s : σ) :
    Ending policy this name args
      ((this :: Slot.handles args).map passed ++
        ((forward policy this name args).converse env s).exchanges)
      ((forward policy this name args).converse env s).outcome := by
  unfold forward
  by_cases excess : policy = .receiverOnly ∧ args ≠ []
  · rw [if_pos excess]
    change Ending _ _ _ _ (_ ++ []) _
    rw [List.append_nil]
    exact .excess named excess.1 excess.2
  · have admitted : policy = .forward ∨ args = [] := by
      cases policy with
      | forward => exact .inl rfl
      | receiverOnly => exact .inr (Decidable.not_not.mp fun extra => excess ⟨rfl, extra⟩)
    obtain ⟨answer, s', answered⟩ :
        ∃ answer s', env (.call name (.handle this :: args)) s = (answer, s') := ⟨_, _, rfl⟩
    rw [if_neg excess, Native.call, converse_ask answered, ofExcept_eq_finish]
    exact .called answer named admitted

theorem ending_dispatchWith (policy : TrapPolicy) (this : Handle) (name : String)
    (given : Option (List Slot)) (s : σ) :
    Ending policy this name (given.getD [])
      ((dispatchWith policy this name given).converse env s).exchanges
      ((dispatchWith policy this name given).converse env s).outcome := by
  have program : dispatchWith policy this name given = (Native.validate this).bind fun _ =>
      if name = "" then (Native.typeOf this).bind fun type => fail (.methodNotFound type.name "")
      else (validateAll (Slot.handles (given.getD []))).bind fun _ =>
        forward policy this name (given.getD []) := rfl
  obtain ⟨answer, s', answered⟩ : ∃ answer s', env (.validate this) s = (answer, s') := ⟨_, _, rfl⟩
  rw [program, converse_validate answered]
  cases answer with
  | error f => exact .unknown f
  | ok _ =>
      change Ending _ _ _ _ (Conversation.after (converse env (ite _ _ _) s') _).exchanges
        (Conversation.after (converse env (ite _ _ _) s') _).outcome
      by_cases unnamed : name = ""
      · rw [if_pos unnamed]
        obtain ⟨type, t, typed⟩ : ∃ type t, env (.typeOf this) s' = (type, t) := ⟨_, _, rfl⟩
        have asked := converse_ask typed fun result => (ofExcept result).bind fun type =>
          (fail (.methodNotFound type.name "") : Program Slot)
        change converse env ((Native.typeOf this).bind _) s' = _ at asked
        rw [asked]
        cases type with
        | error f => exact .untyped f unnamed
        | ok type => exact .unnamed type unnamed
      · rw [if_neg unnamed]
        obtain ⟨t, passes⟩ | ⟨before, h, after, f, t, split, fails⟩ :=
          @converse_validateAll σ Slot env (Slot.handles (given.getD []))
            (fun _ => forward policy this name (given.getD [])) s'
        · rw [passes]
          exact ending_forward policy this unnamed (given.getD []) t
        · rw [fails]
          exact .rejected before after h f unnamed split

theorem checks_passed (handles : List Handle) :
    ∀ exchange ∈ handles.map passed, exchange.request.IsCheck := by
  intro exchange member
  obtain ⟨h, -, rfl⟩ := List.mem_map.mp member
  trivial

theorem Ending.checks_or_called {exchanges : List Exchange} {outcome : Outcome Slot}
    (ending : Ending policy this name args exchanges outcome) :
    (∀ exchange ∈ exchanges, exchange.request.IsCheck) ∨
    (name ≠ "" ∧ (policy = .forward ∨ args = [])) ∧
      ∃ answer, outcome = .ofExcept answer ∧ exchanges =
        (this :: Slot.handles args).map passed ++
          [⟨.call name (.handle this :: args), answer⟩] := by
  cases ending with
  | unknown f => exact .inl (by simp [Request.IsCheck])
  | untyped f unnamed => exact .inl (by simp [passed, Request.IsCheck])
  | unnamed type unnamed => exact .inl (by simp [passed, Request.IsCheck])
  | rejected before after h f named split =>
      refine .inl fun exchange member => ?_
      rcases List.mem_append.mp member with earlier | last
      · exact checks_passed _ exchange earlier
      · cases List.mem_singleton.mp last
        trivial
  | excess named restricted extra => exact .inl (checks_passed _)
  | called answer named admitted => exact .inr ⟨⟨named, admitted⟩, answer, rfl, rfl⟩

theorem Ending.called_iff {exchanges : List Exchange} {outcome : Outcome Slot} {s t : σ}
    (ending : Ending policy this name args exchanges outcome) (gives : env.Gives s exchanges t) :
    (∃ answer, ⟨.call name (.handle this :: args), answer⟩ ∈ exchanges) ↔
      (∃ u, env.Gives s ((this :: Slot.handles args).map passed) u) ∧ name ≠ "" ∧
        (policy = .forward ∨ args = []) := by
  constructor
  · rintro ⟨answer, member⟩
    obtain checks | ⟨admitted, other, -, rfl⟩ := ending.checks_or_called
    · exact (checks _ member).elim
    · exact ⟨gives.earlier, admitted⟩
  · rintro ⟨⟨u, passes⟩, named, admitted⟩
    cases ending with
    | unknown f =>
        have first : env.Gives s ([] ++ [⟨.validate this, .error f⟩]) t := gives
        cases first.unique passes
    | untyped f unnamed => exact absurd unnamed named
    | unnamed type unnamed => exact absurd unnamed named
    | rejected before after h f _ split =>
        rw [split, ← List.cons_append, List.map_append] at passes
        cases gives.unique passes
    | excess _ restricted extra =>
        rcases admitted with forwards | bare
        · cases restricted.symm.trans forwards
        · exact absurd bare extra
    | called answer _ _ => exact ⟨answer, List.mem_append_right _ (List.mem_singleton_self _)⟩

/-- The dispatcher in any environment. It stops at the first check that fails. It makes at most one
call, as its last request, with the receiver in front of the arguments, and then the answer is its
result. It makes the call if and only if all handles pass, the name is not empty and the policy
allows the arguments. -/
theorem dispatchWith_contract {σ : Type} (env : Environment σ) (policy : TrapPolicy)
    (this : Handle) (name : String) (given : Option (List Slot)) (s : σ) :
    let args := given.getD []
    let c := (dispatchWith policy this name given).converse env s
    (dispatchWith policy this name given).interpret env s = (c.outcome, c.state) ∧
    env.Gives s c.exchanges c.state ∧
    Ending policy this name args c.exchanges c.outcome ∧
    ((∀ exchange ∈ c.exchanges, exchange.request.IsCheck) ∨
      ∃ answer, c.outcome = .ofExcept answer ∧ c.exchanges =
        (this :: Slot.handles args).map passed ++
          [⟨.call name (.handle this :: args), answer⟩]) ∧
    ((∃ answer, ⟨.call name (.handle this :: args), answer⟩ ∈ c.exchanges) ↔
      (∃ t, env.Gives s ((this :: Slot.handles args).map passed) t) ∧ name ≠ "" ∧
        (policy = .forward ∨ args = [])) ∧
    (dispatchWith policy this name none).converse env s =
      (dispatchWith policy this name (some [])).converse env s := by
  intro args c
  have gives : env.Gives s c.exchanges c.state := gives_converse ..
  have ending : Ending policy this name args c.exchanges c.outcome := ending_dispatchWith ..
  exact ⟨interpret_eq .., gives, ending, ending.checks_or_called.imp_right And.right,
    ending.called_iff gives, rfl⟩

end Trap
end ManagedObjects

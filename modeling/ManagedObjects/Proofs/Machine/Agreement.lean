import ManagedObjects.Proofs.Machine.Answers

/-!
Two pieces of code that come to the same. Each by itself ends, in the same way and in states that
differ at most in the progress of initializers, or each calls the same method with the same
arguments in the same state, and whatever the method returns and leaves, both end in the same way
and in the same state. What a method does depends on nothing below it in the call stack, so such
code has the same ends.
-/

namespace ManagedObjects

open Relation

variable {r : Registry}

namespace Machine

variable {α β γ : Type} {m n : Machine α}

def Advance (r : Registry) (m n : Machine α) : Prop :=
  m.step r = .running n ∧ ∀ entry, m.entered? r = some entry →
    ∃ call, entry = .method call ∧ (call.name, call.method) ∈ Protocol.methods

def Invokes (r : Registry) (m : Machine α) (call : Call) (n : Machine α) : Prop :=
  m.step r = .running n ∧ m.entered? r = some (.method call)

theorem Prompt.advance (prompt : Prompt r m n) : Advance r m n := by
  refine ⟨prompt.1, fun entry entered => ?_⟩
  rw [prompt.2] at entered
  cases entered

theorem Invokes.advance {call : Call} (invokes : Invokes r m call n)
    (root : (call.name, call.method) ∈ Protocol.methods) : Advance r m n := by
  refine ⟨invokes.1, fun entry entered => ?_⟩
  rw [invokes.2] at entered
  exact ⟨call, (Option.some.inj entered).symm, root⟩

theorem advances_of_prompts (prompts : ReflTransGen (Prompt r) m n) :
    ReflTransGen (Advance r) m n :=
  prompts.lift id fun _ _ prompt => prompt.advance

/-- Both machines run code that ends at the site. Both end it, or both invoke the same call in the
same state and end it after the call has returned. -/
inductive Agree (r : Registry) (site : Site α β) (next : Outcome γ → Program β)
    (m n : Machine α) : Prop
  | ended {outcome : Outcome γ} {w w' : World} :
      w.Marks w' → ReflTransGen (Advance r) m (site.plug w (next outcome)) →
        ReflTransGen (Advance r) n (site.plug w' (next outcome)) → Agree r site next m n
  | called {δ ε : Type} {one : Site α δ} {two : Site α ε} {call : Call}
      {first : Except Fault Slot → Program δ} {second : Except Fault Slot → Program ε}
      {w : World} {k l : Machine α} :
      ReflTransGen (Advance r) m k →
        Invokes r k call
          ((one.enter (.method call (.answer first))).plug w (call.method.body call.argv)) →
      ReflTransGen (Advance r) n l →
        Invokes r l call
          ((two.enter (.method call (.answer second))).plug w (call.method.body call.argv)) →
      (∀ result u, ∃ outcome v,
        ReflTransGen (Advance r)
          ((one.enter (.method call (.answer first))).plug u (.ofExcept result))
          (site.plug v (next outcome)) ∧
        ReflTransGen (Advance r)
          ((two.enter (.method call (.answer second))).plug u (.ofExcept result))
          (site.plug v (next outcome))) →
      Agree r site next m n

end Machine

def Program.Alike {γ : Type} (r : Registry) (w : World) (p q : Program γ) : Prop :=
  ∀ (α β : Type) (site : Site α β) (next : Outcome γ → Program β),
    Machine.Agree r site next (site.plug w (p.into next)) (site.plug w (q.into next))

def Program.Ends {γ : Type} (r : Registry) (w : World) (p : Program γ) (outcome : Outcome γ)
    (w' : World) : Prop :=
  Machine.Reaches r (.outer w p) (.outer w' (.finish outcome))

/-- The two pieces of code end in the same ways, in states that differ at most in the progress of
initializers. -/
def Program.SameEnds {γ : Type} (r : Registry) (w : World) (p q : Program γ) : Prop :=
  ∀ outcome u, (p.Ends r w outcome u → ∃ v, q.Ends r w outcome v ∧ u.Marks v) ∧
    (q.Ends r w outcome u → ∃ v, p.Ends r w outcome v ∧ u.Marks v)

theorem Machine.Agree.symm {α β γ : Type} {site : Site α β} {next : Outcome γ → Program β}
    {m n : Machine α} (agree : Agree r site next m n) : Agree r site next n m := by
  cases agree with
  | ended marks first second => exact .ended marks.symm second first
  | called toFirst invokes toSecond invokesToo back =>
      refine .called toSecond invokesToo toFirst invokes fun result u => ?_
      obtain ⟨outcome, v, one, two⟩ := back result u
      exact ⟨outcome, v, two, one⟩

theorem Program.Alike.symm {γ : Type} {w : World} {p q : Program γ} (alike : Alike r w p q) :
    Alike r w q p :=
  fun α β site next => (alike α β site next).symm

namespace Site

variable {α : Type}

def above (place : Site α Slot) : List (Frame Slot) → Site α Slot
  | [] => place
  | frame :: frames => (place.above frames).enter frame

variable {place : Site α Slot} {frames : List (Frame Slot)} {w : World}
  {program : Program Slot} {n : Machine α}

theorem carry_above (other : Site α Slot) {action : Action Slot}
    (step : (place.above frames).carry action = .running n) :
    ∃ frames' w' program', n = (place.above frames').plug w' program' ∧
      (other.above frames).carry action = .running ((other.above frames').plug w' program') := by
  rcases carry_eq_running step with ⟨w', program', rfl, rfl⟩ | ⟨w', body, frame, rfl, rfl⟩
  · exact ⟨frames, w', program', rfl, carry_proceed _ _⟩
  · exact ⟨frame :: frames, w', body, rfl, carry_enter _ _ _⟩

theorem step_above (other : Site α Slot)
    (step : ((place.above frames).plug w program).step r = .running n) :
    (frames = [] ∧ ∃ result, program = .ofExcept result) ∨
      ∃ frames' w' program', n = (place.above frames').plug w' program' ∧
        ((other.above frames).plug w program).step r =
          .running ((other.above frames').plug w' program') := by
  have ended : ∀ result, program = .ofExcept result →
      (frames = [] ∧ ∃ result, program = .ofExcept result) ∨
        ∃ frames' w' program', n = (place.above frames').plug w' program' ∧
          ((other.above frames).plug w program).step r =
            .running ((other.above frames').plug w' program') := by
    rintro result rfl
    cases frames with
    | nil => exact .inl ⟨rfl, result, rfl⟩
    | cons frame frames =>
        simp only [above, step_ended] at step ⊢
        exact .inr (carry_above other step)
  cases program with
  | ask request resume =>
      simp only [step_ask] at step ⊢
      exact .inr (carry_above other step)
  | finish outcome =>
      cases outcome with
      | value slot => exact ended (.ok slot) rfl
      | fault f => exact ended (.error f) rfl
      | aborted => cases located : place.above frames <;> rw [located] at step <;> cases step

theorem suspended_above_enter {β : Type} (site : Site α β) (frame : Frame β)
    (frames : List (Frame Slot)) : ((site.enter frame).above frames).suspended ≠ [] := by
  cases frames <;> simp [above]

end Site

namespace Machine

variable {α : Type} {m n o : Machine α}

theorem reaches_iff : Reaches r m n ↔ ReflTransGen (fun a b => a.step r = .running b) m n := by
  constructor
  · intro reaches
    induction reaches with
    | refl => exact .refl
    | step _ step ih => exact ih.tail step
  · intro steps
    induction steps with
    | refl => exact .refl m
    | tail _ step ih => exact ih.step step

theorem Reaches.trans (first : Reaches r m n) (second : Reaches r n o) : Reaches r m o :=
  reaches_iff.mpr ((reaches_iff.mp first).trans (reaches_iff.mp second))

theorem reaches_of_advances (advances : ReflTransGen (Advance r) m n) : Reaches r m n :=
  reaches_iff.mpr (advances.lift id fun _ _ advance => advance.1)

theorem Reaches.eq_of_ended {w : World} {outcome : Outcome α}
    (reaches : Reaches r (.outer w (.finish outcome)) n) : n = .outer w (.finish outcome) := by
  rcases (reaches_iff.mp reaches).cases_head with rfl | ⟨next, step, -⟩
  · rfl
  · cases outcome <;> cases step

theorem Reaches.end_of {w : World} {outcome : Outcome α} (first : Reaches r m n)
    (ends : Reaches r m (.outer w (.finish outcome))) :
    Reaches r n (.outer w (.finish outcome)) := by
  rcases ReflTransGen.total_of_right_unique
    (fun _ _ _ one two => StepResult.running.inj (one.symm.trans two))
    (reaches_iff.mp first) (reaches_iff.mp ends) with onward | back
  · exact reaches_iff.mpr onward
  · rw [Reaches.eq_of_ended (reaches_iff.mpr back)]
    exact .refl _

theorem Reaches.above {place : Site α Slot} {w : World} {body : Program Slot}
    (reaches : Reaches r (place.plug w body) n) (other : Site α Slot) :
    (∃ frames u program, n = (place.above frames).plug u program ∧
      Reaches r (other.plug w body) ((other.above frames).plug u program)) ∨
    ∃ u result, Reaches r (other.plug w body) (other.plug u (.ofExcept result)) ∧
      Reaches r (place.plug u (.ofExcept result)) n := by
  -- While the body runs, the same frames lie above both places. Once it has ended, the run goes on
  -- below it, of which nothing is said.
  generalize source : place.plug w body = m at reaches
  induction reaches with
  | refl => exact .inl ⟨[], w, body, source.symm, .refl _⟩
  | step _ step ih =>
      rcases ih with ⟨frames, u, program, rfl, within⟩ | ⟨u, result, within, after⟩
      · rcases Site.step_above other step with
          ⟨rfl, result, rfl⟩ | ⟨frames', u', program', rfl, stepped⟩
        · exact .inr ⟨u, result, within, .step (.refl _) step⟩
        · exact .inl ⟨frames', u', program', rfl, within.step stepped⟩
      · exact .inr ⟨u, result, within, after.step step⟩

end Machine

theorem Program.Alike.ends {γ : Type} {w u : World} {p q : Program γ} {outcome : Outcome γ}
    (alike : Alike r w p q) (ends : p.Ends r w outcome u) :
    ∃ v, q.Ends r w outcome v ∧ u.Marks v := by
  have agree := alike γ γ .outer finish
  rw [into_finish, into_finish] at agree
  cases agree with
  | ended marks first second =>
      have same := ((Machine.reaches_of_advances first).end_of ends).eq_of_ended
      cases same
      exact ⟨_, Machine.reaches_of_advances second, marks⟩
  | @called δ ε one two call resume other w' k l toFirst invokes toSecond invokesToo back =>
      have reached := (Machine.reaches_of_advances toFirst).step invokes.1
      have within := reached.end_of ends
      -- The end has nothing below it, so the run to the end has left the body of the call.
      rcases within.above (two.enter (.method call (.answer other))) with
        ⟨frames, u', program, same, -⟩ | ⟨u', result, returns, after⟩
      · have below := congrArg Machine.suspended same
        rw [Site.suspended_plug] at below
        exact absurd below.symm (Site.suspended_above_enter _ _ _)
      · obtain ⟨o, v, first, second⟩ := back result u'
        have same := ((Machine.reaches_of_advances first).end_of after).eq_of_ended
        cases same
        refine ⟨_, ?_, .refl _⟩
        exact (((Machine.reaches_of_advances toSecond).step invokesToo.1).trans returns).trans
          (Machine.reaches_of_advances second)

theorem Program.Alike.sameEnds {γ : Type} {w : World} {p q : Program γ}
    (alike : Alike r w p q) : SameEnds r w p q :=
  fun _ _ => ⟨alike.ends, alike.symm.ends⟩

/-- The machine ends its code with the fault, in a state that differs from the given one at most in
the progress of initializers, or it invokes the call in the given state and ends as the call
does. -/
inductive Machine.Comes {α β : Type} (r : Registry) (u : World) (site : Site α β)
    (next : Outcome Slot → Program β) (m : Machine α) : Except Fault Call → Prop
  | refused {f : Fault} {v : World} :
      u.Marks v → ReflTransGen (Advance r) m (site.plug v (next (.fault f))) →
        Comes r u site next m (.error f)
  | entered {δ : Type} {place : Site α δ} {call : Call} {resume : Except Fault Slot → Program δ}
      {k : Machine α} :
      ReflTransGen (Advance r) m k →
        Invokes r k call
          ((place.enter (.method call (.answer resume))).plug u (call.method.body call.argv)) →
      (∀ result v, ReflTransGen (Advance r)
        ((place.enter (.method call (.answer resume))).plug v (.ofExcept result))
        (site.plug v (next (.ofExcept result)))) →
      Comes r u site next m (.ok call)

namespace Program

def Comes (r : Registry) (w u : World) (p : Program Slot) (verdict : Except Fault Call) : Prop :=
  ∀ (α β : Type) (site : Site α β) (next : Outcome Slot → Program β),
    Machine.Comes r u site next (site.plug w (p.into next)) verdict

variable {w v u : World} {p q : Program Slot} {verdict : Except Fault Call} {call : Call}

theorem Comes.head
    (prompts : ∀ (α β : Type) (site : Site α β) (next : Outcome Slot → Program β),
      ReflTransGen (Machine.Prompt r) (site.plug w (p.into next)) (site.plug v (q.into next)))
    (comes : q.Comes r v u verdict) : p.Comes r w u verdict := by
  intro α β site next
  have onward := Machine.advances_of_prompts (prompts α β site next)
  cases comes α β site next with
  | refused marks ends => exact .refused marks (onward.trans ends)
  | entered toCall invokes back => exact .entered (onward.trans toCall) invokes back

theorem Comes.alike (first : p.Comes r w u verdict) (second : q.Comes r w u verdict) :
    Alike r w p q := by
  intro α β site next
  cases first α β site next with
  | refused marks ends =>
      cases second α β site next with
      | refused marksToo endsToo => exact .ended (marks.symm.trans marksToo) ends endsToo
  | entered toCall invokes back =>
      cases second α β site next with
      | entered toCallToo invokesToo backToo =>
          refine .called toCall invokes toCallToo invokesToo fun result v => ?_
          exact ⟨.ofExcept result, v, back result v, backToo result v⟩

theorem Comes.through (root : (call.name, call.method) ∈ Protocol.methods)
    (comes : p.Comes r w u (.ok call)) (body : (call.method.body call.argv).Comes r u u verdict) :
    p.Comes r w u verdict := by
  intro α β site next
  cases comes α β site next with
  | @entered δ place _ resume k toCall invokes back =>
      have within := body α Slot (place.enter (.method call (.answer resume))) finish
      rw [into_finish] at within
      have toBody := toCall.tail (invokes.advance root)
      cases within with
      | @refused f v marks ends =>
          exact .refused marks ((toBody.trans ends).trans (back (.error f) v))
      | entered toInner invokesInner backInner =>
          refine .entered (toBody.trans toInner) invokesInner fun result v => ?_
          refine (backInner result v).trans ?_
          rw [← ofExcept_eq_finish]
          exact back result v

theorem Comes.ends_of_eval (root : (call.name, call.method) ∈ Protocol.methods)
    (comes : p.Comes r w u (.ok call)) {result : Except Fault Slot}
    (evaluates : (call.method.body call.argv).eval r u = some (.ofExcept result, v))
    {α β : Type} (site : Site α β) (next : Outcome Slot → Program β) :
    ReflTransGen (Machine.Advance r) (site.plug w (p.into next))
      (site.plug v (next (.ofExcept result))) := by
  cases comes α β site next with
  | @entered δ place _ resume k toCall invokes back =>
      have within := Machine.prompts_into evaluates (place.enter (.method call (.answer resume)))
        finish
      rw [into_finish, ← ofExcept_eq_finish] at within
      have toBody := toCall.tail (invokes.advance root)
      exact (toBody.trans (Machine.advances_of_prompts within)).trans (back result v)

theorem Comes.alike_into (root : (call.name, call.method) ∈ Protocol.methods)
    (comes : p.Comes r w u (.ok call)) {rest : Outcome Slot → Program Slot}
    (body : call.method.body call.argv = q.into rest)
    (within : q.Comes r u u verdict) (direct : q.Comes r w u verdict)
    (fails : ∀ f, rest (.fault f) = finish (.fault f))
    (ends : ∀ result v, ∃ answer v',
      (rest (.ofExcept result)).eval r v = some (.ofExcept answer, v')) :
    Alike r w p (q.into rest) := by
  intro α β site next
  rw [into_into]
  -- The inner call is made from the body of the method on one side and at once on the other; what
  -- is left after it needs no other code and ends alike on both.
  cases comes α β site next with
  | @entered δ place _ resume k toCall invokes back =>
      have toBody := toCall.tail (invokes.advance root)
      have inner := within α Slot (place.enter (.method call (.answer resume))) rest
      rw [← body] at inner
      have outer := direct α β site fun outcome => (rest outcome).into next
      cases inner with
      | @refused f v marks refusal =>
          cases outer with
          | refused marksToo refusalToo =>
              rw [fails] at refusal refusalToo
              exact .ended (marks.symm.trans marksToo)
                ((toBody.trans refusal).trans (back (.error f) v)) refusalToo
      | entered toInner invokesInner backInner =>
          cases outer with
          | entered toOuter invokesOuter backOuter =>
              refine .called (toBody.trans toInner) invokesInner toOuter invokesOuter
                fun result v => ?_
              obtain ⟨answer, v', evaluates⟩ := ends result v
              refine ⟨.ofExcept answer, v', ?_, ?_⟩
              · have returned := Machine.prompts_into evaluates
                  (place.enter (.method call (.answer resume))) finish
                rw [into_finish, ← ofExcept_eq_finish] at returned
                exact ((backInner result v).trans (Machine.advances_of_prompts returned)).trans
                  (back answer v')
              · exact (backOuter result v).trans
                  (Machine.advances_of_prompts (Machine.prompts_into evaluates site next))

end Program

end ManagedObjects

import Mathlib.Logic.Relation
import ManagedObjects.Proofs.Machine.Dispatch
import ManagedObjects.Proofs.Trap.Forwarding

namespace ManagedObjects

variable {r : Registry}

namespace World

def reply (r : Registry) (w : World) : (request : Request) → Option (request.Answer × World)
  | .forwardsArguments => some (w.forwardsArguments, w)
  | .validate h => some (w.validate h, w)
  | .objectId h => some (w.objectId h, w)
  | .typeOf h => some (w.typeOf r h, w)
  | .typeObject id => some (w.typeObject r id)
  | .createString s => some (w.createString s)
  | .readString value => some (w.readString value, w)
  | .createList values => some (w.createList values)
  | .readList value => some (w.readList value, w)
  | .getField h index => some (w.getField h index, w)
  | .setField h index value => some (w.setField h index value)
  | .isFrozen h => some (w.isFrozen h, w)
  | .freeze h => some (w.freeze h)
  | .writeLine line => some (w.writeLine line)
  | .reflect h => some (w.reflect r h, w)
  | .options => some (w.options, w)
  | .liveObjects => some (w.arena.live, w)
  | .overview => some (w.overview r, w)
  | .call .. | .instantiate _ | .instantiateWith .. | .release _ | .invoke .. => none

theorem serve_of_reply {α : Type} {w : World} {request : Request} {x : request.Answer × World}
    (replied : w.reply r request = some x) (resume : request.Answer → Program α) :
    w.serve r request resume = .proceed x.2 (resume x.1) := by
  cases request with
  | call | instantiate | instantiateWith | release | invoke => cases replied
  | _ =>
      cases replied
      rfl

/-! ## The progress of initializers -/

def withProgress (w : World) (progress : List (TypeId × Progress)) : World :=
  { w with progress := progress }

theorem Marks.eq_withProgress {w w' : World} (marks : w.Marks w') :
    w' = w.withProgress w'.progress := by
  obtain ⟨progress, rfl⟩ := marks
  rfl

theorem Marks.symm {w w' : World} (marks : w.Marks w') : w'.Marks w := by
  obtain ⟨progress, rfl⟩ := marks
  exact ⟨w.progress, rfl⟩

theorem Marks.of_withProgress (w : World) (progress : List (TypeId × Progress)) :
    w.Marks (w.withProgress progress) :=
  ⟨progress, rfl⟩

theorem checked_withProgress {β : Type} (w : World) (progress : List (TypeId × Progress))
    (values : List Slot) (change : Except Fault β × World) :
    (w.withProgress progress).checked values (change.1, change.2.withProgress progress) =
      ((w.checked values change).1, (w.checked values change).2.withProgress progress) := by
  simp only [checked, withProgress]
  cases w.arena.checkHandles values <;> rfl

theorem reply_withProgress (w : World) (progress : List (TypeId × Progress)) (request : Request) :
    (w.withProgress progress).reply r request =
      (w.reply r request).map fun x => (x.1, x.2.withProgress progress) := by
  cases request with
  | typeObject id =>
      simp only [reply, Option.map_some, typeObject]
      cases r.get? id with
      | none => rfl
      | some t =>
          simp only [withProgress]
          cases w.typeObjects.lookup id with
          | some h => rfl
          | none =>
              simp only [allocate, ofArena]
              cases (w.arena.allocate .type (.typeObject id)).1 <;> rfl
  | createList values =>
      exact congrArg some
        (w.checked_withProgress progress values (w.allocate .list (.items values)))
  | setField h index value =>
      exact congrArg some (w.checked_withProgress progress [value]
        (w.ofArena (w.arena.update h (writeField index value))))
  | _ => rfl

end World

def Request.Immediate (r : Registry) (request : Request) : Prop :=
  ∀ w, ∃ x, World.reply r w request = some x

def Outcome.ofExcept {α : Type} : Except Fault α → Outcome α
  | .ok a => value a
  | .error f => fault f

namespace Program

variable {α β γ : Type}

theorem ofExcept_eq_finish (result : Except Fault α) :
    ofExcept result = finish (.ofExcept result) := by
  cases result <;> rfl

theorem into_finish (p : Program α) : p.into finish = p := by
  induction p with
  | finish outcome => rfl
  | ask request resume ih =>
      simp only [into]
      congr 1
      funext answer
      exact ih answer

theorem into_into (p : Program α) (f : Outcome α → Program β) (g : Outcome β → Program γ) :
    (p.into f).into g = p.into fun outcome => (f outcome).into g := by
  induction p with
  | finish outcome => rfl
  | ask request resume ih =>
      simp only [into]
      congr 1
      funext answer
      exact ih answer

theorem bind_eq_into (p : Program α) (next : α → Program β) :
    p.bind next = p.into fun outcome => (finish outcome).bind next := by
  induction p with
  | finish outcome => rfl
  | ask request resume ih =>
      simp only [into, Program.bind]
      congr 1
      funext answer
      exact ih answer

/-! ## Evaluation -/

/-- What the code comes to if no other code has to run for it, and the state after it. -/
def eval (r : Registry) : Program α → World → Option (Outcome α × World)
  | finish outcome, w => some (outcome, w)
  | ask request resume, w => (w.reply r request).bind fun x => (resume x.1).eval r x.2

@[simp] theorem eval_ofExcept (result : Except Fault α) (w : World) :
    (ofExcept result).eval r w = some (.ofExcept result, w) := by
  cases result <;> rfl

theorem eval_into (p : Program α) (next : Outcome α → Program β) (w : World) :
    (p.into next).eval r w = (p.eval r w).bind fun x => (next x.1).eval r x.2 := by
  induction p generalizing w with
  | finish outcome => rfl
  | ask request resume ih =>
      simp only [into, eval, ih]
      exact (Option.bind_assoc _ _ _).symm

theorem eval_bind (p : Program α) (next : α → Program β) (w : World) :
    (p.bind next).eval r w =
      (p.eval r w).bind fun x => ((finish x.1).bind next).eval r x.2 := by
  rw [bind_eq_into, eval_into]

theorem eval_bind_value {p : Program α} {next : α → Program β} {w u : World} {a : α}
    (evaluates : p.eval r w = some (.value a, u)) :
    (p.bind next).eval r w = (next a).eval r u := by
  rw [eval_bind, evaluates]
  rfl

theorem eval_bind_fault {p : Program α} {next : α → Program β} {w u : World} {f : Fault}
    (evaluates : p.eval r w = some (.fault f, u)) :
    (p.bind next).eval r w = some (.fault f, u) := by
  rw [eval_bind, evaluates]
  rfl

section Reads
variable {w : World} {h : Handle} {object : Object}

theorem eval_validate (w : World) (h : Handle) :
    (Native.validate h).eval r w = some (.ofExcept (w.validate h), w) :=
  eval_ofExcept _ w

theorem eval_objectId (w : World) (h : Handle) :
    (Native.objectId h).eval r w = some (.ofExcept (w.objectId h), w) :=
  eval_ofExcept _ w

theorem eval_typeOf (w : World) (h : Handle) :
    (Native.typeOf h).eval r w = some (.ofExcept (w.typeOf r h), w) :=
  eval_ofExcept _ w

theorem eval_validate_live (live : w.arena.get? h = some object) :
    (Native.validate h).eval r w = some (.value (), w) := by
  rw [eval_validate, World.validate_eq_ok live, Outcome.ofExcept]

theorem eval_validate_stale (dead : w.arena.get? h = none) :
    (Native.validate h).eval r w = some (.fault (.invalidHandle h), w) := by
  rw [eval_validate, World.validate_eq_error dead, Outcome.ofExcept]

theorem eval_objectId_live (live : w.arena.get? h = some object) :
    (Native.objectId h).eval r w = some (.value object.id, w) := by
  rw [eval_objectId, World.objectId_eq_ok live, Outcome.ofExcept]

theorem eval_objectId_stale (dead : w.arena.get? h = none) :
    (Native.objectId h).eval r w = some (.fault (.invalidHandle h), w) := by
  rw [eval_objectId, World.objectId_eq_error dead, Outcome.ofExcept]

end Reads

theorem eval_withProgress (p : Program α) (w : World) (progress : List (TypeId × Progress)) :
    p.eval r (w.withProgress progress) =
      (p.eval r w).map fun x => (x.1, x.2.withProgress progress) := by
  induction p generalizing w with
  | finish outcome => rfl
  | ask request resume ih =>
      simp only [eval, World.reply_withProgress]
      cases w.reply r request with
      | none => rfl
      | some x => exact ih x.1 x.2

theorem eval_of_marks {p : Program α} {w v w' : World} {outcome : Outcome α}
    (evaluates : p.eval r w = some (outcome, w')) (marks : w.Marks v) :
    ∃ v', p.eval r v = some (outcome, v') ∧ w'.Marks v' := by
  rw [marks.eq_withProgress, eval_withProgress, evaluates]
  exact ⟨_, rfl, .of_withProgress w' v.progress⟩

/-! ## Code that asks for little -/

inductive Asks (allowed : Request → Prop) : Program α → Prop
  | value (a : α) : Asks allowed (finish (.value a))
  | fault (f : Fault) : Asks allowed (finish (.fault f))
  | ask {request : Request} {resume : request.Answer → Program α} :
      allowed request → (∀ answer, Asks allowed (resume answer)) →
        Asks allowed (.ask request resume)

namespace Asks

variable {allowed other : Request → Prop} {p : Program α} {w : World}

theorem ofExcept (result : Except Fault α) : Asks allowed (Program.ofExcept result) := by
  cases result with
  | ok a => exact .value a
  | error f => exact .fault f

theorem bind {next : α → Program β} (first : Asks allowed p)
    (second : ∀ a, Asks allowed (next a)) : Asks allowed (p.bind next) := by
  induction first with
  | value a => exact second a
  | fault f => exact .fault f
  | ask permitted _ ih => exact .ask permitted ih

theorem eval_eq (asks : Asks (Request.Immediate r) p) (w : World) :
    ∃ result w', p.eval r w = some (.ofExcept result, w') := by
  induction asks generalizing w with
  | value a => exact ⟨.ok a, w, rfl⟩
  | fault f => exact ⟨.error f, w, rfl⟩
  | ask permitted _ ih =>
      obtain ⟨x, replied⟩ := permitted w
      simp only [eval, replied]
      exact ih x.1 x.2

end Asks
end Program

/-! ## Steps -/

namespace Machine

variable {α β γ : Type}

def Prompt (r : Registry) (m n : Machine α) : Prop :=
  m.step r = .running n ∧ m.entered? r = none

theorem prompts_of_quiet {m n : Machine α} (quiet : Relation.ReflTransGen (Quiet r) m n) :
    Relation.ReflTransGen (Prompt r) m n :=
  quiet.lift id fun _ _ step => ⟨step.1, step.2.1⟩

theorem prompt_ask (site : Site α β) {w : World} {request : Request} {x : request.Answer × World}
    (replied : w.reply r request = some x) (resume : request.Answer → Program β) :
    Prompt r (site.plug w (.ask request resume)) (site.plug x.2 (resume x.1)) := by
  have served := World.serve_of_reply replied resume
  refine ⟨?_, ?_⟩
  · rw [site.step_ask, served, Site.carry_proceed]
  · rw [site.entered?_ask, served]
    rfl

theorem prompt_return (site : Site α β) (call : Call) (resume : Except Fault Slot → Program β)
    (w : World) (result : Except Fault Slot) :
    Prompt r ((site.enter (.method call (.answer resume))).plug w (.ofExcept result))
      (site.plug w (resume result)) := by
  refine ⟨?_, ?_⟩
  · rw [site.step_ended]
    exact site.carry_proceed _
  · rw [site.entered?_ended]
    rfl

theorem prompts_into {p : Program γ} {w : World} {x : Outcome γ × World}
    (evaluates : p.eval r w = some x) (site : Site α β) (next : Outcome γ → Program β) :
    Relation.ReflTransGen (Prompt r) (site.plug w (p.into next)) (site.plug x.2 (next x.1)) := by
  induction p generalizing w with
  | finish outcome =>
      cases evaluates
      exact .refl
  | ask request resume ih =>
      obtain ⟨y, replied, rest⟩ := Option.bind_eq_some_iff.mp evaluates
      exact .head (prompt_ask site replied _) (ih y.1 rest)

end Machine

/-- Wherever the code runs in the state, it ends with the outcome and leaves the second state, and
no other code is set going meanwhile. -/
def Program.Answers {γ : Type} (r : Registry) (w : World) (p : Program γ) (outcome : Outcome γ)
    (w' : World) : Prop :=
  ∀ (α β : Type) (site : Site α β) (next : Outcome γ → Program β),
    Relation.ReflTransGen (Machine.Prompt r) (site.plug w (p.into next))
      (site.plug w' (next outcome))

theorem Program.answers_of_eval {γ : Type} {w w' : World} {p : Program γ} {outcome : Outcome γ}
    (evaluates : p.eval r w = some (outcome, w')) : p.Answers r w outcome w' :=
  fun _ _ site next => Machine.prompts_into evaluates site next

theorem Machine.prompt_rightUnique {α : Type} : Relator.RightUnique (Prompt (α := α) r) := by
  rintro m n o ⟨first, -⟩ ⟨second, -⟩
  exact StepResult.running.inj (first.symm.trans second)

theorem Program.Answers.unique {γ : Type} {w u v : World} {p : Program γ} {one two : Outcome γ}
    (first : p.Answers r w one u) (second : p.Answers r w two v) : one = two ∧ u = v := by
  have ended : ∀ {outcome : Outcome γ} {w' : World} {m : Machine γ},
      Relation.ReflTransGen (Machine.Prompt r) (.outer w' (finish outcome)) m →
        m = .outer w' (finish outcome) := by
    intro outcome w' m onward
    rcases onward.cases_head with rfl | ⟨next, ⟨step, -⟩, -⟩
    · rfl
    · cases outcome <;> cases step
  -- Both ends are reached from the same machine, so one of them is reached from the other.
  rcases Relation.ReflTransGen.total_of_right_unique Machine.prompt_rightUnique
    (first γ γ .outer finish) (second γ γ .outer finish) with onward | onward
  · cases ended onward
    exact ⟨rfl, rfl⟩
  · cases ended onward
    exact ⟨rfl, rfl⟩

end ManagedObjects

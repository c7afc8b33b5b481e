import ManagedObjects.Proofs.Machine.Step

/-!
The place of the running code in a machine: outermost, or within the calls that wait for it. A step
does the same in every place, so what is said of code that asks, or of code that has ended, is said
once for all depths of the call stack.
-/

namespace ManagedObjects

def World.Replies (r : Registry) (w : World) (request : Request) (answer : request.Answer) : Prop :=
  ∀ (β : Type) (resume : request.Answer → Program β),
    w.serve r request resume = .proceed w (resume answer)

def Machine.Quiet {α : Type} (r : Registry) (m n : Machine α) : Prop :=
  m.step r = .running n ∧ m.entered? r = none ∧ n.world = m.world

/-- A machine without its state and its running code. The second type is that of the code's
result. -/
inductive Site (α : Type) : Type → Type
  | outer : Site α α
  | inner (stack : List (Frame Slot)) (base : Frame α) : Site α Slot

namespace Site

variable {α β : Type}

def plug : Site α β → World → Program β → Machine α
  | outer, w, program => .outer w program
  | inner stack base, w, body => .inner w body stack base

def enter : Site α β → Frame β → Site α Slot
  | outer, frame => inner [] frame
  | inner stack base, frame => inner (frame :: stack) base

def carry : Site α β → Action β → StepResult α
  | outer, action => action.atBase
  | inner stack base, action => action.within stack base

def suspended : Site α β → List Suspended
  | outer => []
  | inner stack base => stack.map Frame.suspended ++ [base.suspended]

@[simp] theorem world_plug (site : Site α β) (w : World) (program : Program β) :
    (site.plug w program).world = w := by
  cases site <;> rfl

@[simp] theorem suspended_plug (site : Site α β) (w : World) (program : Program β) :
    (site.plug w program).suspended = site.suspended := by
  cases site <;> rfl

@[simp] theorem suspended_enter (site : Site α β) (frame : Frame β) :
    (site.enter frame).suspended = frame.suspended :: site.suspended := by
  cases site <;> rfl

theorem exists_enter (stack : List (Frame Slot)) (base : Frame α) :
    ∃ (β : Type) (site : Site α β) (frame : Frame β), inner stack base = site.enter frame := by
  cases stack with
  | nil => exact ⟨α, .outer, base, rfl⟩
  | cons frame stack => exact ⟨Slot, .inner stack base, frame, rfl⟩

section Steps
variable {r : Registry} {w : World}

theorem step_ask (site : Site α β) (request : Request) (resume : request.Answer → Program β) :
    (site.plug w (.ask request resume)).step r = site.carry (w.serve r request resume) := by
  cases site <;> rfl

theorem entered?_ask (site : Site α β) (request : Request)
    (resume : request.Answer → Program β) :
    (site.plug w (.ask request resume)).entered? r = (w.serve r request resume).entered? := by
  cases site <;> rfl

theorem request?_ask (site : Site α β) (request : Request)
    (resume : request.Answer → Program β) :
    (site.plug w (.ask request resume)).request? = some request := by
  cases site <;> rfl

theorem step_ended (site : Site α β) (frame : Frame β) (result : Except Fault Slot) :
    ((site.enter frame).plug w (.ofExcept result)).step r =
      site.carry (frame.resume r w result) := by
  cases result <;> cases site <;> rfl

theorem entered?_ended (site : Site α β) (frame : Frame β) (result : Except Fault Slot) :
    ((site.enter frame).plug w (.ofExcept result)).entered? r =
      (frame.resume r w result).entered? := by
  cases result <;> cases site <;> rfl

theorem request?_ended (site : Site α β) (frame : Frame β) (result : Except Fault Slot) :
    ((site.enter frame).plug w (.ofExcept result)).request? = frame.request? := by
  cases result <;> cases site <;> rfl

theorem carry_proceed (site : Site α β) (program : Program β) :
    site.carry (.proceed w program) = .running (site.plug w program) := by
  cases site <;> rfl

theorem carry_enter (site : Site α β) (body : Program Slot) (frame : Frame β) :
    site.carry (.enter w body frame) = .running ((site.enter frame).plug w body) := by
  cases site <;> rfl

theorem quiet_ask (site : Site α β) {request : Request} {answer : request.Answer}
    (replies : w.Replies r request answer) (resume : request.Answer → Program β) :
    Machine.Quiet r (site.plug w (.ask request resume)) (site.plug w (resume answer)) := by
  refine ⟨?_, ?_, by simp⟩
  · rw [step_ask, replies, carry_proceed]
  · rw [entered?_ask, replies]
    rfl

theorem carry_eq_running {site : Site α β} {action : Action β} {next : Machine α}
    (step : site.carry action = .running next) :
    (∃ w program, action = .proceed w program ∧ next = site.plug w program) ∨
      ∃ w body frame, action = .enter w body frame ∧ next = (site.enter frame).plug w body := by
  cases action with
  | proceed w program =>
      rw [carry_proceed] at step
      exact .inl ⟨w, program, rfl, (StepResult.running.inj step).symm⟩
  | enter w body frame =>
      rw [carry_enter] at step
      exact .inr ⟨w, body, frame, rfl, (StepResult.running.inj step).symm⟩
  | abort => cases site <;> cases step

end Steps
end Site

def Request.deferred : Request → Bool
  | instantiate _ | instantiateWith _ _ | release _ => true
  | _ => false

theorem Return.request?_deferred {α : Type} {result : Return α} {request : Request}
    (waits : result.request? = some request) : request.deferred = true := by
  cases result with
  | answer resume => cases waits
  | reclaim h resume =>
      cases waits
      rfl

theorem Frame.request?_deferred {α : Type} {frame : Frame α} {request : Request}
    (waits : frame.request? = some request) : request.deferred = true := by
  cases frame with
  | method call result => exact Return.request?_deferred waits
  | staticInit id pending goal =>
      cases goal with
      | construct type values resume =>
          cases values <;> cases waits <;> rfl
      | dispatch type name argv result => exact Return.request?_deferred waits

namespace Machine

theorem exists_ask {α : Type} {m : Machine α} {request : Request}
    (asked : m.request? = some request) (prompt : request.deferred = false) :
    ∃ (β : Type) (site : Site α β) (resume : request.Answer → Program β),
      m = site.plug m.world (.ask request resume) := by
  have waits : ∀ {γ : Type} (frame : Frame γ), frame.request? ≠ some request := by
    intro γ frame awaited
    rw [Frame.request?_deferred awaited] at prompt
    cases prompt
  cases m with
  | outer w program =>
      cases program with
      | finish outcome => cases asked
      | ask request resume =>
          cases asked
          exact ⟨α, .outer, resume, rfl⟩
  | inner w body stack base =>
      cases body with
      | finish outcome =>
          cases stack with
          | nil => exact absurd asked (waits base)
          | cons frame stack => exact absurd asked (waits frame)
      | ask request resume =>
          cases asked
          exact ⟨Slot, .inner stack base, resume, rfl⟩

theorem world_of_proceed {α : Type} {r : Registry} {m next : Machine α} {request : Request}
    {w : World} (asked : m.request? = some request) (prompt : request.deferred = false)
    (serves : ∀ (β : Type) (resume : request.Answer → Program β),
      ∃ program, m.world.serve r request resume = .proceed w program)
    (step : m.step r = .running next) : next.world = w := by
  obtain ⟨β, site, resume, place⟩ := exists_ask asked prompt
  obtain ⟨program, served⟩ := serves β resume
  rw [place, site.step_ask, served, Site.carry_proceed, StepResult.running.injEq] at step
  rw [← step, site.world_plug]

theorem step_cases {α : Type} {r : Registry} {m next : Machine α}
    (step : m.step r = .running next) :
    (∃ (β : Type) (site : Site α β) (w : World) (request : Request)
      (resume : request.Answer → Program β), m = site.plug w (.ask request resume)) ∨
    ∃ (β : Type) (site : Site α β) (w : World) (frame : Frame β) (result : Except Fault Slot),
      m = (site.enter frame).plug w (.ofExcept result) := by
  cases m with
  | outer w program =>
      cases program with
      | finish outcome => cases outcome <;> cases step
      | ask request resume => exact .inl ⟨α, .outer, w, request, resume, rfl⟩
  | inner w body stack base =>
      cases body with
      | finish outcome =>
          obtain ⟨β, site, frame, innermost⟩ := Site.exists_enter stack base
          have plugged : ∀ result, (site.enter frame).plug w (.ofExcept result) =
              .inner w (.ofExcept result) stack base := fun _ => innermost ▸ rfl
          cases outcome with
          | value slot => exact .inr ⟨β, site, w, frame, .ok slot, (plugged (.ok slot)).symm⟩
          | fault f => exact .inr ⟨β, site, w, frame, .error f, (plugged (.error f)).symm⟩
          | aborted => cases step
      | ask request resume => exact .inl ⟨Slot, .inner stack base, w, request, resume, rfl⟩

end Machine

namespace Site

variable {α β : Type} {r : Registry}

inductive Beneath (place : Site α Slot) : Site α Slot → Prop
  | here : Beneath place place
  | enter {site : Site α Slot} (frame : Frame Slot) :
      Beneath place site → Beneath place (site.enter frame)

def Within (place : Site α Slot) (m : Machine α) : Prop :=
  ∃ site w program, m = site.plug w program ∧ place.Beneath site

theorem Within.recoded {place : Site α Slot} {m n : Machine α} (within : place.Within m)
    (recoded : Machine.Recoded m n) : place.Within n := by
  obtain ⟨site, w, program, rfl, beneath⟩ := within
  cases site with
  | outer =>
      cases recoded with
      | outer _ _ other => exact ⟨.outer, w, other, rfl, beneath⟩
  | inner stack base =>
      cases recoded with
      | inner _ _ other => exact ⟨.inner stack base, w, other, rfl, beneath⟩

theorem Within.suspended_ne_nil {site : Site α β} {frame : Frame β} {m : Machine α}
    (within : (site.enter frame).Within m) : m.suspended ≠ [] := by
  obtain ⟨above, w, program, rfl, beneath⟩ := within
  cases beneath <;> simp

theorem Beneath.carry {place site : Site α Slot} (beneath : place.Beneath site)
    {action : Action Slot} {next : Machine α} (step : site.carry action = .running next) :
    place.Within next := by
  rcases carry_eq_running step with ⟨w, program, -, rfl⟩ | ⟨w, body, frame, -, rfl⟩
  · exact ⟨site, w, program, rfl, beneath⟩
  · exact ⟨site.enter frame, w, body, rfl, beneath.enter frame⟩

theorem Beneath.step_ended {site : Site α β} {frame : Frame β} {above : Site α Slot} {w : World}
    {next : Machine α} (beneath : (site.enter frame).Beneath above) (result : Except Fault Slot)
    (step : (above.plug w (.ofExcept result)).step r = .running next) :
    (site.enter frame).Within next ∨
      above = site.enter frame ∧ site.carry (frame.resume r w result) = .running next := by
  cases beneath with
  | here =>
      rw [Site.step_ended] at step
      exact .inr ⟨rfl, step⟩
  | enter last below =>
      rw [Site.step_ended] at step
      exact .inl (below.carry step)

theorem Within.step {site : Site α β} {frame : Frame β} {m next : Machine α}
    (within : (site.enter frame).Within m) (step : m.step r = .running next) :
    (site.enter frame).Within next ∨ ∃ w result,
      m = (site.enter frame).plug w (.ofExcept result) ∧
        site.carry (frame.resume r w result) = .running next := by
  obtain ⟨above, w, program, rfl, beneath⟩ := within
  cases program with
  | ask request resume =>
      rw [step_ask] at step
      exact .inl (beneath.carry step)
  | finish outcome =>
      cases outcome with
      | value slot =>
          refine (beneath.step_ended (.ok slot) step).imp_right ?_
          rintro ⟨rfl, left⟩
          exact ⟨w, .ok slot, rfl, left⟩
      | fault f =>
          refine (beneath.step_ended (.error f) step).imp_right ?_
          rintro ⟨rfl, left⟩
          exact ⟨w, .error f, rfl, left⟩
      | aborted => cases above <;> cases step

end Site

theorem Machine.Run.within_or_left {α β : Type} {r : Registry} {site : Site α β} {frame : Frame β}
    {m n : Machine α} {entries : List Entry} (within : (site.enter frame).Within m)
    (run : Run r m entries n) :
    (site.enter frame).Within n ∨ Passes r m n fun last first =>
      ∃ w result, last = (site.enter frame).plug w (.ofExcept result) ∧
        site.carry (frame.resume r w result) = .running first := by
  induction run with
  | refl => exact .inl within
  | @step entries n next other run step recoded ih =>
      rcases ih with inside |
        ⟨earlier, later, last, first, changed, toLast, turn, recode, fromFirst, left⟩
      · rcases inside.step step with inside | left
        · exact .inl (inside.recoded recoded)
        · exact .inr ⟨entries, [], n, next, other, run, step, recoded, .refl, left⟩
      · exact .inr ⟨earlier, _, last, first, changed, toLast, turn, recode,
          fromFirst.step step recoded, left⟩

end ManagedObjects

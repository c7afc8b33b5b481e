import ManagedObjects.Proofs.Machine.Dispatch
import ManagedObjects.Proofs.Machine.Site

namespace ManagedObjects

def Suspended.request? : Suspended → Option Request
  | method _ request => request
  | initializer _ _ _ request => request

theorem Frame.request?_suspended {α : Type} (frame : Frame α) :
    frame.suspended.request? = frame.request? := by
  cases frame <;> rfl

def Action.deferred? {α : Type} : Action α → Option Request
  | enter _ _ frame => frame.request?
  | _ => none

section Actions
variable {α β : Type} {r : Registry} {w : World} {q : Request}

theorem Return.deferred?_deliver (result : Return α) (answer : Except Fault Slot) :
    (result.deliver w answer).deferred? = none := by
  obtain ⟨_, _, delivered⟩ := result.deliver_eq_proceed w answer
  rw [delivered]
  rfl

theorem Action.deferred?_ofChange (resume : Except Fault β → Program α)
    (change : Except Fault β × World) : (ofChange resume change).deferred? = none :=
  rfl

theorem Action.deferred?_enterMethod {m : Method} {name : String} {argv : List Slot}
    {result : Return α} (waits : (enterMethod w m name argv result).deferred? = some q) :
    result.request? = some q := by
  unfold enterMethod at waits
  cases entered : m.enter name argv with
  | error f =>
      rw [entered, Return.deferred?_deliver] at waits
      cases waits
  | ok body =>
      rw [entered] at waits
      exact waits

namespace Goal

theorem deferred?_call {type : TypeId} {name : String} {argv : List Slot} {result : Return α}
    (waits : (call r w type name argv result).deferred? = some q) : result.request? = some q := by
  unfold call at waits
  split at waits
  · rw [Return.deferred?_deliver] at waits
    cases waits
  · split at waits
    · rw [Return.deferred?_deliver] at waits
      cases waits
    · exact Action.deferred?_enterMethod waits

theorem deferred?_reach {goal : Goal α} (waits : (goal.reach r w).deferred? = some q) :
    goal.request? = some q := by
  cases goal with
  | dispatch type name argv result => exact deferred?_call waits
  | construct type values resume =>
      cases values with
      | some values =>
          rw [reach, Action.deferred?_ofChange] at waits
          cases waits
      | none =>
          simp only [reach] at waits
          split at waits
          · cases waits
          · split at waits
            · cases waits
            · rw [Action.deferred?_ofChange] at waits
              cases waits

theorem deferred?_refuse (goal : Goal α) (f : Fault) : (goal.refuse w f).deferred? = none := by
  cases goal with
  | construct type values resume => rfl
  | dispatch type name argv result => exact result.deferred?_deliver _

theorem deferred?_prepare {goal : Goal α} {pending : List TypeId}
    (waits : (goal.prepare r w pending).deferred? = some q) : goal.request? = some q := by
  have prepared := goal.prepared (r := r) w pending
  generalize goal.prepare r w pending = action at prepared waits
  cases prepared with
  | reached => exact deferred?_reach waits
  | refused =>
      rw [deferred?_refuse] at waits
      cases waits
  | started => exact waits

theorem deferred?_beginCall {name : String} {argv : List Slot} {result : Return α}
    (waits : (beginCall r w name argv result).deferred? = some q) : result.request? = some q := by
  have called := called (r := r) w name argv result
  generalize beginCall r w name argv result = action at called waits
  cases called with
  | refused =>
      rw [Return.deferred?_deliver] at waits
      cases waits
  | entered => exact waits
  | started => exact waits

end Goal

theorem World.deferred?_serve {request : Request} {resume : request.Answer → Program α}
    (waits : (w.serve r request resume).deferred? = some q) :
    request = q ∧ ∀ h, q = .release h → ∃ object, w.releasable h = .ok object := by
  cases request with
  | call name argv => cases Goal.deferred?_beginCall waits
  | release h =>
      simp only [serve] at waits
      cases releasable : w.releasable h with
      | error f =>
          rw [releasable] at waits
          cases waits
      | ok object =>
          rw [releasable] at waits
          cases Goal.deferred?_beginCall waits
          refine ⟨rfl, fun k same => ?_⟩
          cases same
          exact ⟨object, releasable⟩
  | instantiate id =>
      simp only [serve] at waits
      split at waits
      · cases waits
      · cases Goal.deferred?_prepare waits
        exact ⟨rfl, fun h same => by cases same⟩
  | instantiateWith id values =>
      simp only [serve] at waits
      split at waits
      · cases waits
      · cases Goal.deferred?_prepare waits
        exact ⟨rfl, fun h same => by cases same⟩
  | invoke id name argv =>
      -- When the method returns there is only its answer to hand on, and no request to carry out.
      simp only [serve] at waits
      split at waits
      · cases waits
      · cases Action.deferred?_enterMethod waits
  | typeObject | createString | createList | setField | freeze =>
      simp only [serve, Action.deferred?_ofChange] at waits
      cases waits
  | _ => cases waits

theorem Frame.deferred?_resume {frame : Frame α} {result : Except Fault Slot}
    (waits : (frame.resume r w result).deferred? = some q) : frame.request? = some q := by
  cases frame with
  | method call waiting =>
      rw [Frame.resume, Return.deferred?_deliver] at waits
      cases waits
  | staticInit id pending goal =>
      cases result with
      | ok slot => exact Goal.deferred?_prepare waits
      | error f =>
          simp only [resume, Goal.deferred?_refuse] at waits
          cases waits

end Actions

namespace Machine

variable {α β : Type} {r : Registry} {m next : Machine α} {q : Request}

theorem carry_deferred {site : Site α β} {action : Action β}
    (step : site.carry action = .running next) {x : Suspended} (waiting : x ∈ next.suspended)
    (waits : x.request? = some q) : x ∈ site.suspended ∨ action.deferred? = some q := by
  rcases Site.carry_eq_running step with ⟨w, program, rfl, rfl⟩ | ⟨w, body, frame, rfl, rfl⟩
  · rw [site.suspended_plug] at waiting
    exact .inl waiting
  · rw [Site.suspended_plug, Site.suspended_enter] at waiting
    rcases List.mem_cons.mp waiting with rfl | below
    · rw [frame.request?_suspended] at waits
      exact .inr waits
    · exact .inl below

theorem step_deferred (step : m.step r = .running next) {x : Suspended}
    (waiting : x ∈ next.suspended) (waits : x.request? = some q) :
    (∃ y ∈ m.suspended, y.request? = some q) ∨
      m.request? = some q ∧ ∀ h, q = .release h → ∃ object, m.world.releasable h = .ok object := by
  rcases step_cases step with
    ⟨β, site, w, request, resume, rfl⟩ | ⟨β, site, w, frame, result, rfl⟩
  · rw [Site.step_ask] at step
    rw [site.suspended_plug, site.request?_ask, site.world_plug]
    rcases carry_deferred step waiting waits with below | waits
    · exact .inl ⟨x, below, waits⟩
    · obtain ⟨rfl, admitted⟩ := World.deferred?_serve waits
      exact .inr ⟨rfl, admitted⟩
  · rw [Site.step_ended] at step
    rw [Site.suspended_plug, Site.suspended_enter]
    rcases carry_deferred step waiting waits with below | waits
    · exact .inl ⟨x, .tail _ below, waits⟩
    · refine .inl ⟨frame.suspended, List.mem_cons_self, ?_⟩
      rw [frame.request?_suspended]
      exact Frame.deferred?_resume waits

theorem step_release_admitted {h : Handle} (asked : m.request? = some (.release h))
    (step : m.step r = .running next) :
    next.world = m.world ∨ (∃ object, m.world.releasable h = .ok object) ∨
      ∃ x ∈ m.suspended, x.request? = some (.release h) := by
  rcases step_cases step with
    ⟨β, site, w, request, resume, rfl⟩ | ⟨β, site, w, frame, result, rfl⟩
  · rw [site.request?_ask, Option.some.injEq] at asked
    subst asked
    rw [Site.step_ask] at step
    rw [site.world_plug]
    simp only [World.serve] at step
    cases releasable : w.releasable h with
    | ok object => exact .inr (.inl ⟨object, rfl⟩)
    | error f =>
        rw [releasable, Site.carry_proceed, StepResult.running.injEq] at step
        rw [← step, site.world_plug]
        exact .inl rfl
  · rw [Site.request?_ended] at asked
    refine .inr (.inr ⟨frame.suspended, ?_, ?_⟩)
    · simp
    · rw [frame.request?_suspended, asked]

end Machine
end ManagedObjects

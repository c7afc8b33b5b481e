import Mathlib.Logic.Relation
import ManagedObjects.Proofs.Machine.Run
import ManagedObjects.Proofs.Registry.Tree
import ManagedObjects.Proofs.World.Operations

/-!
What one step does, whatever the code is. It settles, starts and ends initializers and enters and
leaves methods, one shift after the other, and at the end it sets code going or carries out at most
one request.
-/

namespace ManagedObjects

/-- What waits for running code to end, without what it will make of the result: the request that is
carried out then, and for an initializer the types that come next and the type of the goal. -/
inductive Suspended
  | method (call : Call) (request : Option Request)
  | initializer (id : TypeId) (pending : List TypeId) (type : TypeId) (request : Option Request)

namespace Suspended

def entry : Suspended → Entry
  | method call _ => .method call
  | initializer id _ _ _ => .initializer id

def initializing? : Suspended → Option TypeId
  | method _ _ => none
  | initializer id _ _ _ => some id

end Suspended

namespace Frame

def suspended {α : Type} : Frame α → Suspended
  | method call result => .method call result.request?
  | staticInit id pending goal => .initializer id pending goal.type goal.request?

theorem entry_suspended {α : Type} (frame : Frame α) : frame.suspended.entry = frame.entry := by
  cases frame <;> rfl

end Frame

structure Configuration where
  world : World
  suspended : List Suspended

def initializers (s : List Suspended) : List TypeId := s.filterMap Suspended.initializing?

namespace Machine

def suspended {α : Type} : Machine α → List Suspended
  | outer _ _ => []
  | inner _ _ stack base => stack.map Frame.suspended ++ [base.suspended]

def configuration {α : Type} (m : Machine α) : Configuration := ⟨m.world, m.suspended⟩

def initializing {α : Type} (m : Machine α) : List TypeId := initializers m.suspended

theorem Recoded.configuration_eq {α : Type} {m n : Machine α} (recoded : Recoded m n) :
    n.configuration = m.configuration := by
  cases recoded <;> rfl

end Machine

def Admissible (r : Registry) (type : TypeId) : Option Request → Prop
  | some (.instantiate id) => id = type ∧ ∃ t, World.instanceType r id = .ok t
  | some (.instantiateWith id values) => id = type ∧ ∃ t, World.filledType r id values = .ok t
  | _ => True

inductive Shift (r : Registry) : Configuration → Configuration → Prop
  | settle {w : World} {s : List Suspended} {id : TypeId} :
      w.progressOf id = none → r.initializer? id = none → Shift r ⟨w, s⟩ ⟨w.note id .done, s⟩
  | finish {w : World} {s : List Suspended} {id type : TypeId} {pending : List TypeId}
      {request : Option Request} :
      Shift r ⟨w, .initializer id pending type request :: s⟩ ⟨w.note id .done, s⟩
  | fail {w : World} {s : List Suspended} {id type : TypeId} {pending : List TypeId}
      {request : Option Request} {f : Fault} :
      Shift r ⟨w, .initializer id pending type request :: s⟩ ⟨w.note id (.failed f), s⟩
  | leave {w : World} {s : List Suspended} {call : Call} {request : Option Request} :
      Shift r ⟨w, .method call request :: s⟩ ⟨w, s⟩

inductive Enters (r : Registry) (w : World) : Suspended → World → Prop
  | method {call : Call} {request : Option Request} : Enters r w (.method call request) w
  | initializer {id type : TypeId} {before rest : List TypeId} {request : Option Request}
      {hook : TypeId → Program Unit} :
      w.progressOf id = none → r.initializer? id = some hook →
        r.chain type = before ++ id :: rest → (∀ a ∈ before, w.Begun a) →
          Admissible r type request →
            Enters r w (.initializer id rest type request) (w.note id .running)

/-- What one step leads to that may carry out the request: shifts, and after them code is set going
or the request is carried out, or neither. -/
inductive Leads (r : Registry) (request : Option Request) (c : Configuration) :
    Option Entry → Configuration → Prop
  | idle {d : Configuration} : Relation.ReflTransGen (Shift r) c d → Leads r request c none d
  | enter {w w' : World} {s : List Suspended} {x : Suspended} :
      Relation.ReflTransGen (Shift r) c ⟨w, s⟩ → Enters r w x w' →
        Leads r request c (some x.entry) ⟨w', x :: s⟩
  | perform {w w' : World} {s : List Suspended} {q : Request} :
      Relation.ReflTransGen (Shift r) c ⟨w, s⟩ → request = some q → w.Performs r q w' →
        Leads r request c none ⟨w', s⟩

theorem Leads.of_shift {r : Registry} {request : Option Request} {c d e : Configuration}
    {entry : Option Entry} (shift : Shift r c d) (leads : Leads r request d entry e) :
    Leads r request c entry e := by
  cases leads with
  | idle shifts => exact .idle (.head shift shifts)
  | enter shifts entered => exact .enter (.head shift shifts) entered
  | perform shifts asked performed => exact .perform (.head shift shifts) asked performed

theorem Leads.of_none {r : Registry} {c d : Configuration} {entry : Option Entry}
    (leads : Leads r none c entry d) (request : Option Request) : Leads r request c entry d := by
  cases leads with
  | idle shifts => exact .idle shifts
  | enter shifts entered => exact .enter shifts entered
  | perform _ asked _ => cases asked

theorem Leads.enter_frame {α : Type} {r : Registry} {request : Option Request} {w w' : World}
    {s : List Suspended} {frame : Frame α} (entered : Enters r w frame.suspended w') :
    Leads r request ⟨w, s⟩ (some frame.entry) ⟨w', frame.suspended :: s⟩ := by
  rw [← frame.entry_suspended]
  exact .enter .refl entered

theorem shifts_arena_eq {r : Registry} {c d : Configuration}
    (shifts : Relation.ReflTransGen (Shift r) c d) : d.world.arena = c.world.arena := by
  induction shifts with
  | refl => rfl
  | tail _ last ih => cases last <;> exact ih

theorem Leads.alters {r : Registry} {request : Option Request} {entry : Option Entry}
    {c d : Configuration} (leads : Leads r request c entry d) :
    d.world.arena = c.world.arena ∨ ∃ (q : Request) (w : World), request = some q ∧
      w.arena = c.world.arena ∧ w.Alters r q d.world.arena := by
  cases leads with
  | idle shifts => exact .inl (shifts_arena_eq shifts)
  | enter shifts entered =>
      left
      have same := shifts_arena_eq shifts
      cases entered <;> exact same
  | perform shifts asked performed =>
      exact .inr ⟨_, _, asked, shifts_arena_eq shifts, performed.alters⟩

def Action.Follows {α : Type} (r : Registry) (request : Option Request) (c : Configuration)
    (below : List Suspended) : Action α → Prop
  | proceed w _ => Leads r request c none ⟨w, below⟩
  | enter w _ frame => Leads r request c (some frame.entry) ⟨w, frame.suspended :: below⟩
  | abort => True

namespace Action

variable {α β : Type} {r : Registry} {request : Option Request} {c d : Configuration}
  {below : List Suspended} {w : World} {s : List Suspended}

theorem Follows.of_shift {action : Action α} (shift : Shift r c d)
    (follows : action.Follows r request d below) : action.Follows r request c below := by
  cases action with
  | proceed w program => exact Leads.of_shift shift follows
  | enter w body frame => exact Leads.of_shift shift follows
  | abort => trivial

theorem Follows.of_none {action : Action α} (follows : action.Follows r none c below)
    (request : Option Request) : action.Follows r request c below := by
  cases action with
  | proceed w program => exact Leads.of_none follows request
  | enter w body frame => exact Leads.of_none follows request
  | abort => trivial

theorem follows_ofChange {q : Request} {resume : Except Fault β → Program α}
    {change : Except Fault β × World} (atomic : Atomic w change)
    (performs : ∀ b w', change = (.ok b, w') → w.Performs r q w') :
    (ofChange resume change).Follows r (some q) ⟨w, s⟩ s := by
  obtain ⟨result, left⟩ := change
  cases result with
  | error f =>
      cases atomic f rfl
      exact Leads.idle .refl
  | ok b => exact Leads.perform .refl rfl (performs b left rfl)

end Action

section Goals
variable {α : Type} {r : Registry} {w : World} {s : List Suspended}

theorem Return.follows_deliver (result : Return α) (answer : Except Fault Slot) :
    (result.deliver w answer).Follows r result.request? ⟨w, s⟩ s := by
  cases result with
  | answer resume => exact Leads.idle .refl
  | reclaim h resume =>
      exact Action.follows_ofChange (w.atomic_reclaim h) fun _ w' released => .release released

theorem Action.follows_enterMethod (m : Method) (name : String) (argv : List Slot)
    (result : Return α) :
    (enterMethod w m name argv result).Follows r result.request? ⟨w, s⟩ s := by
  unfold enterMethod
  cases m.enter name argv with
  | error f => exact result.follows_deliver (.error f)
  | ok body => exact Leads.enter_frame .method

namespace Goal

theorem follows_refuse (goal : Goal α) (f : Fault) :
    (goal.refuse w f).Follows r goal.request? ⟨w, s⟩ s := by
  cases goal with
  | construct type values resume => exact Leads.idle .refl
  | dispatch type name argv result => exact result.follows_deliver (.error f)

theorem follows_call (type : TypeId) (name : String) (argv : List Slot) (result : Return α) :
    (call r w type name argv result).Follows r result.request? ⟨w, s⟩ s := by
  unfold call
  cases r.get? type with
  | none => exact result.follows_deliver _
  | some t =>
      simp only
      cases r.resolve? type name with
      | none => exact result.follows_deliver _
      | some found => exact Action.follows_enterMethod found.2 name argv result

theorem follows_reach (goal : Goal α) (admissible : Admissible r goal.type goal.request?)
    (begun : ∀ a ∈ r.chain goal.type, w.Begun a) :
    (goal.reach r w).Follows r goal.request? ⟨w, s⟩ s := by
  cases goal with
  | construct type values resume =>
      cases values with
      | none =>
          obtain ⟨-, t, admitted⟩ := admissible
          simp only [reach, (World.instanceType_ok admitted).1, Option.map_some]
          split
          · trivial
          · exact Action.follows_ofChange (w.atomic_allocate _ _) fun h w' made =>
              .instantiate admitted begun made
      | some values =>
          obtain ⟨-, t, admitted⟩ := admissible
          exact Action.follows_ofChange (w.atomic_construct _ _) fun h w' made =>
            .instantiateWith admitted begun made
  | dispatch type name argv result => exact follows_call type name argv result

end Goal

theorem World.Begun.note {a : TypeId} (begun : w.Begun a) (id : TypeId) :
    (w.note id .done).Begun a := by
  unfold Begun
  by_cases same : a = id
  · rw [same, progressOf_note_self]
    exact .inl rfl
  · rw [progressOf_note_ne _ _ same]
    exact begun

theorem World.begun_note_self (w : World) (id : TypeId) : (w.note id .done).Begun id :=
  .inl (progressOf_note_self w id .done)

theorem Goal.follows_prepare (goal : Goal α) (admissible : Admissible r goal.type goal.request?)
    {before pending : List TypeId} (path : r.chain goal.type = before ++ pending)
    (begun : ∀ a ∈ before, w.Begun a) :
    (goal.prepare r w pending).Follows r goal.request? ⟨w, s⟩ s := by
  -- The induction is on the types that are left; those before them have begun.
  induction pending generalizing w before with
  | nil =>
      rw [List.append_nil] at path
      exact goal.follows_reach admissible (path ▸ begun)
  | cons id pending ih =>
      have onward : r.chain goal.type = (before ++ [id]) ++ pending := by simp [path]
      have extended : ∀ w' : World, (∀ a ∈ before, w'.Begun a) → w'.Begun id →
          ∀ a ∈ before ++ [id], w'.Begun a := by
        intro w' above this a member
        rcases List.mem_append.mp member with earlier | last
        · exact above a earlier
        · exact List.mem_singleton.mp last ▸ this
      unfold prepare
      cases progress : w.progressOf id with
      | some p =>
          cases p with
          | running => exact ih onward (extended w begun (.inr progress))
          | done => exact ih onward (extended w begun (.inl progress))
          | failed f => exact goal.follows_refuse f
      | none =>
          cases declared : r.initializer? id with
          | some hook =>
              simp only [Registry.initializer?] at declared
              simp only [declared]
              exact Leads.enter_frame (.initializer progress declared path begun admissible)
          | none =>
              simp only [Registry.initializer?] at declared
              simp only [declared]
              refine .of_shift (.settle progress declared) (ih onward ?_)
              exact extended _ (fun a above => (begun a above).note id) (w.begun_note_self id)

theorem Goal.follows_beginCall (name : String) (argv : List Slot) (result : Return α) :
    (beginCall r w name argv result).Follows r result.request? ⟨w, s⟩ s := by
  cases argv with
  | nil => exact result.follows_deliver _
  | cons slot rest =>
      simp only [beginCall]
      cases slot.expectHandle with
      | error f => exact result.follows_deliver _
      | ok h =>
          simp only
          cases w.arena.get h with
          | error f => exact result.follows_deliver _
          | ok object =>
              have admissible : Admissible r object.type result.request? := by
                cases result <;> trivial
              exact follows_prepare (.dispatch object.type name (slot :: rest) result) admissible
                (List.nil_append _).symm (by simp)

theorem World.follows_serve (request : Request) (resume : request.Answer → Program α) :
    (w.serve r request resume).Follows r (some request) ⟨w, s⟩ s := by
  cases request with
  | call name argv => exact .of_none (Goal.follows_beginCall name argv (.answer resume)) _
  | typeObject id =>
      exact Action.follows_ofChange (w.atomic_typeObject r id) fun h w' given => .typeObject given
  | createString text =>
      exact Action.follows_ofChange (w.atomic_allocate _ _) fun h w' made => .createString made
  | createList values =>
      exact Action.follows_ofChange (w.atomic_createList _) fun h w' made => .createList made
  | setField h index value =>
      exact Action.follows_ofChange (w.atomic_setField _ _ _) fun _ w' set => .setField set
  | freeze h => exact Action.follows_ofChange (w.atomic_freeze h) fun _ w' frozen => .freeze frozen
  | writeLine line => exact Leads.perform .refl rfl .writeLine
  | instantiate id =>
      simp only [serve]
      cases admitted : instanceType r id with
      | error f => exact Leads.idle .refl
      | ok t =>
          exact Goal.follows_prepare (.construct id none resume) ⟨rfl, t, admitted⟩
            (List.nil_append _).symm (by simp)
  | instantiateWith id values =>
      simp only [serve]
      cases admitted : filledType r id values with
      | error f => exact Leads.idle .refl
      | ok t =>
          exact Goal.follows_prepare (.construct id (some values) resume) ⟨rfl, t, admitted⟩
            (List.nil_append _).symm (by simp)
  | release h =>
      simp only [serve]
      cases w.releasable h with
      | error f => exact Leads.idle .refl
      | ok object => exact Goal.follows_beginCall _ _ (.reclaim h resume)
  | invoke id name argv =>
      simp only [serve]
      cases r.resolve? id name with
      | none => exact Leads.idle .refl
      | some found =>
          exact .of_none (Action.follows_enterMethod found.2 name argv (.answer resume)) _
  | _ => exact Leads.idle .refl

end Goals

def Suspended.Ready (r : Registry) (w : World) : Suspended → Prop
  | method _ _ => True
  | initializer id pending type request =>
      ∃ before, r.chain type = before ++ id :: pending ∧ (∀ a ∈ before, w.Begun a) ∧
        Admissible r type request

section Steps
variable {α : Type} {r : Registry}

theorem Frame.follows_resume {w : World} {s : List Suspended} (frame : Frame α)
    (ready : frame.suspended.Ready r w) (result : Except Fault Slot) :
    (frame.resume r w result).Follows r frame.request? ⟨w, frame.suspended :: s⟩ s := by
  cases frame with
  | method call waiting => exact .of_shift .leave (waiting.follows_deliver result)
  | staticInit id pending goal =>
      obtain ⟨before, path, begun, admissible⟩ := ready
      cases result with
      | error f => exact .of_shift .fail (goal.follows_refuse f)
      | ok slot =>
          have onward : r.chain goal.type = (before ++ [id]) ++ pending := by simp [path]
          refine .of_shift .finish (goal.follows_prepare admissible onward ?_)
          intro a member
          rcases List.mem_append.mp member with earlier | last
          · exact (begun a earlier).note id
          · exact List.mem_singleton.mp last ▸ w.begun_note_self id

theorem Action.atBase_leads {action : Action α} {request : Option Request} {c : Configuration}
    {n : Machine α} (follows : action.Follows r request c [])
    (step : action.atBase = .running n) :
    Leads r request c action.entered? n.configuration := by
  cases action with
  | proceed w program =>
      cases step
      exact follows
  | enter w body frame =>
      cases step
      exact follows
  | abort => cases step

theorem Action.within_leads {action : Action Slot} {request : Option Request} {c : Configuration}
    {stack : List (Frame Slot)} {base : Frame α} {n : Machine α}
    (follows : action.Follows r request c (stack.map Frame.suspended ++ [base.suspended]))
    (step : action.within stack base = .running n) :
    Leads r request c action.entered? n.configuration := by
  cases action with
  | proceed w program =>
      cases step
      exact follows
  | enter w body frame =>
      cases step
      exact follows
  | abort => cases step

namespace Machine

theorem leave_leads {w : World} {result : Except Fault Slot} {base : Frame α}
    {stack : List (Frame Slot)} {n : Machine α} {outcome : Outcome Slot}
    (ready : ∀ x ∈ (stack.map Frame.suspended ++ [base.suspended]).head?, x.Ready r w)
    (step : leave r w result base stack = .running n) :
    Leads r (inner w (.finish outcome) stack base).request?
      (inner w (.finish outcome) stack base).configuration (entered?.ended r w result base stack)
      n.configuration := by
  cases stack with
  | nil => exact Action.atBase_leads (base.follows_resume (ready _ rfl) result) step
  | cons frame stack => exact Action.within_leads (frame.follows_resume (ready _ rfl) result) step

theorem step_leads {m n : Machine α} (ready : ∀ x ∈ m.suspended.head?, x.Ready r m.world)
    (step : m.step r = .running n) :
    Leads r m.request? m.configuration (m.entered? r) n.configuration := by
  cases m with
  | outer w program =>
      cases program with
      | finish outcome => cases outcome <;> cases step
      | ask request resume => exact Action.atBase_leads (w.follows_serve request resume) step
  | inner w body stack base =>
      cases body with
      | finish outcome =>
          cases outcome with
          | value slot => exact leave_leads ready step
          | fault f => exact leave_leads ready step
          | aborted => cases step
      | ask request resume => exact Action.within_leads (w.follows_serve request resume) step

end Machine
end Steps
end ManagedObjects

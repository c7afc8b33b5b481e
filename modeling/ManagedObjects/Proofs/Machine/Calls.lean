import ManagedObjects.Proofs.Machine.Initialization
import ManagedObjects.Proofs.Machine.Site
import ManagedObjects.Proofs.Trap.Forwarding

namespace ManagedObjects

namespace Registry

def Binds (r : Registry) (id : TypeId) (name : String) (m : Method) : Prop :=
  ∃ nearer t farther, r.ancestors id = nearer ++ t :: farther ∧
    (∀ s ∈ nearer, s.methods.get? name = none) ∧ t.methods.get? name = some m

theorem binds_of_resolve? {r : Registry} {id owner : TypeId} {name : String} {m : Method}
    (resolved : r.resolve? id name = some (owner, m)) : r.Binds id name m := by
  obtain ⟨nearer, t, farther, path, found, absent⟩ := List.findSome?_eq_some_iff.mp resolved
  refine ⟨nearer, t, farther, path, fun s member => ?_, ?_⟩
  · exact Option.map_eq_none_iff.mp (absent s member)
  · obtain ⟨bound, lookup, same⟩ := Option.map_eq_some_iff.mp found
    cases same
    exact lookup

end Registry

def Signature.Fits (s : Signature) (args : List Slot) : Prop :=
  s.required ≤ args.length ∧ args.length ≤ s.maxArity ∧
    ∀ (i : Nat) (kind : Kind) (slot : Slot), s.params[i]? = some kind → args[i]? = some slot →
      kind.accepts slot.kind = true

theorem Signature.fits_of_accepts {s : Signature} {args : List Slot}
    (accepted : s.accepts args = true) : s.Fits args := by
  simp only [accepts, Bool.and_eq_true, decide_eq_true_eq] at accepted
  obtain ⟨⟨enough, few⟩, each⟩ := accepted
  refine ⟨enough, few, fun i kind slot param arg => ?_⟩
  have paired : (s.params.zip args)[i]? = some (kind, slot) :=
    List.getElem?_zip_eq_some.mpr ⟨param, arg⟩
  exact List.all_eq_true.mp each _ (List.mem_of_getElem? paired)

theorem Kind.eq_handle_of_accepts {slot : Slot} (accepted : Kind.handle.accepts slot.kind = true) :
    ∃ h, slot = .handle h := by
  cases slot with
  | handle h => exact ⟨h, rfl⟩
  | _ => cases accepted

namespace Call

variable {r : Registry} {w w' : World} {request : Option Request} {call : Call}

def Sound (r : Registry) (w : World) (call : Call) : Prop :=
  ∃ h args object, call.argv = .handle h :: args ∧ w.arena.get? h = some object ∧
    r.Binds object.type call.name call.method ∧ call.method.signature.Fits args

def Requested (call : Call) : Request → Prop
  | .call name argv => call.name = name ∧ call.argv = argv
  | .release h => call.name = Protocol.finalizeName ∧ call.argv = [.handle h]
  | _ => False

/-- A call by name is requested and sound. A method that is invoked through a table of methods has
no such guarantee. -/
def Allowed (r : Registry) (w : World) (request : Option Request) (call : Call) : Prop :=
  (∃ id, request = some (.invoke id call.name call.argv)) ∨
    (∃ q, request = some q ∧ call.Requested q) ∧ call.Sound r w

theorem Allowed.of_marks (allowed : call.Allowed r w request) (marks : w.Marks w') :
    call.Allowed r w' request := by
  unfold Allowed Sound at *
  rwa [marks.arena_eq]

end Call

def Request.constructs : Request → Bool
  | instantiate _ | instantiateWith _ _ => true
  | _ => false

def Suspended.Constructs : Suspended → Prop
  | method _ _ => True
  | initializer _ _ _ request => request.any Request.constructs = true

theorem Return.not_constructs {α : Type} (result : Return α) :
    result.request?.any Request.constructs = false := by
  cases result <;> rfl

inductive Action.Sound {α : Type} (r : Registry) (w : World) (request : Option Request) :
    Action α → Prop
  | proceed {w' : World} {program : Program α} : Sound r w request (.proceed w' program)
  | abort : Sound r w request .abort
  | method (call : Call) {w' : World} {result : Return α} :
      w.Marks w' → call.Allowed r w request →
        Sound r w request (.enter w' (call.method.body call.argv) (.method call result))
  | initializer {w' : World} {body : Program Slot} {id : TypeId} {pending : List TypeId}
      {goal : Goal α} : goal.request?.any Request.constructs = true →
        Sound r w request (.enter w' body (.staticInit id pending goal))

section Sound
variable {α β : Type} {r : Registry} {w w' : World} {request : Option Request}

theorem Return.sound_deliver (result : Return α) (answer : Except Fault Slot) :
    (result.deliver w' answer).Sound r w request := by
  obtain ⟨_, _, delivered⟩ := result.deliver_eq_proceed w' answer
  exact delivered ▸ .proceed

theorem Action.sound_ofChange (resume : Except Fault β → Program α)
    (change : Except Fault β × World) : (ofChange resume change).Sound r w request :=
  .proceed

theorem Goal.sound_prepare (goal : Goal α)
    (constructs : goal.request?.any Request.constructs = true) (pending : List TypeId) :
    (goal.prepare r w' pending).Sound r w request := by
  cases goal with
  | dispatch type name argv result =>
      rw [show (dispatch type name argv result).request? = result.request? from rfl,
        result.not_constructs] at constructs
      cases constructs
  | construct type values resume =>
      have prepared := prepared (r := r) (construct type values resume) w' pending
      generalize prepare r _ w' pending = action at prepared ⊢
      cases prepared with
      | refused => exact .proceed
      | started => exact .initializer constructs
      | reached =>
          cases values with
          | some values => exact Action.sound_ofChange _ _
          | none =>
              simp only [reach]
              split
              · exact .proceed
              · split
                · exact .abort
                · exact Action.sound_ofChange _ _

theorem InstancesInitialized.sound_beginCall (initialized : InstancesInitialized r w)
    (tree : r.Tree) {q : Request} {name : String} {argv : List Slot}
    (requested : ∀ m : Method, (Call.mk m name argv).Requested q) (result : Return α) :
    (Goal.beginCall r w name argv result).Sound r w (some q) := by
  have called := Goal.called (r := r) w name argv result
  generalize Goal.beginCall r w name argv result = action at called ⊢
  cases called with
  | refused => exact result.sound_deliver _
  | @entered w' h args object owner m marks receiver live resolved accepted =>
      have sound : (Call.mk m name argv).Sound r w :=
        ⟨h, args, object, receiver, live, Registry.binds_of_resolve? resolved,
          Signature.fits_of_accepts accepted⟩
      exact .method ⟨m, name, argv⟩ marks (.inr ⟨⟨q, rfl, requested m⟩, sound⟩)
  | started _ live member fresh declared =>
      rw [initialized.undeclared tree live member fresh] at declared
      cases declared

theorem Action.sound_enterMethod {m : Method} {name : String} {argv : List Slot}
    (allowed : (Call.mk m name argv).Allowed r w request) (result : Return α) :
    (enterMethod w m name argv result).Sound r w request := by
  unfold enterMethod
  cases entered : m.enter name argv with
  | error f => exact result.sound_deliver _
  | ok body =>
      obtain ⟨-, rfl⟩ := Method.enter_ok entered
      exact .method ⟨m, name, argv⟩ (.refl w) allowed

theorem InstancesInitialized.sound_serve (initialized : InstancesInitialized r w) (tree : r.Tree)
    (q : Request) (resume : q.Answer → Program α) :
    (w.serve r q resume).Sound r w (some q) := by
  cases q with
  | call name argv =>
      exact initialized.sound_beginCall (q := .call name argv) tree (fun _ => ⟨rfl, rfl⟩) _
  | release h =>
      simp only [World.serve]
      cases w.releasable h with
      | error f => exact .proceed
      | ok object =>
          exact initialized.sound_beginCall (q := .release h) tree (fun _ => ⟨rfl, rfl⟩) _
  | instantiate id =>
      simp only [World.serve]
      cases World.instanceType r id with
      | error f => exact .proceed
      | ok t => exact Goal.sound_prepare (.construct id none resume) rfl _
  | instantiateWith id values =>
      simp only [World.serve]
      cases World.filledType r id values with
      | error f => exact .proceed
      | ok t => exact Goal.sound_prepare (.construct id (some values) resume) rfl _
  | invoke id name argv =>
      simp only [World.serve]
      cases r.resolve? id name with
      | none => exact .proceed
      | some found => exact Action.sound_enterMethod (.inl ⟨id, rfl⟩) _
  | typeObject | createString | createList | setField | freeze =>
      exact Action.sound_ofChange _ _
  | _ => exact .proceed

theorem Frame.sound_resume {frame : Frame α} (constructs : frame.suspended.Constructs)
    (result : Except Fault Slot) : (frame.resume r w result).Sound r w request := by
  cases frame with
  | method call waiting => exact waiting.sound_deliver result
  | staticInit id pending goal =>
      cases result with
      | ok slot => exact goal.sound_prepare constructs pending
      | error f =>
          -- A refused call is answered as well, so here it does not matter what waits.
          cases goal with
          | construct type values resume => exact .proceed
          | dispatch type name argv result => exact result.sound_deliver _

end Sound

namespace Machine

variable {α β : Type} {r : Registry} {m next : Machine α}

def Constructs (m : Machine α) : Prop := ∀ x ∈ m.suspended, x.Constructs

def Begins (call : Call) (w : World) (next : Machine α) : Prop :=
  w.Marks next.world ∧
    ∃ stack base, next = .inner next.world (call.method.body call.argv) stack base

theorem carry_sound {site : Site α β} {w : World} {action : Action β} {request : Option Request}
    (sound : action.Sound r w request) (below : ∀ x ∈ site.suspended, x.Constructs)
    (step : site.carry action = .running next) :
    next.Constructs ∧ ∀ call, action.entered? = some (.method call) →
      Begins call w next ∧ call.Allowed r w request := by
  rcases Site.carry_eq_running step with
    ⟨w', program, rfl, rfl⟩ | ⟨w', body, frame, rfl, rfl⟩
  · exact ⟨by simpa [Constructs] using below, fun call entered => by cases entered⟩
  · cases sound with
    | method call marks allowed =>
        refine ⟨?_, fun other entered => ?_⟩
        · simpa [Constructs, Suspended.Constructs, Frame.suspended] using below
        · cases entered
          refine ⟨⟨by simpa using marks, ?_⟩, allowed⟩
          cases site <;> exact ⟨_, _, rfl⟩
    | initializer constructs =>
        refine ⟨?_, fun call entered => by cases entered⟩
        simpa [Constructs, Suspended.Constructs, Frame.suspended, constructs] using below

theorem step_sound (tree : r.Tree) (initialized : InstancesInitialized r m.world)
    (constructs : m.Constructs) (step : m.step r = .running next) :
    next.Constructs ∧ ∀ call, m.entered? r = some (.method call) →
      Begins call m.world next ∧ call.Allowed r m.world m.request? := by
  rcases step_cases step with
    ⟨β, site, w, request, resume, rfl⟩ | ⟨β, site, w, frame, result, rfl⟩
  · simp only [Constructs, Site.suspended_plug, Site.world_plug] at constructs initialized ⊢
    rw [Site.step_ask] at step
    rw [Site.entered?_ask, Site.request?_ask]
    exact carry_sound (initialized.sound_serve tree request resume) constructs step
  · simp only [Constructs, Site.suspended_plug, Site.suspended_enter, List.forall_mem_cons]
      at constructs
    rw [Site.step_ended] at step
    rw [Site.entered?_ended, Site.request?_ended, Site.world_plug]
    exact carry_sound (Frame.sound_resume constructs.1 result) constructs.2 step

/-- What code that asks for a call by name comes to in one step: the call is refused, and the code
goes on with the fault, or a method is entered in a sound call. -/
inductive CallStep (r : Registry) (site : Site α β) (next : Outcome Slot → Program β) (w : World)
    (name : String) (argv : List Slot) : Option Entry → Machine α → Prop
  | refused {u : World} {f : Fault} :
      w.Marks u → CallStep r site next w name argv none (site.plug u (next (.fault f)))
  | entered {u : World} {h : Handle} {args : List Slot} {object : Object} {owner : TypeId}
      {m : Method} {frame : Frame β} :
      w.Marks u → argv = .handle h :: args → w.arena.get? h = some object →
        r.resolve? object.type name = some (owner, m) → m.signature.accepts args = true →
          CallStep r site next w name argv (some (.method ⟨m, name, argv⟩))
            ((site.enter frame).plug u (m.body argv))

theorem step_call (tree : r.Tree) {w : World} (initialized : InstancesInitialized r w)
    (site : Site α β) (next : Outcome Slot → Program β) (name : String) (argv : List Slot) :
    ∃ n, (site.plug w ((Native.call name argv).into next)).step r = .running n ∧
      CallStep r site next w name argv
        ((site.plug w ((Native.call name argv).into next)).entered? r) n := by
  let request : Request := .call name argv
  let resume : request.Answer → Program β := fun answer => (Program.ofExcept answer).into next
  change ∃ n, (site.plug w (.ask request resume)).step r = .running n ∧
    CallStep r site next w name argv ((site.plug w (.ask request resume)).entered? r) n
  rw [site.step_ask, site.entered?_ask]
  change ∃ n, site.carry (Goal.beginCall r w name argv (.answer resume)) = .running n ∧
    CallStep r site next w name argv (Goal.beginCall r w name argv (.answer resume)).entered? n
  have called := Goal.called (r := r) w name argv (.answer resume)
  generalize Goal.beginCall r w name argv (.answer resume) = action at called ⊢
  cases called with
  | refused marks => exact ⟨_, site.carry_proceed _, .refused marks⟩
  | entered marks receiver live resolved accepted =>
      exact ⟨_, site.carry_enter _ _, .entered marks receiver live resolved accepted⟩
  | started _ live member fresh declared =>
      rw [initialized.undeclared tree live member fresh] at declared
      cases declared

section Runs
variable {options : Options} {sink : Sink} {program : Program α} {entries : List Entry}

theorem Run.constructs (tree : r.Tree) (run : Run r (start options sink program) entries m) :
    m.Constructs := by
  induction run with
  | refl => exact fun x member => absurd member List.not_mem_nil
  | @step entries m next other run step recoded ih =>
      have kept := (step_sound tree run.instancesInitialized ih step).1
      have same := congrArg Configuration.suspended recoded.configuration_eq
      change other.suspended = next.suspended at same
      rw [Constructs, same]
      exact kept

theorem quiet_plug {w : World} {p q : Program β} (site : Site α β)
    (observation : Program.Observation r w p q) : Quiet r (site.plug w p) (site.plug w q) := by
  cases observation with
  | ask answer replies => exact site.quiet_ask replies _

theorem quiet_plug_into {γ : Type} {w : World} {p q : Program γ} (site : Site α β)
    (next : Outcome γ → Program β)
    (observed : Relation.ReflTransGen (Program.Observation r w) p q) :
    Relation.ReflTransGen (Quiet r) (site.plug w (p.into next)) (site.plug w (q.into next)) := by
  refine observed.lift (fun p => site.plug w (p.into next)) fun p q observation => ?_
  exact quiet_plug site (observation.into next)

theorem Run.quiet {n : Machine α} (run : Run r (start options sink program) entries m)
    (quiet : Relation.ReflTransGen (Quiet r) m n) :
    Run r (start options sink program) entries n := by
  induction quiet with
  | refl => exact run
  | @tail k n _ last ih =>
      have onward := ih.step last.1 (.refl _)
      rw [last.2.1] at onward
      exact onward

/-- Every body of a method starts in a sound call. When a step enters a method by its name, the
body is run on the argument vector that was asked for, its receiver is live at that moment, the
method is the one that the nearest type binds, and the arguments fit its signature. Code that
calls through the dispatcher fails or comes to the call that it was given, and when that call enters
a method, every handle in the argument vector is live. -/
theorem run_enters_sound_calls (built : r.Built)
    (run : Run r (start options sink program) entries m) :
    (∀ next call, m.step r = .running next → m.entered? r = some (.method call) →
      Begins call m.world next ∧ call.Allowed r next.world m.request?) ∧
    ∀ (β : Type) (site : Site α β) (w : World) (this : Handle) (entrance : Trap.Entrance)
      (k : Outcome Slot → Program β), m = site.plug w ((entrance.program this).into k) →
        ∃ n, Relation.ReflTransGen (Quiet r) m n ∧ ((∃ f, n = site.plug w (k (.fault f))) ∨
          ∃ name args, entrance.given w = .ok (name, args) ∧
            n = site.plug w ((Native.call name (.handle this :: args)).into k) ∧
            ∀ next call, n.step r = .running next → n.entered? r = some (.method call) →
              call.name = name ∧ call.argv = .handle this :: args ∧ Begins call w next ∧
                call.Sound r next.world ∧
                ∀ h, .handle h ∈ call.argv → ∃ object, next.world.arena.get? h = some object) := by
  have enters : ∀ {n entries}, Run r (start options sink program) entries n →
      ∀ next call, n.step r = .running next → n.entered? r = some (.method call) →
        Begins call n.world next ∧ call.Allowed r next.world n.request? := by
    intro n entries run next call step entered
    obtain ⟨-, sound⟩ :=
      step_sound built.tree run.instancesInitialized (run.constructs built.tree) step
    obtain ⟨begins, allowed⟩ := sound call entered
    exact ⟨begins, allowed.of_marks begins.1⟩
  refine ⟨enters run, ?_⟩
  rintro β site w this entrance k rfl
  obtain ⟨rest, observed, ends⟩ := entrance.forwards (r := r) (w := w) this
  have quiet := quiet_plug_into site k observed
  refine ⟨_, quiet, ?_⟩
  rcases ends with ⟨f, rfl⟩ | ⟨name, args, given, rfl, live⟩
  · exact .inl ⟨f, rfl⟩
  · refine .inr ⟨name, args, given, rfl, fun next call step entered => ?_⟩
    obtain ⟨begins, allowed⟩ := enters (run.quiet quiet) next call step entered
    have asked : (site.plug w ((Native.call name (.handle this :: args)).into k)).request? =
        some (.call name (.handle this :: args)) := site.request?_ask _ _
    rw [Site.world_plug] at begins
    rw [asked] at allowed
    rcases allowed with ⟨id, other⟩ | ⟨⟨q, same, requested⟩, sound⟩
    · cases other
    · cases same
      obtain ⟨named, vector⟩ := requested
      refine ⟨named, vector, begins, sound, fun h member => ?_⟩
      rw [begins.1.arena_eq]
      exact live h (vector ▸ member)

theorem run_enters_sound_calls_hash :
    ∃ (entries : List Entry) (m next : Machine Handle) (call : Call),
      Run .initial (start {} .reliable (Native.createString "text")) entries m ∧
        m.step .initial = .running next ∧ m.entered? .initial = some (.method call) ∧
          call.name = "hash" ∧ call.Sound .initial next.world := by
  let w := (World.initial {} .reliable).withArena
    ((World.initial {} .reliable).arena.place .string (.text "text"))
  let argv : List Slot := [.handle ⟨0, 0⟩]
  let asking : Machine Handle := .outer w (.ask (.call "hash" argv) fun _ => .abort)
  let w' := (w.note 0 .done).note 1 .done
  let call : Call := ⟨Protocol.hashMethod, "hash", argv⟩
  let frame : Frame Handle := .method call (.answer fun _ => .abort)
  have makes : (start {} .reliable (Native.createString "text")).step .initial =
      .running (.outer w (Program.ofExcept (.ok ⟨0, 0⟩))) := rfl
  have resolved : Registry.initial.resolve? .string "hash" = some (0, Protocol.hashMethod) := by
    rw [Registry.resolve?, Registry.ancestors_initial_string]
    rfl
  have served : w.serve .initial (.call "hash" argv) (fun _ => .abort) =
      .enter w' (call.method.body argv) frame := by
    change Goal.prepare .initial _ w (Registry.initial.chain .string) = _
    rw [Registry.chain_initial_string]
    change Goal.call .initial w' .string "hash" argv _ = _
    simp only [Goal.call, resolved]
    rfl
  have run := Run.step .refl makes (.outer w _ (.ask (.call "hash" argv) fun _ => .abort))
  have enters : asking.step .initial = .running _ := congrArg Action.atBase served
  have entered : asking.entered? .initial = some (.method call) := congrArg Action.entered? served
  obtain ⟨sound, -⟩ := run_enters_sound_calls .initial run
  obtain ⟨-, allowed⟩ := sound _ _ enters entered
  rcases allowed with ⟨id, other⟩ | ⟨-, sound⟩
  · cases other
  · exact ⟨_, _, _, _, run, enters, entered, rfl, sound⟩

end Runs

end Machine
end ManagedObjects

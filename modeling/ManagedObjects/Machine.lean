import ManagedObjects.World

/-!
Running native code in an environment. Some requests need other native code to run first: a call
runs a method, a type runs its static initializer before its first use, an object runs its finalizer
before it is reclaimed. The code that asked is then set aside on a stack until the other has
ended. A machine is the state of the environment together with the running code and that stack, and
each step of it answers one request or ends one piece of code.
-/

namespace ManagedObjects

inductive Return (α : Type)
  | answer (resume : Except Fault Slot → Program α)
  | reclaim (h : Handle) (resume : Except Fault Unit → Program α)

inductive Goal (α : Type)
  | construct (type : TypeId) (values : Option (List Slot))
      (resume : Except Fault Handle → Program α)
  | dispatch (type : TypeId) (name : String) (argv : List Slot) (result : Return α)

structure Call where
  method : Method
  name : String
  argv : List Slot

/-- What waits for the running code to end. The running code is the body of the call, or the static
initializer of the type. -/
inductive Frame (α : Type)
  | method (call : Call) (result : Return α)
  | staticInit (id : TypeId) (pending : List TypeId) (goal : Goal α)

inductive Action (α : Type)
  | proceed (w : World) (program : Program α)
  | enter (w : World) (body : Program Slot) (frame : Frame α)
  | abort

namespace Action

def ofChange {α β : Type} (resume : Except Fault β → Program α) (change : Except Fault β × World) :
    Action α :=
  .proceed change.2 (resume change.1)

end Action

namespace Return

/-- Hands on the result of a method. A finalizer's result is not looked at. -/
def deliver {α : Type} (w : World) (result : Except Fault Slot) : Return α → Action α
  | answer resume => .proceed w (resume result)
  | reclaim h resume => .ofChange resume (w.reclaim h)

end Return

namespace Action

def enterMethod {α : Type} (w : World) (m : Method) (name : String) (argv : List Slot)
    (result : Return α) : Action α :=
  match m.enter name argv with
  | .ok body => .enter w body (.method ⟨m, name, argv⟩ result)
  | .error f => result.deliver w (.error f)

end Action

namespace Goal

def refuse {α : Type} (w : World) (f : Fault) : Goal α → Action α
  | construct _ _ resume => .proceed w (resume (.error f))
  | dispatch _ _ _ result => result.deliver w (.error f)

def call {α : Type} (r : Registry) (w : World) (type : TypeId) (name : String) (argv : List Slot)
    (result : Return α) : Action α :=
  match r.get? type with
  | none => result.deliver w (.error (.unknownType type))
  | some t =>
      match r.resolve? type name with
      | none => result.deliver w (.error (.methodNotFound t.name name))
      | some (_, m) => .enterMethod w m name argv result

def reach {α : Type} (r : Registry) (w : World) : Goal α → Action α
  | construct type (some values) resume => .ofChange resume (w.construct type values)
  | construct type none resume =>
      match (r.get? type).map fun t => t.fieldCount.toNat with
      | none => .proceed w (resume (.error (.unknownType type)))
      | some count =>
          if World.maxFields < count then .abort
          else .ofChange resume (w.allocate type (.fields (List.replicate count .null)))
  | dispatch type name argv result => call r w type name argv result

/-- Initializes the given types in order and then reaches the goal. A type that is initialized, or
whose initializer is running, is passed over; a type whose initializer failed refuses the goal. -/
def prepare {α : Type} (r : Registry) (goal : Goal α) : World → List TypeId → Action α
  | w, [] => goal.reach r w
  | w, id :: pending =>
      match w.progressOf id with
      | some .done => prepare r goal w pending
      | some .running => prepare r goal w pending
      | some (.failed f) => goal.refuse w f
      | none =>
          match (r.get? id).bind ObjectType.staticInit with
          | some hook =>
              .enter (w.note id .running) ((fun _ => Slot.null) <$> hook id)
                (.staticInit id pending goal)
          | none => prepare r goal (w.note id .done) pending

def beginCall {α : Type} (r : Registry) (w : World) (name : String) (argv : List Slot)
    (result : Return α) : Action α :=
  match argv with
  | [] => result.deliver w (.error (.argumentMismatch name "receiver" "()"))
  | slot :: _ =>
      match slot.expectHandle with
      | .error f => result.deliver w (.error f)
      | .ok h =>
          match w.arena.get h with
          | .error f => result.deliver w (.error f)
          | .ok object => prepare r (.dispatch object.type name argv result) w (r.chain object.type)

end Goal

namespace Frame

def resume {α : Type} (r : Registry) (w : World) (result : Except Fault Slot) :
    Frame α → Action α
  | method _ waiting => waiting.deliver w result
  | staticInit id pending goal =>
      match result with
      | .ok _ => goal.prepare r (w.note id .done) pending
      | .error f => goal.refuse (w.note id (.failed f)) f

end Frame

namespace World

def serve (r : Registry) (w : World) {α : Type} :
    (request : Request) → (request.Answer → Program α) → Action α
  | .call name argv, resume => Goal.beginCall r w name argv (.answer resume)
  | .forwardsArguments, resume => .proceed w (resume w.forwardsArguments)
  | .validate h, resume => .proceed w (resume (w.validate h))
  | .objectId h, resume => .proceed w (resume (w.objectId h))
  | .typeOf h, resume => .proceed w (resume (w.typeOf r h))
  | .typeObject id, resume => .ofChange resume (w.typeObject r id)
  | .createString s, resume => .ofChange resume (w.createString s)
  | .readString value, resume => .proceed w (resume (w.readString value))
  | .createList values, resume => .ofChange resume (w.createList values)
  | .readList value, resume => .proceed w (resume (w.readList value))
  | .getField h index, resume => .proceed w (resume (w.getField h index))
  | .setField h index value, resume => .ofChange resume (w.setField h index value)
  | .isFrozen h, resume => .proceed w (resume (w.isFrozen h))
  | .freeze h, resume => .ofChange resume (w.freeze h)
  | .writeLine line, resume => .ofChange resume (w.writeLine line)
  | .instantiate id, resume =>
      match instanceType r id with
      | .error f => .proceed w (resume (.error f))
      | .ok _ => Goal.prepare r (.construct id none resume) w (r.chain id)
  | .instantiateWith id values, resume =>
      match filledType r id values with
      | .error f => .proceed w (resume (.error f))
      | .ok _ => Goal.prepare r (.construct id (some values) resume) w (r.chain id)
  | .release h, resume =>
      match w.releasable h with
      | .error f => .proceed w (resume (.error f))
      | .ok _ => Goal.beginCall r w Protocol.finalizeName [.handle h] (.reclaim h resume)
  | .reflect h, resume => .proceed w (resume (w.reflect r h))
  | .invoke id name argv, resume =>
      match r.resolve? id name with
      | none => .proceed w (resume (.error .noSuchMethod))
      | some (_, m) => .enterMethod w m name argv (.answer resume)
  | .options, resume => .proceed w (resume w.options)
  | .liveObjects, resume => .proceed w (resume w.arena.live)
  | .overview, resume => .proceed w (resume (w.overview r))

end World

/-- A running environment: either the outermost program runs, or a method or initializer runs and
the code around it waits, the innermost first and the outermost program last. -/
inductive Machine (α : Type)
  | outer (w : World) (program : Program α)
  | inner (w : World) (body : Program Slot) (stack : List (Frame Slot)) (base : Frame α)

inductive StepResult (α : Type)
  | running (m : Machine α)
  | finished (result : Except Fault α) (w : World)
  | aborted

namespace Action

def atBase {α : Type} : Action α → StepResult α
  | proceed w program => .running (.outer w program)
  | enter w body frame => .running (.inner w body [] frame)
  | abort => .aborted

def within {α : Type} (stack : List (Frame Slot)) (base : Frame α) : Action Slot → StepResult α
  | proceed w program => .running (.inner w program stack base)
  | enter w body frame => .running (.inner w body (frame :: stack) base)
  | abort => .aborted

end Action

namespace Machine

def world {α : Type} : Machine α → World
  | outer w _ => w
  | inner w _ _ _ => w

def leave {α : Type} (r : Registry) (w : World) (result : Except Fault Slot) (base : Frame α) :
    List (Frame Slot) → StepResult α
  | [] => (base.resume r w result).atBase
  | frame :: stack => (frame.resume r w result).within stack base

def step {α : Type} (r : Registry) : Machine α → StepResult α
  | outer w (.finish (.value a)) => .finished (.ok a) w
  | outer w (.finish (.fault f)) => .finished (.error f) w
  | outer _ (.finish .aborted) => .aborted
  | outer w (.ask request resume) => (w.serve r request resume).atBase
  | inner w (.finish (.value slot)) stack base => leave r w (.ok slot) base stack
  | inner w (.finish (.fault f)) stack base => leave r w (.error f) base stack
  | inner _ (.finish .aborted) _ _ => .aborted
  | inner w (.ask request resume) stack base => (w.serve r request resume).within stack base

def run {α : Type} (r : Registry) : Nat → Machine α → StepResult α
  | 0, m => .running m
  | fuel + 1, m =>
      match m.step r with
      | .running next => run r fuel next
      | result => result

inductive Reaches {α : Type} (r : Registry) : Machine α → Machine α → Prop
  | refl (m : Machine α) : Reaches r m m
  | step {m n o : Machine α} : Reaches r m n → n.step r = .running o → Reaches r m o

end Machine
end ManagedObjects

import ManagedObjects.Proofs.Machine.Calls
import ManagedObjects.Proofs.Registry.Freezing
import ManagedObjects.Proofs.Trap.Contract
import ManagedObjects.Recording

namespace ManagedObjects

variable {α β σ : Type}

namespace Program

inductive Completes : Program α → Prop
  | value (a : α) : Completes (finish (.value a))
  | fault (f : Fault) : Completes (finish (.fault f))
  | ask {request : Request} {resume : request.Answer → Program α} :
      (∀ answer, Completes (resume answer)) → Completes (ask request resume)

theorem completes_ofExcept (result : Except Fault α) : (ofExcept result).Completes := by
  cases result with
  | ok a => exact .value a
  | error f => exact .fault f

theorem completes_argument {argv : List Slot} {index : Nat} (valid : index < argv.length) :
    (argument argv index).Completes := by
  rw [argument, List.getElem?_eq_getElem valid]
  exact .value _

theorem Completes.bind {p : Program α} {next : α → Program β} (first : p.Completes)
    (rest : ∀ a, (next a).Completes) : (p >>= next).Completes := by
  induction first with
  | value a => exact rest a
  | fault f => exact .fault f
  | ask _ ih => exact .ask ih

theorem Completes.map {p : Program α} (completes : p.Completes) (f : α → β) : (f <$> p).Completes :=
  completes.bind fun a => .value (f a)

theorem Completes.interpret {p : Program α} (completes : p.Completes) (env : Environment σ)
    (s : σ) : (p.interpret env s).1 ≠ .aborted := by
  induction completes generalizing s with
  | value a => exact fun aborted => by cases aborted
  | fault f => exact fun aborted => by cases aborted
  | ask _ ih => exact ih (env _ s).1 (env _ s).2

end Program

def Recording.environment : Environment Recording :=
  fun request s => s.respond request

open Program

namespace Trap

theorem completes_validateAll (handles : List Handle) : (validateAll handles).Completes := by
  induction handles with
  | nil => exact .value ()
  | cons h rest ih => exact .bind (.ask completes_ofExcept) fun _ => ih

theorem completes_dispatchWith (policy : TrapPolicy) (this : Handle) (name : String)
    (args : Option (List Slot)) : (dispatchWith policy this name args).Completes := by
  refine .bind (.ask completes_ofExcept) fun _ => ?_
  split
  · exact .bind (.ask completes_ofExcept) fun _ => .fault _
  · refine .bind (completes_validateAll _) fun _ => ?_
    unfold forward
    split
    · exact .fault _
    · exact .ask completes_ofExcept

theorem completes_dispatchManaged (this : Handle) (name args : Slot) :
    (dispatchManaged this name args).Completes := by
  refine .bind (.ask completes_ofExcept) fun method => .bind ?_ fun given =>
    .bind (.bind (.ask .value) fun forwards => ?_) fun policy =>
      completes_dispatchWith policy this method given
  · unfold readArguments
    split
    · exact .value none
    · exact .map (.ask completes_ofExcept) some
  · cases forwards <;> exact .value _

end Trap

theorem Protocol.completes_receiver (argv : List Slot) : (receiver argv).Completes := by
  cases argv with
  | nil => exact .fault _
  | cons slot rest => exact completes_ofExcept _

namespace Method

theorem invoke_eq (m : Method) (called : String) (argv : List Slot) :
    m.signature.accepts (argv.drop 1) = true ∧ m.invoke called argv = m.body argv ∨
      ∃ f, m.invoke called argv = .fail f := by
  unfold invoke
  cases entered : m.enter called argv with
  | ok body =>
      obtain ⟨accepted, rfl⟩ := enter_ok entered
      exact .inl ⟨accepted, rfl⟩
  | error f => exact .inr ⟨f, rfl⟩

structure Safe (m : Method) : Prop where
  completes : ∀ called argv, (m.invoke called argv).Completes
  refuses : ∀ called, ∃ f, m.invoke called [] = .fail f

theorem safe_ofReceiver {f : Handle → Program Slot} (completes : ∀ this, (f this).Completes) :
    (Protocol.ofReceiver f).Safe where
  completes called argv := by
    obtain ⟨-, body⟩ | ⟨fault, failed⟩ := (Protocol.ofReceiver f).invoke_eq called argv
    · rw [body]
      exact .bind (Protocol.completes_receiver argv) completes
    · exact failed ▸ .fault fault
  refuses called := ⟨.missingReceiver, rfl⟩

theorem safe_of_required {m : Method} (required : 0 < m.signature.required)
    (completes : ∀ argv, 1 < argv.length → (m.body argv).Completes) : m.Safe where
  completes called argv := by
    obtain ⟨accepted, body⟩ | ⟨fault, failed⟩ := m.invoke_eq called argv
    · have supplied := (Signature.fits_of_accepts accepted).1
      rw [List.length_drop] at supplied
      exact body ▸ completes argv (by omega)
    · exact failed ▸ .fault fault
  refuses called := by
    obtain ⟨accepted, -⟩ | refused := m.invoke_eq called []
    · exact absurd (Signature.fits_of_accepts accepted).1 (Nat.not_le.mpr required)
    · exact refused

end Method

namespace Protocol

theorem completes_equals (this : Handle) (other : Slot) : (equals this other).Completes := by
  refine .bind (.ask completes_ofExcept) fun _ => ?_
  split
  · exact .bind (.ask completes_ofExcept) fun _ => .value _
  · exact .value false

theorem completes_order (this other : Handle) : (order this other).Completes :=
  .bind (.ask completes_ofExcept) fun a => .bind (.ask completes_ofExcept) fun b =>
    .value (compare a b)

theorem completes_echo (this : Handle) : (echo this).Completes :=
  .bind (Trap.completes_dispatchWith ..) fun _ => .bind (.ask completes_ofExcept) fun _ =>
    .ask completes_ofExcept

theorem safe_equalsMethod : equalsMethod.Safe := by
  refine Method.safe_of_required (by decide) fun argv two => ?_
  exact .bind (completes_receiver argv) fun this => .bind (completes_argument two) fun other =>
    .map (completes_equals this other) Slot.bool

theorem safe_compareMethod : compareMethod.Safe := by
  refine Method.safe_of_required (by decide) fun argv two => ?_
  exact .bind (completes_argument two) fun other => .bind (completes_ofExcept _) fun other =>
    .bind (completes_receiver argv) fun this =>
      .bind (completes_order this other) fun order => .value (Slot.int (.ofOrdering order))

theorem safe_trapMethod : trapMethod.Safe := by
  refine Method.safe_of_required (by decide) fun argv two => ?_
  exact .bind (completes_receiver argv) fun this => .bind (completes_argument two) fun name =>
    Trap.completes_dispatchManaged this name _

theorem safe_of_mem_methods {name : String} {m : Method} (member : (name, m) ∈ methods) :
    m.Safe := by
  simp only [methods, List.mem_cons, Prod.mk.injEq, List.not_mem_nil, or_false] at member
  rcases member with ⟨-, rfl⟩ | ⟨-, rfl⟩ | ⟨-, rfl⟩ | ⟨-, rfl⟩ | ⟨-, rfl⟩ | ⟨-, rfl⟩ | ⟨-, rfl⟩ |
    ⟨-, rfl⟩ | ⟨-, rfl⟩ | ⟨-, rfl⟩
  · exact safe_equalsMethod
  · exact safe_compareMethod
  · exact Method.safe_ofReceiver fun this => .map (.map (.ask completes_ofExcept) hashOf) Slot.int
  · exact Method.safe_ofReceiver fun this =>
      .map (.bind (.ask completes_ofExcept) fun type => .ask completes_ofExcept) Slot.handle
  · exact Method.safe_ofReceiver fun this =>
      .map (.bind (.ask completes_ofExcept) fun _ => .value false) Slot.bool
  · exact Method.safe_ofReceiver fun this =>
      .map (.bind (.ask completes_ofExcept) fun _ => .value this) Slot.handle
  · exact Method.safe_ofReceiver fun this =>
      .map (.bind (.ask completes_ofExcept) fun type => .ask completes_ofExcept) Slot.handle
  · exact Method.safe_ofReceiver fun this => .map (.ask completes_ofExcept) _
  · exact Method.safe_ofReceiver fun this => .map (completes_echo this) _
  · exact safe_trapMethod

theorem safe_of_mem_freezableMethods {name : String} {m : Method}
    (member : (name, m) ∈ freezableMethods) : m.Safe := by
  simp only [freezableMethods, List.mem_cons, Prod.mk.injEq, List.not_mem_nil, or_false] at member
  rcases member with ⟨-, rfl⟩ | ⟨-, rfl⟩
  · exact Method.safe_ofReceiver fun this => .map (.ask completes_ofExcept) Slot.bool
  · exact Method.safe_ofReceiver fun this =>
      .map (.bind (.ask completes_ofExcept) fun _ => .value this) Slot.handle

theorem safe_of_mem_valueMethods {name : String} {m : Method}
    (member : (name, m) ∈ valueMethods) : m.Safe := by
  simp only [valueMethods, List.mem_cons, Prod.mk.injEq, List.not_mem_nil, or_false] at member
  rcases member with ⟨-, rfl⟩ | ⟨-, rfl⟩
  · exact Method.safe_ofReceiver fun this => .bind (.ask completes_ofExcept) fun _ => .value _
  · exact Method.safe_ofReceiver fun this => .bind (.ask completes_ofExcept) fun _ => .value _

theorem completes_stringToStrMethod (called : String) {argv : List Slot} (received : argv ≠ []) :
    (stringToStrMethod.invoke called argv).Completes := by
  obtain ⟨-, body⟩ | ⟨fault, failed⟩ := stringToStrMethod.invoke_eq called argv
  · exact body ▸ completes_argument (List.length_pos_of_ne_nil received)
  · exact failed ▸ .fault fault

end Protocol

namespace Registry

variable {made : List (TypeId × TypeDeclaration)} {r : Registry} {id : TypeId} {type : ObjectType}
  {name : String} {m : Method}

theorem Tree.stringToStr (tree : r.Tree) (found : r.get? .string = some type)
    (bound : type.methods.get? Protocol.toStrName = some m) : m = Protocol.stringToStrMethod := by
  rw [tree.builtin .string (by decide)] at found
  cases found
  exact (Option.some.inj bound).symm

theorem Tree.safe_of_builtin (tree : r.Tree) (low : id ≤ TypeId.type)
    (other : ¬(id = .string ∧ name = Protocol.toStrName)) (found : r.get? id = some type)
    (bound : type.methods.get? name = some m) : m.Safe := by
  rw [tree.builtin id low] at found
  match id with
  | 0 =>
      cases found
      obtain member | absent := MethodTable.get?_insertAll bound
      · exact Protocol.safe_of_mem_methods member
      · cases absent
  | 1 =>
      cases found
      have differs : name ≠ Protocol.toStrName := fun same => other ⟨rfl, same⟩
      obtain member | absent := MethodTable.get?_insertAll
        ((MethodTable.get?_insert_ne _ _ differs).symm.trans bound)
      · exact Protocol.safe_of_mem_valueMethods member
      · cases absent
  | 2 =>
      cases found
      cases bound
  | 3 =>
      cases found
      obtain member | absent := MethodTable.get?_insertAll bound
      · exact Protocol.safe_of_mem_valueMethods member
      · cases absent
  | n + 4 => exact absurd low (Nat.not_le.mpr (Nat.lt_add_left n (Nat.lt_succ_self 3)))

theorem Declares.safe_of_frozen (declares : Declares made r) {d : TypeDeclaration}
    (member : (id, d) ∈ made) (freezable : d.freezable = true)
    (special : name ∈ Protocol.freezableMethods.map Prod.fst)
    (found : r.get? id = some type) (bound : type.methods.get? name = some m) : m.Safe := by
  obtain ⟨-, parent, -, -, self⟩ := declares.declared_of_mem member
  cases found.symm.trans self
  obtain ⟨⟨key, frozen⟩, listed, rfl⟩ := List.mem_map.mp special
  have installed : d.table.get? key = some frozen := by
    rw [TypeDeclaration.table, freezable, if_pos rfl]
    exact MethodTable.get?_insertAll_of_mem (by decide) listed
  cases installed.symm.trans bound
  exact Protocol.safe_of_mem_freezableMethods listed

/-- How the methods end that a registry binds itself: those of the types from the start, and on a
type that is declared freezable those for freezing. In every environment and for all arguments they
end with a value or a fault, and without a receiver with a fault before anything is asked. The only
exception is the text of a string without a receiver, which reads past the end of the arguments. -/
theorem invoke_bound (declares : Declares made r) (found : r.get? id = some type)
    (bound : type.methods.get? name = some m)
    (own : id ≤ TypeId.type ∨ ∃ d, (id, d) ∈ made ∧ d.freezable = true ∧
      name ∈ Protocol.freezableMethods.map Prod.fst)
    {σ : Type} (env : Environment σ) (s : σ) (called : String) (argv : List Slot) :
    (((m.invoke called argv).interpret env s).1 = .aborted ↔
      id = .string ∧ name = Protocol.toStrName ∧ argv = []) ∧
    (argv = [] → id = .string ∧ name = Protocol.toStrName ∨
      ∃ f, (m.invoke called argv).interpret env s = (.fault f, s)) := by
  by_cases text : id = .string ∧ name = Protocol.toStrName
  · obtain ⟨rfl, rfl⟩ := text
    cases declares.built.tree.stringToStr found bound
    refine ⟨⟨fun aborted => ⟨rfl, rfl, ?_⟩, ?_⟩, fun _ => .inl ⟨rfl, rfl⟩⟩
    · by_contra received
      exact (Protocol.completes_stringToStrMethod called received).interpret env s aborted
    · rintro ⟨-, -, rfl⟩
      rfl
  · have safe : m.Safe := by
      obtain low | ⟨d, member, freezable, special⟩ := own
      · exact declares.built.tree.safe_of_builtin low text found bound
      · exact declares.safe_of_frozen member freezable special found bound
    refine ⟨⟨fun aborted => ?_, fun ⟨string, named, _⟩ => absurd ⟨string, named⟩ text⟩, ?_⟩
    · exact absurd aborted ((safe.completes called argv).interpret env s)
    · rintro rfl
      obtain ⟨f, refused⟩ := safe.refuses called
      exact .inr ⟨f, congrArg (fun p : Program Slot => p.interpret env s) refused⟩

theorem invoke_bound_hash :
    ∃ (type : ObjectType) (m : Method) (f : Fault), initial.get? .object = some type ∧
      type.methods.get? "hash" = some m ∧
        (m.invoke "hash" []).interpret Recording.environment ⟨#[], #[]⟩ =
          (.fault f, ⟨#[], #[]⟩) := by
  have root : initial.get? .object = some _ := rfl
  have bound : MethodTable.empty.install.get? "hash" = some Protocol.hashMethod := rfl
  obtain ⟨-, refused⟩ := invoke_bound .initial root bound (.inl (by decide))
    Recording.environment ⟨#[], #[]⟩ "hash" []
  obtain ⟨f, failed⟩ := (refused rfl).resolve_left fun ⟨string, _⟩ => by cases string
  exact ⟨_, _, f, rfl, rfl, failed⟩

/-- The text of a string without a receiver. -/
theorem invoke_stringToStr_aborts :
    ∃ (type : ObjectType) (m : Method), initial.get? .string = some type ∧
      type.methods.get? "toStr" = some m ∧
        ((m.invoke "toStr" []).interpret Recording.environment ⟨#[], #[]⟩).1 = .aborted :=
  ⟨_, Protocol.stringToStrMethod, rfl, rfl, rfl⟩

end Registry
end ManagedObjects

import ManagedObjects.Proofs.Arena.Accounting
import ManagedObjects.Proofs.Machine.Identity
import ManagedObjects.Proofs.Machine.TypeObjects

namespace ManagedObjects

variable {r : Registry} {w : World}

namespace World

theorem allocate_eq_error_iff {type : TypeId} {payload : Payload} {f : Fault} :
    (w.allocate type payload).1 = .error f ↔ w.arena.Refuses f :=
  Arena.allocate_eq_error_iff

theorem typeObject_eq_error_iff {id : TypeId} {t : ObjectType} (found : r.get? id = some t)
    {f : Fault} :
    (w.typeObject r id).1 = .error f ↔ w.typeObjects.lookup id = none ∧ w.arena.Refuses f := by
  simp only [typeObject, found]
  cases w.typeObjects.lookup id with
  | some h => simp
  | none =>
      have refused : (w.allocate .type (.typeObject id)).1 = .error f ↔ w.arena.Refuses f :=
        allocate_eq_error_iff
      rw [← refused]
      obtain ⟨result, left⟩ := w.allocate .type (.typeObject id)
      cases result <;> simp

end World

namespace Program

variable {β : Type} {p : Program β}

def Succeeds (r : Registry) (w : World) (p : Program β) : Prop :=
  ∃ b w', p.Answers r w (.value b) w'

theorem succeeds_of_eval {b : β} {w' : World} (evaluates : p.eval r w = some (.value b, w')) :
    p.Succeeds r w :=
  ⟨b, w', answers_of_eval evaluates⟩

theorem Answers.not_succeeds {f : Fault} {w' : World} (answers : p.Answers r w (.fault f) w') :
    ¬ p.Succeeds r w := by
  rintro ⟨b, v, other⟩
  cases (answers.unique other).1

section Changes
variable {change : Except Fault β × World}
  (evaluates : p.eval r w = some (.ofExcept change.1, change.2))
include evaluates

theorem succeeds_iff_of_change : p.Succeeds r w ↔ ∀ f, change.1 ≠ .error f := by
  have answers := answers_of_eval evaluates
  cases result : change.1 with
  | error f =>
      rw [result] at answers
      exact iff_of_false answers.not_succeeds (by simp)
  | ok b =>
      rw [result] at answers
      exact iff_of_true ⟨_, _, answers⟩ (by simp)

theorem answers_fault_iff_of_change (atomic : Atomic w change) {f : Fault} {w' : World} :
    p.Answers r w (.fault f) w' ↔ change.1 = .error f ∧ w' = w := by
  have answers := answers_of_eval evaluates
  constructor
  · intro other
    obtain ⟨same, left⟩ := answers.unique other
    cases result : change.1 with
    | error g =>
        rw [result] at same
        cases same
        exact ⟨rfl, left.symm.trans (atomic _ result)⟩
    | ok b =>
        rw [result] at same
        cases same
  · rintro ⟨result, rfl⟩
    rwa [result, atomic f result] at answers

end Changes
end Program

namespace Protocol

open Program

inductive Receives (this : Handle) : {β : Type} → Program β → Prop
  | equals (other : Slot) : Receives this (equals this other)
  | order (other : Handle) : Receives this (order this other)
  | hash : Receives this (hash this)
  | toStr : Receives this (toStr this)
  | isImmutable : Receives this (isImmutable this)
  | toImmutable : Receives this (toImmutable this)
  | typeOf : Receives this (typeOf this)
  | finalize : Receives this (finalize this)
  | echo : Receives this (echo this)
  | isFrozenImmutable : Receives this (isFrozenImmutable this)
  | freezeToImmutable : Receives this (freezeToImmutable this)

section Stale
variable {this : Handle} (dead : w.arena.get? this = none)
include dead

theorem eval_typeOf_stale :
    (Native.typeOf this).eval r w = some (.fault (.invalidHandle this), w) := by
  have failed : w.typeOf r this = .error (.invalidHandle this) := by
    simp [World.typeOf, Arena.get_eq_error dead, bind, Except.bind]
  rw [eval_typeOf, failed, Outcome.ofExcept]

theorem Receives.eval_stale {β : Type} {p : Program β} (receives : Receives this p) :
    p.eval r w = some (.fault (.invalidHandle this), w) := by
  cases receives with
  | equals | isImmutable | toImmutable => exact eval_bind_fault (eval_validate_stale dead)
  | finalize => exact eval_validate_stale dead
  | order | hash => exact eval_bind_fault (eval_objectId_stale dead)
  | toStr | typeOf => exact eval_bind_fault (eval_typeOf_stale dead)
  | echo => exact eval_bind_fault (eval_bind_fault (eval_validate_stale dead))
  | isFrozenImmutable =>
      have failed : w.isFrozen this = .error (.invalidHandle this) := by
        simp [World.isFrozen, Arena.get_eq_error dead, Except.map]
      refine (eval_ofExcept (w.isFrozen this) w).trans ?_
      rw [failed, Outcome.ofExcept]
  | freezeToImmutable =>
      have failed : w.freeze this = (.error (.invalidHandle this), w) := by
        rw [World.freeze, Arena.update_dead dead]
        rfl
      refine eval_bind_fault ((eval_ofExcept _ _).trans ?_)
      rw [failed]
      rfl

end Stale

section Live
variable {this : Handle} {object : Object} (live : w.arena.get? this = some object)
include live

theorem answers_equals_stale {that : Handle} (dead : w.arena.get? that = none) :
    (equals this (.handle that)).Answers r w (.fault (.invalidHandle that)) w :=
  answers_of_eval ((eval_bind_value (eval_validate_live live)).trans
    (eval_bind_fault (eval_validate_stale dead)))

theorem answers_order_stale {that : Handle} (dead : w.arena.get? that = none) :
    (order this that).Answers r w (.fault (.invalidHandle that)) w :=
  answers_of_eval ((eval_bind_value (eval_objectId_live live)).trans
    (eval_bind_fault (eval_objectId_stale dead)))

theorem succeeds_equals_iff {other : Slot} :
    (equals this other).Succeeds r w ↔
      ∀ that, other = .handle that → w.arena.contains that = true := by
  constructor
  · rintro succeeds that rfl
    cases denoted : w.arena.get? that with
    | none => exact absurd succeeds (answers_equals_stale live denoted).not_succeeds
    | some object => exact Arena.contains_iff.mpr ⟨object, denoted⟩
  · intro sound
    cases other with
    | handle that =>
        obtain ⟨object, denoted⟩ := Arena.contains_iff.mp (sound that rfl)
        exact ⟨_, _, World.equates_handle live denoted⟩
    | _ => exact ⟨_, _, World.equates_other live rfl⟩

theorem succeeds_order_iff {that : Handle} :
    (order this that).Succeeds r w ↔ w.arena.contains that = true := by
  rw [Arena.contains_iff]
  constructor
  · intro succeeds
    cases denoted : w.arena.get? that with
    | none => exact absurd succeeds (answers_order_stale live denoted).not_succeeds
    | some object => exact ⟨object, rfl⟩
  · rintro ⟨object, denoted⟩
    exact ⟨_, _, World.orders_compare live denoted⟩

theorem eval_isFrozenImmutable :
    (isFrozenImmutable this).eval r w = some (.value object.frozen, w) := by
  have read : w.isFrozen this = .ok object.frozen := by
    simp [World.isFrozen, Arena.get_eq_ok_iff.mpr live, Except.map]
  refine (eval_ofExcept (w.isFrozen this) w).trans ?_
  rw [read, Outcome.ofExcept]

theorem succeeds_freezeToImmutable : (freezeToImmutable this).Succeeds r w := by
  obtain ⟨w', frozen⟩ : ∃ w', w.freeze this = (.ok (), w') := by
    rw [World.freeze, Arena.update_eq live]
    exact ⟨_, rfl⟩
  have evaluates : (Native.freeze this).eval r w = some (.value (), w') := by
    refine (eval_ofExcept _ _).trans ?_
    rw [frozen]
    rfl
  exact succeeds_of_eval (eval_bind_value evaluates)

section Typed
variable {t : ObjectType} (found : r.get? object.type = some t)
include found

theorem eval_typeOf_live : (Native.typeOf this).eval r w = some (.value t.descriptor, w) := by
  rw [eval_typeOf, World.typeOf_eq live found, Outcome.ofExcept]

theorem eval_toStr :
    (toStr this).eval r w =
      some (.ofExcept (w.createString (identityText this t.name)).1,
        (w.createString (identityText this t.name)).2) :=
  (eval_bind_value (eval_typeOf_live live found)).trans (eval_ofExcept _ _)

theorem eval_typeOf (number : t.id = object.type) :
    (typeOf this).eval r w =
      some (.ofExcept (w.typeObject r object.type).1, (w.typeObject r object.type).2) := by
  refine (eval_bind_value (eval_typeOf_live live found)).trans ?_
  rw [show t.descriptor.id = object.type from number]
  exact eval_ofExcept _ _

end Typed
end Live
end Protocol

namespace Machine

variable {α : Type} {options : Options} {sink : Sink} {program : Program α} {entries : List Entry}
  {m : Machine α}

/-- The functions of the protocol fail exactly where they have to, in every state of a run. On a
receiver that is not live each of them fails for that and changes nothing, whatever else it is
given. On a live one, equality and order fail just if what the receiver is compared with is a handle
that is not live. Hash, immutability and finalizing never fail. The text fails just if the arena
makes no further object, and the type object just if there is none yet and the arena makes no
further object; the fault is that of the arena then, and nothing has changed. -/
theorem run_protocol_fails_exactly (built : r.Built)
    (run : Run r (start options sink program) entries m) (this : Handle) :
    (m.world.arena.get? this = none → ∀ (β : Type) (p : Program β), Protocol.Receives this p →
      p.Answers r m.world (.fault (.invalidHandle this)) m.world) ∧
    ∀ object, m.world.arena.get? this = some object →
      (∀ other, (Protocol.equals this other).Succeeds r m.world ↔
        ∀ that, other = .handle that → m.world.arena.contains that = true) ∧
      (∀ that, (Protocol.order this that).Succeeds r m.world ↔
        m.world.arena.contains that = true) ∧
      (∀ that, m.world.arena.contains that = false →
        (Protocol.equals this (.handle that)).Answers r m.world (.fault (.invalidHandle that))
            m.world ∧
          (Protocol.order this that).Answers r m.world (.fault (.invalidHandle that)) m.world) ∧
      (Protocol.hash this).Succeeds r m.world ∧
      (Protocol.isImmutable this).Succeeds r m.world ∧
      (Protocol.toImmutable this).Succeeds r m.world ∧
      (Protocol.finalize this).Succeeds r m.world ∧
      (Protocol.isFrozenImmutable this).Succeeds r m.world ∧
      (Protocol.freezeToImmutable this).Succeeds r m.world ∧
      ((Protocol.toStr this).Succeeds r m.world ↔ ∀ f, ¬ m.world.arena.Refuses f) ∧
      (∀ f w', (Protocol.toStr this).Answers r m.world (.fault f) w' ↔
        m.world.arena.Refuses f ∧ w' = m.world) ∧
      ((Protocol.typeOf this).Succeeds r m.world ↔
        (∃ h, m.world.arena.Represents h object.type) ∨ ∀ f, ¬ m.world.arena.Refuses f) ∧
      ∀ f w', (Protocol.typeOf this).Answers r m.world (.fault f) w' ↔
        (∀ h, ¬ m.world.arena.Represents h object.type) ∧ m.world.arena.Refuses f ∧
          w' = m.world := by
  refine ⟨fun dead β p receives => Program.answers_of_eval (receives.eval_stale dead), ?_⟩
  intro object live
  obtain ⟨t, found⟩ := ((run.fits this object live).wellTyped built.tree).registered
  have text := Protocol.eval_toStr live found
  have type := Protocol.eval_typeOf live found (built.tree.id_eq _ t found)
  -- The type objects that are noted are those that there are.
  have unmade : m.world.typeObjects.lookup object.type = none ↔
      ∀ h, ¬ m.world.arena.Represents h object.type := by
    rw [Option.eq_none_iff_forall_ne_some]
    exact forall_congr' fun h => not_congr (run.catalogued.1 object.type h)
  refine ⟨fun other => Protocol.succeeds_equals_iff live,
    fun that => Protocol.succeeds_order_iff live, fun that stale => ?_,
    ⟨_, _, World.hashes_hashOf live⟩,
    Program.succeeds_of_eval (Program.eval_bind_value (Program.eval_validate_live live)),
    Program.succeeds_of_eval (Program.eval_bind_value (Program.eval_validate_live live)),
    Program.succeeds_of_eval (Program.eval_validate_live live),
    Program.succeeds_of_eval (Protocol.eval_isFrozenImmutable live),
    Protocol.succeeds_freezeToImmutable live, ?_, fun f w' => ?_, ?_, fun f w' => ?_⟩
  · have dead : m.world.arena.get? that = none := by simpa [Arena.contains] using stale
    exact ⟨Protocol.answers_equals_stale live dead, Protocol.answers_order_stale live dead⟩
  · rw [Program.succeeds_iff_of_change text]
    exact forall_congr' fun f => not_congr World.allocate_eq_error_iff
  · rw [Program.answers_fault_iff_of_change text (World.atomic_allocate _ _ _), World.createString,
      World.allocate_eq_error_iff]
  · rw [Program.succeeds_iff_of_change type]
    simp only [ne_eq, World.typeObject_eq_error_iff found, unmade]
    constructor
    · intro fails
      by_cases made : ∃ h, m.world.arena.Represents h object.type
      · exact .inl made
      · exact .inr fun f refuses => fails f ⟨fun h represents => made ⟨h, represents⟩, refuses⟩
    · rintro (⟨h, represents⟩ | room) f ⟨absent, refuses⟩
      · exact absent h represents
      · exact room f refuses
  · rw [Program.answers_fault_iff_of_change type (World.atomic_typeObject _ _ _),
      World.typeObject_eq_error_iff found, unmade, and_assoc]

theorem run_protocol_fails_exactly_full :
    ∃ (entries : List Entry) (m : Machine Handle),
      Run .initial (start { maxObjects := some 1 } .reliable (Native.createString "a")) entries m ∧
        (Protocol.hash ⟨0, 0⟩).Succeeds .initial m.world ∧
        (Protocol.toStr ⟨0, 0⟩).Answers .initial m.world (.fault (.heapExhausted 1)) m.world ∧
        (Protocol.typeOf ⟨0, 0⟩).Answers .initial m.world (.fault (.heapExhausted 1)) m.world ∧
        (Protocol.echo ⟨1, 0⟩).Answers .initial m.world (.fault (.invalidHandle ⟨1, 0⟩))
          m.world := by
  let options : Options := { maxObjects := some 1 }
  let empty := World.initial options .reliable
  let full := empty.withArena (empty.arena.place .string (.text "a"))
  let last : Machine Handle := .outer full (Program.ofExcept (.ok ⟨0, 0⟩))
  have makes : (start options .reliable (Native.createString "a")).step .initial =
      .running last := rfl
  have run := Run.step .refl makes (.refl _)
  have live : last.world.arena.get? ⟨0, 0⟩ = some ⟨1, .string, false, .text "a"⟩ := rfl
  have dead : last.world.arena.get? ⟨1, 0⟩ = none := rfl
  have refuses : last.world.arena.Refuses (.heapExhausted 1) := .exhausted rfl (by decide)
  have unmade : ∀ h, ¬ last.world.arena.Represents h .string := by
    intro h represents
    have noted := (run.catalogued.1 _ h).mpr represents
    cases noted
  obtain ⟨-, alive⟩ := run_protocol_fails_exactly .initial run ⟨0, 0⟩
  obtain ⟨stale, -⟩ := run_protocol_fails_exactly .initial run ⟨1, 0⟩
  obtain ⟨-, -, -, hashes, -, -, -, -, -, -, text, -, type⟩ := alive _ live
  exact ⟨_, last, run, hashes, (text _ _).mpr ⟨refuses, rfl⟩,
    (type _ _).mpr ⟨unmade, refuses, rfl⟩, stale dead _ _ .echo⟩

end Machine
end ManagedObjects

import ManagedObjects.Proofs.Arena.Numbering
import ManagedObjects.Proofs.Machine.Answers
import ManagedObjects.Proofs.Machine.References

namespace ManagedObjects

namespace World

variable {r : Registry} {w : World} {a b : Handle} {x y : Object}

def Equates (r : Registry) (w : World) (a : Handle) (other : Slot) (same : Bool) : Prop :=
  (Protocol.equals a other).Answers r w (.value same) w

def Orders (r : Registry) (w : World) (a b : Handle) (o : Ordering) : Prop :=
  (Protocol.order a b).Answers r w (.value o) w

def Hashes (r : Registry) (w : World) (a : Handle) (n : Int48) : Prop :=
  (Protocol.hash a).Answers r w (.value n) w

def NotAfter (r : Registry) (w : World) (a b : Handle) : Prop :=
  w.Orders r a b .lt ∨ w.Orders r a b .eq

theorem equates_handle (one : w.arena.get? a = some x) (two : w.arena.get? b = some y) :
    w.Equates r a (.handle b) (decide (b = a)) := by
  refine Program.answers_of_eval ?_
  exact (Program.eval_bind_value (Program.eval_validate_live one)).trans
    (Program.eval_bind_value (Program.eval_validate_live two))

theorem equates_other {other : Slot} (live : w.arena.get? a = some x)
    (noHandle : other.handle? = none) : w.Equates r a other false := by
  refine Program.answers_of_eval ?_
  simp only [Protocol.equals, noHandle]
  exact Program.eval_bind_value (Program.eval_validate_live live)

theorem orders_compare (one : w.arena.get? a = some x) (two : w.arena.get? b = some y) :
    w.Orders r a b (compare x.id y.id) := by
  refine Program.answers_of_eval ?_
  exact (Program.eval_bind_value (Program.eval_objectId_live one)).trans
    (Program.eval_bind_value (Program.eval_objectId_live two))

theorem hashes_hashOf (live : w.arena.get? a = some x) : w.Hashes r a (Protocol.hashOf x.id) := by
  refine Program.answers_of_eval ?_
  exact Program.eval_bind_value (Program.eval_objectId_live live)

theorem equates_iff (one : w.arena.get? a = some x) (two : w.arena.get? b = some y)
    (same : Bool) : w.Equates r a (.handle b) same ↔ same = decide (a = b) := by
  rw [show decide (a = b) = decide (b = a) from decide_eq_decide.mpr eq_comm]
  constructor
  · intro answers
    cases (Program.Answers.unique answers (equates_handle one two)).1
    rfl
  · rintro rfl
    exact equates_handle one two

theorem orders_iff (one : w.arena.get? a = some x) (two : w.arena.get? b = some y)
    (o : Ordering) : w.Orders r a b o ↔ o = compare x.id y.id := by
  constructor
  · intro answers
    cases (Program.Answers.unique answers (orders_compare one two)).1
    rfl
  · rintro rfl
    exact orders_compare one two

theorem hashes_iff (live : w.arena.get? a = some x) (n : Int48) :
    w.Hashes r a n ↔ n = Protocol.hashOf x.id := by
  constructor
  · intro answers
    cases (Program.Answers.unique answers (hashes_hashOf live)).1
    rfl
  · rintro rfl
    exact hashes_hashOf live

theorem notAfter_iff (one : w.arena.get? a = some x) (two : w.arena.get? b = some y) :
    w.NotAfter r a b ↔ x.id ≤ y.id := by
  unfold NotAfter
  rw [orders_iff one two, orders_iff one two, eq_comm, eq_comm (a := Ordering.eq),
    Nat.compare_eq_lt, Nat.compare_eq_eq]
  exact Nat.le_iff_lt_or_eq.symm

end World

theorem Protocol.hashOf_range (id : Nat) :
    0 ≤ (hashOf id).val ∧ (hashOf id).val ≤ Int48.max := by
  simp only [hashOf, Int48.ofNat, Int48.max]
  omega

theorem Protocol.hashOf_inj {i j : Nat} (small : i ≤ Int48.max) (limited : j ≤ Int48.max)
    (same : hashOf i = hashOf j) : i = j := by
  have value := congrArg Int48.val same
  simp only [hashOf, Int48.ofNat] at value
  unfold Int48.max at small limited
  omega

namespace Machine

variable {α : Type} {r : Registry} {options : Options} {sink : Sink} {program : Program α}
  {entries : List Entry} {passed : List (Machine α)} {m n : Machine α}

def made? (r : Registry) (m : Machine α) : Option Handle :=
  match m.step r with
  | .running n => m.world.arena.born? n.world.arena
  | _ => none

def madeHandles (r : Registry) (passed : List (Machine α)) : List Handle :=
  passed.reverse.filterMap (made? r)

theorem step_chronicled {history : List Handle} (coherent : Coherent r m.configuration)
    (chronicled : m.world.arena.Chronicled history) (step : m.step r = .running n) :
    n.world.arena.Chronicled (history ++ (m.made? r).toList) := by
  -- A step makes at most one object, so the history grows by the handle of that one or not at all.
  simp only [made?, step]
  have unchanged : n.world.arena = m.world.arena →
      n.world.arena.Chronicled (history ++ (m.world.arena.born? n.world.arena).toList) := by
    intro same
    rw [same]
    exact chronicled.keep rfl (fun h object live => ⟨object, live, rfl⟩) fun _ issued => issued
  rcases step_alters coherent step with same | ⟨q, w, -, arena, altered⟩
  · exact unchanged same
  · rcases altered.change with same | change
    · exact unchanged (same.trans arena)
    · rw [arena] at change
      exact chronicled.change coherent.formed change

theorem Trail.chronicled (trail : Trail r (start options sink program) passed m) :
    m.world.arena.Chronicled (madeHandles r passed) := by
  induction trail with
  | refl =>
      refine ⟨rfl, fun h object live => ?_, by simp [madeHandles], List.nodup_nil⟩
      simp [start, world, World.initial, Arena.get?_empty] at live
  | @step passed n next other trail step recoded ih =>
      have whole : madeHandles r (n :: passed) = madeHandles r passed ++ (n.made? r).toList := by
        cases made : n.made? r <;> simp [madeHandles, made]
      rw [recoded.world_eq, whole]
      exact step_chronicled trail.run.coherent_start ih step

/-- The identity laws. In every state of a run, equality of live objects is that of their handles
and of their numbers, and nothing that is not a handle is equal to an object. The order is a linear
order for which just the same objects are alike. Equal objects have the same hash, which is a
natural number that fits an integer value, and different objects have different hashes as long as no
more objects were made than there are such numbers. As long as two objects live their order stays
as it is, and the one that was made first comes first. -/
theorem run_identity_laws (trail : Trail r (start options sink program) passed m) :
    (∀ a b x y, m.world.arena.get? a = some x → m.world.arena.get? b = some y →
      (Native.objectId a).Answers r m.world (.value x.id) m.world ∧
      (∃ same, m.world.Equates r a (.handle b) same) ∧
      (m.world.Equates r a (.handle b) true ↔ a = b) ∧
      (a = b ↔ x.id = y.id) ∧
      (x.id = y.id ↔ m.world.Orders r a b .eq)) ∧
    (∀ a x other, m.world.arena.get? a = some x → other.handle? = none →
      m.world.Equates r a other false) ∧
    (∀ a b x y, m.world.arena.get? a = some x → m.world.arena.get? b = some y →
      (∀ o, m.world.Orders r a b o → m.world.Orders r b a o.swap) ∧
      (m.world.NotAfter r a b ∨ m.world.NotAfter r b a) ∧
      (m.world.NotAfter r a b → m.world.NotAfter r b a → a = b) ∧
      ∀ c z, m.world.arena.get? c = some z → m.world.NotAfter r a b → m.world.NotAfter r b c →
        m.world.NotAfter r a c) ∧
    (∀ a x, m.world.arena.get? a = some x →
      ∃ n, m.world.Hashes r a n ∧ 0 ≤ n.val ∧ n.val ≤ Int48.max) ∧
    (∀ a b x y, m.world.arena.get? a = some x → m.world.arena.get? b = some y → ∀ i j,
      m.world.Hashes r a i → m.world.Hashes r b j →
        (m.world.Equates r a (.handle b) true → i = j) ∧
        ((madeHandles r passed).length ≤ Int48.max → a ≠ b → i ≠ j)) ∧
    ∀ later n, Run r m later n → ∀ a b x y u v,
      m.world.arena.get? a = some x → m.world.arena.get? b = some y →
      n.world.arena.get? a = some u → n.world.arena.get? b = some v →
        (∀ o, m.world.Orders r a b o ↔ n.world.Orders r a b o) ∧
        (m.world.Orders r a b .lt ↔
          (madeHandles r passed).idxOf a < (madeHandles r passed).idxOf b) := by
  have chronicled := trail.chronicled
  have coherent := trail.run.coherent_start
  refine ⟨?_, ?_, ?_, ?_, ?_, ?_⟩
  · intro a b x y one two
    refine ⟨Program.answers_of_eval (Program.eval_objectId_live one),
      ⟨_, World.equates_handle one two⟩, ?_, chronicled.eq_iff one two, ?_⟩
    · rw [World.equates_iff one two, eq_comm, decide_eq_true_iff]
    · rw [World.orders_iff one two, eq_comm (a := Ordering.eq), Nat.compare_eq_eq]
  · exact fun a x other live noHandle => World.equates_other live noHandle
  · intro a b x y one two
    rw [World.notAfter_iff one two, World.notAfter_iff two one]
    refine ⟨fun o ordered => ?_, Nat.le_total _ _, fun below above => ?_, ?_⟩
    · rw [World.orders_iff two one, (World.orders_iff one two o).mp ordered, Nat.compare_swap]
    · exact (chronicled.eq_iff one two).mpr (Nat.le_antisymm below above)
    · intro c z three below above
      rw [World.notAfter_iff two three] at above
      exact (World.notAfter_iff one three).mpr (Nat.le_trans below above)
  · intro a x live
    exact ⟨_, World.hashes_hashOf live, Protocol.hashOf_range x.id⟩
  · intro a b x y one two i j first second
    rw [World.hashes_iff one] at first
    rw [World.hashes_iff two] at second
    rw [first, second, World.equates_iff one two, eq_comm, decide_eq_true_iff,
      chronicled.eq_iff one two]
    refine ⟨congrArg _, fun few differ same => ?_⟩
    have small := Nat.le_trans (chronicled.id_le one).2 few
    have limited := Nat.le_trans (chronicled.id_le two).2 few
    exact differ ((chronicled.eq_iff one two).mpr (Protocol.hashOf_inj small limited same))
  · intro later n run a b x y u v one two again both
    have first := run.denotes coherent one u again
    have second := run.denotes coherent two v both
    constructor
    · intro o
      rw [World.orders_iff one two, World.orders_iff again both, first, second]
    · rw [World.orders_iff one two, eq_comm, Nat.compare_eq_lt, (chronicled.idxOf_eq one).2,
        (chronicled.idxOf_eq two).2]
      exact Nat.add_lt_add_iff_right

theorem run_identity_laws_strings :
    ∃ (passed : List (Machine Handle)) (m : Machine Handle),
      Trail .initial (start {} .reliable do
        let _ ← Native.createString "a"
        Native.createString "a") passed m ∧
      m.world.Orders .initial ⟨0, 0⟩ ⟨1, 0⟩ .lt ∧
      ∀ i j, m.world.Hashes .initial ⟨0, 0⟩ i → m.world.Hashes .initial ⟨1, 0⟩ j → i ≠ j := by
  let program : Program Handle := do
    let _ ← Native.createString "a"
    Native.createString "a"
  let empty := World.initial {} .reliable
  let single := empty.withArena (empty.arena.place .string (.text "a"))
  let double := single.withArena (single.arena.place .string (.text "a"))
  let between : Machine Handle := .outer single (Native.createString "a")
  let last : Machine Handle := .outer double (.finish (.value ⟨1, 0⟩))
  have first : (start {} .reliable program).step .initial = .running between := rfl
  have second : between.step .initial = .running last := rfl
  have trail := (Trail.step .refl first (.refl _)).step second (.refl _)
  have made : madeHandles .initial [between, start {} .reliable program] = [⟨0, 0⟩, ⟨1, 0⟩] := rfl
  have one : last.world.arena.get? ⟨0, 0⟩ = some ⟨1, .string, false, .text "a"⟩ := rfl
  have two : last.world.arena.get? ⟨1, 0⟩ = some ⟨2, .string, false, .text "a"⟩ := rfl
  obtain ⟨-, -, -, -, hashes, order⟩ := run_identity_laws trail
  rw [made] at hashes order
  refine ⟨_, last, trail, ?_, fun i j hashed other => ?_⟩
  · exact (order [] last .refl _ _ _ _ _ _ one two one two).2.mpr (by decide)
  · exact (hashes _ _ _ _ one two i j hashed other).2 (by decide) (by decide)

end Machine
end ManagedObjects

import ManagedObjects.Machine

/-!
Runs of an environment. Native code may keep state of its own, in variables, in files or in another
environment, so its text does not settle what it does next. A run therefore leaves open which code
goes on after a step; what a machine does with fixed code is one of its runs.
-/

namespace ManagedObjects

inductive Entry
  | initializer (id : TypeId)
  | method (call : Call)

def Entry.initializer? : Entry → Option TypeId
  | initializer id => some id
  | method _ => none

namespace Frame

def entry {α : Type} : Frame α → Entry
  | method call _ => .method call
  | staticInit id _ _ => .initializer id

end Frame

namespace Action

def entered? {α : Type} : Action α → Option Entry
  | proceed _ _ => none
  | enter _ _ frame => some frame.entry
  | abort => none

end Action

namespace Machine

def entered? {α : Type} (r : Registry) : Machine α → Option Entry
  | outer _ (.finish _) => none
  | outer w (.ask request resume) => (w.serve r request resume).entered?
  | inner w (.finish (.value slot)) stack base => ended w (.ok slot) base stack
  | inner w (.finish (.fault f)) stack base => ended w (.error f) base stack
  | inner _ (.finish .aborted) _ _ => none
  | inner w (.ask request resume) _ _ => (w.serve r request resume).entered?
where
  ended (w : World) (result : Except Fault Slot) (base : Frame α) : List (Frame Slot) → Option Entry
    | [] => (base.resume r w result).entered?
    | frame :: _ => (frame.resume r w result).entered?

def start {α : Type} (options : Options) (sink : Sink) (program : Program α) : Machine α :=
  outer (.initial options sink) program

inductive Recoded {α : Type} : Machine α → Machine α → Prop
  | outer (w : World) (program other : Program α) : Recoded (outer w program) (outer w other)
  | inner (w : World) (body other : Program Slot) (stack : List (Frame Slot)) (base : Frame α) :
      Recoded (inner w body stack base) (inner w other stack base)

theorem Recoded.refl {α : Type} (m : Machine α) : Recoded m m := by
  cases m with
  | outer w program => exact .outer w program program
  | inner w body stack base => exact .inner w body body stack base

theorem Recoded.world_eq {α : Type} {m n : Machine α} (recoded : Recoded m n) :
    n.world = m.world := by
  cases recoded <;> rfl

/-- The machines that a machine may come to, with the code that was set going on the way, the
latest first. -/
inductive Run {α : Type} (r : Registry) (m : Machine α) : List Entry → Machine α → Prop
  | refl : Run r m [] m
  | step {entries : List Entry} {n next other : Machine α} :
      Run r m entries n → n.step r = .running next → Recoded next other →
        Run r m ((n.entered? r).toList ++ entries) other

theorem Reaches.run {α : Type} {r : Registry} {m n : Machine α} (reaches : Reaches r m n) :
    ∃ entries, Run r m entries n := by
  induction reaches with
  | refl => exact ⟨[], .refl⟩
  | step _ step ih =>
      obtain ⟨entries, run⟩ := ih
      exact ⟨_, run.step step (.refl _)⟩

theorem Run.trans {α : Type} {r : Registry} {m n o : Machine α} {earlier later : List Entry}
    (first : Run r m earlier n) (second : Run r n later o) : Run r m (later ++ earlier) o := by
  induction second with
  | refl => exact first
  | step _ step recoded ih =>
      rw [List.append_assoc]
      exact ih.step step recoded

theorem Run.head {α : Type} {r : Registry} {m n : Machine α} {entries : List Entry}
    (run : Run r m entries n) : n = m ∨ ∃ next other later,
      m.step r = .running next ∧ Recoded next other ∧ Run r other later n := by
  induction run with
  | refl => exact .inl rfl
  | step run step recoded ih =>
      rcases ih with rfl | ⟨next, other, later, first, recode, onward⟩
      · exact .inr ⟨_, _, [], step, recoded, .refl⟩
      · exact .inr ⟨next, other, _, first, recode, onward.step step recoded⟩

/-- A run by the machines that it left behind, the latest first. -/
inductive Trail {α : Type} (r : Registry) (m : Machine α) : List (Machine α) → Machine α → Prop
  | refl : Trail r m [] m
  | step {passed : List (Machine α)} {n next other : Machine α} :
      Trail r m passed n → n.step r = .running next → Recoded next other →
        Trail r m (n :: passed) other

theorem Trail.run {α : Type} {r : Registry} {m n : Machine α} {passed : List (Machine α)}
    (trail : Trail r m passed n) : Run r m (passed.filterMap fun k => k.entered? r) n := by
  induction trail with
  | refl => exact .refl
  | @step passed n next other _ step recoded ih =>
      have run := ih.step step recoded
      cases entry : n.entered? r with
      | none => simpa [List.filterMap_cons, entry] using run
      | some entered => simpa [List.filterMap_cons, entry] using run

theorem Trail.trans {α : Type} {r : Registry} {m n o : Machine α} {earlier later : List (Machine α)}
    (first : Trail r m earlier n) (second : Trail r n later o) :
    Trail r m (later ++ earlier) o := by
  induction second with
  | refl => exact first
  | step _ step recoded ih => exact ih.step step recoded

theorem Run.trail {α : Type} {r : Registry} {m n : Machine α} {entries : List Entry}
    (run : Run r m entries n) : ∃ passed, Trail r m passed n := by
  induction run with
  | refl => exact ⟨[], .refl⟩
  | step _ step recoded ih =>
      obtain ⟨passed, trail⟩ := ih
      exact ⟨_, trail.step step recoded⟩

def Passes {α : Type} (r : Registry) (first last : Machine α)
    (property : Machine α → Machine α → Prop) : Prop :=
  ∃ (earlier later : List Entry) (m next other : Machine α), Run r first earlier m ∧
    m.step r = .running next ∧ Recoded next other ∧ Run r other later last ∧ property m next

theorem Passes.after {α : Type} {r : Registry} {m n o : Machine α} {entries : List Entry}
    {property : Machine α → Machine α → Prop} (run : Run r m entries n)
    (passes : Passes r n o property) : Passes r m o property := by
  obtain ⟨earlier, later, last, first, changed, toLast, turn, recode, fromFirst, facts⟩ := passes
  exact ⟨_, later, last, first, changed, run.trans toLast, turn, recode, fromFirst, facts⟩

theorem Passes.imp {α : Type} {r : Registry} {m n : Machine α}
    {property other : Machine α → Machine α → Prop} (passes : Passes r m n property)
    (implies : ∀ last first, property last first → other last first) : Passes r m n other := by
  obtain ⟨earlier, later, last, first, changed, toLast, turn, recode, fromFirst, facts⟩ := passes
  exact ⟨earlier, later, last, first, changed, toLast, turn, recode, fromFirst,
    implies last first facts⟩

theorem Run.turn {α : Type} {r : Registry} {m n : Machine α} {entries : List Entry}
    {P : World → Prop} (run : Run r m entries n) (before : ¬ P m.world) (after : P n.world) :
    Passes r m n fun last first => ¬ P last.world ∧ P first.world := by
  induction run with
  | refl => exact absurd after before
  | @step entries n next other run step recoded ih =>
      by_cases already : P n.world
      · obtain ⟨earlier, later, last, first, changed, toLast, turn, recode, fromFirst, facts⟩ :=
          ih already
        exact ⟨earlier, _, last, first, changed, toLast, turn, recode,
          fromFirst.step step recoded, facts⟩
      · rw [recoded.world_eq] at after
        exact ⟨entries, [], n, next, other, run, step, recoded, .refl, already, after⟩

end Machine

def Return.request? {α : Type} : Return α → Option Request
  | answer _ => none
  | reclaim h _ => some (.release h)

namespace Goal

def type {α : Type} : Goal α → TypeId
  | construct type _ _ => type
  | dispatch type _ _ _ => type

def request? {α : Type} : Goal α → Option Request
  | construct type none _ => some (.instantiate type)
  | construct type (some values) _ => some (.instantiateWith type values)
  | dispatch _ _ _ result => result.request?

end Goal

def Frame.request? {α : Type} : Frame α → Option Request
  | method _ result => result.request?
  | staticInit _ _ goal => goal.request?

/-- The request that the next step may carry out: the one that is asked, or the one that waited for
the code that has ended. -/
def Machine.request? {α : Type} : Machine α → Option Request
  | outer _ (.finish _) => none
  | outer _ (.ask request _) => some request
  | inner _ (.ask request _) _ _ => some request
  | inner _ (.finish _) [] base => base.request?
  | inner _ (.finish _) (frame :: _) _ => frame.request?

end ManagedObjects

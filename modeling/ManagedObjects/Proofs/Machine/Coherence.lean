import ManagedObjects.Proofs.Machine.Step

namespace ManagedObjects

inductive Waiting (r : Registry) (w : World) : List Suspended → Prop
  | nil : Waiting r w []
  | method {call : Call} {request : Option Request} {s : List Suspended} :
      Waiting r w s → Waiting r w (.method call request :: s)
  | initializer {id type : TypeId} {before pending : List TypeId} {request : Option Request}
      {s : List Suspended} :
      r.chain type = before ++ id :: pending →
        (∀ a ∈ before, w.progressOf a = some .done ∨ a ∈ initializers s) →
          Admissible r type request → Waiting r w s →
            Waiting r w (.initializer id pending type request :: s)

structure Coherent (r : Registry) (c : Configuration) : Prop where
  formed : c.world.arena.WellFormed
  running : ∀ id, c.world.progressOf id = some .running ↔ id ∈ initializers c.suspended
  nodup : (initializers c.suspended).Nodup
  waiting : Waiting r c.world c.suspended

theorem World.progressOf_note (w : World) (id : TypeId) (p : Progress) (a : TypeId) :
    (w.note id p).progressOf a = if a = id then some p else w.progressOf a := by
  by_cases same : a = id
  · rw [if_pos same, same, progressOf_note_self]
  · rw [if_neg same, progressOf_note_ne _ _ same]

theorem World.done_note {w : World} {id : TypeId} {p : Progress}
    (kept : p = .done ∨ w.progressOf id ≠ some .done) {a : TypeId}
    (done : w.progressOf a = some .done) : (w.note id p).progressOf a = some .done := by
  rw [progressOf_note]
  split
  · rename_i same
    subst same
    rcases kept with rfl | other
    · rfl
    · exact absurd done other
  · exact done

variable {r : Registry}

theorem Waiting.mono {w w' : World} {s : List Suspended}
    (done : ∀ a, w.progressOf a = some .done → w'.progressOf a = some .done)
    (waiting : Waiting r w s) : Waiting r w' s := by
  -- What lies below an initializer on the stack does not depend on the state.
  induction waiting with
  | nil => exact .nil
  | method _ ih => exact .method ih
  | initializer path above admissible _ ih =>
      exact .initializer path (fun a member => (above a member).imp_left (done a)) admissible ih

theorem coherent_initial (options : Options) (sink : Sink) :
    Coherent r ⟨.initial options sink, []⟩ where
  formed := Arena.wellFormed_empty _ _
  running id := by simp [World.progressOf, World.initial, initializers]
  nodup := List.nodup_nil
  waiting := .nil

namespace Coherent

theorem ready {c : Configuration} (coherent : Coherent r c) :
    ∀ x ∈ c.suspended.head?, x.Ready r c.world := by
  obtain ⟨w, s⟩ := c
  intro x top
  have running := coherent.running
  have waiting := coherent.waiting
  cases waiting with
  | nil => cases top
  | method waiting =>
      cases top
      trivial
  | initializer path above admissible waiting =>
      cases top
      refine ⟨_, path, fun a member => ?_, admissible⟩
      rcases above a member with done | below
      · exact .inl done
      · exact .inr ((running a).mpr (List.mem_cons_of_mem _ below))

theorem running_ended {w : World} {s : List Suspended} {id : TypeId} {p : Progress}
    (running : ∀ a, w.progressOf a = some .running ↔ a ∈ id :: initializers s)
    (unlisted : id ∉ initializers s) (ended : p ≠ .running) (a : TypeId) :
    (w.note id p).progressOf a = some .running ↔ a ∈ initializers s := by
  rw [World.progressOf_note]
  split
  · rename_i same
    subst same
    simp [ended, unlisted]
  · rename_i differs
    rw [running, List.mem_cons, or_iff_right differs]

theorem shift {c d : Configuration} (coherent : Coherent r c) (shift : Shift r c d) :
    Coherent r d := by
  obtain ⟨formed, running, nodup, waiting⟩ := coherent
  cases shift with
  | @settle w s id fresh undeclared =>
      have unlisted : id ∉ initializers s := by simp [← running, fresh]
      have settled : ∀ a, w.progressOf a = some .done →
          (w.note id .done).progressOf a = some .done := fun a => World.done_note (.inl rfl)
      refine ⟨formed, fun a => ?_, nodup, waiting.mono settled⟩
      rw [World.progressOf_note]
      split
      · rename_i same
        simp [same, unlisted]
      · exact running a
  | @finish w s id type pending request =>
      -- The initializer was on the stack once, so its type is not running any more.
      obtain ⟨unlisted, nodup⟩ := List.nodup_cons.mp nodup
      cases waiting with
      | initializer path above admissible waiting =>
          exact ⟨formed, running_ended running unlisted (by simp), nodup,
            waiting.mono fun a => World.done_note (.inl rfl)⟩
  | @fail w s id type pending request f =>
      obtain ⟨unlisted, nodup⟩ := List.nodup_cons.mp nodup
      have present : w.progressOf id = some .running := (running id).mpr List.mem_cons_self
      cases waiting with
      | initializer path above admissible waiting =>
          exact ⟨formed, running_ended running unlisted (by simp), nodup,
            waiting.mono fun a => World.done_note (.inr (by simp [present]))⟩
  | leave =>
      cases waiting with
      | method waiting => exact ⟨formed, running, nodup, waiting⟩

theorem enter {w w' : World} {s : List Suspended} {x : Suspended} (coherent : Coherent r ⟨w, s⟩)
    (entered : Enters r w x w') : Coherent r ⟨w', x :: s⟩ := by
  obtain ⟨formed, running, nodup, waiting⟩ := coherent
  cases entered with
  | method => exact ⟨formed, running, nodup, .method waiting⟩
  | @initializer id type before rest request hook fresh declared path begun admissible =>
      -- A type that has not started is not on the stack, so the mark is new to it.
      have unlisted : id ∉ initializers s := by
        intro listed
        rw [(running id).mpr listed] at fresh
        cases fresh
      refine ⟨formed, fun a => ?_, List.nodup_cons.mpr ⟨unlisted, nodup⟩, ?_⟩
      · rw [World.progressOf_note]
        split
        · rename_i same
          simp [initializers, Suspended.initializing?, same]
        · rename_i differs
          simpa [initializers, Suspended.initializing?, differs] using running a
      · have kept : ∀ a, w.progressOf a = some .done →
            (w.note id .running).progressOf a = some .done :=
          fun a => World.done_note (.inr (by simp [fresh]))
        refine .initializer path (fun a member => ?_) admissible (waiting.mono kept)
        exact (begun a member).imp (kept a) (running a).mp

theorem shifts {c d : Configuration} (coherent : Coherent r c)
    (shifts : Relation.ReflTransGen (Shift r) c d) : Coherent r d := by
  induction shifts with
  | refl => exact coherent
  | tail _ last ih => exact ih.shift last

theorem perform {w w' : World} {s : List Suspended} {q : Request} (coherent : Coherent r ⟨w, s⟩)
    (performed : w.Performs r q w') : Coherent r ⟨w', s⟩ where
  formed := by
    rcases performed.alters.change with same | change
    · exact same ▸ coherent.formed
    · exact coherent.formed.change change
  running id := by
    rw [performed.progressOf_eq]
    exact coherent.running id
  nodup := coherent.nodup
  waiting := coherent.waiting.mono fun a done => by rw [performed.progressOf_eq, done]

end Coherent

section Runs
variable {P : Configuration → Prop}

theorem Leads.keeps {request : Option Request} {entry : Option Entry} {c d : Configuration}
    (shift : ∀ {c d}, Coherent r c → P c → Shift r c d → P d)
    (enter : ∀ {w w' s x}, Coherent r ⟨w, s⟩ → P ⟨w, s⟩ → Enters r w x w' → P ⟨w', x :: s⟩)
    (perform : ∀ {w w' s q}, Coherent r ⟨w, s⟩ → P ⟨w, s⟩ → w.Performs r q w' → P ⟨w', s⟩)
    (coherent : Coherent r c) (holds : P c) (leads : Leads r request c entry d) :
    Coherent r d ∧ P d := by
  have shifted : ∀ {e}, Relation.ReflTransGen (Shift r) c e → Coherent r e ∧ P e := by
    intro e shifts
    induction shifts with
    | refl => exact ⟨coherent, holds⟩
    | tail _ last ih => exact ⟨ih.1.shift last, shift ih.1 ih.2 last⟩
  cases leads with
  | idle shifts => exact shifted shifts
  | enter shifts entered =>
      obtain ⟨coherent, holds⟩ := shifted shifts
      exact ⟨coherent.enter entered, enter coherent holds entered⟩
  | perform shifts asked performed =>
      obtain ⟨coherent, holds⟩ := shifted shifts
      exact ⟨coherent.perform performed, perform coherent holds performed⟩

namespace Machine

variable {α : Type} {m n : Machine α} {entries : List Entry}

theorem Run.keeps (shift : ∀ {c d}, Coherent r c → P c → Shift r c d → P d)
    (enter : ∀ {w w' s x}, Coherent r ⟨w, s⟩ → P ⟨w, s⟩ → Enters r w x w' → P ⟨w', x :: s⟩)
    (perform : ∀ {w w' s q}, Coherent r ⟨w, s⟩ → P ⟨w, s⟩ → w.Performs r q w' → P ⟨w', s⟩)
    (coherent : Coherent r m.configuration) (holds : P m.configuration)
    (run : Run r m entries n) : Coherent r n.configuration ∧ P n.configuration := by
  induction run with
  | refl => exact ⟨coherent, holds⟩
  | step _ step recoded ih =>
      rw [recoded.configuration_eq]
      exact (step_leads ih.1.ready step).keeps shift enter perform ih.1 ih.2

theorem Run.coherent (coherent : Coherent r m.configuration) (run : Run r m entries n) :
    Coherent r n.configuration := by
  have kept := run.keeps (P := fun _ => True) (fun _ _ _ => trivial) (fun _ _ _ => trivial)
    (fun _ _ _ => trivial) coherent trivial
  exact kept.1

theorem Run.coherent_start {options : Options} {sink : Sink} {program : Program α}
    (run : Run r (start options sink program) entries m) : Coherent r m.configuration :=
  run.coherent (coherent_initial options sink)

theorem step_alters (coherent : Coherent r m.configuration) (step : m.step r = .running n) :
    n.world.arena = m.world.arena ∨ ∃ (q : Request) (w : World), m.request? = some q ∧
      w.arena = m.world.arena ∧ w.Alters r q n.world.arena :=
  (step_leads coherent.ready step).alters

theorem Run.issued_and_live_before (coherent : Coherent r m.configuration) {h : Handle}
    (issued : m.world.arena.Issued h) (run : Run r m entries n) :
    n.world.arena.Issued h ∧ ∀ later, n.world.arena.get? h = some later →
      ∃ object, m.world.arena.get? h = some object ∧ object.id = later.id ∧
        object.type = later.type := by
  refine (run.keeps (P := fun c => c.world.arena.Issued h ∧
    ∀ later, c.world.arena.get? h = some later → ∃ object, m.world.arena.get? h = some object ∧
      object.id = later.id ∧ object.type = later.type) ?_ ?_ ?_ coherent ?_).2
  · intro c d _ faithful shift
    cases shift <;> exact faithful
  · intro w w' s x _ faithful entered
    cases entered <;> exact faithful
  · intro w w' s request coherent faithful performed
    rcases performed.alters.change with same | change
    · simpa [same] using faithful
    · refine ⟨coherent.formed.issued_change change faithful.1, fun later denoted => ?_⟩
      obtain ⟨between, denoted, id, type⟩ :=
        coherent.formed.denoted_before change faithful.1 denoted
      obtain ⟨object, live, sameId, sameType⟩ := faithful.2 between denoted
      exact ⟨object, live, sameId.trans id, sameType.trans type⟩
  · exact ⟨issued, fun later denoted => ⟨later, denoted, rfl, rfl⟩⟩

theorem Run.still_dead (coherent : Coherent r m.configuration) {h : Handle}
    (issued : m.world.arena.Issued h) (dead : m.world.arena.get? h = none)
    (run : Run r m entries n) : n.world.arena.get? h = none := by
  cases denoted : n.world.arena.get? h with
  | none => rfl
  | some later =>
      obtain ⟨object, present, -⟩ := (run.issued_and_live_before coherent issued).2 later denoted
      rw [dead] at present
      cases present

end Machine
end Runs
end ManagedObjects

import ManagedObjects.Proofs.Machine.Step

namespace ManagedObjects

/-- Two states that differ in nothing but the progress of initializers. -/
def World.Marks (w w' : World) : Prop := ∃ progress, w' = { w with progress := progress }

namespace World.Marks

variable {w w' w'' : World}

theorem refl (w : World) : w.Marks w := ⟨w.progress, rfl⟩

theorem of_note (w : World) (id : TypeId) (p : Progress) : w.Marks (w.note id p) := ⟨_, rfl⟩

theorem trans (first : w.Marks w') (second : w'.Marks w'') : w.Marks w'' := by
  obtain ⟨_, rfl⟩ := first
  obtain ⟨progress, rfl⟩ := second
  exact ⟨progress, rfl⟩

theorem arena_eq (marks : w.Marks w') : w'.arena = w.arena := by
  obtain ⟨_, rfl⟩ := marks
  rfl

theorem typeObjects_eq (marks : w.Marks w') : w'.typeObjects = w.typeObjects := by
  obtain ⟨_, rfl⟩ := marks
  rfl

theorem options_eq (marks : w.Marks w') : w'.options = w.options := by
  obtain ⟨_, rfl⟩ := marks
  rfl

end World.Marks

theorem shifts_marks {r : Registry} {c d : Configuration}
    (shifts : Relation.ReflTransGen (Shift r) c d) : c.world.Marks d.world := by
  induction shifts with
  | refl => exact .refl _
  | tail _ last ih =>
      refine ih.trans ?_
      cases last with
      | settle => exact .of_note _ _ _
      | finish => exact .of_note _ _ _
      | fail => exact .of_note _ _ _
      | leave => exact .refl _

theorem Leads.performs {r : Registry} {request : Option Request} {entry : Option Entry}
    {c d : Configuration} (leads : Leads r request c entry d) :
    c.world.Marks d.world ∨ ∃ (q : Request) (w : World), request = some q ∧ c.world.Marks w ∧
      w.Performs r q d.world := by
  cases leads with
  | idle shifts => exact .inl (shifts_marks shifts)
  | enter shifts entered =>
      left
      have marks := shifts_marks shifts
      cases entered with
      | method => exact marks
      | initializer => exact marks.trans (.of_note _ _ _)
  | perform shifts asked performed => exact .inr ⟨_, _, asked, shifts_marks shifts, performed⟩

theorem Method.enter_ok {m : Method} {name : String} {argv : List Slot} {body : Program Slot}
    (entered : m.enter name argv = .ok body) :
    m.signature.accepts (argv.drop 1) = true ∧ body = m.body argv := by
  unfold enter Signature.check at entered
  by_cases accepted : m.signature.accepts (argv.drop 1) = true
  · rw [if_pos accepted] at entered
    exact ⟨accepted, (Except.ok.inj entered).symm⟩
  · rw [if_neg accepted] at entered
    cases entered

theorem Return.deliver_eq_proceed {α : Type} (w : World) (answer : Except Fault Slot)
    (result : Return α) : ∃ w' program, result.deliver w answer = .proceed w' program := by
  cases result with
  | answer resume => exact ⟨w, _, rfl⟩
  | reclaim h resume => exact ⟨(w.reclaim h).2, _, rfl⟩

namespace Goal

variable {α : Type} {r : Registry}

inductive Prepared (r : Registry) (goal : Goal α) (w : World) (pending : List TypeId) :
    Action α → Prop
  | reached {w' : World} : w.Marks w' → Prepared r goal w pending (goal.reach r w')
  | refused {w' : World} {id : TypeId} {f : Fault} :
      w.Marks w' → id ∈ pending → w.progressOf id = some (.failed f) →
        Prepared r goal w pending (goal.refuse w' f)
  | started {w' : World} {id : TypeId} {rest : List TypeId} {hook : TypeId → Program Unit} :
      w.Marks w' → id ∈ pending → w.progressOf id = none → r.initializer? id = some hook →
        Prepared r goal w pending
          (.enter w' ((fun _ => Slot.null) <$> hook id) (.staticInit id rest goal))

theorem Prepared.cons {goal : Goal α} {w : World} {pending : List TypeId} {action : Action α}
    (prepared : Prepared r goal w pending action) (id : TypeId) :
    Prepared r goal w (id :: pending) action := by
  cases prepared with
  | reached marks => exact .reached marks
  | refused marks member failed => exact .refused marks (.tail _ member) failed
  | started marks member fresh declared => exact .started marks (.tail _ member) fresh declared

theorem Prepared.settle {goal : Goal α} {w : World} {pending : List TypeId} {action : Action α}
    {id : TypeId} (prepared : Prepared r goal (w.note id .done) pending action) :
    Prepared r goal w (id :: pending) action := by
  have settles := World.Marks.of_note w id .done
  cases prepared with
  | reached marks => exact .reached (settles.trans marks)
  | @refused _ a f marks member failed =>
      have differs : a ≠ id := by
        rintro rfl
        rw [World.progressOf_note_self] at failed
        cases failed
      rw [World.progressOf_note_ne _ _ differs] at failed
      exact .refused (settles.trans marks) (.tail _ member) failed
  | @started _ a rest hook marks member fresh declared =>
      have differs : a ≠ id := by
        rintro rfl
        rw [World.progressOf_note_self] at fresh
        cases fresh
      rw [World.progressOf_note_ne _ _ differs] at fresh
      exact .started (settles.trans marks) (.tail _ member) fresh declared

theorem prepared (goal : Goal α) (w : World) (pending : List TypeId) :
    Prepared r goal w pending (goal.prepare r w pending) := by
  induction pending generalizing w with
  | nil => exact .reached (.refl w)
  | cons id pending ih =>
      unfold prepare
      cases progress : w.progressOf id with
      | some p =>
          cases p with
          | running => exact (ih w).cons id
          | done => exact (ih w).cons id
          | failed f => exact .refused (.refl w) List.mem_cons_self progress
      | none =>
          cases declared : r.initializer? id with
          | some hook =>
              have lookup := declared
              simp only [Registry.initializer?] at lookup
              simp only [lookup]
              exact .started (.of_note w id .running) List.mem_cons_self progress declared
          | none =>
              simp only [Registry.initializer?] at declared
              simp only [declared]
              exact (ih (w.note id .done)).settle

inductive Called (r : Registry) (w : World) (name : String) (argv : List Slot)
    (result : Return α) : Action α → Prop
  | refused {w' : World} {f : Fault} :
      w.Marks w' → Called r w name argv result (result.deliver w' (.error f))
  | entered {w' : World} {h : Handle} {args : List Slot} {object : Object} {owner : TypeId}
      {m : Method} :
      w.Marks w' → argv = .handle h :: args → w.arena.get? h = some object →
        r.resolve? object.type name = some (owner, m) → m.signature.accepts args = true →
          Called r w name argv result (.enter w' (m.body argv) (.method ⟨m, name, argv⟩ result))
  | started {w' : World} {h : Handle} {object : Object} {id : TypeId} {rest : List TypeId}
      {hook : TypeId → Program Unit} :
      w.Marks w' → w.arena.get? h = some object → id ∈ r.chain object.type →
        w.progressOf id = none → r.initializer? id = some hook →
          Called r w name argv result (.enter w' ((fun _ => Slot.null) <$> hook id)
            (.staticInit id rest (.dispatch object.type name argv result)))

theorem called_call {w w' : World} {name : String} {argv : List Slot} {result : Return α}
    {h : Handle} {args : List Slot} {object : Object} (marks : w.Marks w')
    (receiver : argv = .handle h :: args) (live : w.arena.get? h = some object) :
    Called r w name argv result (call r w' object.type name argv result) := by
  unfold call
  cases r.get? object.type with
  | none => exact .refused marks
  | some t =>
      simp only
      cases resolved : r.resolve? object.type name with
      | none => exact .refused marks
      | some found =>
          simp only [Action.enterMethod]
          cases entered : found.2.enter name argv with
          | error f => exact .refused marks
          | ok body =>
              obtain ⟨accepted, rfl⟩ := Method.enter_ok entered
              rw [receiver] at accepted
              exact .entered marks receiver live resolved accepted

theorem called (w : World) (name : String) (argv : List Slot) (result : Return α) :
    Called r w name argv result (beginCall r w name argv result) := by
  cases argv with
  | nil => exact .refused (.refl w)
  | cons slot args =>
      simp only [beginCall]
      cases slot with
      | handle h =>
          simp only [Slot.expectHandle]
          cases denoted : w.arena.get h with
          | error f => exact .refused (.refl w)
          | ok object =>
              have live := Arena.get_eq_ok_iff.mp denoted
              have prepared := prepared (r := r)
                (.dispatch object.type name (.handle h :: args) result) w (r.chain object.type)
              simp only
              generalize prepare r _ w _ = action at prepared ⊢
              cases prepared with
              | reached marks => exact called_call marks rfl live
              | refused marks => exact .refused marks
              | started marks member fresh declared =>
                  exact .started marks live member fresh declared
      | _ => exact .refused (.refl w)

end Goal
end ManagedObjects

import ManagedObjects.Proofs.Arena.Handles

namespace ManagedObjects

def Object.rewrite (content : Bool × Payload → Bool × Payload) (object : Object) : Object :=
  { object with
    frozen := (content (object.frozen, object.payload)).1
    payload := (content (object.frozen, object.payload)).2 }

namespace Arena

inductive Operation
  | allocate (type : TypeId) (payload : Payload)
  | get (h : Handle)
  | write (h : Handle) (content : Bool × Payload → Bool × Payload)
  | release (h : Handle)

inductive Event
  | allocated (h : Handle) (type : TypeId) (payload : Payload)
  | got (h : Handle) (object : Object)
  | wrote (h : Handle) (content : Bool × Payload → Bool × Payload)
  | released (h : Handle) (object : Object)
  | refused (operation : Operation) (fault : Fault)

def Event.ofResult {α : Type} (operation : Operation) (event : α → Event) :
    Except Fault α × Arena → Event × Arena
  | (.ok a, left) => (event a, left)
  | (.error f, left) => (.refused operation f, left)

def perform (a : Arena) (operation : Operation) : Event × Arena :=
  match operation with
  | .allocate type payload =>
      Event.ofResult operation (fun h => .allocated h type payload) (a.allocate type payload)
  | .get h => Event.ofResult operation (.got h) (a.get h, a)
  | .write h content =>
      Event.ofResult operation (fun _ => .wrote h content)
        (a.update h fun object => (.ok (), object.rewrite content))
  | .release h => Event.ofResult operation (.released h) (a.release h)

structure History where
  events : List Event
  arena : Arena

namespace History

def extend (history : History) (operation : Operation) : History :=
  ⟨(history.arena.perform operation).1 :: history.events, (history.arena.perform operation).2⟩

def of (capacity : Nat) (limit : Option Nat) (operations : List Operation) : History :=
  operations.foldl extend ⟨[], empty capacity limit⟩

end History

def issued (events : List Event) : List Handle :=
  events.filterMap fun
    | .allocated h _ _ => some h
    | _ => none

def released (events : List Event) : List Handle :=
  events.filterMap fun
    | .released h _ => some h
    | _ => none

/-- The handle was given out and its object has not been released since. -/
def Current (events : List Event) (h : Handle) : Prop :=
  ∃ later type payload earlier,
    events = later ++ .allocated h type payload :: earlier ∧ h ∉ released later

def lastWritten (h : Handle) (first : Bool × Payload) : List Event → Bool × Payload
  | [] => first
  | .wrote k content :: earlier =>
      if k = h then content (lastWritten h first earlier) else lastWritten h first earlier
  | _ :: earlier => lastWritten h first earlier

def occupant (h : Handle) : List Event → Option Object
  | [] => none
  | .allocated k type payload :: earlier =>
      if h = k then some ⟨(issued earlier).length + 1, type, false, payload⟩
      else occupant h earlier
  | .wrote k content :: earlier =>
      if h = k then (occupant h earlier).map (Object.rewrite content) else occupant h earlier
  | .released k _ :: earlier => if h = k then none else occupant h earlier
  | .got _ _ :: earlier => occupant h earlier
  | .refused _ _ :: earlier => occupant h earlier

theorem occupant_of_not_issued {h : Handle} {events : List Event} (unknown : h ∉ issued events) :
    occupant h events = none := by
  induction events with
  | nil => rfl
  | cons event earlier ih =>
      cases event with
      | allocated k type payload =>
          simp only [issued, List.filterMap_cons, List.mem_cons, not_or] at unknown
          rw [occupant, if_neg unknown.1, ih unknown.2]
      | got k object => exact ih unknown
      | wrote k content =>
          rw [occupant, ih unknown]
          split <;> rfl
      | released k object =>
          rw [occupant, ih unknown]
          split <;> rfl
      | refused operation fault => exact ih unknown

theorem occupant_of_allocated {h : Handle} {later : List Event} (once : h ∉ issued later)
    (type : TypeId) (payload : Payload) (earlier : List Event) :
    occupant h (later ++ .allocated h type payload :: earlier) =
      if h ∈ released later then none
      else
        let content := lastWritten h (false, payload) later
        some ⟨(issued earlier).length + 1, type, content.1, content.2⟩ := by
  induction later with
  | nil => simp [occupant, released, lastWritten]
  | cons event later ih =>
      cases event with
      | allocated k otherType otherPayload =>
          simp only [issued, List.filterMap_cons, List.mem_cons, not_or] at once
          rw [List.cons_append, occupant, if_neg once.1, ih once.2]
          rfl
      | got k object => exact ih once
      | wrote k content =>
          rw [List.cons_append, occupant, ih once,
            show released (.wrote k content :: later) = released later from rfl]
          by_cases same : h = k
          · subst same
            rw [if_pos rfl]
            split
            · rfl
            · simp [lastWritten, Object.rewrite]
          · rw [if_neg same]
            simp [lastWritten, Ne.symm same]
      | released k object =>
          rw [List.cons_append, occupant, ih once]
          by_cases same : h = k
          · simp [released, same]
          · simp [released, lastWritten, same]
      | refused operation fault => exact ih once

structure History.Faithful (history : History) : Prop where
  formed : history.arena.WellFormed
  numbered : history.arena.nextId = (Arena.issued history.events).length + 1
  issued : ∀ h ∈ Arena.issued history.events, history.arena.Issued h
  distinct : (Arena.issued history.events).Nodup
  denotes : ∀ h, history.arena.get? h = occupant h history.events

namespace History

theorem faithful_new (capacity : Nat) (limit : Option Nat) :
    Faithful ⟨[], empty capacity limit⟩ where
  formed := wellFormed_empty capacity limit
  numbered := rfl
  issued := by simp [Arena.issued]
  distinct := List.nodup_nil
  denotes := get?_empty capacity limit

theorem Faithful.allocated {history : History} (faithful : history.Faithful)
    (room : history.arena.refusal? = none) (type : TypeId) (payload : Payload) :
    Faithful ⟨.allocated history.arena.nextHandle type payload :: history.events,
      history.arena.place type payload⟩ where
  formed := faithful.formed.place room type payload
  numbered := congrArg (· + 1) faithful.numbered
  issued := by
    intro h member
    apply faithful.formed.issued_place room
    exact (List.mem_cons.mp member).imp_right (faithful.issued h)
  distinct := by
    refine List.nodup_cons.mpr ⟨fun member => ?_, faithful.distinct⟩
    exact faithful.formed.not_issued_nextHandle room (faithful.issued _ member)
  denotes := by
    intro h
    rw [faithful.formed.get?_place room, faithful.numbered, faithful.denotes]
    rfl

theorem Faithful.wrote {history : History} (faithful : history.Faithful) {h : Handle}
    {object : Object} (live : history.arena.get? h = some object)
    (content : Bool × Payload → Bool × Payload) :
    Faithful ⟨.wrote h content :: history.events,
      history.arena.modify h (Object.rewrite content)⟩ where
  formed := faithful.formed.modify live rfl
  numbered := faithful.numbered
  issued := fun k member => issued_modify _ (faithful.issued k member)
  distinct := faithful.distinct
  denotes := by
    intro k
    rw [get?_modify live, occupant, ← faithful.denotes]
    split
    · rename_i same
      simp [same, live]
    · rfl

theorem Faithful.released {history : History} (faithful : history.Faithful) {h : Handle}
    {object : Object} (live : history.arena.get? h = some object) :
    Faithful ⟨.released h object :: history.events, history.arena.vacate h⟩ where
  formed := faithful.formed.vacate live
  numbered := by
    have unchanged : (history.arena.vacate h).nextId = history.arena.nextId := nextId_vacate _ h
    exact unchanged.trans faithful.numbered
  issued := fun k member => issued_vacate live (faithful.issued k member)
  distinct := faithful.distinct
  denotes := by
    intro k
    rw [get?_vacate live, occupant, ← faithful.denotes]

theorem Faithful.unchanged {history : History} (faithful : history.Faithful) {event : Event}
    (silent : Arena.issued (event :: history.events) = Arena.issued history.events)
    (same : ∀ h, occupant h (event :: history.events) = occupant h history.events) :
    Faithful ⟨event :: history.events, history.arena⟩ where
  formed := faithful.formed
  numbered := silent ▸ faithful.numbered
  issued := silent ▸ faithful.issued
  distinct := silent ▸ faithful.distinct
  denotes := fun h => (faithful.denotes h).trans (same h).symm

inductive Grows (history : History) : History → Prop
  | allocated (type : TypeId) (payload : Payload) : history.arena.refusal? = none →
      Grows history ⟨.allocated history.arena.nextHandle type payload :: history.events,
        history.arena.place type payload⟩
  | got (h : Handle) (object : Object) :
      Grows history ⟨.got h object :: history.events, history.arena⟩
  | wrote (h : Handle) (object : Object) (content : Bool × Payload → Bool × Payload) :
      history.arena.get? h = some object →
        Grows history ⟨.wrote h content :: history.events,
          history.arena.modify h (Object.rewrite content)⟩
  | released (h : Handle) (object : Object) : history.arena.get? h = some object →
      Grows history ⟨.released h object :: history.events, history.arena.vacate h⟩
  | refused (operation : Operation) (fault : Fault) :
      Grows history ⟨.refused operation fault :: history.events, history.arena⟩

theorem grows_extend (history : History) (operation : Operation) :
    history.Grows (history.extend operation) := by
  unfold History.extend perform
  cases operation with
  | allocate type payload =>
      simp only [allocate_eq]
      cases room : history.arena.refusal? with
      | none => exact .allocated type payload room
      | some f => exact .refused _ f
  | get h =>
      cases denoted : history.arena.get h with
      | ok object =>
          simp only [denoted]
          exact .got h object
      | error f =>
          simp only [denoted]
          exact .refused _ f
  | write h content =>
      cases denoted : history.arena.get? h with
      | none =>
          simp only [update_dead denoted]
          exact .refused _ _
      | some object =>
          simp only [update_eq denoted]
          exact .wrote h object content denoted
  | release h =>
      cases denoted : history.arena.get? h with
      | none =>
          simp only [release_dead denoted]
          exact .refused _ _
      | some object =>
          simp only [release_live denoted]
          exact .released h object denoted

theorem Faithful.grows {history next : History} (faithful : history.Faithful)
    (grows : history.Grows next) : next.Faithful := by
  cases grows with
  | allocated type payload room => exact faithful.allocated room type payload
  | got h object => exact faithful.unchanged rfl fun _ => rfl
  | wrote h object content live => exact faithful.wrote live content
  | released h object live => exact faithful.released live
  | refused operation fault => exact faithful.unchanged rfl fun _ => rfl

theorem keeps {P : History → Prop} {capacity : Nat} {limit : Option Nat}
    (new : P ⟨[], empty capacity limit⟩)
    (grow : ∀ history next, history.Faithful → P history → history.Grows next → P next)
    (operations : List Operation) : P (of capacity limit operations) := by
  suffices kept : ∀ history : History, history.Faithful → P history →
      P (operations.foldl History.extend history) from kept _ (faithful_new capacity limit) new
  induction operations with
  | nil => exact fun history _ held => held
  | cons operation rest ih =>
      intro history faithful held
      have grows := history.grows_extend operation
      exact ih _ (faithful.grows grows) (grow history _ faithful held grows)

theorem faithful_of (capacity : Nat) (limit : Option Nat) (operations : List Operation) :
    (of capacity limit operations).Faithful :=
  keeps (faithful_new capacity limit) (fun _ _ faithful _ grows => faithful.grows grows) operations

theorem Faithful.allocated_once {history : History} (faithful : history.Faithful) {h : Handle}
    {later : List Event} {type : TypeId} {payload : Payload} {earlier : List Event}
    (split : history.events = later ++ .allocated h type payload :: earlier) :
    h ∉ Arena.issued later := by
  intro again
  have distinct := faithful.distinct
  rw [split, Arena.issued, List.filterMap_append] at distinct
  exact (List.nodup_append.mp distinct).2.2 h again h (by simp) rfl

theorem Faithful.denotes_allocated {history : History} (faithful : history.Faithful) {h : Handle}
    {later : List Event} {type : TypeId} {payload : Payload} {earlier : List Event}
    (split : history.events = later ++ .allocated h type payload :: earlier)
    (unreleased : h ∉ Arena.released later) :
    history.arena.get? h =
      let content := lastWritten h (false, payload) later
      some ⟨(Arena.issued earlier).length + 1, type, content.1, content.2⟩ := by
  rw [faithful.denotes, split, occupant_of_allocated (faithful.allocated_once split),
    if_neg unreleased]

theorem Faithful.current_iff {history : History} (faithful : history.Faithful) {h : Handle} :
    Current history.events h ↔ ∃ object, history.arena.get? h = some object := by
  constructor
  · rintro ⟨later, type, payload, earlier, split, unreleased⟩
    exact ⟨_, faithful.denotes_allocated split unreleased⟩
  · rintro ⟨object, denoted⟩
    rw [faithful.denotes] at denoted
    by_cases known : h ∈ Arena.issued history.events
    · obtain ⟨event, member, allocated⟩ := List.mem_filterMap.mp known
      obtain ⟨later, earlier, split⟩ := List.append_of_mem member
      cases event with
      | allocated k type payload =>
          cases allocated
          refine ⟨later, type, payload, earlier, split, fun gone => ?_⟩
          rw [split, occupant_of_allocated (faithful.allocated_once split), if_pos gone] at denoted
          cases denoted
      | got k object => cases allocated
      | wrote k content => cases allocated
      | released k object => cases allocated
      | refused operation fault => cases allocated
    · rw [occupant_of_not_issued known] at denoted
      cases denoted

/-- Handles name objects for good: no handle is given out twice, a handle is valid from its
allocation until its release, it denotes the object of that allocation as last written, and any
other handle is refused without effect. -/
theorem arena_refines_map (capacity : Nat) (limit : Option Nat) (operations : List Operation) :
    let history := of capacity limit operations
    (Arena.issued history.events).Nodup ∧
    (∀ h, history.arena.contains h = true ↔ Current history.events h) ∧
    (∀ h later type payload earlier,
      history.events = later ++ .allocated h type payload :: earlier →
      h ∉ Arena.released later →
      let content := lastWritten h (false, payload) later
      let object : Object := ⟨(Arena.issued earlier).length + 1, type, content.1, content.2⟩
      history.arena.perform (.get h) = (.got h object, history.arena) ∧
      (∀ write, (history.arena.perform (.write h write)).1 = .wrote h write) ∧
      (history.arena.perform (.release h)).1 = .released h object) ∧
    (∀ h, ¬ Current history.events h → ∀ write,
      ∀ operation ∈ [Operation.get h, .write h write, .release h],
        history.arena.perform operation =
          (.refused operation (.invalidHandle h), history.arena)) := by
  intro history
  have faithful : history.Faithful := faithful_of capacity limit operations
  refine ⟨faithful.distinct, ?_, ?_, ?_⟩
  · intro h
    rw [contains_iff, faithful.current_iff]
  · intro h later type payload earlier split unreleased
    have denoted := faithful.denotes_allocated split unreleased
    refine ⟨?_, fun write => ?_, ?_⟩
    · simp only [perform, get_eq_ok_iff.mpr denoted, Event.ofResult]
    · simp only [perform, update_eq denoted, Event.ofResult]
    · simp only [perform, release_live denoted, Event.ofResult]
  · intro h dead write operation member
    have denoted : history.arena.get? h = none := by
      rw [faithful.current_iff, ← Option.isSome_iff_exists] at dead
      simpa using dead
    simp only [List.mem_cons, List.not_mem_nil, or_false] at member
    rcases member with rfl | rfl | rfl
    · simp only [perform, get_eq_error denoted, Event.ofResult]
    · simp only [perform, update_dead denoted, Event.ofResult]
    · simp only [perform, release_dead denoted, Event.ofResult]

end History
end Arena
end ManagedObjects

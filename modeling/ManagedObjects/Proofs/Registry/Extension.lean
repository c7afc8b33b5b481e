import ManagedObjects.Proofs.Registry.Resolution

namespace ManagedObjects.Registry

variable {r next : Registry} {d : TypeDeclaration} {t : ObjectType} {id a : TypeId}

/-- A declaration that can be registered: it has a name that is not taken, and a parent that is
registered and may have subtypes. -/
structure Admits (r : Registry) (d : TypeDeclaration) : Prop where
  named : d.name ≠ ""
  fresh : d.name ∉ r.names
  registered : d.parent < r.size
  extensible : d.parent ≠ .string ∧ d.parent ≠ .list ∧ d.parent ≠ .type

inductive Refuses (r : Registry) (d : TypeDeclaration) : Fault → Prop
  | unnamed : d.name = "" → Refuses r d .emptyTypeName
  | taken : d.name ≠ "" → d.name ∈ r.names → Refuses r d (.duplicateType d.name)
  | unregistered : d.name ≠ "" → d.name ∉ r.names → r.size ≤ d.parent →
      Refuses r d (.unknownType d.parent)
  | inextensible {parent : ObjectType} : d.name ≠ "" → d.name ∉ r.names →
      r.get? d.parent = some parent → d.parent = .string ∨ d.parent = .list ∨ d.parent = .type →
        Refuses r d (.sealedParent parent.name)

theorem isSealed_iff : id.isSealed = true ↔ id = .string ∨ id = .list ∨ id = .type := by
  simp [TypeId.isSealed, or_assoc]

theorem admits_or_refuses (r : Registry) (d : TypeDeclaration) :
    r.Admits d ∨ ∃ f, r.Refuses d f := by
  by_cases named : d.name = ""
  · exact .inr ⟨_, .unnamed named⟩
  by_cases taken : d.name ∈ r.names
  · exact .inr ⟨_, .taken named taken⟩
  cases found : r.get? d.parent with
  | none =>
      have unregistered : r.size ≤ d.parent := Array.getElem?_eq_none_iff.mp found
      exact .inr ⟨_, .unregistered named taken unregistered⟩
  | some parent =>
      by_cases extensible : d.parent = .string ∨ d.parent = .list ∨ d.parent = .type
      · exact .inr ⟨_, .inextensible named taken found extensible⟩
      · simp only [not_or] at extensible
        exact .inl ⟨named, taken, lt_size found, extensible⟩

theorem Admits.register (admits : r.Admits d) (built : r.Built) :
    ∃ next, r.register d = (.ok r.size, next) := by
  obtain ⟨parent, found⟩ := registered_iff.mpr admits.registered
  have unknown := built.rooted.lookup_eq_none_iff.mpr admits.fresh
  have unsealed : parent.id.isSealed = false := by
    rw [built.tree.id_eq _ _ found, ← Bool.not_eq_true, isSealed_iff]
    simpa only [not_or] using admits.extensible
  have admitted : r.admissibleParent d = .ok parent := by
    simp [admissibleParent, admits.named, unknown, found, unsealed]
  exact ⟨_, register_of_ok admitted⟩

theorem Refuses.register {f : Fault} (refuses : r.Refuses d f) (built : r.Built) :
    r.register d = (.error f, r) := by
  have rooted := built.rooted
  have known {name : String} (taken : name ∈ r.names) : (r.index.lookup name).isSome = true := by
    rwa [← Option.not_isNone, Bool.not_eq_true', ← Bool.not_eq_true, Option.isNone_iff_eq_none,
      rooted.lookup_eq_none_iff, not_not]
  apply register_of_error
  cases refuses with
  | unnamed named => simp [admissibleParent, named]
  | taken named taken => simp [admissibleParent, named, known taken]
  | unregistered named fresh unregistered =>
      have missing : r.get? d.parent = none := Array.getElem?_eq_none_iff.mpr unregistered
      simp [admissibleParent, named, rooted.lookup_eq_none_iff.mpr fresh, missing]
  | inextensible named fresh found inextensible =>
      have isSealed := isSealed_iff.mpr inextensible
      rw [← built.tree.id_eq _ _ found] at isSealed
      simp [admissibleParent, named, rooted.lookup_eq_none_iff.mpr fresh, found, isSealed]

theorem Built.register_eq_error_iff (built : r.Built) {f : Fault} :
    (r.register d).1 = .error f ↔ r.Refuses d f := by
  refine ⟨fun refused => ?_, fun refuses => by rw [refuses.register built]⟩
  rcases admits_or_refuses r d with admits | ⟨g, refuses⟩
  · obtain ⟨next, registered⟩ := admits.register built
    rw [registered] at refused
    cases refused
  · rw [refuses.register built] at refused
    cases refused
    exact refuses

theorem Built.register_eq_ok_iff (built : r.Built) :
    (r.register d).1 = .ok id ↔ r.Admits d ∧ id = r.size := by
  constructor
  · intro accepted
    rcases admits_or_refuses r d with admits | ⟨f, refuses⟩
    · obtain ⟨next, registered⟩ := admits.register built
      rw [registered] at accepted
      cases accepted
      exact ⟨admits, rfl⟩
    · rw [refuses.register built] at accepted
      cases accepted
  · rintro ⟨admits, rfl⟩
    obtain ⟨next, registered⟩ := admits.register built
    rw [registered]

theorem register_error {f : Fault} (refused : (r.register d).1 = .error f) :
    (r.register d).2 = r := by
  cases admitted : r.admissibleParent d with
  | error g => rw [register_of_error admitted]
  | ok parent =>
      rw [register_of_ok admitted] at refused
      cases refused

theorem registerAll_concat (r : Registry) (earlier : List TypeDeclaration) (d : TypeDeclaration) :
    (r.registerAll (earlier ++ [d])).2 = ((r.registerAll earlier).2.register d).2 := by
  induction earlier generalizing r with
  | nil => rfl
  | cons first rest ih => exact ih (r.register first).2

theorem get?_add_ne (t : ObjectType) (other : a ≠ r.size) : (r.add t).get? a = r.get? a := by
  rw [get?_add, if_neg other]

theorem ancestors_add_ne (t : ObjectType) (other : a ≠ r.size) :
    (r.add t).ancestors a = r.ancestors a := by
  induction a using Nat.strongRecOn with
  | ind a ih =>
      rw [ancestors, get?_add_ne t other, ancestors.eq_def r a]
      cases found : r.get? a with
      | none => rfl
      | some s =>
          cases under : s.parent with
          | none => simp [under]
          | some parent =>
              -- A type that was found has a number below the new one, and so has its parent.
              by_cases below : parent < a
              · have old : parent ≠ r.size := Nat.ne_of_lt (Nat.lt_trans below (lt_size found))
                simp [under, below, ih parent below old]
              · simp [under, below]

theorem lookup_add (r : Registry) (t : ObjectType) (name : String) :
    (r.add t).index.lookup name = if name = t.name then some r.size else r.index.lookup name := by
  rw [show (r.add t).index = (t.name, r.size) :: r.index from rfl, List.lookup_cons]
  by_cases same : name = t.name
  · simp [same]
  · have differs : (name == t.name) = false := by simpa using same
    simp [same, differs]

theorem named?_add_ne (rooted : r.Rooted) (t : ObjectType) {name : String} (other : name ≠ t.name) :
    (r.add t).named? name = r.named? name := by
  rw [named?, lookup_add, if_neg other, named?]
  refine Option.bind_congr fun id entered => ?_
  obtain ⟨s, found, -⟩ := (rooted.indexed name id).mp entered
  exact get?_add_ne t (Nat.ne_of_lt (lt_size found))

structure Keeps (r next : Registry) (a : TypeId) : Prop where
  get? : next.get? a = r.get? a
  ancestors : next.ancestors a = r.ancestors a
  isSubtype : ∀ b, next.isSubtype a b = r.isSubtype a b
  resolve? : ∀ name, next.resolve? a name = r.resolve? a name

theorem keeps_add (t : ObjectType) (other : a ≠ r.size) : r.Keeps (r.add t) a where
  get? := get?_add_ne t other
  ancestors := ancestors_add_ne t other
  isSubtype b := by rw [isSubtype, isSubtype, ancestors_add_ne t other]
  resolve? name := by rw [resolve?, resolve?, ancestors_add_ne t other]

/-- Registration is a conservative extension of what was registered before, with or without
success. A declaration is registered just if its name is not empty and not taken and its parent is
registered and none of the types that have no subtypes, and it is refused with the fault of the
first of these conditions that it does not meet. A refused declaration leaves the types and the
index of the names as they were. An accepted one gets the next number, under which it is found, as
it is by its name; what is answered about every other number and every other name is as before. -/
theorem register_conservative (declarations : List TypeDeclaration) (d : TypeDeclaration) :
    let r := (initial.registerAll declarations).2
    let after := (initial.registerAll (declarations ++ [d])).2
    after = (r.register d).2 ∧
    ((∃ id, (r.register d).1 = .ok id) ↔ r.Admits d) ∧
    (∀ f, (r.register d).1 = .error f ↔ r.Refuses d f) ∧
    (∀ f, (r.register d).1 = .error f → after = r) ∧
    ∀ id, (r.register d).1 = .ok id →
      id = r.size ∧ after.size = r.size + 1 ∧
      (∃ t, after.get? id = some t ∧ t.name = d.name ∧ after.named? d.name = some t) ∧
      (∀ a, a ≠ id → r.Keeps after a) ∧
      ∀ name, name ≠ d.name → after.named? name = r.named? name ∧
        after.index.lookup name = r.index.lookup name := by
  intro r after
  have built : r.Built := built_registerAll .initial declarations
  have last : after = (r.register d).2 := registerAll_concat initial declarations d
  refine ⟨last, ?_, fun f => built.register_eq_error_iff, ?_, ?_⟩
  · simp only [built.register_eq_ok_iff, exists_and_left, exists_eq, and_true]
  · intro f refused
    rw [last, register_error refused]
  · intro id accepted
    obtain ⟨parent, admitted, rfl, next⟩ := register_ok (Prod.ext accepted rfl)
    rw [show after = _ from last.trans next]
    have self : (r.add (declared r.size parent d)).get? r.size =
        some (declared r.size parent d) := by
      rw [get?_add, if_pos rfl]
    refine ⟨rfl, Array.size_push _, ⟨declared r.size parent d, self, rfl, ?_⟩,
      fun a other => keeps_add _ other, fun name other => ⟨?_, ?_⟩⟩
    · rw [named?, lookup_add]
      exact (congrArg (Option.bind · _) (if_pos rfl)).trans self
    · exact named?_add_ne built.rooted _ other
    · rw [lookup_add]
      exact if_neg other

end ManagedObjects.Registry

import ManagedObjects.Registry

namespace ManagedObjects.Registry

def builtin (id : TypeId) (name : String) (parent : Option TypeId) (methods : MethodTable) :
    ObjectType :=
  ⟨id, name, parent, 0, false, methods, none⟩

def declared (id : TypeId) (parent : ObjectType) (d : TypeDeclaration) : ObjectType where
  id := id
  name := d.name
  parent := some d.parent
  fieldCount := parent.fieldCount + d.fields
  freezable := d.freezable || parent.freezable
  methods := d.table
  staticInit := d.staticInit

def add (r : Registry) (t : ObjectType) : Registry :=
  ⟨r.types.push t, (t.name, r.size) :: r.index⟩

theorem get?_add (r : Registry) (t : ObjectType) (id : TypeId) :
    (r.add t).get? id = if id = r.size then some t else r.get? id :=
  Array.getElem?_push

inductive Built : Registry → Prop
  | initial : Built initial
  | register {r next : Registry} {d : TypeDeclaration} {id : TypeId} :
      Built r → r.register d = (.ok id, next) → Built next

theorem admissibleParent_ok {r : Registry} {d : TypeDeclaration} {parent : ObjectType}
    (admitted : r.admissibleParent d = .ok parent) :
    d.name ≠ "" ∧ r.index.lookup d.name = none ∧ r.get? d.parent = some parent ∧
      parent.id.isSealed = false := by
  unfold admissibleParent at admitted
  split at admitted
  · cases admitted
  · rename_i named
    split at admitted
    · cases admitted
    · rename_i unknown
      split at admitted
      · cases admitted
      · rename_i found
        split at admitted
        · cases admitted
        · rename_i unsealed
          cases admitted
          exact ⟨named, Option.not_isSome_iff_eq_none.mp unknown, found, by simpa using unsealed⟩

theorem register_of_error {r : Registry} {d : TypeDeclaration} {f : Fault}
    (refused : r.admissibleParent d = .error f) : r.register d = (.error f, r) := by
  rw [register, refused]

theorem register_of_ok {r : Registry} {d : TypeDeclaration} {parent : ObjectType}
    (admitted : r.admissibleParent d = .ok parent) :
    r.register d = (.ok r.size, r.add (declared r.size parent d)) := by
  rw [register, admitted]
  simp only [push, setInitializer, Prod.mk.injEq, add, Registry.mk.injEq]
  refine ⟨rfl, ?_, rfl⟩
  apply Array.ext_getElem?
  intro i
  rw [Array.getElem?_modify, Array.getElem?_push, Array.getElem?_push]
  by_cases last : r.types.size = i
  · simp [last, declared, size]
  · simp [last, Ne.symm last]

theorem register_ok {r next : Registry} {d : TypeDeclaration} {id : TypeId}
    (registered : r.register d = (.ok id, next)) :
    ∃ parent, r.admissibleParent d = .ok parent ∧ id = r.size ∧
      next = r.add (declared r.size parent d) := by
  cases admitted : r.admissibleParent d with
  | error f =>
      rw [register_of_error admitted] at registered
      cases registered
  | ok parent =>
      rw [register_of_ok admitted] at registered
      cases registered
      exact ⟨parent, rfl, rfl, rfl⟩

theorem lt_size {r : Registry} {id : TypeId} {t : ObjectType} (found : r.get? id = some t) :
    id < r.size :=
  (Array.getElem?_eq_some_iff.mp found).1

structure Tree (r : Registry) : Prop where
  id_eq : ∀ id t, r.get? id = some t → t.id = id
  parent_lt : ∀ id t parent, r.get? id = some t → t.parent = some parent → parent < id
  builtin : ∀ id, id ≤ TypeId.type → r.get? id = initial.get? id

theorem initial_cases {id : TypeId} {t : ObjectType} (found : initial.get? id = some t) :
    t.id = id ∧ (∀ parent, t.parent = some parent → parent < id) ∧ t.staticInit = none := by
  match id with
  | 0 | 1 | 2 | 3 =>
      cases found
      exact ⟨rfl, by rintro _ ⟨⟩ <;> decide, rfl⟩
  | _ + 4 => cases found

theorem Built.tree {r : Registry} (built : Built r) : Tree r := by
  induction built with
  | initial =>
      exact ⟨fun _ _ found => (initial_cases found).1,
        fun _ _ parent found => (initial_cases found).2.1 parent, fun _ _ => rfl⟩
  | @register r next d id _ registered tree =>
      obtain ⟨parent, admitted, rfl, rfl⟩ := register_ok registered
      obtain ⟨-, -, above, -⟩ := admissibleParent_ok admitted
      have builtins : TypeId.type < r.size :=
        lt_size (tree.builtin TypeId.type (Nat.le_refl _))
      constructor
      · intro i t found
        rw [get?_add] at found
        split at found
        · rename_i new
          rw [← Option.some.inj found, new]
          rfl
        · exact tree.id_eq i t found
      · intro i t p found under
        rw [get?_add] at found
        split at found
        · rename_i new
          rw [← Option.some.inj found] at under
          cases under
          exact new ▸ lt_size above
        · exact tree.parent_lt i t p found under
      · intro i low
        rw [get?_add, if_neg (Nat.ne_of_lt (Nat.lt_of_le_of_lt low builtins))]
        exact tree.builtin i low

abbrev initializer? (r : Registry) (id : TypeId) : Option (TypeId → Program Unit) :=
  (r.get? id).bind ObjectType.staticInit

theorem Tree.ancestors_eq {r : Registry} (tree : Tree r) {id : TypeId} {t : ObjectType}
    (found : r.get? id = some t) :
    r.ancestors id = t :: match t.parent with | none => [] | some parent => r.ancestors parent := by
  rw [ancestors, found]
  cases under : t.parent with
  | none => simp [under]
  | some parent => simp [under, tree.parent_lt id t parent found under]

theorem Tree.chain_eq {r : Registry} (tree : Tree r) {id : TypeId} {t : ObjectType}
    (found : r.get? id = some t) :
    r.chain id = (match t.parent with | none => [] | some parent => r.chain parent) ++ [id] := by
  unfold chain
  rw [tree.ancestors_eq found]
  cases t.parent <;> simp [tree.id_eq id t found]

theorem chain_of_unknown {r : Registry} {id : TypeId} (unknown : r.get? id = none) :
    r.chain id = [] := by
  unfold chain
  rw [ancestors, unknown]
  rfl

theorem Tree.le_of_mem_chain {r : Registry} (tree : Tree r) {id a : TypeId}
    (member : a ∈ r.chain id) : a ≤ id := by
  induction id using Nat.strongRecOn with
  | ind id ih =>
      cases found : r.get? id with
      | none => simp [chain_of_unknown found] at member
      | some t =>
          rw [tree.chain_eq found, List.mem_append, List.mem_singleton] at member
          rcases member with above | rfl
          · cases under : t.parent with
            | none => simp [under] at above
            | some parent =>
                have below := tree.parent_lt id t parent found under
                rw [under] at above
                exact Nat.le_of_lt (Nat.lt_of_le_of_lt (ih parent below above) below)
          · exact Nat.le_refl _

theorem Tree.chain_upto {r : Registry} (tree : Tree r) {id a : TypeId} {before rest : List TypeId}
    (path : r.chain id = before ++ a :: rest) : r.chain a = before ++ [a] := by
  induction id using Nat.strongRecOn generalizing rest with
  | ind id ih =>
      cases found : r.get? id with
      | none => simp [chain_of_unknown found] at path
      | some t =>
          have whole := path
          rw [tree.chain_eq found] at path
          rcases List.eq_nil_or_concat rest with rfl | ⟨front, last, rfl⟩
          · obtain ⟨-, same⟩ := List.append_inj' path rfl
            cases same
            exact whole
          · rw [show before ++ a :: front.concat last = (before ++ a :: front) ++ [last] by simp]
              at path
            obtain ⟨above, -⟩ := List.append_inj' path rfl
            cases under : t.parent with
            | none => simp [under] at above
            | some parent =>
                rw [under] at above
                exact ih parent (tree.parent_lt id t parent found under) above

theorem Tree.initializer?_builtin {r : Registry} (tree : Tree r) {id : TypeId}
    (low : id ≤ TypeId.type) : r.initializer? id = none := by
  unfold initializer?
  rw [tree.builtin id low]
  cases found : initial.get? id with
  | none => rfl
  | some t => exact (initial_cases found).2.2

theorem Tree.initializer?_sealed {r : Registry} (tree : Tree r) {id a : TypeId}
    (isSealed : id.isSealed = true) (member : a ∈ r.chain id) : r.initializer? a = none := by
  have low : id ≤ TypeId.type := by
    simp only [TypeId.isSealed, Bool.or_eq_true, beq_iff_eq] at isSealed
    rcases isSealed with (rfl | rfl) | rfl <;> decide
  exact tree.initializer?_builtin (Nat.le_trans (tree.le_of_mem_chain member) low)

theorem ancestors_initial_string :
    initial.ancestors TypeId.string = (initial.types.toList.take 2).reverse := by
  have root : initial.ancestors TypeId.object = initial.types.toList.take 1 := by
    rw [ancestors]
    rfl
  rw [ancestors]
  change _ :: (if _h : 0 < 1 then initial.ancestors TypeId.object else []) = _
  rw [root]
  rfl

theorem chain_initial_string : initial.chain TypeId.string = [0, 1] := by
  rw [chain, ancestors_initial_string]
  rfl

end ManagedObjects.Registry

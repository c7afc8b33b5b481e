import Mathlib.Data.List.Nodup
import ManagedObjects.Proofs.Registry.Tree

namespace ManagedObjects.Registry

theorem built_registerAll {r : Registry} (built : Built r) (declarations : List TypeDeclaration) :
    Built (r.registerAll declarations).2 := by
  induction declarations generalizing r with
  | nil => exact built
  | cons d rest ih =>
      refine ih (r := (r.register d).2) ?_
      cases admitted : r.admissibleParent d with
      | error f => rwa [register_of_error admitted]
      | ok parent => exact .register built (Prod.ext (by rw [register_of_ok admitted]) rfl)

theorem registered_iff {r : Registry} {id : TypeId} : (∃ t, r.get? id = some t) ↔ id < r.size := by
  constructor
  · rintro ⟨t, found⟩
    exact lt_size found
  · exact fun bound => ⟨r.types[id], Array.getElem?_eq_getElem bound⟩

theorem mem_types {r : Registry} {t : ObjectType} :
    t ∈ r.types.toList ↔ ∃ id, r.get? id = some t := by
  rw [List.mem_iff_getElem?]
  simp [get?]

def names (r : Registry) : List String := r.types.toList.map ObjectType.name

/-- The types and the index agree: names are given once each, and each leads to the type that has
it. Only the root has no parent, and no parent is one of the types that the runtime makes the
objects of. -/
structure Rooted (r : Registry) : Prop where
  named : "" ∉ r.names
  names_nodup : r.names.Nodup
  indexed : ∀ name id, r.index.lookup name = some id ↔ ∃ t, r.get? id = some t ∧ t.name = name
  root_only : ∀ id t, r.get? id = some t → t.parent = none → id = .object
  parent_unsealed : ∀ id t parent, r.get? id = some t → t.parent = some parent →
    parent.isSealed = false

theorem initial_parents {id : TypeId} {t : ObjectType} (found : initial.get? id = some t) :
    (t.parent = none → id = .object) ∧
      ∀ parent, t.parent = some parent → parent.isSealed = false := by
  match id with
  | 0 =>
      cases found
      exact ⟨fun _ => rfl, nofun⟩
  | 1 | 2 | 3 =>
      cases found
      exact ⟨nofun, by rintro _ ⟨⟩; rfl⟩
  | _ + 4 => cases found

theorem indexed_add {r : Registry} {t : ObjectType}
    (indexed : ∀ name id, r.index.lookup name = some id ↔ ∃ s, r.get? id = some s ∧ s.name = name)
    (fresh : r.index.lookup t.name = none) (name : String) (id : TypeId) :
    (r.add t).index.lookup name = some id ↔ ∃ s, (r.add t).get? id = some s ∧ s.name = name := by
  have others : ∀ i s, r.get? i = some s → s.name ≠ t.name := by
    intro i s found same
    rw [(indexed t.name i).mpr ⟨s, found, same⟩] at fresh
    cases fresh
  rw [get?_add, show (r.add t).index = (t.name, r.size) :: r.index from rfl, List.lookup_cons]
  by_cases same : name = t.name
  · subst same
    simp only [beq_self_eq_true, Option.some.injEq]
    split
    · rename_i new
      simp [new]
    · rename_i old
      refine iff_of_false (Ne.symm old) ?_
      rintro ⟨s, found, same⟩
      exact others id s found same
  · have differs : (name == t.name) = false := by simpa using same
    simp only [differs, indexed]
    split
    · rename_i new
      subst new
      have none_there : r.get? r.size = none := Array.getElem?_eq_none (Nat.le_refl _)
      simp [none_there, Ne.symm same]
    · rfl

theorem initial_indexed (name : String) (id : TypeId) :
    initial.index.lookup name = some id ↔ ∃ t, initial.get? id = some t ∧ t.name = name := by
  have none_known (name : String) (id : TypeId) :
      empty.index.lookup name = some id ↔ ∃ t, empty.get? id = some t ∧ t.name = name := by
    simp [empty, get?]
  exact indexed_add (indexed_add (indexed_add (indexed_add none_known rfl) rfl) rfl) rfl name id

theorem Built.rooted {r : Registry} (built : Built r) : Rooted r := by
  induction built with
  | initial =>
      exact ⟨by decide, by decide, initial_indexed, fun _ _ found => (initial_parents found).1,
        fun _ _ parent found => (initial_parents found).2 parent⟩
  | @register r next d id built registered rooted =>
      obtain ⟨parent, admitted, rfl, rfl⟩ := register_ok registered
      obtain ⟨nonempty, unknown, above, unsealed⟩ := admissibleParent_ok admitted
      have extended : (r.add (declared r.size parent d)).names = r.names ++ [d.name] := by
        simp [names, add, declared]
      constructor
      · simpa [extended, Ne.symm nonempty] using rooted.named
      · rw [extended]
        refine rooted.names_nodup.append (List.nodup_singleton _) ?_
        rw [List.disjoint_singleton]
        intro taken
        obtain ⟨t, member, same⟩ := List.mem_map.mp taken
        obtain ⟨i, found⟩ := mem_types.mp member
        rw [(rooted.indexed d.name i).mpr ⟨t, found, same⟩] at unknown
        cases unknown
      · exact indexed_add rooted.indexed unknown
      · intro i t found topmost
        rw [get?_add] at found
        split at found
        · cases found
          cases topmost
        · exact rooted.root_only i t found topmost
      · intro i t p found under
        rw [get?_add] at found
        split at found
        · cases found
          cases under
          rwa [built.tree.id_eq _ _ above] at unsealed
        · exact rooted.parent_unsealed i t p found under

namespace Rooted

variable {r : Registry} (rooted : Rooted r)
include rooted

theorem named?_eq_some_iff {name : String} {t : ObjectType} :
    r.named? name = some t ↔ (∃ id, r.get? id = some t) ∧ t.name = name := by
  rw [named?, Option.bind_eq_some_iff]
  simp only [rooted.indexed]
  constructor
  · rintro ⟨id, ⟨s, one, same⟩, two⟩
    cases one.symm.trans two
    exact ⟨⟨id, two⟩, same⟩
  · rintro ⟨⟨id, found⟩, same⟩
    exact ⟨id, ⟨t, found, same⟩, found⟩

theorem lookup_eq_none_iff {name : String} : r.index.lookup name = none ↔ name ∉ r.names := by
  rw [Option.eq_none_iff_forall_ne_some, ← not_exists, not_iff_not]
  simp only [rooted.indexed, names, List.mem_map, mem_types]
  constructor
  · rintro ⟨id, t, found, same⟩
    exact ⟨t, ⟨id, found⟩, same⟩
  · rintro ⟨t, ⟨id, found⟩, same⟩
    exact ⟨id, t, found, same⟩

end Rooted

inductive Walk (r : Registry) : TypeId → List ObjectType → Prop
  | root {id : TypeId} {t : ObjectType} :
      r.get? id = some t → t.parent = none → Walk r id [t]
  | up {id parent : TypeId} {t : ObjectType} {above : List ObjectType} :
      r.get? id = some t → t.parent = some parent → Walk r parent above → Walk r id (t :: above)

theorem Tree.walk_ancestors {r : Registry} (tree : Tree r) {id : TypeId} (bound : id < r.size) :
    r.Walk id (r.ancestors id) := by
  induction id using Nat.strongRecOn with
  | ind id ih =>
      obtain ⟨t, found⟩ := registered_iff.mpr bound
      rw [tree.ancestors_eq found]
      cases under : t.parent with
      | none => exact .root found under
      | some parent =>
          have below := tree.parent_lt id t parent found under
          exact .up found under (ih parent below (Nat.lt_trans below bound))

theorem Walk.le {r : Registry} (tree : Tree r) {id : TypeId} {path : List ObjectType}
    (walk : r.Walk id path) : ∀ t ∈ path, t.id ≤ id := by
  induction walk with
  | @root id t found _ => simp [tree.id_eq id t found]
  | @up id parent t above found under _ ih =>
      intro s member
      rcases List.mem_cons.mp member with rfl | earlier
      · exact Nat.le_of_eq (tree.id_eq id s found)
      · have below := tree.parent_lt id t parent found under
        exact Nat.le_of_lt (Nat.lt_of_le_of_lt (ih s earlier) below)

theorem Walk.descending {r : Registry} (tree : Tree r) {id : TypeId} {path : List ObjectType}
    (walk : r.Walk id path) : path.Pairwise fun s t => t.id < s.id := by
  induction walk with
  | root => exact List.pairwise_singleton _ _
  | @up id parent t above found under walk ih =>
      refine List.pairwise_cons.mpr ⟨fun s member => ?_, ih⟩
      rw [tree.id_eq id t found]
      exact Nat.lt_of_le_of_lt (walk.le tree s member) (tree.parent_lt id t parent found under)

theorem Walk.getLast? {r : Registry} (rooted : Rooted r) {id : TypeId} {path : List ObjectType}
    (walk : r.Walk id path) : path.getLast? = r.get? .object := by
  induction walk with
  | @root id t found topmost =>
      rw [← rooted.root_only id t found topmost, found]
      rfl
  | up _ _ walk ih =>
      cases walk <;> simpa using ih

theorem isSubtype_iff {r : Registry} {id a : TypeId} :
    r.isSubtype id a = true ↔ a ∈ r.chain id := by
  simp [isSubtype, chain]

namespace Tree

variable {r : Registry} (tree : Tree r) {s t u : TypeId}
include tree

theorem isSubtype_refl (bound : s < r.size) : r.isSubtype s s = true := by
  obtain ⟨type, found⟩ := registered_iff.mpr bound
  simp [isSubtype_iff, tree.chain_eq found]

theorem le_of_isSubtype (below : r.isSubtype s t = true) : t ≤ s :=
  tree.le_of_mem_chain (isSubtype_iff.mp below)

theorem isSubtype_antisymm (below : r.isSubtype s t = true) (above : r.isSubtype t s = true) :
    s = t :=
  Nat.le_antisymm (tree.le_of_isSubtype above) (tree.le_of_isSubtype below)

theorem isSubtype_trans (first : r.isSubtype s t = true) (second : r.isSubtype t u = true) :
    r.isSubtype s u = true := by
  rw [isSubtype_iff] at *
  obtain ⟨before, rest, path⟩ := List.append_of_mem first
  rw [tree.chain_upto path] at second
  rw [path, List.append_cons]
  exact List.mem_append_left rest second

theorem isSubtype_total (one : r.isSubtype s t = true) (two : r.isSubtype s u = true) :
    r.isSubtype t u = true ∨ r.isSubtype u t = true := by
  rw [isSubtype_iff] at *
  obtain ⟨before, rest, path⟩ := List.append_of_mem one
  have upto := tree.chain_upto path
  rw [path, List.append_cons, List.mem_append] at two
  rcases two with above | below
  · exact .inl (upto ▸ above)
  · -- The second type comes after the first on the way down, so the first is on its chain.
    obtain ⟨between, last, split⟩ := List.append_of_mem below
    have further : r.chain s = (before ++ t :: between) ++ u :: last := by simp [path, split]
    right
    rw [isSubtype_iff, tree.chain_upto further]
    simp

end Tree

theorem Rooted.eq_of_isSubtype_sealed {r : Registry} (rooted : Rooted r) (tree : Tree r)
    {id a : TypeId} (isSealed : a.isSealed = true) (below : r.isSubtype id a = true) : id = a := by
  rw [isSubtype_iff] at below
  induction id using Nat.strongRecOn with
  | ind id ih =>
      cases found : r.get? id with
      | none => simp [chain_of_unknown found] at below
      | some t =>
          rw [tree.chain_eq found, List.mem_append, List.mem_singleton] at below
          rcases below with above | same
          · cases under : t.parent with
            | none => simp [under] at above
            | some parent =>
                rw [under] at above
                have unsealed := rooted.parent_unsealed id t parent found under
                rw [ih parent (tree.parent_lt id t parent found under) above, isSealed] at unsealed
                cases unsealed
          · exact same.symm

theorem Rooted.isSubtype_object {r : Registry} (rooted : Rooted r) (tree : Tree r) {id : TypeId}
    (bound : id < r.size) : r.isSubtype id .object = true := by
  have last := (tree.walk_ancestors bound).getLast? rooted
  have root : r.get? .object = initial.get? .object := tree.builtin _ (by decide)
  rw [root] at last
  exact List.any_eq_true.mpr ⟨_, List.mem_of_getLast? last, rfl⟩

/-- Whatever is registered, with or without success, the types form one tree. They are numbered
without gaps, the built-in types first. Each has a name of its own, and under a name the index has
the number of the type of that name or nothing. Only the root has no parent, parents come before
their children, and strings, lists and types have no subtypes. The way up from a type follows the
parents, goes down in the numbers and ends in the root. The subtypes are a partial order with the
root on top, and the types above a type form a chain. -/
theorem registerAll_rooted_tree (declarations : List TypeDeclaration) :
    let r := (initial.registerAll declarations).2
    (∀ id, (∃ t, r.get? id = some t) ↔ id < r.size) ∧
    (∀ id t, r.get? id = some t → t.id = id) ∧
    (∀ id, id ≤ TypeId.type → r.get? id = initial.get? id) ∧
    "" ∉ r.names ∧ r.names.Nodup ∧
    (∀ name t, r.named? name = some t ↔ (∃ id, r.get? id = some t) ∧ t.name = name) ∧
    (∀ name id, r.index.lookup name = some id ↔ ∃ t, r.get? id = some t ∧ t.name = name) ∧
    (∀ id t, r.get? id = some t → (t.parent = none ↔ id = .object) ∧
      ∀ parent, t.parent = some parent → parent < id) ∧
    (∀ id a, a.isSealed = true → r.isSubtype id a = true → id = a) ∧
    (∀ id, id < r.size → r.Walk id (r.ancestors id) ∧
      (r.ancestors id).Pairwise (fun s t => t.id < s.id) ∧
      (r.ancestors id).getLast? = r.get? .object) ∧
    (∀ id, id < r.size → r.isSubtype id id = true ∧ r.isSubtype id .object = true) ∧
    (∀ s t, r.isSubtype s t = true → r.isSubtype t s = true → s = t) ∧
    (∀ s t u, r.isSubtype s t = true → r.isSubtype t u = true → r.isSubtype s u = true) ∧
    ∀ id s t, r.isSubtype id s = true → r.isSubtype id t = true →
      r.isSubtype s t = true ∨ r.isSubtype t s = true := by
  intro r
  have built : r.Built := built_registerAll .initial declarations
  have tree := built.tree
  have rooted := built.rooted
  refine ⟨fun id => registered_iff, tree.id_eq, tree.builtin, rooted.named, rooted.names_nodup,
    fun name t => rooted.named?_eq_some_iff, rooted.indexed, ?_,
    fun id a => rooted.eq_of_isSubtype_sealed tree, ?_, ?_, fun s t => tree.isSubtype_antisymm,
    fun s t u => tree.isSubtype_trans, fun id s t => tree.isSubtype_total⟩
  · intro id t found
    refine ⟨⟨rooted.root_only id t found, ?_⟩, fun parent => tree.parent_lt id t parent found⟩
    rintro rfl
    rw [tree.builtin _ (by decide)] at found
    cases found
    rfl
  · intro id bound
    have walk := tree.walk_ancestors bound
    exact ⟨walk, walk.descending tree, walk.getLast? rooted⟩
  · exact fun id bound => ⟨tree.isSubtype_refl bound, rooted.isSubtype_object tree bound⟩

end ManagedObjects.Registry

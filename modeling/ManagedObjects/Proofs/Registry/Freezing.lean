import ManagedObjects.Proofs.Registry.Resolution

namespace ManagedObjects

theorem MethodTable.get?_insertAll_of_mem {t : MethodTable} {methods : List (String × Method)}
    {name : String} {m : Method} (distinct : (methods.map Prod.fst).Nodup)
    (member : (name, m) ∈ methods) : (t.insertAll methods).get? name = some m := by
  have kept : ∀ {rest : List (String × Method)} {t : MethodTable},
      name ∉ rest.map Prod.fst → (t.insertAll rest).get? name = t.get? name := by
    intro rest
    induction rest with
    | nil => exact fun _ => rfl
    | cons entry rest ih =>
        intro t absent
        obtain ⟨differs, absent⟩ := not_or.mp (mt List.mem_cons.mpr absent)
        exact (ih absent).trans (get?_insert_ne t entry.2 differs)
  induction methods generalizing t with
  | nil => cases member
  | cons entry rest ih =>
      obtain ⟨fresh, distinct⟩ := List.nodup_cons.mp distinct
      rcases List.mem_cons.mp member with rfl | later
      · exact (kept fresh).trans (get?_insert_self t name m)
      · exact ih distinct later

namespace Registry

/-- The registry is made by the declarations, the latest first. With each is the number of its
type. -/
inductive Declares : List (TypeId × TypeDeclaration) → Registry → Prop
  | initial : Declares [] initial
  | register {made : List (TypeId × TypeDeclaration)} {r next : Registry} {d : TypeDeclaration}
      {id : TypeId} :
      Declares made r → r.register d = (.ok id, next) → Declares ((id, d) :: made) next

variable {made : List (TypeId × TypeDeclaration)} {r : Registry} {id : TypeId} {t : ObjectType}

namespace Declares

theorem built (declares : Declares made r) : r.Built := by
  induction declares with
  | initial => exact .initial
  | register _ registered ih => exact .register ih registered

theorem declared_of_mem (declares : Declares made r) {d : TypeDeclaration}
    (member : (id, d) ∈ made) : TypeId.type < id ∧ ∃ parent, r.get? d.parent = some parent ∧
      d.parent.isSealed = false ∧ r.get? id = some (declared id parent d) := by
  induction declares with
  | initial => cases member
  | @register made r next e other earlier registered ih =>
      obtain ⟨above, admitted, rfl, rfl⟩ := register_ok registered
      have kept {a : TypeId} {t : ObjectType} (found : r.get? a = some t) :
          (r.add (declared r.size above e)).get? a = some t := by
        rw [get?_add, if_neg (Nat.ne_of_lt (lt_size found)), found]
      rcases List.mem_cons.mp member with new | old
      · cases new
        obtain ⟨-, -, found, unsealed⟩ := admissibleParent_ok admitted
        have tree := earlier.built.tree
        rw [tree.id_eq _ _ found] at unsealed
        refine ⟨lt_size (tree.builtin TypeId.type (Nat.le_refl _)), above, kept found, unsealed, ?_⟩
        rw [get?_add, if_pos rfl]
      · obtain ⟨user, parent, found, unsealed, self⟩ := ih old
        exact ⟨user, parent, kept found, unsealed, kept self⟩

theorem exists_of_user (declares : Declares made r) (user : TypeId.type < id)
    (found : r.get? id = some t) : ∃ d, (id, d) ∈ made := by
  induction declares generalizing t with
  | initial => exact absurd (lt_size found) (Nat.not_lt.mpr user)
  | @register made r next e other earlier registered ih =>
      obtain ⟨above, admitted, rfl, rfl⟩ := register_ok registered
      rw [get?_add] at found
      split at found
      · rename_i new
        exact ⟨e, new ▸ List.mem_cons_self⟩
      · obtain ⟨d, member⟩ := ih found
        exact ⟨d, .tail _ member⟩

theorem unique (declares : Declares made r) {d e : TypeDeclaration} (first : (id, d) ∈ made)
    (second : (id, e) ∈ made) : d = e := by
  induction declares with
  | initial => cases first
  | @register made r next new other earlier registered ih =>
      obtain ⟨above, admitted, rfl, rfl⟩ := register_ok registered
      have old {d : TypeDeclaration} (member : (id, d) ∈ made) : id ≠ r.size := by
        obtain ⟨-, _, -, -, self⟩ := earlier.declared_of_mem member
        exact Nat.ne_of_lt (lt_size self)
      rcases List.mem_cons.mp first with one | one
      · rcases List.mem_cons.mp second with two | two
        · exact (congrArg Prod.snd one).trans (congrArg Prod.snd two).symm
        · exact absurd (congrArg Prod.fst one) (old two)
      · rcases List.mem_cons.mp second with two | two
        · exact absurd (congrArg Prod.fst two) (old one)
        · exact ih one two

theorem induction {motive : TypeId → ObjectType → Prop} (declares : Declares made r)
    (root : motive .object (builtin .object "Obj" none MethodTable.empty.install))
    (below : ∀ id d parent, (id, d) ∈ made → r.get? d.parent = some parent →
      r.get? id = some (declared id parent d) → motive d.parent parent →
        motive id (declared id parent d))
    (unsealed : id.isSealed = false) (found : r.get? id = some t) : motive id t := by
  have tree := declares.built.tree
  induction id using Nat.strongRecOn generalizing t with
  | ind id ih =>
      by_cases user : TypeId.type < id
      · obtain ⟨d, member⟩ := declares.exists_of_user user found
        obtain ⟨-, parent, above, extensible, self⟩ := declares.declared_of_mem member
        cases found.symm.trans self
        exact below id d parent member above self
          (ih d.parent (tree.parent_lt id _ d.parent self rfl) extensible above)
      -- Of the types from the start only the root is not sealed.
      · have low := Nat.le_of_not_lt user
        rw [tree.builtin id low] at found
        match id with
        | 0 =>
            cases found
            exact root
        | 1 | 2 | 3 => cases unsealed
        | n + 4 => exact absurd low (Nat.not_le.mpr (Nat.lt_add_left n (Nat.lt_succ_self 3)))

theorem freezable_iff (declares : Declares made r) (unsealed : id.isSealed = false)
    (found : r.get? id = some t) :
    t.freezable = true ↔ ∃ a ∈ r.chain id, ∃ d, (a, d) ∈ made ∧ d.freezable = true := by
  have tree := declares.built.tree
  refine declares.induction (motive := fun id t => t.freezable = true ↔
    ∃ a ∈ r.chain id, ∃ d, (a, d) ∈ made ∧ d.freezable = true) ?_ ?_ unsealed found
  · have root := tree.builtin .object (by decide)
    rw [tree.chain_eq root]
    refine ⟨fun freezable => (by cases freezable), ?_⟩
    rintro ⟨a, member, d, declaration, -⟩
    cases List.mem_singleton.mp member
    exact absurd (declares.declared_of_mem declaration).1 (by decide)
  · intro id d parent member above self ih
    have new : (∃ e, (id, e) ∈ made ∧ e.freezable = true) ↔ d.freezable = true := by
      constructor
      · rintro ⟨e, declaration, freezable⟩
        rwa [declares.unique member declaration]
      · exact fun freezable => ⟨d, member, freezable⟩
    rw [tree.chain_eq self]
    simp only [declared, Bool.or_eq_true, ih, List.mem_append, List.mem_singleton, or_and_right,
      exists_or, exists_eq_left, new]
    exact or_comm

theorem resolve?_eq (declares : Declares made r) {name : String} {frozen plain : Method}
    (special : (name, frozen) ∈ Protocol.freezableMethods)
    (root : (name, plain) ∈ Protocol.methods) (unsealed : id.isSealed = false)
    (found : r.get? id = some t)
    (unbound : ∀ a ∈ r.chain id, ∀ d, (a, d) ∈ made → d.methods.get? name = none) :
    ∃ owner, r.resolve? id name = some (owner, if t.freezable then frozen else plain) := by
  have tree := declares.built.tree
  revert unbound
  refine declares.induction (motive := fun id t =>
    (∀ a ∈ r.chain id, ∀ d, (a, d) ∈ made → d.methods.get? name = none) →
      ∃ owner, r.resolve? id name = some (owner, if t.freezable then frozen else plain))
    ?_ ?_ unsealed found
  · intro _
    have bound : MethodTable.empty.install.get? name = some plain :=
      MethodTable.get?_insertAll_of_mem (by decide) root
    have first : r.get? .object = some (builtin .object "Obj" none MethodTable.empty.install) :=
      tree.builtin .object (by decide)
    refine ⟨.object, ?_⟩
    rw [resolve?, tree.ancestors_eq first]
    simp [builtin, bound]
  · intro id d parent member above self ih unbound
    have path := tree.chain_eq self
    have own : d.methods.get? name = none := unbound id (by simp [path]) d member
    rw [resolve?, tree.ancestors_eq self, List.findSome?_cons]
    -- A type that is declared freezable binds the name itself; every other one leaves it to its
    -- parent, from which it has the flag.
    cases freezable : d.freezable with
    | true =>
        have bound : (declared id parent d).methods.get? name = some frozen := by
          simp only [declared, TypeDeclaration.table, freezable, if_true]
          exact MethodTable.get?_insertAll_of_mem (by decide) special
        refine ⟨id, ?_⟩
        rw [bound]
        simp [declared, freezable]
    | false =>
        have absent : (declared id parent d).methods.get? name = none := by
          simpa [declared, TypeDeclaration.table, freezable] using own
        obtain ⟨owner, resolved⟩ := ih fun a listed => unbound a (by simp [path, declared, listed])
        refine ⟨owner, ?_⟩
        rw [absent]
        simpa [declared, freezable, resolve?] using resolved

end Declares
end Registry
end ManagedObjects

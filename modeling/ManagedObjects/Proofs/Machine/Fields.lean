import Mathlib.Algebra.Order.BigOperators.Group.List
import Mathlib.Algebra.Ring.Nat
import ManagedObjects.Proofs.Machine.Typing
import ManagedObjects.Proofs.Registry.Freezing

namespace ManagedObjects

namespace Registry

variable {made : List (TypeId × TypeDeclaration)} {r : Registry} {id s t : TypeId}

def declaredFields (made : List (TypeId × TypeDeclaration)) (id : TypeId) : Nat :=
  ((made.lookup id).map fun d => d.fields.toNat).getD 0

def totalFields (r : Registry) (made : List (TypeId × TypeDeclaration)) (id : TypeId) : Nat :=
  ((r.chain id).map (declaredFields made)).sum

theorem Declares.declaredFields_of_mem (declares : Declares made r) {d : TypeDeclaration}
    (member : (id, d) ∈ made) : declaredFields made id = d.fields.toNat := by
  unfold declaredFields
  cases found : made.lookup id with
  | none => simpa using List.lookup_eq_none_iff.mp found _ member
  | some e =>
      obtain ⟨before, after, split, -⟩ := List.lookup_eq_some_iff.mp found
      rw [declares.unique (show (id, e) ∈ made by simp [split]) member]
      rfl

theorem Declares.declaredFields_builtin (declares : Declares made r) (low : id ≤ TypeId.type) :
    declaredFields made id = 0 := by
  unfold declaredFields
  cases found : made.lookup id with
  | none => rfl
  | some d =>
      obtain ⟨before, after, split, -⟩ := List.lookup_eq_some_iff.mp found
      obtain ⟨user, -⟩ := declares.declared_of_mem (show (id, d) ∈ made by simp [split])
      exact absurd low (Nat.not_le.mpr user)

theorem Tree.totalFields_eq (tree : r.Tree) {type : ObjectType} (found : r.get? id = some type) :
    r.totalFields made id =
      (match type.parent with | none => 0 | some parent => r.totalFields made parent) +
        declaredFields made id := by
  unfold totalFields
  rw [tree.chain_eq found]
  cases type.parent <;> simp

theorem Tree.totalFields_le (tree : r.Tree) (below : r.isSubtype s t = true) :
    r.totalFields made t ≤ r.totalFields made s := by
  obtain ⟨before, rest, path⟩ := List.append_of_mem (isSubtype_iff.mp below)
  have further : r.chain s = r.chain t ++ rest := by
    rw [tree.chain_upto path, path, List.append_cons]
  rw [totalFields, totalFields, further, List.map_append, List.sum_append]
  exact Nat.le_add_right _ _

theorem Declares.totalFields_builtin (declares : Declares made r) (low : id ≤ TypeId.type) :
    r.totalFields made id = 0 := by
  refine List.sum_eq_zero fun count listed => ?_
  obtain ⟨a, member, rfl⟩ := List.mem_map.mp listed
  have above := declares.built.tree.le_of_mem_chain member
  exact declares.declaredFields_builtin (Nat.le_trans above low)

theorem initial_fieldCount {type : ObjectType} (found : initial.get? id = some type) :
    type.fieldCount = 0 := by
  match id with
  | 0 | 1 | 2 | 3 =>
      cases found
      rfl
  | _ + 4 => cases found

theorem Declares.fieldCount_eq (declares : Declares made r) {type : ObjectType}
    (found : r.get? id = some type) :
    type.fieldCount.toNat = r.totalFields made id % UInt64.size := by
  have tree := declares.built.tree
  induction id using Nat.strongRecOn generalizing type with
  | ind id ih =>
      by_cases user : TypeId.type < id
      · obtain ⟨d, member⟩ := declares.exists_of_user user found
        obtain ⟨-, parent, above, -, self⟩ := declares.declared_of_mem member
        cases found.symm.trans self
        have inherited := ih d.parent (tree.parent_lt id _ d.parent self rfl) above
        rw [tree.totalFields_eq self, declares.declaredFields_of_mem member]
        calc (parent.fieldCount + d.fields).toNat
            = (parent.fieldCount.toNat + d.fields.toNat) % UInt64.size := UInt64.toNat_add _ _
          _ = (r.totalFields made d.parent + d.fields.toNat) % UInt64.size := by
              rw [inherited, Nat.mod_add_mod]
      · have low := Nat.le_of_not_lt user
        rw [tree.builtin id low] at found
        rw [initial_fieldCount found, declares.totalFields_builtin low]
        rfl

theorem Declares.fieldCount_exact (declares : Declares made r) {type : ObjectType}
    (found : r.get? id = some type) :
    type.fieldCount.toNat = r.totalFields made id ↔ r.totalFields made id < UInt64.size := by
  rw [declares.fieldCount_eq found]
  exact Nat.mod_eq_iff_lt (by decide)

theorem Declares.fieldCount_le (declares : Declares made r) {x y : ObjectType}
    (below : r.isSubtype s t = true) (one : r.get? s = some x) (two : r.get? t = some y)
    (fits : r.totalFields made s < UInt64.size) : y.fieldCount.toNat ≤ x.fieldCount.toNat := by
  have fewer : r.totalFields made t ≤ r.totalFields made s :=
    declares.built.tree.totalFields_le below
  rw [(declares.fieldCount_exact one).mpr fits,
    (declares.fieldCount_exact two).mpr (Nat.lt_of_le_of_lt fewer fits)]
  exact fewer

theorem fieldCount_declared (id : TypeId) (parent : ObjectType) (d : TypeDeclaration) :
    parent.fieldCount ≤ (declared id parent d).fieldCount ↔
      parent.fieldCount.toNat + d.fields.toNat < UInt64.size := by
  have inherited := parent.fieldCount.toNat_lt
  have added := d.fields.toNat_lt
  rw [UInt64.le_iff_toNat_le, declared, UInt64.toNat_add, UInt64.size]
  omega

end Registry

namespace Machine
open Registry

/-- The fields of types and of their instances. The count of a type is the sum of the fields that
are declared for it and for the types above it, without what does not fit into a word, so it is that
sum if and only if the sum is less than the number of words. A type has no fewer fields than its
parent if and only if adding to those of the parent does not leave the words. A type whose sum fits
has no fewer fields than any type above it, and each instance of it in a run has a field at every
index that is one of a type above. -/
theorem run_fields_of_supertypes {made : List (TypeId × TypeDeclaration)} {r : Registry}
    (declares : Declares made r) :
    (∀ id type, r.get? id = some type →
      type.fieldCount.toNat = r.totalFields made id % UInt64.size ∧
      (type.fieldCount.toNat = r.totalFields made id ↔ r.totalFields made id < UInt64.size)) ∧
    (∀ id d parent type, (id, d) ∈ made → r.get? d.parent = some parent →
      r.get? id = some type → (parent.fieldCount ≤ type.fieldCount ↔
        parent.fieldCount.toNat + d.fields.toNat < UInt64.size)) ∧
    (∀ s t x y, r.isSubtype s t = true → r.get? s = some x → r.get? t = some y →
      r.totalFields made s < UInt64.size → y.fieldCount ≤ x.fieldCount) ∧
    ∀ (α : Type) (options : Options) (sink : Sink) (program : Program α) (entries : List Entry)
      (m : Machine α), Run r (start options sink program) entries m →
        ∀ h object values t y, m.world.arena.get? h = some object →
          object.payload = .fields values → r.isSubtype object.type t = true →
            r.get? t = some y → r.totalFields made object.type < UInt64.size →
              ∀ index, index < y.fieldCount.toNat →
                ∃ value, m.world.getField h index = .ok value := by
  refine ⟨fun id type found => ⟨declares.fieldCount_eq found, declares.fieldCount_exact found⟩,
    ?_, ?_, ?_⟩
  · intro id d parent type member above found
    obtain ⟨-, other, same, -, self⟩ := declares.declared_of_mem member
    cases above.symm.trans same
    cases found.symm.trans self
    exact fieldCount_declared id parent d
  · intro s t x y below one two fits
    exact UInt64.le_iff_toNat_le.mpr (declares.fieldCount_le below one two fits)
  · intro α options sink program entries m run h object values t y live held below two fits index
      valid
    have typed := run.fits h object live
    rw [held] at typed
    obtain ⟨-, x, one, filled⟩ := typed
    apply (World.getField_ok_iff live held index).mpr
    rw [filled]
    exact Nat.lt_of_lt_of_le valid (declares.fieldCount_le below one two fits)

theorem declares_pair (fields : UInt64) :
    ∃ (made : List (TypeId × TypeDeclaration)) (r : Registry) (x y : ObjectType),
      Declares made r ∧ r.isSubtype 5 4 = true ∧ r.get? 5 = some x ∧ r.get? 4 = some y ∧
        r.totalFields made 5 = 2 + fields.toNat ∧ y.fieldCount.toNat = 2 := by
  let base : TypeDeclaration := { name := "Base", fields := 2 }
  let sub : TypeDeclaration := { name := "Sub", parent := 4, fields := fields }
  let y := declared 4 (builtin .object "Obj" none MethodTable.empty.install) base
  let above : Registry := initial.add y
  let r : Registry := above.add (declared 5 y sub)
  have based : initial.register base = (.ok 4, above) := rfl
  have derived : above.register sub = (.ok 5, r) := rfl
  have declares := (Declares.register .initial based).register derived
  have tree := declares.built.tree
  have five : r.get? 5 = some (declared 5 y sub) := rfl
  have four : r.get? 4 = some y := rfl
  have below : r.isSubtype 5 4 = true := by
    rw [isSubtype_iff, tree.chain_eq five]
    exact List.mem_append_left _ (isSubtype_iff.mp (tree.isSubtype_refl (lt_size four)))
  refine ⟨_, r, _, y, declares, below, five, four, ?_, rfl⟩
  rw [tree.totalFields_eq five]
  change r.totalFields _ 4 + _ = _
  rw [tree.totalFields_eq four]
  change r.totalFields _ .object + _ + _ = _
  rw [declares.totalFields_builtin (by decide)]
  rfl

theorem run_fields_of_supertypes_largest :
    ∃ (made : List (TypeId × TypeDeclaration)) (r : Registry) (x y : ObjectType),
      Declares made r ∧ r.get? 5 = some x ∧ r.get? 4 = some y ∧
        r.totalFields made 5 = UInt64.size - 1 ∧ x.fieldCount.toNat = UInt64.size - 1 ∧
          y.fieldCount.toNat = 2 ∧ y.fieldCount ≤ x.fieldCount := by
  obtain ⟨made, r, x, y, declares, below, five, four, total, two⟩ :=
    declares_pair 0xFFFFFFFFFFFFFFFD
  obtain ⟨counts, -, bounded, -⟩ := run_fields_of_supertypes declares
  have fits : r.totalFields made 5 < UInt64.size := total ▸ by decide
  have exact := (counts 5 x five).2.mpr fits
  exact ⟨made, r, x, y, declares, five, four, total, exact.trans total, two,
    bounded 5 4 x y below five four fits⟩

/-- A type below one with two fields that adds as many as words can count. It has one field. -/
theorem fieldCount_lt_supertype :
    ∃ (made : List (TypeId × TypeDeclaration)) (r : Registry) (x y : ObjectType),
      Declares made r ∧ r.isSubtype 5 4 = true ∧ r.get? 5 = some x ∧ r.get? 4 = some y ∧
        r.totalFields made 5 = UInt64.size + 1 ∧ x.fieldCount.toNat = 1 ∧
          y.fieldCount.toNat = 2 := by
  obtain ⟨made, r, x, y, declares, below, five, four, total, two⟩ :=
    declares_pair 0xFFFFFFFFFFFFFFFF
  refine ⟨made, r, x, y, declares, below, five, four, total, ?_, two⟩
  rw [declares.fieldCount_eq five, total]
  rfl

end Machine
end ManagedObjects

import ManagedObjects.Proofs.Registry.Hierarchy

namespace ManagedObjects

namespace MethodTable

theorem get?_insertAll {t : MethodTable} {methods : List (String × Method)}
    {name : String} {m : Method} (found : (t.insertAll methods).get? name = some m) :
    (name, m) ∈ methods ∨ t.get? name = some m := by
  induction methods generalizing t with
  | nil => exact .inr found
  | cons entry rest ih =>
      rcases ih (t := t.insert entry.1 entry.2) found with member | earlier
      · exact .inl (.tail _ member)
      · by_cases same : name = entry.1
        · rw [same, get?_insert_self] at earlier
          cases earlier
          exact .inl (same ▸ List.mem_cons_self)
        · rw [get?_insert_ne _ _ same] at earlier
          exact .inr earlier

theorem get?_insertAll_ne_none {t : MethodTable} {methods : List (String × Method)} {name : String}
    (bound : name ∈ methods.map Prod.fst ∨ t.get? name ≠ none) :
    (t.insertAll methods).get? name ≠ none := by
  induction methods generalizing t with
  | nil => simpa [insertAll] using bound
  | cons entry rest ih =>
      apply ih (t := t.insert entry.1 entry.2)
      by_cases same : name = entry.1
      · simp [same, get?_insert_self]
      · simpa [get?_insert_ne _ _ same, same] using bound

end MethodTable

namespace Registry

variable {r : Registry}

theorem Tree.mem_ancestors (tree : r.Tree) {id : TypeId} {t : ObjectType}
    (member : t ∈ r.ancestors id) : r.get? t.id = some t := by
  induction id using Nat.strongRecOn with
  | ind id ih =>
      cases found : r.get? id with
      | none => simp [ancestors, found] at member
      | some s =>
          rw [tree.ancestors_eq found] at member
          rcases List.mem_cons.mp member with rfl | above
          · rw [tree.id_eq id t found]
            exact found
          · cases under : s.parent with
            | none => simp [under] at above
            | some parent =>
                rw [under] at above
                exact ih parent (tree.parent_lt id s parent found under) above

theorem Tree.root_method (tree : r.Tree) {type : TypeId} {name : String} {m : Method}
    (resolved : r.resolve? type name = some (.object, m)) : (name, m) ∈ Protocol.methods := by
  obtain ⟨t, member, found⟩ := List.exists_of_findSome?_eq_some resolved
  obtain ⟨bound, lookup, same⟩ := Option.map_eq_some_iff.mp found
  obtain ⟨number, rfl⟩ := Prod.mk.inj same
  have root := tree.mem_ancestors member
  rw [number, tree.builtin _ (by decide)] at root
  cases root
  rcases MethodTable.get?_insertAll lookup with member | absent
  · exact member
  · cases absent

theorem Tree.root_trap (tree : r.Tree) {type : TypeId} {m : Method}
    (resolved : r.resolve? type "trap" = some (.object, m)) : m = Protocol.trapMethod := by
  have root := tree.root_method resolved
  simpa [Protocol.methods, Protocol.toStrName, Protocol.finalizeName] using root

theorem Tree.resolve?_eq_some_iff (tree : r.Tree) {id owner : TypeId} {name : String} {m : Method} :
    r.resolve? id name = some (owner, m) ↔ ∃ nearer t farther,
      r.ancestors id = nearer ++ t :: farther ∧ (∀ s ∈ nearer, s.methods.get? name = none) ∧
        r.get? owner = some t ∧ t.methods.get? name = some m := by
  rw [resolve?, List.findSome?_eq_some_iff]
  simp only [Option.map_eq_some_iff, Option.map_eq_none_iff, Prod.mk.injEq]
  constructor
  · rintro ⟨nearer, t, farther, path, ⟨_, bound, rfl, rfl⟩, absent⟩
    have member : t ∈ r.ancestors id := by simp [path]
    exact ⟨nearer, t, farther, path, absent, tree.mem_ancestors member, bound⟩
  · rintro ⟨nearer, t, farther, path, absent, found, bound⟩
    exact ⟨nearer, t, farther, path, ⟨m, bound, tree.id_eq owner t found, rfl⟩, absent⟩

theorem resolve?_eq_none_iff {id : TypeId} {name : String} :
    r.resolve? id name = none ↔ ∀ t ∈ r.ancestors id, t.methods.get? name = none := by
  simp [resolve?]

theorem isSubtype_of_resolve? {id owner : TypeId} {name : String} {m : Method}
    (resolved : r.resolve? id name = some (owner, m)) : r.isSubtype id owner = true := by
  obtain ⟨t, member, found⟩ := List.exists_of_findSome?_eq_some resolved
  obtain ⟨_, -, same⟩ := Option.map_eq_some_iff.mp found
  cases same
  exact List.any_eq_true.mpr ⟨t, member, by simp⟩

theorem Tree.ancestors_eq_append (tree : r.Tree) {s t : TypeId} (below : r.isSubtype s t = true) :
    ∃ before, r.ancestors s = before ++ r.ancestors t ∧ ∀ x ∈ before,
      r.isSubtype s x.id = true ∧ r.isSubtype x.id t = true ∧ x.id ≠ t := by
  induction s using Nat.strongRecOn with
  | ind s ih =>
      by_cases same : s = t
      · exact ⟨[], by simp [same], nofun⟩
      have member := isSubtype_iff.mp below
      cases found : r.get? s with
      | none => simp [chain_of_unknown found] at member
      | some type =>
          have number := tree.id_eq s type found
          rw [tree.chain_eq found, List.mem_append, List.mem_singleton] at member
          have above := member.resolve_right (Ne.symm same)
          cases under : type.parent with
          | none => simp [under] at above
          | some parent =>
              rw [under] at above
              have parent_lt := tree.parent_lt s type parent found under
              have toParent : r.isSubtype s parent = true := by
                rw [isSubtype_iff, tree.chain_eq found, under]
                have parentBound := Nat.lt_trans parent_lt (lt_size found)
                exact List.mem_append_left _ (isSubtype_iff.mp (tree.isSubtype_refl parentBound))
              obtain ⟨before, path, between⟩ := ih parent parent_lt (isSubtype_iff.mpr above)
              refine ⟨type :: before, by simp [tree.ancestors_eq found, under, path], ?_⟩
              intro x listed
              rcases List.mem_cons.mp listed with rfl | later
              · rw [number]
                exact ⟨tree.isSubtype_refl (lt_size found), below, same⟩
              · obtain ⟨reached, rest⟩ := between x later
                exact ⟨tree.isSubtype_trans toParent reached, rest⟩

theorem Tree.resolve?_subtype (tree : r.Tree) {s t : TypeId} (below : r.isSubtype s t = true)
    (name : String) :
    r.resolve? s name = r.resolve? t name ∨ ∃ owner m,
      r.resolve? s name = some (owner, m) ∧ r.isSubtype owner t = true ∧ owner ≠ t ∧
        ∃ x, r.get? owner = some x ∧ r.isSubtype s owner = true ∧ x.methods.get? name = some m := by
  obtain ⟨before, path, between⟩ := tree.ancestors_eq_append below
  have split : r.resolve? s name =
      (before.findSome? fun t => (t.methods.get? name).map fun m => (t.id, m)).or
        (r.resolve? t name) := by
    rw [resolve?, path, List.findSome?_append, resolve?]
  cases found : before.findSome? fun t => (t.methods.get? name).map fun m => (t.id, m) with
  | none => exact .inl (by simp [split, found])
  | some bound =>
      obtain ⟨x, member, lookup⟩ := List.exists_of_findSome?_eq_some found
      obtain ⟨m, bound, rfl⟩ := Option.map_eq_some_iff.mp lookup
      obtain ⟨reached, under, differs⟩ := between x member
      have listed : x ∈ r.ancestors s := by simp [path, member]
      refine .inr ⟨x.id, m, by simp [split, found], under, differs, x, ?_, reached, bound⟩
      exact tree.mem_ancestors listed

theorem Tree.exists_resolve?_protocol (tree : r.Tree) (rooted : r.Rooted) {id : TypeId}
    (bound : id < r.size) {name : String} (protocol : name ∈ Protocol.methodNames) :
    ∃ owner m, r.resolve? id name = some (owner, m) := by
  cases resolved : r.resolve? id name with
  | some found => exact ⟨found.1, found.2, rfl⟩
  | none =>
      have last := (tree.walk_ancestors bound).getLast? rooted
      rw [tree.builtin _ (by decide)] at last
      have absent := resolve?_eq_none_iff.mp resolved _ (List.mem_of_getLast? last)
      exact absurd absent (MethodTable.get?_insertAll_ne_none (.inl protocol))

/-- A name stands for the method of the nearest type, going up, whose own table binds it, and for
nothing if no table does. So a name that a type knows is known to all its subtypes, where it stands
for the method of a type at or below the owner of the first; it is the same method if no type in
between binds the name. The ten names of the protocol are known to every type. -/
theorem resolve?_nearest (built : r.Built) :
    (∀ id name owner m, r.resolve? id name = some (owner, m) ↔ ∃ nearer t farther,
      r.ancestors id = nearer ++ t :: farther ∧ (∀ s ∈ nearer, s.methods.get? name = none) ∧
        r.get? owner = some t ∧ t.methods.get? name = some m) ∧
    (∀ id name, r.resolve? id name = none ↔
      ∀ t ∈ r.ancestors id, t.methods.get? name = none) ∧
    (∀ s t, r.isSubtype s t = true → ∀ name,
      (∀ owner m, r.resolve? t name = some (owner, m) → ∃ nearest own,
        r.resolve? s name = some (nearest, own) ∧ r.isSubtype nearest owner = true) ∧
      ((∀ u x, r.isSubtype s u = true → r.isSubtype u t = true → u ≠ t → r.get? u = some x →
        x.methods.get? name = none) → r.resolve? s name = r.resolve? t name)) ∧
    Protocol.methodNames.length = 10 ∧
    ∀ id t, r.get? id = some t → ∀ name ∈ Protocol.methodNames,
      ∃ owner m, r.resolve? id name = some (owner, m) := by
  have tree := built.tree
  refine ⟨fun id name owner m => tree.resolve?_eq_some_iff, fun id name => resolve?_eq_none_iff,
    fun s t below name => ⟨?_, ?_⟩, rfl, fun id t found name protocol => ?_⟩
  · intro owner m resolved
    have above := isSubtype_of_resolve? resolved
    rcases tree.resolve?_subtype below name with same | ⟨nearest, own, overridden, under, -⟩
    · have registered : owner < r.size := by
        obtain ⟨_, _, _, -, -, found, -⟩ := tree.resolve?_eq_some_iff.mp resolved
        exact lt_size found
      exact ⟨owner, m, same.trans resolved, tree.isSubtype_refl registered⟩
    · exact ⟨nearest, own, overridden, tree.isSubtype_trans under above⟩
  · intro unbound
    rcases tree.resolve?_subtype below name with
      same | ⟨nearest, own, -, under, differs, x, found, reached, bound⟩
    · exact same
    · rw [unbound nearest x reached under differs found] at bound
      cases bound
  · exact tree.exists_resolve?_protocol built.rooted (lt_size found) protocol

theorem resolve?_nearest_hash :
    ∃ (r : Registry) (m : Method), r.Built ∧ r.isSubtype 5 4 = true ∧
      r.resolve? 4 "hash" = some (4, m) ∧ r.resolve? 5 "hash" = r.resolve? 4 "hash" ∧
        ∃ owner own, r.resolve? 5 "trap" = some (owner, own) := by
  let hash : Method := ⟨.nullary, fun _ => pure (.bool true)⟩
  let own : MethodTable := MethodTable.empty.insert "hash" hash
  let shape : TypeDeclaration := { name := "Shape", methods := own }
  let widget : TypeDeclaration := { name := "Widget", parent := 4 }
  let root := builtin .object "Obj" none MethodTable.empty.install
  let above : Registry := initial.add (declared 4 root shape)
  let r : Registry := above.add (declared 5 (declared 4 root shape) widget)
  have shaped : initial.register shape = (.ok 4, above) := rfl
  have widened : above.register widget = (.ok 5, r) := rfl
  have built : r.Built := .register (.register .initial shaped) widened
  have found : r.get? 4 = some (declared 4 root shape) := rfl
  have last : r.get? 5 = some (declared 5 (declared 4 root shape) widget) := rfl
  have below : r.isSubtype 5 4 = true := by decide +kernel
  have chain : r.chain 5 = [0, 4, 5] := by decide +kernel
  obtain ⟨nearest, -, subtypes, -, protocol⟩ := resolve?_nearest built
  have listed : "trap" ∈ Protocol.methodNames := by simp [Protocol.methodNames, Protocol.methods]
  refine ⟨r, hash, built, below, ?_, ?_, protocol 5 _ last "trap" listed⟩
  · apply (nearest 4 "hash" 4 hash).mpr
    refine ⟨[], _, _, built.tree.ancestors_eq found, by simp, found, ?_⟩
    exact MethodTable.get?_insert_self _ _ _
  · apply (subtypes 5 4 below "hash").2
    intro u x reached under differs known
    have member := isSubtype_iff.mp reached
    simp only [chain, List.mem_cons, List.not_mem_nil, or_false] at member
    rcases member with rfl | rfl | rfl
    · exact absurd under (by decide +kernel)
    · exact absurd rfl differs
    · cases last.symm.trans known
      rfl

end Registry
end ManagedObjects

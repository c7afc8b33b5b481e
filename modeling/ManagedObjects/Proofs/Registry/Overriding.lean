import ManagedObjects.Proofs.Registry.Freezing

namespace ManagedObjects

def Method.last? (methods : List (String × Method)) (name : String) : Option Method :=
  methods.reverse.lookup name

theorem Method.last?_eq_none {methods : List (String × Method)} {name : String}
    (absent : name ∉ methods.map Prod.fst) : last? methods name = none := by
  refine List.lookup_eq_none_iff.mpr fun entry member => ?_
  have differs : name ≠ entry.1 := by
    rintro rfl
    exact absent (List.mem_map_of_mem (List.mem_reverse.mp member))
  simpa using differs

theorem MethodTable.get?_insertAll_eq (t : MethodTable) (methods : List (String × Method))
    (name : String) :
    (t.insertAll methods).get? name = (Method.last? methods name).or (t.get? name) := by
  induction methods generalizing t with
  | nil => rfl
  | cons entry rest ih =>
      rw [Method.last?, List.reverse_cons, List.lookup_append, Option.or_assoc]
      refine (ih (t.insert entry.1 entry.2)).trans (congrArg _ ?_)
      by_cases same : name = entry.1
      · rw [same, get?_insert_self, List.lookup_cons_self, Option.some_or]
      · have differs : (name == entry.1) = false := by simpa using same
        rw [get?_insert_ne _ _ same, List.lookup_cons, differs]
        rfl

namespace Registry

variable {made : List (TypeId × TypeDeclaration)} {r : Registry} {id : TypeId}
  {d : TypeDeclaration}

theorem Declares.resolve?_table (declares : Declares made r) (member : (id, d) ∈ made)
    {name : String} {m : Method} (bound : d.table.get? name = some m) :
    r.resolve? id name = some (id, m) := by
  obtain ⟨-, parent, -, -, self⟩ := declares.declared_of_mem member
  rw [resolve?, declares.built.tree.ancestors_eq self, List.findSome?_cons]
  simp [declared, bound]

/-- What a type answers to a name that its declaration gives a method to. If the type is not
declared freezable, or the name is not one of those that freezing is for, it is the last method that
is declared under the name, so that every name of the protocol can be given another meaning. Else it
is the method for freezing, and those declared are lost. -/
theorem resolve?_of_declared (declares : Declares made r) (member : (id, d) ∈ made)
    {methods : List (String × Method)} (filled : d.methods = MethodTable.empty.insertAll methods)
    {name : String} {m : Method} (last : Method.last? methods name = some m) :
    (d.freezable = false ∨ name ∉ Protocol.freezableMethods.map Prod.fst →
      r.resolve? id name = some (id, m)) ∧
    ∀ frozen, d.freezable = true → (name, frozen) ∈ Protocol.freezableMethods →
      r.resolve? id name = some (id, frozen) := by
  have own : d.methods.get? name = some m := by
    rw [filled, MethodTable.get?_insertAll_eq, last, Option.some_or]
  constructor
  · intro kept
    apply declares.resolve?_table member
    unfold TypeDeclaration.table MethodTable.installFreezable
    split
    · rename_i freezable
      have other := kept.resolve_left (by simp [freezable])
      rw [MethodTable.get?_insertAll_eq, Method.last?_eq_none other, Option.none_or, own]
    · exact own
  · intro frozen freezable special
    apply declares.resolve?_table member
    rw [TypeDeclaration.table, freezable, if_pos rfl]
    exact MethodTable.get?_insertAll_of_mem (by decide) special

theorem resolve?_of_declared_hash :
    ∃ (r : Registry) (d : TypeDeclaration) (first second : Method),
      initial.register d = (.ok 4, r) ∧ d.freezable = true ∧
        d.methods = MethodTable.empty.insertAll [("hash", first), ("hash", second)] ∧
          first.signature ≠ second.signature ∧ r.resolve? 4 "hash" = some (4, second) := by
  let first : Method := ⟨.nullary, fun _ => pure .null⟩
  let second : Method := ⟨.exact [.int], fun argv => Program.argument argv 1⟩
  let methods : List (String × Method) := [("hash", first), ("hash", second)]
  let d : TypeDeclaration :=
    { name := "Point", freezable := true, methods := MethodTable.empty.insertAll methods }
  have registered : initial.register d = (.ok 4, _) := rfl
  have declares := Declares.register .initial registered
  have last : Method.last? methods "hash" = some second := rfl
  have kept := (resolve?_of_declared declares List.mem_cons_self rfl last).1
  exact ⟨_, d, first, second, registered, rfl, rfl, by decide, kept (.inr (by decide))⟩

/-- A freezable type that declares the query for immutability. Its own method is not what the name
stands for. -/
theorem resolve?_freezable_ne_declared :
    ∃ (r : Registry) (d : TypeDeclaration) (own frozen : Method),
      initial.register d = (.ok 4, r) ∧
        d.methods = MethodTable.empty.insertAll [("isImmutable", own)] ∧
          r.resolve? 4 "isImmutable" = some (4, frozen) ∧ frozen ≠ own := by
  let own : Method := ⟨.exact [.int], fun _ => pure (.bool true)⟩
  let d : TypeDeclaration :=
    { name := "Const", freezable := true
      methods := MethodTable.empty.insertAll [("isImmutable", own)] }
  have registered : initial.register d = (.ok 4, _) := rfl
  have declares := Declares.register .initial registered
  have bound : d.table.get? "isImmutable" = some _ := rfl
  have resolved := declares.resolve?_table List.mem_cons_self bound
  refine ⟨_, d, own, _, registered, rfl, resolved, fun same => ?_⟩
  exact absurd (congrArg Method.signature same) (by decide)

end Registry
end ManagedObjects

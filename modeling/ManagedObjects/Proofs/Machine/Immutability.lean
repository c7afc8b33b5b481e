import ManagedObjects.Proofs.Machine.Contents
import ManagedObjects.Proofs.Machine.Typing
import ManagedObjects.Proofs.Registry.Freezing
import ManagedObjects.Proofs.Trap.Entering

namespace ManagedObjects

open Program

variable {r : Registry} {w u : World} {x : Handle} {object : Object} {t : ObjectType}
  {made : List (TypeId × TypeDeclaration)}

def World.freezeIf (w : World) (freezable : Bool) (x : Handle) : World :=
  if freezable then
    w.withArena (w.arena.modify x fun object => { object with frozen := true })
  else w

theorem World.get?_freezeIf (live : w.arena.get? x = some object) (freezable : Bool)
    (h : Handle) : (w.freezeIf freezable x).arena.get? h =
      if h = x then some { object with frozen := freezable || object.frozen }
      else w.arena.get? h := by
  cases freezable with
  | true => exact Arena.get?_modify live _ h
  | false =>
      change w.arena.get? h = _
      split
      · rename_i same
        exact same ▸ live
      · rfl

theorem TypeId.isSealed_of_user {id : TypeId} (user : type < id) : id.isSealed = false := by
  have differs {low : TypeId} (bound : low ≤ type) : id ≠ low :=
    Nat.ne_of_gt (Nat.lt_of_le_of_lt bound user)
  have strings : id ≠ string := differs (by decide)
  have lists : id ≠ list := differs (by decide)
  simp [isSealed, strings, lists, differs (Nat.le_refl type)]

namespace Protocol

def frozenIsImmutable : Method := ofReceiver fun this => Slot.bool <$> isFrozenImmutable this

def frozenToImmutable : Method := ofReceiver fun this => Slot.handle <$> freezeToImmutable this

theorem eval_isImmutable (live : w.arena.get? x = some object) (freezable : Bool) :
    ((if freezable then frozenIsImmutable else isImmutableMethod).body [.handle x]).eval r w =
      some (.ofExcept (.ok (.bool (freezable && object.frozen))), w) := by
  cases freezable with
  | true =>
      have read : (Native.isFrozen x).eval r w = some (.value object.frozen, w) := by
        refine (eval_ofExcept (w.isFrozen x) w).trans ?_
        simp [World.isFrozen, Arena.get_eq_ok_iff.mpr live, Except.map, Outcome.ofExcept]
      exact eval_bind_value read
  | false =>
      exact eval_bind_value ((eval_bind_value (eval_validate_live live)).trans rfl)

theorem eval_toImmutable (live : w.arena.get? x = some object) (freezable : Bool) :
    ((if freezable then frozenToImmutable else toImmutableMethod).body [.handle x]).eval r w =
      some (.ofExcept (.ok (.handle x)), w.freezeIf freezable x) := by
  cases freezable with
  | true =>
      have frozen : (Native.freeze x).eval r w = some (.value (), w.freezeIf true x) := by
        have done : w.freeze x = (.ok (), w.freezeIf true x) := by
          rw [World.freeze, Arena.update_eq live]
          rfl
        have replied : w.reply r (.freeze x) = some (.ok (), w.freezeIf true x) :=
          congrArg some done
        simp [Native.freeze, eval, replied, Outcome.ofExcept]
      exact eval_bind_value ((eval_bind_value frozen).trans rfl)
  | false =>
      exact eval_bind_value ((eval_bind_value (eval_validate_live live)).trans rfl)

end Protocol

section Calls
variable {entrance : Trap.Entrance} (declares : r.Declares made)
  (settles : World.Settles r (r.chain object.type) w u) (live : w.arena.get? x = some object)
  (unsealed : object.type.isSealed = false) (found : r.get? object.type = some t)
include declares settles live unsealed found

theorem yields_either {name : String} {frozen plain : Method} {result : Except Fault Slot}
    {v : World} (special : (name, frozen) ∈ Protocol.freezableMethods)
    (root : (name, plain) ∈ Protocol.methods) (named : name ≠ "")
    (accepted : frozen.signature.accepts [] = true ∧ plain.signature.accepts [] = true)
    (given : entrance.given w = .ok (name, []))
    (unbound : ∀ a ∈ r.chain object.type, ∀ d, (a, d) ∈ made → d.methods.get? name = none)
    (evaluates : ((if t.freezable then frozen else plain).body [.handle x]).eval r u =
      some (.ofExcept result, v)) :
    (entrance.program x).Yields r w (.ofExcept result) v := by
  obtain ⟨owner, resolved⟩ := declares.resolve?_eq special root unsealed found unbound
  refine entrance.yields settles live given named resolved ?_ evaluates
  cases t.freezable with
  | true => exact accepted.1
  | false => exact accepted.2

theorem yields_isImmutable (given : entrance.given w = .ok ("isImmutable", []))
    (unbound : ∀ a ∈ r.chain object.type, ∀ d, (a, d) ∈ made →
      d.methods.get? "isImmutable" = none) :
    (entrance.program x).Yields r w (.value (.bool (t.freezable && object.frozen))) u := by
  have special : ("isImmutable", Protocol.frozenIsImmutable) ∈ Protocol.freezableMethods := .head _
  have root : ("isImmutable", Protocol.isImmutableMethod) ∈ Protocol.methods := by
    simp [Protocol.methods]
  exact yields_either declares settles live unsealed found special root (by decide) ⟨rfl, rfl⟩ given
    unbound (Protocol.eval_isImmutable (settles.marks.arena_eq ▸ live) t.freezable)

theorem yields_toImmutable (given : entrance.given w = .ok ("toImmutable", []))
    (unbound : ∀ a ∈ r.chain object.type, ∀ d, (a, d) ∈ made →
      d.methods.get? "toImmutable" = none) :
    (entrance.program x).Yields r w (.value (.handle x)) (u.freezeIf t.freezable x) := by
  have special : ("toImmutable", Protocol.frozenToImmutable) ∈ Protocol.freezableMethods :=
    .tail _ (.head _)
  have root : ("toImmutable", Protocol.toImmutableMethod) ∈ Protocol.methods := by
    simp [Protocol.methods]
  exact yields_either declares settles live unsealed found special root (by decide) ⟨rfl, rfl⟩ given
    unbound (Protocol.eval_toImmutable (settles.marks.arena_eq ▸ live) t.freezable)

end Calls

theorem World.setField_refused_iff {values : List Slot} (live : w.arena.get? x = some object)
    (held : object.payload = .fields values) (filled : values ≠ []) :
    (∃ f, (w.setField x 0 .null).1 = .error f) ↔ object.frozen = true := by
  have sound : ∀ k, Slot.null = .handle k → w.arena.contains k = true := by
    intro k same
    cases same
  have accepted := setField_ok_iff live held 0 sound
  rw [and_iff_right (List.length_pos_iff.mpr filled)] at accepted
  rw [← Bool.not_eq_false, ← accepted]
  cases (w.setField x 0 .null).1 <;> simp

namespace Machine

variable {α : Type} {options : Options} {sink : Sink} {program : Program α} {m : Machine α}

theorem Trail.freezes_of_frozen {passed : List (Machine α)}
    (trail : Trail r (start options sink program) passed m)
    (live : m.world.arena.get? x = some object) (frozen : object.frozen = true) :
    ∃ k ∈ passed, k.Freezes x := by
  have dead : (start options sink program).world.arena.get? x = none := Arena.get?_empty _ _ x
  obtain ⟨late, maker, early, first, rfl, -, unfrozen, evolves⟩ :=
    trail.origin (coherent_initial options sink) dead live
  rcases evolves.frozen_iff.mp frozen with before | ⟨k, member, freezes⟩
  · cases unfrozen.symm.trans before
  · exact ⟨k, List.mem_append_left _ member, freezes⟩

theorem trail_frozen (freezable : Bool) :
    ∃ (r : Registry) (made : List (TypeId × TypeDeclaration)) (t : ObjectType)
      (passed : List (Machine Handle)) (m : Machine Handle),
      r.Declares made ∧ r.get? 4 = some t ∧ t.freezable = freezable ∧
        (∀ a d, (a, d) ∈ made → d.methods = .empty) ∧
        Trail r (start {} .reliable (Host.instantiate 4)) passed m ∧
          m.world.arena.get? ⟨0, 0⟩ = some ⟨1, 4, true, .fields [.null]⟩ ∧
            ∀ a f, m.world.progressOf a ≠ some (.failed f) := by
  let shape : TypeDeclaration := { name := "Shape", fields := 1, freezable := freezable }
  let root := Registry.builtin .object "Obj" none MethodTable.empty.install
  let t := Registry.declared 4 root shape
  let r : Registry := Registry.initial.add t
  let ready := ((World.initial {} .reliable).note 0 .done).note 4 .done
  let filled := ready.withArena (ready.arena.place 4 (.fields [.null]))
  let frozen := filled.withArena
    (filled.arena.modify ⟨0, 0⟩ fun object => { object with frozen := true })
  have registered : Registry.initial.register shape = (.ok 4, r) := rfl
  have chain : r.chain 4 = [0, 4] := by cases freezable <;> decide +kernel
  have type : World.instanceType r 4 = .ok t := rfl
  have served : (World.initial {} .reliable).serve r (.instantiate 4) .ofExcept =
      .proceed filled (Program.ofExcept (.ok ⟨0, 0⟩)) := by
    simp only [World.serve, type, chain]
    cases freezable <;> rfl
  have makes : (start {} .reliable (Host.instantiate 4)).step r =
      .running (.outer filled (Program.ofExcept (.ok ⟨0, 0⟩))) := congrArg Action.atBase served
  let freezing : Machine Handle := .outer filled (.ask (.freeze ⟨0, 0⟩) fun _ => .abort)
  have freezes : freezing.step r = .running (.outer frozen .abort) := rfl
  refine ⟨r, [(4, shape)], t, _, .outer frozen .abort, .register .initial registered, rfl,
    Bool.or_false _, ?_, (Trail.step .refl makes (.outer filled _ _)).step freezes (.refl _), rfl,
    ?_⟩
  · intro a d member
    cases List.mem_singleton.mp member
    rfl
  · intro a f failed
    change ready.progressOf a = some (.failed f) at failed
    rw [World.progressOf_note, World.progressOf_note] at failed
    split at failed
    · cases failed
    · split at failed <;> cases failed

/-- An object reports that it is immutable just if it refuses writes and its type can be frozen. So
the report is right for every object of such a type, and for every other object that nothing asked
to be frozen. -/
theorem run_reports_immutability (declares : r.Declares made) {passed : List (Machine α)}
    (trail : Trail r (start options sink program) passed m)
    (live : m.world.arena.get? x = some object) {values : List Slot}
    (held : object.payload = .fields values) (filled : values ≠ [])
    (unbound : ∀ a ∈ r.chain object.type, ∀ d, (a, d) ∈ made →
      d.methods.get? "isImmutable" = none)
    (unfailed : ∀ a ∈ r.chain object.type, ∀ f, m.world.progressOf a ≠ some (.failed f)) :
    ∃ t reported, r.get? object.type = some t ∧
      (∀ entrance : Trap.Entrance, entrance.given m.world = .ok ("isImmutable", []) →
        (entrance.program x).Yields r m.world (.value (.bool reported))
          (m.world.settle (r.chain object.type))) ∧
      (reported = true ↔
        t.freezable = true ∧ ∃ f, (m.world.setField x 0 .null).1 = .error f) ∧
      (t.freezable = true ∨ (∀ k ∈ passed, ¬ k.Freezes x) →
        (reported = true ↔ ∃ f, (m.world.setField x 0 .null).1 = .error f)) := by
  have fits := trail.run.fits x object live
  rw [held] at fits
  obtain ⟨unsealed, t, found, -⟩ := fits
  have settles := World.settles_of_unfailed trail.run.instancesInitialized declares.built.tree live
    unfailed
  have refused := World.setField_refused_iff live held filled
  refine ⟨t, t.freezable && object.frozen, found, fun entrance given =>
    yields_isImmutable declares settles live unsealed found given unbound, ?_, ?_⟩
  · rw [refused, Bool.and_eq_true]
  · rw [refused, Bool.and_eq_true]
    rintro (freezable | unasked)
    · exact and_iff_right freezable
    -- Without a request to freeze it the object takes writes, whatever its type is.
    · refine ⟨And.right, fun frozen => ?_⟩
      obtain ⟨k, member, freezes⟩ := trail.freezes_of_frozen live frozen
      exact absurd freezes (unasked k member)

theorem run_reports_immutability_frozen :
    ∃ (r : Registry) (passed : List (Machine Handle)) (m : Machine Handle) (u : World),
      Trail r (start {} .reliable (Host.instantiate 4)) passed m ∧
        (Trap.dispatch ⟨0, 0⟩ "isImmutable" none).Yields r m.world (.value (.bool true)) u ∧
          ∃ f, (m.world.setField ⟨0, 0⟩ 0 .null).1 = .error f := by
  obtain ⟨r, made, t, passed, m, declares, found, freezable, bare, trail, live, unfailed⟩ :=
    trail_frozen true
  obtain ⟨s, reported, same, reports, -, agrees⟩ := run_reports_immutability declares trail live rfl
    (by decide) (fun a _ d declaration => by rw [bare a d declaration]; rfl)
    (fun a _ f => unfailed a f)
  cases found.symm.trans same
  have refused : ∃ f, (m.world.setField ⟨0, 0⟩ 0 .null).1 = .error f :=
    (World.setField_frozen live rfl 0 .null).imp fun f failed => by rw [failed]
  rw [(agrees (.inl freezable)).mpr refused] at reports
  exact ⟨r, passed, m, _, trail, reports (.forwarding "isImmutable" none) rfl, refused⟩

/-- An instance of a type that says nothing of freezing. It was frozen all the same, so it refuses
writes but reports that it is mutable. -/
theorem frozen_reports_mutable :
    ∃ (r : Registry) (made : List (TypeId × TypeDeclaration)) (t : ObjectType)
      (passed : List (Machine Handle)) (m : Machine Handle) (u : World) (object : Object),
      r.Declares made ∧ r.get? object.type = some t ∧ t.freezable = false ∧
        (∀ a d, (a, d) ∈ made → d.methods.get? "isImmutable" = none) ∧
        Trail r (start {} .reliable (Host.instantiate 4)) passed m ∧
          m.world.arena.get? ⟨0, 0⟩ = some object ∧ object.payload = .fields [.null] ∧
            (∀ a f, m.world.progressOf a ≠ some (.failed f)) ∧
            (Trap.dispatch ⟨0, 0⟩ "isImmutable" none).Yields r m.world (.value (.bool false)) u ∧
              ∃ f, (m.world.setField ⟨0, 0⟩ 0 .null).1 = .error f := by
  obtain ⟨r, made, t, passed, m, declares, found, plain, bare, trail, live, unfailed⟩ :=
    trail_frozen false
  have settles := World.settles_of_unfailed trail.run.instancesInitialized declares.built.tree live
    fun a _ f => unfailed a f
  have unbound (a : TypeId) (d : TypeDeclaration) (declaration : (a, d) ∈ made) :
      d.methods.get? "isImmutable" = none := by
    rw [bare a d declaration]
    rfl
  have given : (Trap.Entrance.forwarding "isImmutable" none).given m.world =
      .ok ("isImmutable", []) := rfl
  have yields := yields_isImmutable declares settles live (by decide) found given
    fun a _ d declaration => unbound a d declaration
  rw [plain] at yields
  exact ⟨r, made, t, passed, m, _, _, declares, found, plain, unbound, trail, live, rfl, unfailed,
    yields, (World.setField_frozen live rfl 0 .null).imp fun f failed => by rw [failed]⟩

theorem Run.reports_frozen {n : Machine α} {entries later : List Entry} {object' : Object}
    {query : Trap.Entrance} (declares : r.Declares made)
    (run : Run r (start options sink program) entries m)
    (live : m.world.arena.get? x = some object) (frozen : object.frozen = true)
    (unsealed : object.type.isSealed = false) (found : r.get? object.type = some t)
    (freezable : t.freezable = true)
    (unbound : ∀ a ∈ r.chain object.type, ∀ d, (a, d) ∈ made →
      d.methods.get? "isImmutable" = none)
    (onward : Run r m later n) (still : n.world.arena.get? x = some object')
    (unfailed : ∀ a ∈ r.chain object.type, ∀ f, n.world.progressOf a ≠ some (.failed f))
    (asked : query.given n.world = .ok ("isImmutable", [])) :
    (query.program x).Yields r n.world (.value (.bool true))
      (n.world.settle (r.chain object.type)) := by
  obtain ⟨passed, trail⟩ := onward.trail
  have evolves := trail.evolves run.coherent_start live still
  have stays : object'.frozen = true := evolves.frozen_iff.mpr (.inl frozen)
  have type := evolves.type_eq
  rw [← type] at unsealed found unbound unfailed ⊢
  have settles := World.settles_of_unfailed (run.trans onward).instancesInitialized
    declares.built.tree still unfailed
  have yields := yields_isImmutable declares settles still unsealed found asked unbound
  rwa [freezable, stays] at yields

/-- What it is to ask an object of a type to become immutable. The object is the result and nothing
else changes than its mark, which is set if the type or one above it was declared freezable. From
then on an object of such a type reports that it is immutable. -/
theorem run_toImmutable_by_type (declares : r.Declares made) {type : TypeId}
    (user : TypeId.type < type) (found : r.get? type = some t)
    (unbound : ∀ a ∈ r.chain type, ∀ d, (a, d) ∈ made →
      d.methods.get? "isImmutable" = none ∧ d.methods.get? "toImmutable" = none)
    {entries : List Entry} (run : Run r (start options sink program) entries m) :
    (t.descriptor.freezable = true ↔
      ∃ a ∈ r.chain type, ∃ d, (a, d) ∈ made ∧ d.freezable = true) ∧
    ∀ x object, m.world.arena.get? x = some object → object.type = type →
      (∀ a ∈ r.chain type, ∀ f, m.world.progressOf a ≠ some (.failed f)) →
      let after := (m.world.settle (r.chain type)).freezeIf t.freezable x
      (∀ h, after.arena.get? h =
        if h = x then some { object with frozen := t.freezable || object.frozen }
        else m.world.arena.get? h) ∧
      ∀ entrance : Trap.Entrance, entrance.given m.world = .ok ("toImmutable", []) →
        (entrance.program x).Yields r m.world (.value (.handle x)) after ∧
        (t.freezable = true → ∀ (β : Type) (site : Site α β) (next : Outcome Slot → Program β),
          m = site.plug m.world ((entrance.program x).into next) →
          ∀ later n, Run r (site.plug after (next (.value (.handle x)))) later n →
            (∃ object, n.world.arena.get? x = some object) →
            (∀ a ∈ r.chain type, ∀ f, n.world.progressOf a ≠ some (.failed f)) →
            ∀ query : Trap.Entrance, query.given n.world = .ok ("isImmutable", []) →
              (query.program x).Yields r n.world (.value (.bool true))
                (n.world.settle (r.chain type))) := by
  have tree := declares.built.tree
  have unsealed := TypeId.isSealed_of_user user
  refine ⟨declares.freezable_iff unsealed found, ?_⟩
  rintro x object live rfl unfailed after
  have settles := World.settles_of_unfailed run.instancesInitialized tree live unfailed
  have marked := World.get?_freezeIf (settles.marks.arena_eq ▸ live) t.freezable
  refine ⟨fun h => settles.marks.arena_eq ▸ marked h, fun entrance given => ?_⟩
  have yields := yields_toImmutable declares settles live unsealed found given
    fun a member d declaration => (unbound a member d declaration).2
  refine ⟨yields, fun freezable β site next here later n onward stillLive stillUnfailed query
    asked => ?_⟩
  obtain ⟨object', still⟩ := stillLive
  have reached := yields α β site next
  rw [← here] at reached
  obtain ⟨between, toAfter⟩ := reached.run
  have frozen : (t.freezable || object.frozen) = true := by rw [freezable, Bool.true_or]
  have liveAfter : (site.plug after (next (.value (.handle x)))).world.arena.get? x =
      some { object with frozen := t.freezable || object.frozen } := by
    rw [site.world_plug]
    exact (marked x).trans (if_pos rfl)
  have reports := Run.reports_frozen declares (run.trans toAfter) liveAfter frozen unsealed found
    freezable (fun a member d declaration => (unbound a member d declaration).1) onward still
    stillUnfailed asked
  exact reports

theorem run_toImmutable_by_type_inherited :
    ∃ (r : Registry) (made : List (TypeId × TypeDeclaration)) (entries : List Entry)
      (m : Machine Handle) (after : World),
      r.Declares made ∧ Run r (start {} .reliable (Host.instantiate 5)) entries m ∧
        m.world.isFrozen ⟨0, 0⟩ = .ok false ∧
        (Trap.dispatch ⟨0, 0⟩ "toImmutable" none).Yields r m.world (.value (.handle ⟨0, 0⟩)) after ∧
          after.isFrozen ⟨0, 0⟩ = .ok true ∧
            (Trap.dispatch ⟨0, 0⟩ "isImmutable" none).Yields r after (.value (.bool true))
              (after.settle (r.chain 5)) := by
  let point : TypeDeclaration := { name := "Point", fields := 1, freezable := true }
  let deep : TypeDeclaration := { name := "Point3", parent := 4 }
  let root := Registry.builtin .object "Obj" none MethodTable.empty.install
  let first := Registry.declared 4 root point
  let second := Registry.declared 5 first deep
  let above : Registry := Registry.initial.add first
  let r : Registry := above.add second
  let ready := (((World.initial {} .reliable).note 0 .done).note 4 .done).note 5 .done
  let filled := ready.withArena (ready.arena.place 5 (.fields [.null]))
  have pointed : Registry.initial.register point = (.ok 4, above) := rfl
  have deepened : above.register deep = (.ok 5, r) := rfl
  have declares : r.Declares [(5, deep), (4, point)] :=
    .register (.register .initial pointed) deepened
  have chain : r.chain 5 = [0, 4, 5] := by decide +kernel
  have type : World.instanceType r 5 = .ok second := rfl
  have served : (World.initial {} .reliable).serve r (.instantiate 5) .ofExcept =
      .proceed filled (Program.ofExcept (.ok ⟨0, 0⟩)) := by
    simp only [World.serve, type, chain]
    rfl
  have makes : (start {} .reliable (Host.instantiate 5)).step r =
      .running (.outer filled (Program.ofExcept (.ok ⟨0, 0⟩))) := congrArg Action.atBase served
  let given : Trap.Entrance := .forwarding "toImmutable" none
  let m : Machine Handle :=
    Site.plug .outer filled ((given.program ⟨0, 0⟩).into fun _ => .abort)
  have run : Run r (start {} .reliable (Host.instantiate 5)) _ m :=
    Run.step .refl makes (.outer filled _ _)
  have done (a : TypeId) (member : a ∈ r.chain 5) : filled.progressOf a = some .done := by
    change ready.progressOf a = some .done
    rw [chain] at member
    simp only [List.mem_cons, List.not_mem_nil, or_false] at member
    rcases member with rfl | rfl | rfl <;> rfl
  have unfailed (a : TypeId) (member : a ∈ r.chain 5) (f : Fault) :
      filled.progressOf a ≠ some (.failed f) := by
    rw [done a member]
    simp
  have unbound (a : TypeId) (_ : a ∈ r.chain 5) (d : TypeDeclaration)
      (declaration : (a, d) ∈ [(5, deep), (4, point)]) :
      d.methods.get? "isImmutable" = none ∧ d.methods.get? "toImmutable" = none := by
    simp only [List.mem_cons, List.not_mem_nil, or_false, Prod.mk.injEq] at declaration
    rcases declaration with ⟨-, rfl⟩ | ⟨-, rfl⟩ <;> exact ⟨rfl, rfl⟩
  have live : m.world.arena.get? ⟨0, 0⟩ = some ⟨1, 5, false, .fields [.null]⟩ := rfl
  have found : r.get? 5 = some second := rfl
  have freezable : second.freezable = true := rfl
  obtain ⟨-, freezes⟩ := run_toImmutable_by_type declares (by decide) found unbound run
  rw [freezable] at freezes
  obtain ⟨marked, entered⟩ := freezes _ _ live rfl unfailed
  obtain ⟨yields, later⟩ := entered given rfl
  have liveAfter := (marked ⟨0, 0⟩).trans (if_pos rfl)
  refine ⟨r, _, _, m, _, declares, run, rfl, yields, ?_, ?_⟩
  · simp [World.isFrozen, Arena.get_eq_ok_iff.mpr liveAfter, Except.map]
  · refine later rfl Handle .outer (fun _ => .abort) rfl [] _ .refl ⟨_, liveAfter⟩ ?_
      (.forwarding "isImmutable" none) rfl
    intro a member f
    change (filled.settle (r.chain 5)).progressOf a ≠ some (.failed f)
    rw [World.progressOf_settle, done a member]
    simp

end Machine
end ManagedObjects

import ManagedObjects.Proofs.Machine.Calls
import ManagedObjects.Proofs.Machine.Deferral
import ManagedObjects.Proofs.Machine.Identity
import ManagedObjects.Proofs.Machine.Release

namespace ManagedObjects

def Request.name? : Request → Option String
  | call name _ => some name
  | invoke _ name _ => some name
  | _ => none

def Call.receiver? (call : Call) : Option Handle := call.argv.head?.bind Slot.handle?

def Entry.finalized? : Entry → Option Handle
  | initializer _ => none
  | method call => if call.name = Protocol.finalizeName then call.receiver? else none

theorem Entry.finalized?_method {call : Call} {h : Handle}
    (finalizes : finalized? (.method call) = some h) :
    call.name = Protocol.finalizeName ∧ call.receiver? = some h := by
  by_cases named : call.name = Protocol.finalizeName
  · rw [finalized?, if_pos named] at finalizes
    exact ⟨named, finalizes⟩
  · rw [finalized?, if_neg named] at finalizes
    cases finalizes

def finalizers (s : List Suspended) : List Handle := s.filterMap fun x => x.entry.finalized?

theorem finalizers_cons (x : Suspended) (s : List Suspended) :
    finalizers (x :: s) = x.entry.finalized?.toList ++ finalizers s := by
  unfold finalizers
  cases finalizes : x.entry.finalized? <;> simp [finalizes]

section Actions
variable {α : Type} {r : Registry} {w w' : World} {body : Program Slot} {frame : Frame α}
  {h : Handle}

theorem InstancesInitialized.release_enters (initialized : InstancesInitialized r w) (tree : r.Tree)
    {resume : Except Fault Unit → Program α}
    (served : w.serve r (.release h) resume = .enter w' body frame) :
    ∃ call, frame = .method call (.reclaim h resume) := by
  cases releasable : w.releasable h with
  | error f =>
      simp only [World.serve, releasable] at served
      cases served
  | ok object =>
      obtain ⟨found, denoted, admitted⟩ := bind_ok releasable
      have unpinned : ∀ id, found.payload ≠ .typeObject id := by
        intro id payload
        simp [payload] at admitted
      obtain ⟨v, -, ⟨answer, u, -, other⟩ | ⟨call, -, -, same⟩⟩ :=
        initialized.serve_release tree (Arena.get_eq_ok_iff.mp denoted) unpinned resume
      · cases other.symm.trans served
      · cases same.symm.trans served
        exact ⟨call, rfl⟩

theorem InstancesInitialized.finalizes (initialized : InstancesInitialized r w) (tree : r.Tree)
    {request : Request} {resume : request.Answer → Program α}
    (unnamed : request.name? ≠ some Protocol.finalizeName)
    (served : w.serve r request resume = .enter w' body frame)
    (finalizes : frame.entry.finalized? = some h) :
    request = .release h ∧ (∃ object, w.arena.get? h = some object) ∧
      frame.request? = some (.release h) := by
  have sound := initialized.sound_serve tree request resume
  rw [served] at sound
  cases sound with
  | initializer constructs => cases finalizes
  | @method call _ result marks allowed =>
      obtain ⟨named, receiver⟩ := Entry.finalized?_method finalizes
      rcases allowed with ⟨id, invoked⟩ | ⟨⟨q, same, requested⟩, k, args, object, vector, live, -⟩
      · cases invoked
        exact absurd (congrArg some named) unnamed
      · cases same
        rw [Call.receiver?, vector] at receiver
        cases receiver
        cases request with
        | call name argv => exact absurd (congrArg some (requested.1.symm.trans named)) unnamed
        | release released =>
            cases vector.symm.trans requested.2
            obtain ⟨entered, same⟩ := initialized.release_enters tree served
            exact ⟨rfl, ⟨object, live⟩, by rw [same]; rfl⟩
        | _ => exact requested.elim

theorem Frame.finalized?_resume (constructs : frame.suspended.Constructs)
    (result : Except Fault Slot) :
    (frame.resume r w result).entered?.bind Entry.finalized? = none := by
  have sound : (frame.resume r w result).Sound r w none := Frame.sound_resume constructs result
  generalize frame.resume r w result = action at sound ⊢
  cases sound with
  | proceed => rfl
  | abort => rfl
  | initializer => rfl
  | method call marks allowed =>
      rcases allowed with ⟨id, asked⟩ | ⟨⟨q, asked, -⟩, -⟩ <;> cases asked

theorem Frame.resume_finalizer (finalizes : frame.entry.finalized? = some h)
    (waits : frame.request? = some (.release h)) (result : Except Fault Slot) :
    ∃ u p, frame.resume r w result = .proceed u p ∧ u.arena.get? h = none := by
  cases frame with
  | staticInit id pending goal => cases finalizes
  | method call waiting =>
      cases waiting with
      | answer resume => cases waits
      | reclaim k resume =>
          cases waits
          obtain ⟨answer, u, reclaims, delivered⟩ := Return.deliver_reclaim w h resume result
          exact ⟨u, _, delivered, reclaims.dead⟩

end Actions

namespace Machine

variable {α β : Type} {r : Registry} {options : Options} {sink : Sink} {program : Program α}
  {entries : List Entry} {passed : List (Machine α)} {m next : Machine α} {h : Handle}

def asked? : Machine α → Option Request
  | outer _ (.ask request _) => some request
  | inner _ (.ask request _) _ _ => some request
  | _ => none

theorem asked?_ask (site : Site α β) (w : World) (request : Request)
    (resume : request.Answer → Program β) :
    (site.plug w (.ask request resume)).asked? = some request := by
  cases site <;> rfl

def finalizing (m : Machine α) : List Handle := finalizers m.suspended

def finalizes? (r : Registry) (m : Machine α) : Option Handle :=
  (m.entered? r).bind Entry.finalized?

def finalized (r : Registry) (passed : List (Machine α)) : List Handle :=
  passed.filterMap (finalizes? r)

theorem finalized_cons (m : Machine α) (passed : List (Machine α)) :
    finalized r (m :: passed) = (m.finalizes? r).toList ++ finalized r passed := by
  unfold finalized
  cases finalizes : m.finalizes? r <;> simp [finalizes]

@[simp] theorem finalizing_plug (site : Site α β) (w : World) (p : Program β) :
    (site.plug w p).finalizing = finalizers site.suspended := by
  rw [finalizing, site.suspended_plug]

theorem carry_finalizing {site : Site α β} {action : Action β}
    (step : site.carry action = .running next) :
    next.finalizing =
      (action.entered?.bind Entry.finalized?).toList ++ finalizers site.suspended := by
  rcases Site.carry_eq_running step with ⟨u, p, rfl, rfl⟩ | ⟨u, body, frame, rfl, rfl⟩
  · exact finalizing_plug site u p
  · rw [finalizing_plug, site.suspended_enter, finalizers_cons, frame.entry_suspended]
    rfl

theorem carry_entry {site : Site α β} {action : Action β}
    (step : site.carry action = .running next) :
    ∀ x ∈ next.suspended, x ∈ site.suspended ∨ action.entered? = some x.entry := by
  intro x waiting
  rcases Site.carry_eq_running step with ⟨u, p, rfl, rfl⟩ | ⟨u, body, frame, rfl, rfl⟩
  · rw [site.suspended_plug] at waiting
    exact .inl waiting
  · rw [Site.suspended_plug, site.suspended_enter] at waiting
    rcases List.mem_cons.mp waiting with rfl | below
    · exact .inr (congrArg some frame.entry_suspended.symm)
    · exact .inl below

theorem step_entry (step : m.step r = .running next) :
    ∀ x ∈ next.suspended, x ∈ m.suspended ∨ m.entered? r = some x.entry := by
  rcases step_cases step with
    ⟨β, site, w, request, resume, rfl⟩ | ⟨β, site, w, frame, result, rfl⟩
  · rw [site.step_ask] at step
    rw [site.suspended_plug, site.entered?_ask]
    exact carry_entry step
  · rw [site.step_ended] at step
    rw [Site.suspended_plug, site.suspended_enter, site.entered?_ended]
    exact fun x waiting => (carry_entry step x waiting).imp_left (.tail _)

def FinalizersAwaited (m : Machine α) : Prop :=
  ∀ x ∈ m.suspended, ∀ h, x.entry.finalized? = some h →
    x.request? = some (.release h) ∧ m.world.arena.Issued h

/-- The running code does not ask for a finalizer by name. -/
def SparesFinalizers (m : Machine α) : Prop :=
  ∀ request, m.asked? = some request → request.name? ≠ some Protocol.finalizeName

theorem SparesFinalizers.of_unnamed {request : Request} (asked : m.asked? = some request)
    (unnamed : request.name? = none) : m.SparesFinalizers := by
  intro other same
  cases asked.symm.trans same
  rw [unnamed]
  exact fun named => by cases named

theorem Run.step_finalizes (tree : r.Tree) (run : Run r (start options sink program) entries m)
    (spares : m.SparesFinalizers) (step : m.step r = .running next)
    (finalizes : m.finalizes? r = some h) :
    m.asked? = some (.release h) ∧ (∃ object, m.world.arena.get? h = some object) ∧
      ∃ x, next.suspended = x :: m.suspended ∧ x.entry.finalized? = some h ∧
        x.request? = some (.release h) := by
  have initialized := run.instancesInitialized
  have constructs := run.constructs tree
  rcases step_cases step with
    ⟨β, site, w, request, resume, rfl⟩ | ⟨β, site, w, frame, result, rfl⟩
  · rw [site.step_ask] at step
    rw [finalizes?, site.entered?_ask] at finalizes
    rw [site.world_plug] at initialized
    rcases Site.carry_eq_running step with ⟨u, p, served, rfl⟩ | ⟨u, body, frame, served, rfl⟩
    · rw [served] at finalizes
      cases finalizes
    · rw [served] at finalizes
      have unnamed := spares request (asked?_ask site w request resume)
      obtain ⟨rfl, live, waits⟩ := initialized.finalizes tree unnamed served finalizes
      refine ⟨asked?_ask site w _ resume, by rwa [site.world_plug], frame.suspended, ?_, ?_, ?_⟩
      · rw [Site.suspended_plug, site.suspended_enter, site.suspended_plug]
      · rwa [frame.entry_suspended]
      · rwa [frame.request?_suspended]
  · rw [finalizes?, Site.entered?_ended, Frame.finalized?_resume (constructs _ (by simp))]
      at finalizes
    cases finalizes

theorem Run.step_finalizersAwaited (tree : r.Tree)
    (run : Run r (start options sink program) entries m) (spares : m.SparesFinalizers)
    (awaited : m.FinalizersAwaited) (step : m.step r = .running next) :
    next.FinalizersAwaited := by
  have coherent := run.coherent_start
  have issued {h : Handle} (before : m.world.arena.Issued h) : next.world.arena.Issued h :=
    ((Run.step .refl step (.refl next)).issued_and_live_before coherent before).1
  intro x waiting h finalizes
  cases entered : m.finalizes? r with
  | none =>
      rcases step_entry step x waiting with below | new
      · exact (awaited x below h finalizes).imp_right issued
      · rw [finalizes?, new, Option.bind_some, finalizes] at entered
        cases entered
  | some k =>
      obtain ⟨-, ⟨object, live⟩, y, stack, top, waits⟩ :=
        run.step_finalizes tree spares step entered
      rw [stack] at waiting
      rcases List.mem_cons.mp waiting with rfl | below
      · cases top.symm.trans finalizes
        exact ⟨waits, issued (coherent.formed.issued live)⟩
      · exact (awaited x below h finalizes).imp_right issued

theorem Run.step_finalizing (tree : r.Tree) (run : Run r (start options sink program) entries m)
    (awaited : m.FinalizersAwaited) (step : m.step r = .running next) :
    next.finalizing = (m.finalizes? r).toList ++ m.finalizing ∨
      m.finalizes? r = none ∧ ∃ h, m.finalizing = h :: next.finalizing ∧
        m.world.arena.Issued h ∧ next.world.arena.get? h = none := by
  have constructs := run.constructs tree
  rcases step_cases step with
    ⟨β, site, w, request, resume, rfl⟩ | ⟨β, site, w, frame, result, rfl⟩
  · rw [site.step_ask] at step
    rw [finalizes?, site.entered?_ask, finalizing_plug]
    exact .inl (carry_finalizing step)
  · have quiet := Frame.finalized?_resume (r := r) (w := w) (constructs frame.suspended (by simp))
      result
    rw [Site.step_ended] at step
    have after := carry_finalizing step
    rw [quiet] at after
    rw [finalizes?, Site.entered?_ended, quiet, after, finalizing_plug, site.suspended_enter,
      finalizers_cons, frame.entry_suspended]
    cases finalizes : frame.entry.finalized? with
    | none => exact .inl rfl
    | some h =>
        obtain ⟨waits, issued⟩ := awaited frame.suspended (by simp) h
          (by rwa [frame.entry_suspended])
        rw [frame.request?_suspended] at waits
        obtain ⟨u, p, resumed, dead⟩ := Frame.resume_finalizer (r := r) (w := w) finalizes waits
          result
        rw [resumed, site.carry_proceed] at step
        cases step
        exact .inr ⟨rfl, h, rfl, issued, by rwa [site.world_plug]⟩

theorem Recoded.suspended_eq (recoded : Recoded m next) : next.suspended = m.suspended :=
  congrArg Configuration.suspended recoded.configuration_eq

namespace Trail

theorem finalizersAwaited (tree : r.Tree) (trail : Trail r (start options sink program) passed m)
    (spares : ∀ k ∈ passed, k.SparesFinalizers) : m.FinalizersAwaited := by
  induction trail with
  | refl => exact fun x waiting => absurd waiting List.not_mem_nil
  | @step passed n next other trail step recoded ih =>
      obtain ⟨spared, earlier⟩ := List.forall_mem_cons.mp spares
      have awaited := trail.run.step_finalizersAwaited tree spared (ih earlier) step
      rwa [FinalizersAwaited, recoded.suspended_eq, recoded.world_eq]

/-- The finalizers of an object that were ever entered are those on the stack, unless the object is
gone. -/
theorem count_finalized (tree : r.Tree) (trail : Trail r (start options sink program) passed m)
    (spares : ∀ k ∈ passed, k.SparesFinalizers) (h : Handle) :
    (finalized r passed).count h = m.finalizing.count h ∨
      m.world.arena.Issued h ∧ m.world.arena.get? h = none := by
  induction trail with
  | refl => exact .inl rfl
  | @step passed n next other trail step recoded ih =>
      obtain ⟨-, earlier⟩ := List.forall_mem_cons.mp spares
      have coherent := trail.run.coherent_start
      have onward := Run.step .refl step recoded
      have issued (before : n.world.arena.Issued h) : other.world.arena.Issued h :=
        (onward.issued_and_live_before coherent before).1
      -- Only the end of a finalizer could part the two counts, and then its object is gone.
      rcases ih earlier with same | ⟨given, dead⟩
      · have awaited := trail.finalizersAwaited tree earlier
        have stack : other.finalizing = next.finalizing :=
          congrArg finalizers recoded.suspended_eq
        rw [finalized_cons, stack]
        rcases trail.run.step_finalizing tree awaited step with
          grown | ⟨quiet, k, popped, given, dead⟩
        · rw [grown, List.count_append, List.count_append, same]
          exact .inl rfl
        · rw [quiet, Option.toList_none, List.nil_append, same, popped]
          by_cases other : k = h
          · subst other
            exact .inr ⟨issued given, by rwa [recoded.world_eq]⟩
          · exact .inl (List.count_cons_of_ne other)
      · exact .inr ⟨issued given, onward.still_dead coherent given dead⟩

theorem count_finalized_of_live (tree : r.Tree)
    (trail : Trail r (start options sink program) passed m)
    (spares : ∀ k ∈ passed, k.SparesFinalizers) {object : Object}
    (live : m.world.arena.get? h = some object) :
    (finalized r passed).count h = m.finalizing.count h := by
  rcases trail.count_finalized tree spares h with same | ⟨-, dead⟩
  · exact same
  · cases live.symm.trans dead

theorem finalizes (tree : r.Tree) (trail : Trail r (start options sink program) passed m)
    (spares : ∀ k ∈ passed, k.SparesFinalizers) {k : Machine α} (member : k ∈ passed)
    (finalizes : k.finalizes? r = some h) :
    k.asked? = some (.release h) ∧ (∃ object, k.world.arena.get? h = some object) ∧
      h ∈ madeHandles r passed := by
  induction trail with
  | refl => cases member
  | @step passed n next other trail step recoded ih =>
      obtain ⟨spared, earlier⟩ := List.forall_mem_cons.mp spares
      have grown : madeHandles r passed ⊆ madeHandles r (n :: passed) := by
        intro k made
        rw [madeHandles, List.reverse_cons, List.filterMap_append]
        exact List.mem_append_left _ made
      rcases List.mem_cons.mp member with rfl | before
      · obtain ⟨asks, ⟨object, live⟩, -⟩ := trail.run.step_finalizes tree spared step finalizes
        exact ⟨asks, ⟨object, live⟩, grown (trail.chronicled.idxOf_eq live).1⟩
      · obtain ⟨asks, live, made⟩ := ih earlier before
        exact ⟨asks, live, grown made⟩

theorem count_finalized_le_one (tree : r.Tree)
    (trail : Trail r (start options sink program) passed m)
    (spares : ∀ k ∈ passed, k.SparesFinalizers)
    (unnested : ∀ k ∈ passed, k.asked? = some (.release h) → h ∉ k.finalizing) :
    (finalized r passed).count h ≤ 1 := by
  induction trail with
  | refl => exact Nat.zero_le 1
  | @step passed n next other trail step recoded ih =>
      obtain ⟨spared, earlier⟩ := List.forall_mem_cons.mp spares
      obtain ⟨new, old⟩ := List.forall_mem_cons.mp unnested
      have before := ih earlier old
      rw [finalized_cons]
      cases entered : n.finalizes? r with
      | none => exact before
      | some k =>
          obtain ⟨asks, ⟨object, live⟩, -⟩ := trail.run.step_finalizes tree spared step entered
          by_cases same : k = h
          · subst same
            have first : (finalized r passed).count k = 0 := by
              rw [trail.count_finalized_of_live tree earlier live]
              exact List.count_eq_zero.mpr (new asks)
            exact Nat.le_of_eq (List.count_cons_self.trans (congrArg Nat.succ first))
          · exact Nat.le_trans (Nat.le_of_eq (List.count_cons_of_ne same)) before

end Trail

/-- How often objects are finalized, where nothing but releases calls finalizers. A finalizer is
entered only by the release of a live object, and objects have different handles. As long as an
object is live, its finalizer was entered just as often as it is on the stack now, so that it is
entered again only from within itself. So it is entered at most once for an object of which no
release is asked for while its finalizer is running. -/
theorem run_finalizes (built : r.Built) (trail : Trail r (start options sink program) passed m)
    (spares : ∀ k ∈ passed, k.SparesFinalizers) :
    (∀ k ∈ passed, ∀ h, k.finalizes? r = some h → k.asked? = some (.release h) ∧
      (∃ object, k.world.arena.get? h = some object) ∧ h ∈ madeHandles r passed) ∧
    (madeHandles r passed).Nodup ∧
    (∀ h object, m.world.arena.get? h = some object →
      (finalized r passed).count h = m.finalizing.count h) ∧
    ∀ h, (∀ k ∈ passed, k.asked? = some (.release h) → h ∉ k.finalizing) →
      (finalized r passed).count h ≤ 1 := by
  have tree := built.tree
  refine ⟨fun k member h finalizes => trail.finalizes tree spares member finalizes,
    trail.chronicled.nodup, fun h object live => ?_, fun h unnested => ?_⟩
  · exact trail.count_finalized_of_live tree spares live
  · exact trail.count_finalized_le_one tree spares unnested

theorem trail_self_release :
    ∃ (r : Registry) (first second : List (Machine Unit)) (m n : Machine Unit) (h : Handle),
      r.Built ∧
        Trail r (start {} .reliable (Host.instantiate 4 >>= Host.release)) first m ∧
        (∀ k ∈ first, k.SparesFinalizers) ∧ finalized r first = [h] ∧
        (∀ k ∈ first, k.asked? = some (.release h) → h ∉ k.finalizing) ∧
        Trail r (start {} .reliable (Host.instantiate 4 >>= Host.release)) second n ∧
        (∀ k ∈ second, k.SparesFinalizers) ∧ finalized r second = [h, h] := by
  let finalizer : Method := Protocol.ofReceiver fun this => do
    let seen ← Native.getField this 0
    if seen.isNull then
      Native.setField this 0 (.bool true)
      Host.release this
    pure .null
  let widget : TypeDeclaration :=
    { name := "Widget", fields := 1
      methods := MethodTable.empty.insert Protocol.finalizeName finalizer }
  let root := Registry.builtin .object "Obj" none MethodTable.empty.install
  let r : Registry := Registry.initial.add (Registry.declared 4 root widget)
  have registered : Registry.initial.register widget = (.ok 4, r) := rfl
  have built : r.Built := .register .initial registered
  have chain : r.chain 4 = [0, 4] := by decide +kernel
  have type : World.instanceType r 4 = .ok (Registry.declared 4 root widget) := rfl
  have resolved : r.resolve? 4 Protocol.finalizeName = some (4, finalizer) := by
    rw [Registry.resolve?, built.tree.ancestors_eq (show r.get? 4 = some _ from rfl)]
    rfl
  let h : Handle := ⟨0, 0⟩
  let call : Call := ⟨finalizer, Protocol.finalizeName, [.handle h]⟩
  let settled := ((World.initial {} .reliable).note 0 .done).note 4 .done
  let made := settled.withArena (settled.arena.place 4 (.fields [.null]))
  let marked := made.withArena
    (made.arena.modify h fun object => { object with payload := .fields [.bool true] })
  let ends : Except Fault Unit → Program Slot := fun answer =>
    Program.ofExcept answer >>= fun _ => pure .null
  let base : Frame Unit := .method call (.reclaim h .ofExcept)
  let making : Machine Unit := start {} .reliable (Host.instantiate 4 >>= Host.release)
  let releasing : Machine Unit := .outer made (Host.release h)
  let entered : Machine Unit := .inner made (call.method.body call.argv) [] base
  let marking : Machine Unit := .inner made
    (Native.setField h 0 (.bool true) >>= fun _ => .ask (.release h) ends) [] base
  let again : Machine Unit := .inner marked (.ask (.release h) ends) [] base
  have instantiated : (World.initial {} .reliable).serve r (.instantiate 4)
      (fun answer => Program.ofExcept answer >>= Host.release) =
        .proceed made (Host.release h) := by
    simp only [World.serve, type, chain]
    rfl
  have served {γ : Type} (w : World) (resume : Except Fault Unit → Program γ)
      (live : w = made ∨ w = marked) : w.serve r (.release h) resume =
        .enter w (call.method.body call.argv) (.method call (.reclaim h resume)) := by
    rcases live with rfl | rfl
    all_goals
      change Goal.prepare r _ _ (r.chain 4) = _
      rw [chain]
      change Goal.call r _ 4 Protocol.finalizeName [.handle h] _ = _
      simp only [Goal.call, resolved]
      rfl
  have outward := served made .ofExcept (.inl rfl)
  have inward := served marked ends (.inr rfl)
  have makes : making.step r = .running releasing := congrArg Action.atBase instantiated
  have enters : releasing.step r = .running entered := congrArg Action.atBase outward
  have looks : entered.step r = .running marking := rfl
  have marks : marking.step r = .running again := rfl
  have reenters : again.step r = .running _ := congrArg (Action.within [] base) inward
  have first : Trail r making [releasing, making] entered :=
    .step (.step .refl makes (.refl _)) enters (.refl _)
  have second := ((first.step looks (.refl _)).step marks (.refl _)).step reenters (.refl _)
  have none₁ : making.finalizes? r = none :=
    congrArg (fun action => action.entered?.bind Entry.finalized?) instantiated
  have some₁ : releasing.finalizes? r = some h :=
    congrArg (fun action => action.entered?.bind Entry.finalized?) outward
  have some₂ : again.finalizes? r = some h :=
    congrArg (fun action => action.entered?.bind Entry.finalized?) inward
  have once : finalized r [releasing, making] = [h] := by
    rw [finalized_cons, finalized_cons, none₁, some₁]
    rfl
  have spares : ∀ k ∈ [releasing, making], k.SparesFinalizers :=
    List.forall_mem_cons.mpr ⟨.of_unnamed rfl rfl, List.forall_mem_singleton.mpr
      (.of_unnamed rfl rfl)⟩
  have sparing : ∀ k ∈ again :: marking :: entered :: [releasing, making], k.SparesFinalizers :=
    List.forall_mem_cons.mpr ⟨.of_unnamed rfl rfl, List.forall_mem_cons.mpr ⟨.of_unnamed rfl rfl,
      List.forall_mem_cons.mpr ⟨.of_unnamed rfl rfl, spares⟩⟩⟩
  have unnested : ∀ k ∈ [releasing, making], k.asked? = some (.release h) → h ∉ k.finalizing := by
    refine List.forall_mem_cons.mpr ⟨?_, List.forall_mem_singleton.mpr ?_⟩
    all_goals exact fun _ => List.not_mem_nil
  refine ⟨r, _, _, _, _, h, built, first, spares, once, unnested, second, sparing, ?_⟩
  rw [finalized_cons, finalized_cons, finalized_cons, once, some₂]
  rfl

theorem run_finalizes_once :
    ∃ (r : Registry) (passed : List (Machine Unit)) (m : Machine Unit) (h : Handle),
      r.Built ∧ Trail r (start {} .reliable (Host.instantiate 4 >>= Host.release)) passed m ∧
        (∀ k ∈ passed, k.SparesFinalizers) ∧ finalized r passed = [h] ∧
        (∀ k ∈ passed, k.asked? = some (.release h) → h ∉ k.finalizing) ∧
        (finalized r passed).count h ≤ 1 := by
  obtain ⟨r, passed, -, m, -, h, built, trail, spares, once, unnested, -⟩ := trail_self_release
  obtain ⟨-, -, -, bounded⟩ := run_finalizes built trail spares
  exact ⟨r, passed, m, h, built, trail, spares, once, unnested, bounded h unnested⟩

/-- The object whose finalizer releases it, when the finalizer is entered again. -/
theorem finalized_twice :
    ∃ (r : Registry) (passed : List (Machine Unit)) (m : Machine Unit) (h : Handle),
      r.Built ∧ Trail r (start {} .reliable (Host.instantiate 4 >>= Host.release)) passed m ∧
        (∀ k ∈ passed, k.SparesFinalizers) ∧ (finalized r passed).count h = 2 := by
  obtain ⟨r, -, passed, -, m, h, built, -, -, -, -, trail, spares, twice⟩ := trail_self_release
  refine ⟨r, passed, m, h, built, trail, spares, ?_⟩
  rw [twice]
  simp

end Machine
end ManagedObjects

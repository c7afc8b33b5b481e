import ManagedObjects.Proofs.Machine.Initialization
import ManagedObjects.Proofs.Machine.Site

namespace ManagedObjects

/-- What a release makes of the state that the finalizer has left. The object is reclaimed if it is
still there. If it is not, the release fails and the state stays as it is. -/
structure World.Reclaims (h : Handle) (w : World) (answer : Except Fault Unit) (w' : World) :
    Prop where
  outcome : (∃ object, w.arena.get? h = some object) ∧ answer = .ok () ∧
      w' = w.withArena (w.arena.vacate h) ∨
    w.arena.get? h = none ∧ answer = .error (.invalidHandle h) ∧ w' = w
  dead : w'.arena.get? h = none
  others : ∀ k, k ≠ h → w'.arena.get? k = w.arena.get? k

theorem Return.deliver_reclaim {α : Type} (w : World) (h : Handle)
    (resume : Except Fault Unit → Program α) (result : Except Fault Slot) :
    ∃ answer w', w.Reclaims h answer w' ∧
      (reclaim h resume).deliver w result = .proceed w' (resume answer) := by
  simp only [deliver, Action.ofChange]
  cases denoted : w.arena.get? h with
  | none =>
      rw [World.reclaim_dead denoted]
      exact ⟨_, w, ⟨.inr ⟨denoted, rfl, rfl⟩, denoted, fun k _ => rfl⟩, rfl⟩
  | some object =>
      rw [World.reclaim_live denoted]
      have others := Arena.get?_vacate denoted
      refine ⟨_, _, ⟨.inl ⟨⟨object, denoted⟩, rfl, rfl⟩, ?_, fun k differs => ?_⟩, rfl⟩
      · simpa [World.withArena] using others h
      · simpa [World.withArena, differs] using others k

theorem InstancesInitialized.serve_release {α : Type} {r : Registry} {w : World}
    (initialized : InstancesInitialized r w) (tree : r.Tree) {h : Handle} {object : Object}
    (live : w.arena.get? h = some object) (unpinned : ∀ id, object.payload ≠ .typeObject id)
    (resume : Except Fault Unit → Program α) :
    ∃ v, w.Marks v ∧
      ((∃ answer w', v.Reclaims h answer w' ∧
        w.serve r (.release h) resume = .proceed w' (resume answer)) ∨
      ∃ call : Call, call.name = Protocol.finalizeName ∧ call.argv = [.handle h] ∧
        w.serve r (.release h) resume =
          .enter v (call.method.body call.argv) (.method call (.reclaim h resume))) := by
  have releasable : w.releasable h = .ok object := by
    simp only [World.releasable, Arena.get_eq_ok_iff.mpr live, bind, Except.bind]
  simp only [World.serve, releasable]
  have called := Goal.called (r := r) w Protocol.finalizeName [.handle h] (.reclaim h resume)
  generalize Goal.beginCall r w _ _ _ = action at called ⊢
  cases called with
  | @refused v f marks =>
      obtain ⟨answer, w', reclaims, same⟩ := Return.deliver_reclaim v h resume (.error f)
      exact ⟨v, marks, .inl ⟨answer, w', reclaims, same⟩⟩
  | @entered v k args receiver owner m marks vector held resolved accepted =>
      exact ⟨v, marks, .inr ⟨⟨m, Protocol.finalizeName, [.handle h]⟩, rfl, rfl, rfl⟩⟩
  | started _ held member fresh declared =>
      rw [initialized.undeclared tree held member fresh] at declared
      cases declared

namespace Machine

variable {α β : Type} {r : Registry} {options : Options} {sink : Sink} {program : Program α}
  {entries : List Entry} {m : Machine α}

/-- The step with which a release returns to the code that asked for it, from the end of the
finalizer or, if none could be run, from the request itself. -/
def Releases (site : Site α β) (h : Handle) (resume : Except Fault Unit → Program β)
    (last first : Machine α) : Prop :=
  ∃ w answer w', w.Reclaims h answer w' ∧ first = site.plug w' (resume answer) ∧
    ((∃ v, v.Marks w ∧ last = site.plug v (.ask (.release h) resume)) ∨
      ∃ call result, last = (site.enter (.method call (.reclaim h resume))).plug w
        (.ofExcept result))

theorem releases_ended (site : Site α β) (h : Handle) (resume : Except Fault Unit → Program β)
    (call : Call) (w : World) (result : Except Fault Slot) :
    ∃ answer w', w.Reclaims h answer w' ∧
      ((site.enter (.method call (.reclaim h resume))).plug w (.ofExcept result)).step r =
        .running (site.plug w' (resume answer)) := by
  obtain ⟨answer, w', reclaims, same⟩ := Return.deliver_reclaim w h resume result
  refine ⟨answer, w', reclaims, ?_⟩
  rw [Site.step_ended, Frame.resume, same, Site.carry_proceed]

theorem step_release (tree : r.Tree) {site : Site α β} {w : World}
    (initialized : InstancesInitialized r w) {h : Handle} {resume : Except Fault Unit → Program β}
    {object : Object} (live : w.arena.get? h = some object)
    (unpinned : ∀ id, object.payload ≠ .typeObject id) {next : Machine α}
    (step : (site.plug w (.ask (.release h) resume)).step r = .running next) :
    Releases site h resume (site.plug w (.ask (.release h) resume)) next ∨
      ∃ call : Call, call.name = Protocol.finalizeName ∧ call.argv = [.handle h] ∧
        (site.enter (.method call (.reclaim h resume))).Within next := by
  rw [Site.step_ask] at step
  obtain ⟨v, marks, ⟨answer, w', reclaims, served⟩ | ⟨call, named, vector, served⟩⟩ :=
    initialized.serve_release tree live unpinned resume
  · rw [served, Site.carry_proceed] at step
    cases step
    exact .inl ⟨v, answer, w', reclaims, rfl, .inl ⟨w, marks, rfl⟩⟩
  · rw [served, Site.carry_enter] at step
    cases step
    exact .inr ⟨call, named, vector, _, v, call.method.body call.argv, rfl, .here⟩

/-- A release takes what its handle denotes, or nothing. Let code at any place ask for the release
of a live object that is not a type object, in any state of a run. Later in the run the request is
still to be carried out, or the finalizer is still running, or the release has returned, as it does
whenever the finalizer has ended, whatever its result. It returns a value if the object was still
there in the state that the finalizer left, and then it reclaims that object and no other; else it
reports an invalid handle and leaves the state as it is. In every state after the return the handle
is dead. -/
theorem run_release_reclaims (built : r.Built)
    (run : Run r (start options sink program) entries m) {site : Site α β} {w : World} {h : Handle}
    {resume : Except Fault Unit → Program β} {object : Object}
    (asks : m = site.plug w (.ask (.release h) resume)) (live : w.arena.get? h = some object)
    (unpinned : ∀ id, object.payload ≠ .typeObject id) :
    (∀ later n, Run r m later n → n = m ∨
      (∃ call : Call, call.name = Protocol.finalizeName ∧ call.argv = [.handle h] ∧
        (site.enter (.method call (.reclaim h resume))).Within n) ∨
      Passes r m n (Releases site h resume)) ∧
    (∀ call v result, ∃ answer v', v.Reclaims h answer v' ∧
      ((site.enter (.method call (.reclaim h resume))).plug v (.ofExcept result)).step r =
        .running (site.plug v' (resume answer))) ∧
    ∀ n, Passes r m n (Releases site h resume) → n.world.arena.get? h = none := by
  have coherent := run.coherent_start
  have initialized := run.instancesInitialized
  subst asks
  rw [Site.world_plug] at initialized
  refine ⟨fun later n onward => ?_, releases_ended site h resume, ?_⟩
  · rcases onward.head with same | ⟨next, other, rest, step, recoded, onward⟩
    · exact .inl same
    right
    rcases step_release built.tree initialized live unpinned step with
      returns | ⟨call, named, vector, inside⟩
    · exact .inr ⟨_, rest, _, next, other, .refl, step, recoded, onward, returns⟩
    · refine (onward.within_or_left (inside.recoded recoded)).imp
        (fun inside => ⟨call, named, vector, inside⟩) fun passes => ?_
      refine .after (.step .refl step recoded) (passes.imp ?_)
      rintro _ first ⟨v, result, rfl, left⟩
      obtain ⟨answer, v', reclaims, delivered⟩ := Return.deliver_reclaim v h resume result
      rw [Frame.resume, delivered, Site.carry_proceed] at left
      cases left
      exact ⟨v, answer, v', reclaims, rfl, .inr ⟨call, result, rfl⟩⟩
  · rintro n ⟨earlier, later, last, first, other, toLast, step, recoded, onward, releases⟩
    obtain ⟨v, answer, v', reclaims, rfl, -⟩ := releases
    have toOther := toLast.step step recoded
    have issued : (site.plug w (.ask (.release h) resume)).world.arena.Issued h :=
      coherent.formed.issued (by simpa [configuration] using live)
    refine onward.still_dead (toOther.coherent coherent)
      (toOther.issued_and_live_before coherent issued).1 ?_
    rw [recoded.world_eq, Site.world_plug]
    exact reclaims.dead

/-- The finalizer of a string releases the string itself and makes another, which takes its place,
before it fails. The release then reports an invalid handle, and the other string is still there. -/
theorem run_release_reclaims_replaced :
    ∃ (entries later : List Entry) (m n : Machine Handle) (tenant : Object),
      Run .initial (start {} .reliable (Native.createString "text")) entries m ∧
        m.request? = some (.release ⟨0, 0⟩) ∧ Run .initial m later n ∧
        n = .outer n.world (.fail (.invalidHandle ⟨0, 0⟩)) ∧
        n.world.arena.get? ⟨0, 0⟩ = none ∧ n.world.arena.get? ⟨0, 1⟩ = some tenant := by
  let h : Handle := ⟨0, 0⟩
  let call : Call := ⟨Protocol.finalizeMethod, Protocol.finalizeName, [.handle h]⟩
  let answered : Except Fault Unit → Program Handle := fun answer =>
    (fun _ => h) <$> .ofExcept answer
  let outermost : Frame Handle := .method call (.reclaim h answered)
  let inward : Frame Slot := .method call (.reclaim h fun _ => .abort)
  let w := (World.initial {} .reliable).withArena
    ((World.initial {} .reliable).arena.place .string (.text "text"))
  let settled := (w.note 0 .done).note 1 .done
  let vacated := settled.withArena (settled.arena.vacate h)
  let replaced := vacated.withArena (vacated.arena.place .string (.text "tenant"))
  let asking : Machine Handle := .outer w (.ask (.release h) answered)
  let again : Machine Handle := .inner settled (.ask (.release h) fun _ => .abort) [] outermost
  let ended : Machine Handle := .inner settled (.finish (.value .null)) [inward] outermost
  let making : Machine Handle :=
    .inner vacated (.ask (.createString "tenant") fun _ => .abort) [] outermost
  let failing : Machine Handle :=
    .inner replaced (.finish (.fault (.general "failed"))) [] outermost
  have makes : (start {} .reliable (Native.createString "text")).step .initial =
      .running (.outer w (Program.ofExcept (.ok h))) := rfl
  have resolved : Registry.initial.resolve? .string Protocol.finalizeName =
      some (0, Protocol.finalizeMethod) := by
    rw [Registry.resolve?, Registry.ancestors_initial_string]
    rfl
  have served : ∀ {γ : Type} (v : World) (resume : Except Fault Unit → Program γ),
      v = w ∨ v = settled → v.serve .initial (.release h) resume =
        .enter settled (call.method.body call.argv) (.method call (.reclaim h resume)) := by
    rintro γ v resume (rfl | rfl)
    all_goals
      change Goal.prepare .initial _ _ (Registry.initial.chain .string) = _
      rw [Registry.chain_initial_string]
      change Goal.call .initial settled .string Protocol.finalizeName [.handle h] _ = _
      simp only [Goal.call, resolved]
      rfl
  have enters : asking.step .initial = .running _ :=
    congrArg Action.atBase (served w answered (.inl rfl))
  have reenters : again.step .initial = .running _ :=
    congrArg (Action.within [] outermost) (served settled (fun _ => .abort) (.inr rfl))
  have reclaims : ended.step .initial = .running (.inner vacated .abort [] outermost) := rfl
  have replaces : making.step .initial = .running (.inner replaced .abort [] outermost) := rfl
  have returns : failing.step .initial =
      .running (.outer replaced (.fail (.invalidHandle h))) := rfl
  have run : Run .initial (start {} .reliable (Native.createString "text")) _ asking :=
    .step .refl makes (.outer w _ _)
  have first : Run .initial asking _ again := .step .refl enters (.inner settled _ _ [] outermost)
  have second : Run .initial asking _ ended :=
    first.step reenters (.inner settled _ _ [inward] outermost)
  have third : Run .initial asking _ making :=
    second.step reclaims (.inner vacated _ _ [] outermost)
  have fourth : Run .initial asking _ failing :=
    third.step replaces (.inner replaced _ _ [] outermost)
  have onward := fourth.step returns (.refl _)
  have live : w.arena.get? h = some ⟨1, .string, false, .text "text"⟩ := rfl
  have asks : asking = Site.outer.plug w (.ask (.release h) answered) := rfl
  obtain ⟨phases, -, dead⟩ := run_release_reclaims .initial run asks live (by simp)
  refine ⟨_, _, asking, _, ⟨2, .string, false, .text "tenant"⟩, run, rfl, onward, rfl, ?_, rfl⟩
  rcases phases _ _ onward with same | ⟨_, _, _, within⟩ | returned
  · cases (Machine.outer.inj same).2
  · exact absurd rfl within.suspended_ne_nil
  · exact dead _ returned

end Machine
end ManagedObjects

import ManagedObjects.Proofs.Machine.Answers
import ManagedObjects.Proofs.Machine.Calls
import ManagedObjects.Proofs.Machine.Lists
import ManagedObjects.Proofs.Registry.Resolution

namespace ManagedObjects

open Relation

/-- A bound on how often the dispatcher calls itself with these arguments: once if there are none,
else by the number of the list that they are in. -/
def Arena.reentries (a : Arena) : Slot → Nat
  | .null => 1
  | .handle h => (a.get? h).elim 0 fun list => list.id + 1
  | _ => 0

namespace Trap

/-- The dispatcher, which the root type has as a method, runs for the receiver and calls that method
by its name so many times, each time from the call before. At the end it fails, or the last of the
calls is refused, or it asks for another method. -/
inductive Redispatches (r : Registry) (this : Handle) {α : Type} :
    {β : Type} → Site α β → (Outcome Slot → Program β) → Nat → Machine α → Prop
  | fails {β : Type} {site : Site α β} {next : Outcome Slot → Program β} {w : World} {f : Fault}
      {m : Machine α} : ReflTransGen (Machine.Quiet r) m (site.plug w (next (.fault f))) →
        Redispatches r this site next 0 m
  | other {β : Type} {site : Site α β} {next : Outcome Slot → Program β} {w : World}
      {name : String} {args : List Slot} {m : Machine α} : name ≠ "trap" →
        ReflTransGen (Machine.Quiet r) m
          (site.plug w ((Native.call name (.handle this :: args)).into next)) →
        Redispatches r this site next 0 m
  | refused {β : Type} {site : Site α β} {next : Outcome Slot → Program β} {w u : World}
      {args : List Slot} {f : Fault} {m n : Machine α} :
        ReflTransGen (Machine.Quiet r) m n →
        n = site.plug w ((Native.call "trap" (.handle this :: args)).into next) →
        n.step r = .running (site.plug u (next (.fault f))) →
        Redispatches r this site next 1 m
  | again {β : Type} {site : Site α β} {next : Outcome Slot → Program β} {inner : Site α Slot}
      {w u : World} {args : List Slot} {count : Nat} {m n : Machine α} :
        ReflTransGen (Machine.Quiet r) m n →
        n = site.plug w ((Native.call "trap" (.handle this :: args)).into next) →
        n.entered? r = some (.method ⟨Protocol.trapMethod, "trap", .handle this :: args⟩) →
        n.step r = .running (inner.plug u (Protocol.trapMethod.body (.handle this :: args))) →
        Redispatches r this inner .finish count
          (inner.plug u (Protocol.trapMethod.body (.handle this :: args))) →
        Redispatches r this site next (count + 1) m

theorem Redispatches.of_quiet {r : Registry} {this : Handle} {α β : Type} {site : Site α β}
    {next : Outcome Slot → Program β} {count : Nat} {m n : Machine α}
    (quiet : ReflTransGen (Machine.Quiet r) m n) (onward : Redispatches r this site next count n) :
    Redispatches r this site next count m := by
  cases onward with
  | fails observed => exact .fails (quiet.trans observed)
  | other differs observed => exact .other differs (quiet.trans observed)
  | refused observed asks step => exact .refused (quiet.trans observed) asks step
  | again observed asks entered step inner =>
      exact .again (quiet.trans observed) asks entered step inner

variable {r : Registry} {w : World} {name args : Slot} {method : String} {items : List Slot}

theorem given_managed_ok (given : (Entrance.managed name args).given w = .ok (method, items)) :
    args = .null ∧ items = [] ∨ w.readList args = .ok items := by
  obtain ⟨text, -, given⟩ := bind_ok given
  cases args with
  | null =>
      cases given
      exact .inl ⟨rfl, rfl⟩
  | _ =>
      obtain ⟨values, read, given⟩ := bind_ok (x := w.readList _) given
      cases given
      exact .inr read

theorem reentries_pos (given : (Entrance.managed name args).given w = .ok (method, items)) :
    0 < w.arena.reentries args := by
  rcases given_managed_ok given with ⟨rfl, -⟩ | read
  · exact Nat.one_pos
  · obtain ⟨h, list, rfl, live, -⟩ := World.readList_ok read
    simp [Arena.reentries, live]

theorem handle_of_accepts_trap (accepted : Protocol.trapMethod.signature.accepts items = true) :
    ∃ k rest, items = .handle k :: rest := by
  cases items with
  | nil => cases accepted
  | cons first rest =>
      have kind : Kind.handle.accepts first.kind = true :=
        (Signature.fits_of_accepts accepted).2.2 0 .handle first rfl rfl
      obtain ⟨k, rfl⟩ := Kind.eq_handle_of_accepts kind
      exact ⟨k, rest, rfl⟩

theorem reentries_lt {k : Handle} {rest : List Slot} (descending : w.arena.Descending)
    (given : (Entrance.managed name args).given w = .ok (method, .handle k :: rest))
    (live : ∀ h, .handle h ∈ Slot.handle k :: rest → ∃ object, w.arena.get? h = some object) :
    w.arena.reentries (rest[0]?.getD .null) < w.arena.reentries args := by
  rcases given_managed_ok given with ⟨-, none⟩ | read
  · cases none
  obtain ⟨l, list, rfl, present, held⟩ := World.readList_ok read
  have older : ∀ h, .handle h ∈ Slot.handle k :: rest →
      ∃ object, w.arena.get? h = some object ∧ object.id < list.id := by
    intro h member
    obtain ⟨object, denoted⟩ := live h member
    exact ⟨object, denoted, (descending l list _ present held h member).2 object denoted⟩
  obtain ⟨string, -, below⟩ := older k List.mem_cons_self
  simp only [Arena.reentries, present, Option.elim_some]
  cases rest with
  | nil => exact Nat.succ_lt_succ (Nat.zero_lt_of_lt below)
  | cons bundle rest =>
      cases bundle with
      | null => exact Nat.succ_lt_succ (Nat.zero_lt_of_lt below)
      | handle h =>
          obtain ⟨inner, denoted, below⟩ := older h (by simp)
          simpa [denoted] using below
      | _ => exact Nat.succ_pos _

end Trap

namespace Machine

variable {α β : Type} {r : Registry} {options : Options} {sink : Sink} {program : Program α}
  {entries : List Entry} {w : World} {this : Handle} {object : Object} {site : Site α β}
  {next : Outcome Slot → Program β}

theorem Run.call_trap (tree : r.Tree) {args : List Slot}
    (run : Run r (start options sink program) entries
      (site.plug w ((Native.call "trap" (.handle this :: args)).into next)))
    (live : w.arena.get? this = some object)
    (resolved : r.resolve? object.type "trap" = some (.object, Protocol.trapMethod)) :
    Trap.Redispatches r this site next 1
      (site.plug w ((Native.call "trap" (.handle this :: args)).into next)) ∨
    ∃ (later : List Entry) (inner : Site α Slot) (u : World) (k : Handle) (rest : List Slot),
      args = .handle k :: rest ∧ w.Marks u ∧
      Run r (start options sink program) later
        (inner.plug u (Trap.dispatchManaged this (.handle k) (rest[0]?.getD .null))) ∧
      ∀ count, Trap.Redispatches r this inner .finish count
          (inner.plug u (Trap.dispatchManaged this (.handle k) (rest[0]?.getD .null))) →
        Trap.Redispatches r this site next (count + 1)
          (site.plug w ((Native.call "trap" (.handle this :: args)).into next)) := by
  have initialized : InstancesInitialized r w := by simpa using run.instancesInitialized
  obtain ⟨n, step, call⟩ := step_call tree initialized site next "trap" (.handle this :: args)
  generalize entered : entered? r _ = entry at call
  cases call with
  | refused marks => exact .inl (.refused .refl rfl step)
  | @entered u h _ found owner _ frame marks receiver present bound accepted =>
      cases receiver
      cases present.symm.trans live
      cases bound.symm.trans resolved
      obtain ⟨k, rest, rfl⟩ := Trap.handle_of_accepts_trap accepted
      exact .inr ⟨_, site.enter frame, u, k, rest, rfl, marks, run.step step (.refl _),
        fun count onward => .again .refl rfl entered step onward⟩

theorem Run.redispatches (tree : r.Tree) {name args : Slot}
    (run : Run r (start options sink program) entries
      (site.plug w ((Trap.dispatchManaged this name args).into next)))
    (live : w.arena.get? this = some object)
    (resolved : r.resolve? object.type "trap" = some (.object, Protocol.trapMethod)) :
    ∃ count, count ≤ w.arena.reentries args ∧ Trap.Redispatches r this site next count
      (site.plug w ((Trap.dispatchManaged this name args).into next)) := by
  -- The measure is the bound itself: the arguments of a further call allow fewer calls.
  induction bound : w.arena.reentries args using Nat.strongRecOn
    generalizing β entries w site next name args with
  | ind _ ih =>
      subst bound
      have descending : w.arena.Descending := by simpa using run.descending
      obtain ⟨rest, observed, ends⟩ :=
        Trap.forwards_dispatchManaged (r := r) (w := w) this name args
      have quiet := quiet_plug_into site next observed
      rcases ends with ⟨f, rfl⟩ | ⟨method, items, given, rfl, handles⟩
      · exact ⟨0, Nat.zero_le _, .fails quiet⟩
      by_cases same : method = "trap"
      · subst same
        rcases (run.quiet quiet).call_trap tree live resolved with
          ends | ⟨later, inner, u, k, rest, rfl, marks, reached, onward⟩
        · exact ⟨1, Trap.reentries_pos given, ends.of_quiet quiet⟩
        · have fewer : u.arena.reentries (rest[0]?.getD .null) < w.arena.reentries args := by
            rw [marks.arena_eq]
            apply Trap.reentries_lt descending given
            exact fun h member => handles h (List.mem_cons_of_mem _ member)
          rw [← Program.into_finish (Trap.dispatchManaged this _ _)] at reached onward
          obtain ⟨count, few, ends⟩ := ih _ fewer reached (marks.arena_eq ▸ live) rfl
          exact ⟨count + 1, Nat.lt_of_le_of_lt few fewer, (onward count ends).of_quiet quiet⟩
      · exact ⟨0, Nat.zero_le _, .other same quiet⟩

/-- Lists are well founded, so calls of the dispatcher through the dispatcher end. What a live list
holds has a lower number than the list, if it is live, and no list reaches itself through lists.
Where the receiver has the dispatcher from the root type and native code runs it, it calls itself at
most once if the arguments are left out, and else at most as often as the number of the list of the
arguments says and once more; where native code calls it, that call counts as well. At the end there
is a fault or the call of another method. -/
theorem run_trap_chain_ends (built : r.Built) {m : Machine α}
    (run : Run r (start options sink program) entries m) :
    (∀ l list items k element, m.world.arena.get? l = some list → list.payload = .items items →
      .handle k ∈ items → m.world.arena.get? k = some element → element.id < list.id) ∧
    (∀ l, ¬ TransGen m.world.arena.Includes l l) ∧
    ∀ (β : Type) (site : Site α β) (next : Outcome Slot → Program β) (w : World) this object trap,
      w.arena.get? this = some object → r.resolve? object.type "trap" = some (.object, trap) →
      (∀ name more, m = site.plug w ((trap.body (.handle this :: name :: more)).into next) →
        ∃ count, count ≤ w.arena.reentries (more[0]?.getD .null) ∧
          Trap.Redispatches r this site next count m) ∧
      ∀ args, m = site.plug w ((Native.call "trap" (.handle this :: args)).into next) →
        ∃ count, count ≤ w.arena.reentries (args[1]?.getD .null) + 1 ∧
          Trap.Redispatches r this site next count m := by
  have descending := run.descending
  refine ⟨?_, descending.irreflexive, ?_⟩
  · intro l list items k element live held member denoted
    exact (descending l list items live held k member).2 element denoted
  · intro β site next w this object trap live resolved
    obtain rfl := built.tree.root_trap resolved
    constructor
    · rintro name more rfl
      exact run.redispatches built.tree live resolved
    · rintro args rfl
      rcases run.call_trap built.tree live resolved with
        refused | ⟨later, inner, u, k, rest, rfl, marks, reached, onward⟩
      · exact ⟨1, Nat.le_add_left _ _, refused⟩
      · rw [← Program.into_finish (Trap.dispatchManaged this _ _)] at reached onward
        obtain ⟨count, few, ends⟩ :=
          reached.redispatches built.tree (marks.arena_eq ▸ live) resolved
        rw [marks.arena_eq] at few
        exact ⟨count + 1, Nat.succ_le_succ few, onward count ends⟩

theorem run_trap_chain_ends_list :
    ∃ (entries : List Entry) (m : Machine Slot) (w : World) (next : Outcome Slot → Program Slot)
      (count : Nat),
      Run .initial (start {} .reliable do
        let text ← Native.createString "trap"
        let list ← Native.createList [.handle text]
        pure (.handle list)) entries m ∧
      m = Site.outer.plug w ((Protocol.trapMethod.body
        [.handle ⟨0, 0⟩, .handle ⟨0, 0⟩, .handle ⟨1, 0⟩]).into next) ∧
      count ≤ 3 ∧ Trap.Redispatches .initial ⟨0, 0⟩ Site.outer next count m := by
  let program : Program Slot := do
    let text ← Native.createString "trap"
    let list ← Native.createList [.handle text]
    pure (.handle list)
  let argv : List Slot := [.handle ⟨0, 0⟩, .handle ⟨0, 0⟩, .handle ⟨1, 0⟩]
  let empty := World.initial {} .reliable
  let single := empty.withArena (empty.arena.place .string (.text "trap"))
  let full := single.withArena (single.arena.place .list (.items [.handle ⟨0, 0⟩]))
  let listing : Program Slot := do
    let list ← Native.createList [.handle ⟨0, 0⟩]
    pure (.handle list)
  have first : (start {} .reliable program).step .initial = .running (.outer single listing) := rfl
  have second : (Machine.outer single listing).step .initial =
      .running (.outer full (pure (.handle ⟨1, 0⟩))) := rfl
  have run := (Run.step .refl first (.refl _)).step second
    (.outer full _ ((Protocol.trapMethod.body argv).into .finish))
  have live : full.arena.get? ⟨0, 0⟩ = some ⟨1, .string, false, .text "trap"⟩ := rfl
  have resolved : Registry.initial.resolve? .string "trap" =
      some (.object, Protocol.trapMethod) := by
    rw [Registry.resolve?, Registry.ancestors_initial_string]
    rfl
  obtain ⟨-, -, ends⟩ := run_trap_chain_ends .initial run
  obtain ⟨count, few, chain⟩ :=
    (ends _ .outer .finish full _ _ _ live resolved).1 _ [.handle ⟨1, 0⟩] rfl
  exact ⟨_, _, full, .finish, count, run, rfl, few, chain⟩

end Machine
end ManagedObjects

import ManagedObjects.Proofs.Protocol.Failing
import ManagedObjects.Proofs.Text.Reading

namespace ManagedObjects

variable {r : Registry}

theorem Handle.toNat_toBits (h : Handle) : h.toBits.toNat = h.code := by
  have bound := h.code_lt
  rw [toBits, UInt64.toNat_ofNat_of_lt' (Nat.lt_trans bound (by decide))]

theorem Handle.code_inj {h k : Handle} (same : h.code = k.code) : h = k := by
  rw [← h.ofCode_code, same, k.ofCode_code]

theorem Handle.toList_numeral (h : Handle) :
    h.numeral.toList = '0' :: 'x' :: Nat.toDigits 16 h.code := by
  simp [numeral, Text.hex]

/-- The text has the number in hexadecimal before the first mark and the name behind it. -/
def Protocol.Tells (text : String) (number : Nat) (name : String) : Prop :=
  ∃ digits, Text.Hexadecimal number digits ∧
    text.toList.takeWhile (· != '@') = '0' :: 'x' :: digits ∧
    text.toList.dropWhile (· != '@') = '@' :: name.toList

namespace Protocol

theorem Tells.unique {text name other : String} {number count : Nat}
    (tells : Tells text number name) (reads : Tells text count other) :
    number = count ∧ name = other := by
  obtain ⟨digits, numeral, before, after⟩ := tells
  obtain ⟨figures, reading, start, rest⟩ := reads
  rw [start, List.cons.injEq, List.cons.injEq] at before
  rw [rest, List.cons.injEq, String.toList_inj] at after
  obtain ⟨-, -, rfl⟩ := before
  exact ⟨numeral.value.symm.trans reading.value, after.2.symm⟩

theorem toList_identityText (this : Handle) (name : String) :
    (identityText this name).toList = this.numeral.toList ++ '@' :: name.toList := by
  simp [identityText]

theorem tells_identityText (this : Handle) (name : String) :
    Tells (identityText this name) this.code name := by
  have numeral := Text.hexadecimal_toDigits this.code
  have absent : '@' ∉ this.numeral.toList := by
    have unwritten : '@' ∉ Nat.toDigits 16 this.code := fun member =>
      absurd (numeral.digit '@' member) (by decide)
    simp [this.toList_numeral, unwritten]
  refine ⟨_, numeral, ?_, ?_⟩
  · rw [toList_identityText, Text.takeWhile_mark absent, this.toList_numeral]
  · rw [toList_identityText, Text.dropWhile_mark absent]

theorem identityText_inj {this that : Handle} {name other : String}
    (same : identityText this name = identityText that other) : this = that ∧ name = other := by
  have tells := tells_identityText that other
  rw [← same] at tells
  obtain ⟨code, names⟩ := (tells_identityText this name).unique tells
  exact ⟨Handle.code_inj code, names⟩

end Protocol

namespace World

variable {w w' : World} {this h : Handle} {object : Object} {t : ObjectType}

theorem readString_created {text : String} (formed : w.arena.WellFormed)
    (created : w.createString text = (.ok h, w')) : w'.readString (.handle h) = .ok text := by
  obtain ⟨room, rfl, rfl⟩ := allocate_ok created
  have made := formed.get?_place room .string (.text text) w.arena.nextHandle
  rw [if_pos rfl] at made
  simp [readString, Slot.expectHandle, withArena, Arena.get_eq_ok_iff.mpr made, bind, Except.bind]

def Shows (r : Registry) (w : World) (this : Handle) (text : String) : Prop :=
  ∃ h w', (Protocol.toStr this).Answers r w (.value h) w' ∧ w'.readString (.handle h) = .ok text

theorem readString_shown (formed : w.arena.WellFormed) (live : w.arena.get? this = some object)
    (found : r.get? object.type = some t)
    (answers : (Protocol.toStr this).Answers r w (.value h) w') :
    w'.readString (.handle h) = .ok (Protocol.identityText this t.name) := by
  have evaluated := Program.answers_of_eval (Protocol.eval_toStr live found)
  obtain ⟨same, left⟩ := answers.unique evaluated
  cases created : (w.createString (Protocol.identityText this t.name)).1 with
  | error f =>
      rw [created] at same
      cases same
  | ok made =>
      rw [created] at same
      cases same
      exact readString_created formed (Prod.ext created left.symm)

theorem Shows.text_eq {text : String} (shown : w.Shows r this text) (formed : w.arena.WellFormed)
    (live : w.arena.get? this = some object) (found : r.get? object.type = some t) :
    text = Protocol.identityText this t.name := by
  obtain ⟨h, w', answers, read⟩ := shown
  rw [readString_shown formed live found answers] at read
  exact (Except.ok.inj read).symm

end World

namespace Machine

variable {α : Type} {options : Options} {sink : Sink} {program : Program α}
  {entries later : List Entry} {m n : Machine α} {a b : Handle} {x y : Object}

theorem Run.eq_iff (run : Run r (start options sink program) entries m)
    (onward : Run r m later n) (one : m.world.arena.get? a = some x)
    (two : n.world.arena.get? b = some y) : a = b ↔ x.id = y.id := by
  constructor
  · rintro rfl
    exact (onward.denotes run.coherent_start one y two).symm
  · intro same
    -- The number of an object is its place among all that were made, early or late.
    obtain ⟨passed, before⟩ := run.trail
    obtain ⟨between, after⟩ := onward.trail
    have whole : madeHandles r (between ++ passed) =
        madeHandles r passed ++ madeHandles r between := by simp [madeHandles]
    have late := (before.trans after).chronicled
    obtain ⟨i, first, place⟩ := before.chronicled.numbered a x one
    obtain ⟨j, second, spot⟩ := late.numbered b y two
    obtain ⟨bound, -⟩ := List.getElem?_eq_some_iff.mp place
    obtain rfl : i = j := by omega
    rw [whole, List.getElem?_append_left bound, place] at spot
    exact Option.some.inj spot

/-- The text that an object has of itself tells which one it is. In every state of a run, the string
that is made for a live object has the number of its handle in hexadecimal before the first mark and
the name of its type behind it. If two strings are made in one run, each for an object that is live
then, they are the same text just if it is one object. -/
theorem run_texts_identify (built : r.Built) (run : Run r (start options sink program) entries m)
    (one : m.world.arena.get? a = some x) :
    (∃ t, r.get? x.type = some t ∧
      ∀ h w, (Protocol.toStr a).Answers r m.world (.value h) w →
        ∃ text, w.readString (.handle h) = .ok text ∧
          Protocol.Tells text a.toBits.toNat t.name) ∧
    ∀ later n, Run r m later n → ∀ b y, n.world.arena.get? b = some y → ∀ text other,
      m.world.Shows r a text → n.world.Shows r b other → (text = other ↔ x.id = y.id) := by
  have formed := run.coherent_start.formed
  obtain ⟨t, found⟩ := ((run.fits a x one).wellTyped built.tree).registered
  constructor
  · refine ⟨t, found, fun h w answers =>
      ⟨_, World.readString_shown formed one found answers, ?_⟩⟩
    rw [a.toNat_toBits]
    exact Protocol.tells_identityText a t.name
  · intro later n onward b y two text other first second
    have whole := run.trans onward
    obtain ⟨u, known⟩ := ((whole.fits b y two).wellTyped built.tree).registered
    rw [first.text_eq formed one found, second.text_eq whole.coherent_start.formed two known,
      ← run.eq_iff onward one two]
    refine ⟨fun same => (Protocol.identityText_inj same).1, ?_⟩
    -- One object keeps its type, so its text stays the same too.
    rintro rfl
    obtain ⟨object, live, -, type⟩ :=
      (onward.issued_and_live_before run.coherent_start (formed.issued one)).2 y two
    cases one.symm.trans live
    rw [← type, found] at known
    cases known
    rfl

theorem run_texts_identify_tenant :
    ∃ (entries later : List Entry) (m n : Machine Handle),
      Run .initial (start {} .reliable (Native.createString "text")) entries m ∧
        Run .initial m later n ∧ m.world.Shows .initial ⟨0, 0⟩ "0x0@Str" ∧
        n.world.Shows .initial ⟨0, 1⟩ "0x100000000@Str" ∧
        ∀ text other, m.world.Shows .initial ⟨0, 0⟩ text →
          n.world.Shows .initial ⟨0, 1⟩ other → text ≠ other := by
  let h : Handle := ⟨0, 0⟩
  let call : Call := ⟨Protocol.finalizeMethod, Protocol.finalizeName, [.handle h]⟩
  let answered : Except Fault Unit → Program Handle := fun _ => .abort
  let w := (World.initial {} .reliable).withArena
    ((World.initial {} .reliable).arena.place .string (.text "text"))
  let settled := (w.note 0 .done).note 1 .done
  let vacated := settled.withArena (settled.arena.vacate h)
  let replaced := vacated.withArena (vacated.arena.place .string (.text "tenant"))
  let asking : Machine Handle := .outer w (.ask (.release h) answered)
  let ended : Machine Handle :=
    .inner settled (.finish (.value .null)) [] (.method call (.reclaim h answered))
  let making : Machine Handle := .outer vacated (Native.createString "tenant")
  let last : Machine Handle := .outer replaced (Program.ofExcept (.ok ⟨0, 1⟩))
  have makes : (start {} .reliable (Native.createString "text")).step .initial =
      .running (.outer w (Program.ofExcept (.ok h))) := rfl
  have resolved : Registry.initial.resolve? .string Protocol.finalizeName =
      some (0, Protocol.finalizeMethod) := by
    rw [Registry.resolve?, Registry.ancestors_initial_string]
    rfl
  have served : w.serve .initial (.release h) answered =
      .enter settled (call.method.body call.argv) (.method call (.reclaim h answered)) := by
    change Goal.prepare .initial _ _ (Registry.initial.chain .string) = _
    rw [Registry.chain_initial_string]
    change Goal.call .initial settled .string Protocol.finalizeName [.handle h] _ = _
    simp only [Goal.call, resolved]
    rfl
  have enters : asking.step .initial = .running _ := congrArg Action.atBase served
  have reclaims : ended.step .initial = .running (.outer vacated .abort) := rfl
  have replaces : making.step .initial = .running last := rfl
  have run : Run .initial (start {} .reliable (Native.createString "text")) _ asking :=
    .step .refl makes (.outer w _ _)
  have within : Run .initial asking _ ended := .step .refl enters (.inner settled _ _ [] _)
  have onward : Run .initial asking _ last :=
    (within.step reclaims (.outer vacated _ _)).step replaces (.refl _)
  have live : asking.world.arena.get? h = some ⟨1, .string, false, .text "text"⟩ := rfl
  have tenant : last.world.arena.get? ⟨0, 1⟩ = some ⟨2, .string, false, .text "tenant"⟩ := rfl
  obtain ⟨-, identify⟩ := run_texts_identify .initial run live
  refine ⟨_, _, asking, last, run, onward, ⟨_, _, Program.answers_of_eval rfl, rfl⟩,
    ⟨_, _, Program.answers_of_eval rfl, rfl⟩, fun text other shown seen same => ?_⟩
  have number := (identify _ last onward _ _ tenant text other shown seen).mp same
  cases number

end Machine
end ManagedObjects

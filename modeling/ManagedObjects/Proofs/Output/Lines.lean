import ManagedObjects.Proofs.Machine.Coherence
import ManagedObjects.Proofs.Machine.Dispatch
import ManagedObjects.Proofs.Machine.Site
import ManagedObjects.Proofs.Output.Captures
import ManagedObjects.Proofs.Text.Decoding

namespace ManagedObjects

def printed : List String → String
  | [] => ""
  | line :: rest => line ++ "\n" ++ printed rest

theorem printed_append (lines rest : List String) :
    printed (lines ++ rest) = printed lines ++ printed rest := by
  induction lines with
  | nil => simp [printed]
  | cons line lines ih => simp [printed, ih, String.append_assoc]

namespace Sink

def Open (s : Sink) : Prop :=
  ∀ before what, s.refusal? before what = none

variable {s : Sink}

theorem Open.useAll_eq (opened : s.Open) (uses : List SinkUse) :
    s.useAll uses = (.ok (), { s with uses := s.uses ++ uses }) := by
  induction uses generalizing s with
  | nil => rw [useAll, List.append_nil]
  | cons what later ih =>
      have asked : s.use what = (.ok (), { s with uses := s.uses ++ [what] }) := by
        rw [use, opened, Option.elim_none]
      rw [useAll, asked]
      have rest : Sink.useAll { s with uses := s.uses ++ [what] } later = _ := ih opened
      simpa using rest

theorem Open.writeLine_eq (opened : s.Open) (line : String) :
    s.writeLine line = (.ok (), { s with
      uses := s.uses ++ [.write (Text.encode line), .write (Text.encode "\n"), .flush] }) :=
  opened.useAll_eq _

structure Holds (s : Sink) (text : String) : Prop where
  opened : s.Open
  bytes : s.captured.bytes = Text.encode text

theorem Holds.reliable : Sink.reliable.Holds "" where
  opened _ _ := rfl
  bytes := by simp [Sink.reliable, captured, Capture.empty, Text.encode]

theorem Holds.writeLine {text : String} (holds : s.Holds text) (line : String) :
    (s.writeLine line).2.Holds (text ++ printed [line]) := by
  rw [holds.opened.writeLine_eq]
  have bytes := holds.bytes
  refine ⟨holds.opened, ?_⟩
  simp only [captured] at bytes
  simp [captured, Capture.use, Capture.write, bytes, printed, Text.encode_append]

theorem Holds.contents {text : String} (holds : s.Holds text) : s.captured.contents = text := by
  rw [Capture.contents, holds.bytes, Text.decodeLossy_encode]

end Sink

namespace World

theorem sink_writeLine (w : World) (line : String) :
    (w.writeLine line).2.sink = (w.sink.writeLine line).2 := rfl

theorem Marks.sink_eq {w w' : World} (marks : w.Marks w') : w'.sink = w.sink := by
  obtain ⟨progress, rfl⟩ := marks
  rfl

end World

namespace Machine
variable {α : Type} {r : Registry} {m n : Machine α} {passed : List (Machine α)}

def line? (m : Machine α) : Option String :=
  match m.request? with
  | some (.writeLine line) => some line
  | _ => none

def lines (passed : List (Machine α)) : List String :=
  (passed.filterMap line?).reverse

theorem line?_eq_some_iff {line : String} :
    m.line? = some line ↔ m.request? = some (.writeLine line) := by
  unfold line?
  split
  · rename_i asked
    rw [asked]
    simp
  · rename_i unasked
    simp only [reduceCtorEq, false_iff]
    exact unasked line

theorem step_writeLine {line : String} (asked : m.request? = some (.writeLine line))
    (step : m.step r = .running n) : n.world = (m.world.writeLine line).2 :=
  world_of_proceed asked rfl (fun _ _ => ⟨_, rfl⟩) step

theorem step_forM_writeLine {w : World} (opened : w.sink.Open) (line : String)
    (rest : List String) :
    (outer w ((line :: rest).forM Native.writeLine)).step r =
      .running (outer (w.writeLine line).2 (rest.forM Native.writeLine)) := by
  have answered : (w.writeLine line).1 = .ok () := by
    rw [World.writeLine, opened.writeLine_eq]
  have asks : (line :: rest).forM Native.writeLine = .ask (.writeLine line) fun answer =>
      (Program.ofExcept answer).bind fun _ => rest.forM Native.writeLine := rfl
  rw [asks, step, World.serve, Action.ofChange, answered]
  rfl

theorem step_sink_eq (coherent : Coherent r m.configuration) (unasked : m.line? = none)
    (step : m.step r = .running n) : n.world.sink = m.world.sink := by
  rcases (step_leads coherent.ready step).performs with marks | ⟨q, w, asked, marks, performed⟩
  · exact marks.sink_eq
  · refine (performed.sink_eq ?_).trans marks.sink_eq
    rintro line rfl
    rw [line?_eq_some_iff.mpr asked] at unasked
    cases unasked

theorem step_holds {text : String} (coherent : Coherent r m.configuration)
    (holds : m.world.sink.Holds text) (step : m.step r = .running n) :
    n.world.sink.Holds (text ++ printed (lines [m])) := by
  cases written : m.line? with
  | none =>
      rw [step_sink_eq coherent written step]
      simpa [lines, written, printed] using holds
  | some line =>
      rw [step_writeLine (line?_eq_some_iff.mp written) step, World.sink_writeLine]
      simpa [lines, written] using holds.writeLine line

theorem Trail.holds {text : String} (coherent : Coherent r m.configuration)
    (holds : m.world.sink.Holds text) (trail : Trail r m passed n) :
    n.world.sink.Holds (text ++ printed (lines passed)) := by
  induction trail with
  | refl => simpa [lines, printed] using holds
  | @step passed n next other trail step recoded ih =>
      have grown : lines (n :: passed) = lines passed ++ lines [n] := by
        rw [lines, lines, lines, ← List.reverse_append, ← List.filterMap_append]
        rfl
      rw [recoded.world_eq, grown, printed_append, ← String.append_assoc]
      exact step_holds (trail.run.coherent coherent) ih step

theorem run_writeLines (r : Registry) (w : World) {text : String} (holds : w.sink.Holds text)
    (lines : List String) :
    ∃ fuel w', (outer w (lines.forM Native.writeLine)).run r fuel = .finished (.ok ()) w' ∧
      w'.sink.Holds (text ++ printed lines) := by
  induction lines generalizing w text with
  | nil => exact ⟨1, w, rfl, by simpa [printed] using holds⟩
  | cons line lines ih =>
      obtain ⟨fuel, w', ran, printedRest⟩ := ih (w.writeLine line).2 (holds.writeLine line)
      refine ⟨fuel + 1, w', ?_, ?_⟩
      · rw [run, step_forM_writeLine holds.opened]
        exact ran
      · rw [String.append_assoc, ← printed_append] at printedRest
        exact printedRest

end Machine

/-- What a capture is read as depends only on the bytes that it and its clones were given, not on
how they were cut or by which clone they came: it is their lossy decoding, the one that the standard
asks for, so the bytes of a text are read as the text. In an environment whose output captures all,
these are the lines written so far, and no line is refused. -/
theorem output_read_whole :
    (∀ uses l capture original, Ledger.of? uses = some l →
      l.originals[capture]? = some original →
        Captures.read? uses capture = some (Text.decodeLossy (l.bytes original)) ∧
          (∀ s, l.bytes original = Text.encode s → Captures.read? uses capture = some s) ∧
          ∀ others k clone source, Ledger.of? others = some k → k.originals[clone]? = some source →
            k.bytes source = l.bytes original →
              Captures.read? others clone = Captures.read? uses capture) ∧
    (∀ bytes text, Text.Lossy bytes text.toList ↔ Text.decodeLossy bytes = text) ∧
    (∀ (α : Type) (r : Registry) (options : Options) (program : Program α)
      (passed : List (Machine α)) (m : Machine α),
        Machine.Trail r (.start options .reliable program) passed m →
          m.world.sink.captured.contents = printed (Machine.lines passed) ∧
            ∀ line, (m.world.writeLine line).1 = .ok ()) ∧
    ∀ (r : Registry) (options : Options) (lines : List String), ∃ fuel w,
      (Machine.start options .reliable (lines.forM Native.writeLine)).run r fuel =
        .finished (.ok ()) w ∧ w.sink.captured.contents = printed lines := by
  refine ⟨?_, fun bytes text => Text.lossy_iff, ?_, ?_⟩
  · intro uses l capture original noted named
    have read := Captures.read?_eq noted named
    refine ⟨read, fun s encoded => ?_, fun others k clone source known called same => ?_⟩
    · rw [read, encoded, Text.decodeLossy_encode]
    · rw [read, Captures.read?_eq known called, same]
  · intro α r options program passed m trail
    have first : (Machine.start options .reliable program).world.sink.Holds "" := .reliable
    have holds := trail.holds (coherent_initial options .reliable) first
    rw [String.empty_append] at holds
    refine ⟨holds.contents, fun line => ?_⟩
    rw [World.writeLine, holds.opened.writeLine_eq]
  · intro r options lines
    obtain ⟨fuel, w, ran, holds⟩ :=
      Machine.run_writeLines r (.initial options .reliable) .reliable lines
    rw [String.empty_append] at holds
    exact ⟨fuel, w, ran, holds.contents⟩

theorem output_read_cut_character :
    Captures.read? [.make, .clone 0, .write 0 [0xC3], .write 1 [0xA9]] 1 = some "é" ∧
      Captures.read? [.make, .write 0 [0xC3, 0xA9]] 0 =
        Captures.read? [.make, .clone 0, .write 0 [0xC3], .write 1 [0xA9]] 1 ∧
      let first : Machine PUnit := .start {} .reliable (["é"].forM Native.writeLine)
      ∃ m, Machine.Trail .initial first [first] m ∧ m.world.sink.captured.contents = "é\n" := by
  obtain ⟨captures, -, runs, -⟩ := output_read_whole
  have noted : Ledger.of? [.make, .clone 0, .write 0 [0xC3], .write 1 [0xA9]] =
      some ⟨[0, 0], [(0, [0xC3]), (0, [0xA9])]⟩ := rfl
  have known : Ledger.of? [.make, .write 0 [0xC3, 0xA9]] = some ⟨[0], [(0, [0xC3, 0xA9])]⟩ := rfl
  obtain ⟨-, whole, alike⟩ := captures _ _ 1 0 noted rfl
  refine ⟨whole "é" (by decide), alike _ _ 0 0 known rfl (by decide), ?_⟩
  have step := Machine.step_forM_writeLine (r := .initial) (w := .initial {} .reliable)
    Sink.Holds.reliable.opened "é" []
  have trail := Machine.Trail.step .refl step (.refl _)
  exact ⟨_, trail, (runs PUnit _ _ _ _ _ trail).1.trans (by decide)⟩

end ManagedObjects

import Mathlib.Data.List.Basic
import ManagedObjects.Output

namespace ManagedObjects

inductive CaptureUse
  | make
  | clone (original : Nat)
  | write (capture : Nat) (chunk : List UInt8)

namespace Captures

def use? (cs : Captures) : CaptureUse → Option Captures
  | .make => some cs.make
  | .clone original => cs.clone? original
  | .write capture chunk => (cs.write? capture chunk).map Prod.snd

def used? (uses : List CaptureUse) : Option Captures :=
  uses.foldlM use? empty

end Captures

/-- What captures stand for, without buffers: the original of each, and all that was written, each
chunk with the original that it is for. -/
structure Ledger where
  originals : List Nat
  chunks : List (Nat × List UInt8)

namespace Ledger

def note? (l : Ledger) : CaptureUse → Option Ledger
  | .make => some { l with originals := l.originals ++ [l.originals.length] }
  | .clone capture => do
      let original ← l.originals[capture]?
      some { l with originals := l.originals ++ [original] }
  | .write capture chunk => do
      let original ← l.originals[capture]?
      some { l with chunks := l.chunks ++ [(original, chunk)] }

def of? (uses : List CaptureUse) : Option Ledger :=
  uses.foldlM note? ⟨[], []⟩

def bytes (l : Ledger) (original : Nat) : List UInt8 :=
  (l.chunks.filter (·.1 == original)).flatMap Prod.snd

theorem bytes_write (l : Ledger) (o original : Nat) (chunk : List UInt8) :
    Ledger.bytes { l with chunks := l.chunks ++ [(original, chunk)] } o =
      if o = original then l.bytes o ++ chunk else l.bytes o := by
  unfold bytes
  rw [List.filter_append, List.flatMap_append]
  by_cases same : o = original
  · simp [same]
  · simp [same, Ne.symm same]

end Ledger

namespace Captures

structure Agree (place : Nat → Nat) (cs : Captures) (l : Ledger) : Prop where
  targets : cs.targets = l.originals.map place
  known : ∀ o ∈ l.originals, o < l.originals.length
  apart : ∀ o ∈ l.originals, ∀ p ∈ l.originals, place o = place p → o = p
  held : ∀ o ∈ l.originals, cs.buffers[place o]? = some ⟨l.bytes o⟩
  unwritten : ∀ o, l.originals.length ≤ o → l.bytes o = []

namespace Agree
variable {place : Nat → Nat} {cs : Captures} {l l' : Ledger}

theorem empty (place : Nat → Nat) : Agree place .empty ⟨[], []⟩ where
  targets := rfl
  known _ member := absurd member List.not_mem_nil
  apart _ member := absurd member List.not_mem_nil
  held _ member := absurd member List.not_mem_nil
  unwritten _ _ := rfl

theorem target_eq (agree : Agree place cs l) {capture original : Nat}
    (named : l.originals[capture]? = some original) :
    cs.targets[capture]? = some (place original) := by
  rw [agree.targets, List.getElem?_map, named, Option.map_some]

theorem make (agree : Agree place cs l) :
    Agree (fun o => if o = l.originals.length then cs.buffers.length else place o) cs.make
      { l with originals := l.originals ++ [l.originals.length] } := by
  have older : ∀ o ∈ l.originals, o ≠ l.originals.length :=
    fun o member => Nat.ne_of_lt (agree.known o member)
  have placed : ∀ o ∈ l.originals, place o < cs.buffers.length :=
    fun o member => (List.getElem?_eq_some_iff.mp (agree.held o member)).1
  constructor
  · have unmoved : l.originals.map place = l.originals.map fun o =>
        if o = l.originals.length then cs.buffers.length else place o :=
      List.map_congr_left fun o member => (if_neg (older o member)).symm
    simp [Captures.make, agree.targets, unmoved]
  · simp only [List.mem_append, List.mem_singleton, List.length_append, List.length_singleton]
    rintro o (member | rfl)
    · exact Nat.lt_succ_of_lt (agree.known o member)
    · exact Nat.lt_succ_self _
  · simp only [List.mem_append, List.mem_singleton]
    rintro o (member | rfl) p (also | rfl) same
    · rw [if_neg (older o member), if_neg (older p also)] at same
      exact agree.apart o member p also same
    · rw [if_neg (older o member), if_pos rfl] at same
      exact absurd same (Nat.ne_of_lt (placed o member))
    · rw [if_neg (older p also), if_pos rfl] at same
      exact absurd same.symm (Nat.ne_of_lt (placed p also))
    · rfl
  · simp only [List.mem_append, List.mem_singleton]
    rintro o (member | rfl)
    · rw [if_neg (older o member), Captures.make, List.getElem?_append_left (placed o member)]
      exact agree.held o member
    · rw [if_pos rfl, Captures.make, List.getElem?_concat_length, Capture.empty]
      exact congrArg some (congrArg Capture.mk (agree.unwritten _ (Nat.le_refl _)).symm)
  · intro o late
    rw [List.length_append] at late
    exact agree.unwritten o (Nat.le_of_succ_le late)

theorem clone (agree : Agree place cs l) {capture original : Nat}
    (named : l.originals[capture]? = some original) :
    Agree place { cs with targets := cs.targets ++ [place original] }
      { l with originals := l.originals ++ [original] } := by
  have member := List.mem_of_getElem? named
  have grown : ∀ o ∈ l.originals ++ [original], o ∈ l.originals := by
    simp only [List.mem_append, List.mem_singleton]
    rintro o (older | rfl)
    · exact older
    · exact member
  constructor
  · rw [agree.targets, List.map_append, List.map_singleton]
  · intro o also
    rw [List.length_append]
    exact Nat.lt_add_right _ (agree.known o (grown o also))
  · exact fun o also p too same => agree.apart o (grown o also) p (grown p too) same
  · exact fun o also => agree.held o (grown o also)
  · intro o late
    rw [List.length_append] at late
    exact agree.unwritten o (Nat.le_of_succ_le late)

theorem write (agree : Agree place cs l) {capture original : Nat} {chunk : List UInt8}
    (named : l.originals[capture]? = some original) :
    Agree place { cs with buffers := cs.buffers.modify (place original) (·.write chunk) }
      { l with chunks := l.chunks ++ [(original, chunk)] } := by
  have member := List.mem_of_getElem? named
  refine ⟨agree.targets, agree.known, agree.apart, ?_, ?_⟩
  · intro o also
    rw [List.getElem?_modify, agree.held o also, Ledger.bytes_write]
    by_cases same : o = original
    · simp [same, Capture.write]
    · have elsewhere : place original ≠ place o :=
        fun together => same (agree.apart original member o also together).symm
      simp [same, elsewhere]
  · intro o late
    have other : o ≠ original := fun same =>
      absurd (agree.known original member) (Nat.not_lt.mpr (same ▸ late))
    rw [Ledger.bytes_write, if_neg other]
    exact agree.unwritten o late

theorem use (agree : Agree place cs l) {what : CaptureUse} (noted : l.note? what = some l') :
    ∃ cs' place', cs.use? what = some cs' ∧ Agree place' cs' l' := by
  cases what with
  | make =>
      cases noted
      exact ⟨cs.make, _, rfl, agree.make⟩
  | clone capture =>
      obtain ⟨original, named, noted⟩ := Option.bind_eq_some_iff.mp noted
      cases noted
      refine ⟨_, place, ?_, agree.clone named⟩
      rw [use?, clone?, agree.target_eq named]
      rfl
  | write capture chunk =>
      obtain ⟨original, named, noted⟩ := Option.bind_eq_some_iff.mp noted
      cases noted
      refine ⟨_, place, ?_, agree.write named⟩
      rw [use?, write?, agree.target_eq named]
      rfl

theorem uses (agree : Agree place cs l) {uses : List CaptureUse}
    (noted : uses.foldlM Ledger.note? l = some l') :
    ∃ cs' place', uses.foldlM use? cs = some cs' ∧ Agree place' cs' l' := by
  induction uses generalizing place cs l with
  | nil =>
      cases noted
      exact ⟨cs, place, rfl, agree⟩
  | cons what later ih =>
      rw [List.foldlM_cons] at noted ⊢
      obtain ⟨between, first, onward⟩ := Option.bind_eq_some_iff.mp noted
      obtain ⟨cs₁, place₁, used, agree₁⟩ := agree.use first
      obtain ⟨cs₂, place₂, done, agree₂⟩ := ih agree₁ onward
      refine ⟨cs₂, place₂, ?_, agree₂⟩
      rw [used]
      exact done

end Agree

def read? (uses : List CaptureUse) (capture : Nat) : Option String :=
  (used? uses).bind (·.contents? capture)

theorem read?_eq {uses : List CaptureUse} {l : Ledger} (noted : Ledger.of? uses = some l)
    {capture original : Nat} (named : l.originals[capture]? = some original) :
    read? uses capture = some (Text.decodeLossy (l.bytes original)) := by
  obtain ⟨cs, place, used, agree⟩ := (Agree.empty id).uses noted
  have held := agree.held _ (List.mem_of_getElem? named)
  rw [read?, used?, used, Option.bind_some, contents?, agree.target_eq named]
  simp only [Option.bind_eq_bind, Option.bind_some, held]
  rfl

end Captures
end ManagedObjects

import ManagedObjects.Options.Document
import ManagedObjects.Proofs.Text.Decoding
import ManagedObjects.Proofs.Toml.Documents

namespace ManagedObjects

open Toml
open Toml.Reader (Bare)

namespace Options

theorem validate_eq_ok_iff {o : Options} :
    o.validate = .ok () ↔
      o.maxObjects = none ∨ ∃ n, o.maxObjects = some n ∧ 1 ≤ n ∧ o.initialCapacity ≤ n := by
  unfold validate
  cases o.maxObjects with
  | none => simp
  | some n =>
      simp only [reduceCtorEq, Option.some.injEq, false_or, exists_eq_left']
      split
      · simp only [reduceCtorEq, false_iff]
        omega
      split
      · simp only [reduceCtorEq, false_iff]
        omega
      · simp only [true_iff]
        omega

variable {format : Format}

theorem ofText_of_parse? {text : String} {o : Options} (read : parse? format text = some o) :
    ofText format text = o.validate.map fun _ => o := by
  rw [ofText, read]
  cases valid : o.validate with
  | error f => simp only [valid, Except.map]
  | ok _ => simp only [valid, Except.map]

theorem validate_of_ofText {text : String} {o : Options} (loaded : ofText format text = .ok o) :
    o.validate = .ok () := by
  cases read : parse? format text with
  | none =>
      rw [ofText, read] at loaded
      cases loaded
  | some p =>
      rw [ofText_of_parse? read] at loaded
      cases valid : p.validate with
      | error f =>
          rw [valid] at loaded
          cases loaded
      | ok _ =>
          rw [valid] at loaded
          cases loaded
          exact valid

theorem parse?_of_entries {text : String} {entries : Entries}
    (read : format.read? text = some entries) :
    parse? format text = entries.foldlM set? {} := by
  rw [parse?, read]
  rfl

structure Representable (o : Options) : Prop where
  capacity : o.initialCapacity ≤ maxInteger
  limit : ∀ n ∈ o.maxObjects, n ≤ maxInteger

theorem nodup_saved (o : Options) : ((saved o).map Prod.fst).Nodup := by
  unfold saved
  cases o.maxObjects with
  | none => exact show [capacityKey, policyKey].Nodup by decide
  | some n => exact show [capacityKey, limitKey, policyKey].Nodup by decide

theorem lookup_limitKey_saved (o : Options) :
    ((saved o).map assignedNode).lookup limitKey =
      o.maxObjects.map fun n => .value (.integer n) := by
  unfold saved
  cases o.maxObjects with
  | none => rfl
  | some n => rfl

theorem foldlM_set?_saved (o : Options) : ((saved o).map assignedNode).foldlM set? {} = some o := by
  obtain ⟨capacity, limit, policy⟩ := o
  cases policy with
  | forward => cases limit <;> rfl
  | receiverOnly => cases limit <;> rfl

theorem bare_capacityKey : Bare capacityKey.toList :=
  ⟨by decide, List.all_eq_true.mp (by decide)⟩

theorem bare_limitKey : Bare limitKey.toList := ⟨by decide, List.all_eq_true.mp (by decide)⟩

theorem bare_policyKey : Bare policyKey.toList := ⟨by decide, List.all_eq_true.mp (by decide)⟩

theorem bare_saved (o : Options) : ∀ entry ∈ saved o, Bare entry.1.toList := by
  unfold saved
  cases o.maxObjects with
  | none => simp [bare_capacityKey, bare_policyKey]
  | some n => simp [bare_capacityKey, bare_limitKey, bare_policyKey]

theorem bare_policyName (p : TrapPolicy) : Bare (policyName p).toList := by
  cases p <;> exact ⟨by decide, List.all_eq_true.mp (by decide)⟩

theorem Representable.simple {o : Options} (small : Representable o) :
    ∀ entry ∈ saved o, entry.2.Simple := by
  have policy : (Value.string (policyName o.trapPolicy)).Simple := .word (bare_policyName _)
  have capacity : (Value.integer o.initialCapacity).Simple := .integer small.capacity
  unfold saved
  cases given : o.maxObjects with
  | none => simp [capacity, policy]
  | some n =>
      have limit : (Value.integer n).Simple := .integer (small.limit n given)
      simp [capacity, limit, policy]

/-- In a format that writes simple values plainly and reads plain documents, options that are saved
and loaded are the same if they are valid, and otherwise have the fault that they had; a limit is
saved if and only if there is one. What is loaded, from whatever text, has no limit or one of at
least one object that the initial capacity does not exceed. -/
theorem ofText_toText? (reads : format.Reads) (writes : format.Writes) :
    (∀ o : Options, o.Representable → ∃ text, toText? format o = some text ∧
      (o.validate = .ok () → ofText format text = .ok o) ∧
      (∀ f, o.validate = .error f → ofText format text = .error f) ∧
      ofBytes format (Text.encode text) = ofText format text ∧
      ∃ entries, format.read? text = some entries ∧
        (entries.lookup limitKey = none ↔ o.maxObjects = none)) ∧
    ∀ text o, ofText format text = .ok o →
      o.maxObjects = none ∨ ∃ n, o.maxObjects = some n ∧ 1 ≤ n ∧ o.initialCapacity ≤ n := by
  refine ⟨fun o small => ?_, fun text o loaded => validate_eq_ok_iff.mp (validate_of_ofText loaded)⟩
  obtain ⟨text, written, plain⟩ := writes _ (bare_saved o) small.simple (nodup_saved o)
  have entries := reads text _ plain (nodup_saved o)
  have loaded := ofText_of_parse? ((parse?_of_entries entries).trans (foldlM_set?_saved o))
  refine ⟨text, written, fun valid => ?_, fun f fault => ?_, ?_, _, entries, ?_⟩
  · rw [loaded, valid, Except.map]
  · rw [loaded, fault, Except.map]
  · rw [ofBytes, Text.decode?_encode]
  · rw [lookup_limitKey_saved, Option.map_eq_none_iff]

theorem ofText_toText?_receiverOnly :
    Format.standard.Reads ∧ Format.standard.Writes ∧
    (∃ text, toText? .standard ⟨16, some 64, .receiverOnly⟩ = some text ∧
      ofText .standard text = .ok ⟨16, some 64, .receiverOnly⟩ ∧ 1 ≤ 64 ∧ 16 ≤ 64) ∧
    ∃ text, toText? .standard ⟨10, some 5, .forward⟩ = some text ∧
      ofText .standard text = .error (.capacityAboveLimit 10 5) := by
  have ⟨saves, accepts⟩ := ofText_toText? Format.standard_reads Format.standard_writes
  obtain ⟨text, written, loads, -⟩ := saves ⟨16, some 64, .receiverOnly⟩ ⟨by decide, by decide⟩
  have loaded := loads rfl
  obtain ⟨other, saved, -, refuses, -⟩ := saves ⟨10, some 5, .forward⟩ ⟨by decide, by decide⟩
  refine ⟨Format.standard_reads, Format.standard_writes, ⟨text, written, loaded, ?_⟩, other, saved,
    refuses _ rfl⟩
  rcases accepts text _ loaded with none | ⟨n, same, bound⟩
  · cases none
  · cases same
    exact bound

end Options
end ManagedObjects

import ManagedObjects.Proofs.Options.Saving

namespace ManagedObjects.Options

open Toml

variable {format : Format}

def SetsOnlyLimit (format : Format) (text : String) (n : Nat) : Prop :=
  format.read? text = some [(limitKey, .value (.integer n))]

def limitText (n : Nat) : String := limitKey ++ " = " ++ toString n

theorem plain_limitText {n : Nat} (small : n ≤ maxInteger) :
    Reader.Plain (limitText n).toList [(limitKey, .integer n)] := by
  have line := Reader.Plain.line bare_limitKey (.integer small) .document .empty
  simpa [limitText, Reader.assignment, String.toList_append] using line

theorem plain_limitText_newline {n : Nat} (small : n ≤ maxInteger) :
    Reader.Plain (limitText n ++ "\n").toList [(limitKey, .integer n)] := by
  have line := Reader.Plain.cons bare_limitKey (.integer small) .empty
  simpa [limitText, Reader.assignment, String.toList_append] using line

theorem SetsOnlyLimit.of_plain (reads : format.Reads) {text : String} {n : Nat}
    (plain : Reader.Plain text.toList [(limitKey, .integer n)]) : SetsOnlyLimit format text n :=
  reads text _ plain (by simp)

theorem SetsOnlyLimit.ofText_eq {text : String} {n : Nat} (only : SetsOnlyLimit format text n) :
    ofText format text =
      (validate { maxObjects := some n }).map fun _ => { maxObjects := some n } :=
  ofText_of_parse? (parse?_of_entries only)

theorem validate_limit {n : Nat} (positive : 1 ≤ n) :
    validate { maxObjects := some n } =
      if n < 1024 then .error (.capacityAboveLimit 1024 n) else .ok () := by
  have nonzero : n ≠ 0 := Nat.ne_of_gt positive
  simp only [validate, if_neg nonzero]

theorem withObjectLimit_of_le {n : Nat} (large : 1024 ≤ n) :
    withObjectLimit n = { maxObjects := some n } := by
  rw [withObjectLimit, Nat.min_eq_left large]

theorem SetsOnlyLimit.ofText_below {text : String} {n : Nat} (only : SetsOnlyLimit format text n)
    (positive : 1 ≤ n) (below : n < 1024) :
    ofText format text = .error (.capacityAboveLimit 1024 n) := by
  rw [only.ofText_eq, validate_limit positive, if_pos below, Except.map]

/-- A document that sets only the limit gives the options that are made with the limit just when the
limit is not below the default capacity. Below it the document is refused, for a capacity that it
does not give, while the options that are made with the limit are valid. -/
theorem ofText_limit_only (reads : format.Reads) {n : Nat} (positive : 1 ≤ n)
    (small : n ≤ maxInteger) :
    (withObjectLimit n).validate = .ok () ∧
      (∀ text, SetsOnlyLimit format text n →
        (ofText format text = .ok (withObjectLimit n) ↔ 1024 ≤ n) ∧
          (n < 1024 → ofText format text = .error (.capacityAboveLimit 1024 n))) ∧
      SetsOnlyLimit format (limitText n) n ∧ SetsOnlyLimit format (limitText n ++ "\n") n := by
  refine ⟨validate_eq_ok_iff.mpr (.inr ⟨n, rfl, positive, Nat.min_le_right _ n⟩),
    fun text only => ⟨⟨fun loaded => ?_, fun large => ?_⟩, only.ofText_below positive⟩,
    .of_plain reads (plain_limitText small), .of_plain reads (plain_limitText_newline small)⟩
  · refine Nat.not_lt.mp fun below => ?_
    rw [only.ofText_below positive below] at loaded
    cases loaded
  · rw [only.ofText_eq, validate_limit positive, if_neg (Nat.not_lt.mpr large), Except.map,
      withObjectLimit_of_le large]

theorem ofText_limit_only_least :
    ofText .standard (limitText 1024) = .ok (withObjectLimit 1024) ∧
      ofText .standard (limitText 1023 ++ "\n") = .error (.capacityAboveLimit 1024 1023) ∧
        (withObjectLimit 1023).validate = .ok () := by
  have ⟨_, loads, only, _⟩ :=
    ofText_limit_only Format.standard_reads (n := 1024) (by decide) (by decide)
  have ⟨valid, refuses, _, line⟩ :=
    ofText_limit_only Format.standard_reads (n := 1023) (by decide) (by decide)
  exact ⟨(loads _ only).1.mpr (by decide), (refuses _ line).2 (by decide), valid⟩

/-- A small limit is refused in a document and accepted without one. -/
theorem ofText_limit_refused :
    SetsOnlyLimit .standard "max_objects = 8" 8 ∧ (withObjectLimit 8).validate = .ok () ∧
      ofText .standard "max_objects = 8" ≠ .ok (withObjectLimit 8) := by
  have only : SetsOnlyLimit .standard "max_objects = 8" 8 :=
    .of_plain Format.standard_reads (plain_limitText (n := 8) (by decide))
  refine ⟨only, rfl, ?_⟩
  rw [only.ofText_below (by decide) (by decide)]
  exact fun same => by cases same

end ManagedObjects.Options

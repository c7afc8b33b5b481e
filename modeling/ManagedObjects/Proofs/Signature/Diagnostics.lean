import ManagedObjects.Proofs.Machine.Calls
import ManagedObjects.Proofs.Text.Reading

namespace ManagedObjects

theorem Kind.name_inj {a b : Kind} (same : a.name = b.name) : a = b := by
  cases a <;> cases b <;> first | rfl | exact absurd same (by decide)

theorem Kind.word_name (kind : Kind) : Text.Word ',' kind.name.toList := by
  cases kind <;> exact ⟨by decide, by decide⟩

theorem Kind.word_optional (kind : Kind) : Text.Word ',' (kind.name ++ "?").toList := by
  cases kind <;> exact ⟨by decide, by decide⟩

theorem Kind.name_ne_optional (a b : Kind) : a.name ≠ b.name ++ "?" := by
  cases a <;> cases b <;> decide

namespace Signature

variable {s t : Signature} {args : List Slot}

theorem withOptional_self (s : Signature) : withOptional s.params s.required = s := by
  simp [withOptional, Nat.min_eq_left s.required_le]

theorem accepts_iff : s.accepts args = true ↔ s.Fits args := by
  refine ⟨fits_of_accepts, ?_⟩
  rintro ⟨enough, few, each⟩
  simp only [accepts, Bool.and_eq_true, decide_eq_true_eq]
  refine ⟨⟨enough, few⟩, List.all_eq_true.mpr fun pair member => ?_⟩
  obtain ⟨i, paired⟩ := List.mem_iff_getElem?.mp member
  obtain ⟨param, arg⟩ := List.getElem?_zip_eq_some.mp paired
  exact each i pair.1 pair.2 param arg

theorem fits_exact (args : List Slot) : (exact (args.map Slot.kind)).Fits args := by
  refine ⟨by simp [exact], by simp [exact, maxArity], fun i kind slot param arg => ?_⟩
  have same : slot.kind = kind := by simpa [exact, arg] using param
  simp [Kind.accepts, same]

theorem tuple_inj {items others : List String} (words : ∀ item ∈ items, Text.Word ',' item.toList)
    (apart : ∀ item ∈ others, Text.Word ',' item.toList) (same : tuple items = tuple others) :
    items = others := by
  have joined : [',', ' '].intercalate (items.map String.toList) =
      [',', ' '].intercalate (others.map String.toList) := by
    simp only [tuple, ← String.toList_inj, String.toList_append] at same
    have inner := List.append_cancel_left (List.append_cancel_right same)
    rwa [String.toList_intercalate, String.toList_intercalate] at inner
  have texts : items.map String.toList = others.map String.toList :=
    Text.intercalate_inj (by simpa using words) (by simpa using apart) joined
  exact (List.map_inj_right fun a b => String.toList_inj.mp).mp texts

def splitAt? {α : Type} (place : Nat) (items : List α) : Option (List α × List α) :=
  if place ≤ items.length then some (items.take place, items.drop place) else none

def describe? (params : List Kind) (required : Nat) : Option String :=
  let names := params.map Kind.name
  if required = params.length then some (tuple names)
  else
    (splitAt? required names).map fun (leading, optional) =>
      tuple (leading ++ optional.map (· ++ "?"))

theorem describe?_eq_none_iff {params : List Kind} {required : Nat} :
    describe? params required = none ↔ params.length < required := by
  unfold describe? splitAt?
  split
  · rename_i whole
    simp [whole]
  · simp

theorem describe?_eq_some (s : Signature) : describe? s.params s.required = some s.describe := by
  unfold describe? splitAt? describe
  split
  · rename_i whole
    simp [whole]
  · simp [s.required_le, List.map_take, List.map_drop, Function.comp_def]

theorem items_inj {required optional others rest : List Kind}
    (same : required.map Kind.name ++ optional.map (fun kind => kind.name ++ "?") =
      others.map Kind.name ++ rest.map (fun kind => kind.name ++ "?")) :
    required = others ∧ optional = rest := by
  induction required generalizing others with
  | nil =>
      cases others with
      | nil =>
          have marked (a b : Kind) (equal : a.name ++ "?" = b.name ++ "?") : a = b :=
            Kind.name_inj (String.append_left_inj "?" |>.mp equal)
          exact ⟨rfl, (List.map_inj_right marked).mp same⟩
      | cons b others =>
          cases optional with
          | nil => cases same
          | cons a optional => exact absurd (List.cons.inj same).1.symm (Kind.name_ne_optional b a)
  | cons a required ih =>
      cases others with
      | nil =>
          cases rest with
          | nil => cases same
          | cons b rest => exact absurd (List.cons.inj same).1 (Kind.name_ne_optional a b)
      | cons b others =>
          obtain ⟨first, later⟩ := List.cons.inj same
          obtain ⟨equal, remaining⟩ := ih later
          exact ⟨by rw [Kind.name_inj first, equal], remaining⟩

theorem words_items (s : Signature) :
    ∀ item ∈ (s.params.take s.required).map Kind.name ++
      (s.params.drop s.required).map (fun kind => kind.name ++ "?"),
      Text.Word ',' item.toList := by
  intro item member
  rcases List.mem_append.mp member with leading | optional
  · obtain ⟨kind, -, rfl⟩ := List.mem_map.mp leading
    exact kind.word_name
  · obtain ⟨kind, -, rfl⟩ := List.mem_map.mp optional
    exact kind.word_optional

theorem describe_inj (same : s.describe = t.describe) :
    s.params = t.params ∧ s.required = t.required := by
  obtain ⟨leading, optional⟩ := items_inj (tuple_inj s.words_items t.words_items same)
  constructor
  · rw [← List.take_append_drop s.required s.params, leading, optional, List.take_append_drop]
  · have lengths := congrArg List.length leading
    rwa [List.length_take, List.length_take, Nat.min_eq_left s.required_le,
      Nat.min_eq_left t.required_le] at lengths

theorem describeArguments_eq (args : List Slot) :
    describeArguments args = (exact (args.map Slot.kind)).describe := by
  simp [describeArguments, describe, exact, List.take_of_length_le, List.drop_of_length_le,
    Function.comp_def]

theorem fits_of_described (same : s.describe = describeArguments args) : s.Fits args := by
  rw [describeArguments_eq] at same
  obtain ⟨params, required⟩ := describe_inj same
  have exactly := fits_exact args
  unfold Fits maxArity at exactly ⊢
  rwa [params, required]

/-- The check of a signature and what it reports agree. It succeeds just for the vectors that fit
the signature. It fails on every other one with the description of the signature as what was
expected and that of the arguments as what came, and these two texts differ. Every signature has a
description, and no other signature has the same one. -/
theorem check_diagnostics (s : Signature) :
    (∀ method args, s.check method args = .ok () ↔ s.Fits args) ∧
    (∀ method args, ¬ s.Fits args →
      s.check method args =
          .error (.argumentMismatch method s.describe (describeArguments args)) ∧
        s.describe ≠ describeArguments args) ∧
    describe? s.params s.required = some s.describe ∧
    ∀ t : Signature, s.describe = t.describe → s.params = t.params ∧ s.required = t.required := by
  refine ⟨fun method args => ?_, fun method args unfit => ⟨?_, fun same => ?_⟩,
    s.describe?_eq_some, fun t same => describe_inj same⟩
  · rw [← accepts_iff, check]
    split <;> simp [*]
  · rw [check, if_neg (mt accepts_iff.mp unfit)]
  · exact unfit (fits_of_described same)

example : (withOptional [.handle, .any] 1).describe = "(handle, any?)" ∧
    describeArguments [.bool true, .null] = "(bool, null)" := by
  exact ⟨rfl, rfl⟩

end Signature
end ManagedObjects

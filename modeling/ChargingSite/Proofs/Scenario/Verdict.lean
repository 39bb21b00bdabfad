import ChargingSite.Scenario.Validation
import Mathlib.Data.Nat.Notation
import Mathlib.Tactic.SplitIfs

/-!
# Valid verdicts

What it takes for a verdict to be valid, for each way of combining verdicts and each reader: a whole
is valid exactly if all its parts are, and a record if its fields are valid and no rule is broken.
-/

namespace ChargingSite

variable {α β : Type}

/-! ### Combining verdicts -/

namespace Verdict

variable {v : Verdict α} {w : Verdict β} {a : α} {b : β} {part : PathPart} {kind : FaultKind}

@[simp] theorem fault_ne_valid : fault kind ≠ valid a :=
  nofun

@[simp] theorem under_eq_valid_iff : v.under part = .valid a ↔ v = .valid a := by
  cases v <;> simp [under]

theorem map_eq_valid_iff {f : α → β} : v.map f = .valid b ↔ ∃ a, v = .valid a ∧ f a = b := by
  cases v <;> simp [map]

@[simp] theorem both_eq_valid_iff :
    v.both w = .valid (a, b) ↔ v = .valid a ∧ w = .valid b := by
  cases v <;> cases w <;> simp [both]

@[simp] theorem require_eq_valid_iff {holds : α → Bool} :
    v.require holds kind = .valid a ↔ v = .valid a ∧ holds a = true := by
  unfold require andThen
  cases v with
  | valid a' =>
    by_cases h : holds a' = true
    · simp only [h, ite_true, valid.injEq]
      constructor
      · rintro rfl
        exact ⟨rfl, h⟩
      · exact And.left
    · simp only [h, Bool.false_eq_true, ite_false, fault_ne_valid, false_iff, valid.injEq, not_and]
      rintro rfl
      exact h
  | faulty fs => simp
  | aborted e => simp

@[simp] theorem obeying_eq_valid_iff {broken? : α → Except NumberError (Option BrokenRule)} :
    v.obeying broken? = .valid a ↔ v = .valid a ∧ broken? a = .ok none := by
  unfold obeying andThen
  cases v with
  | valid a' =>
    simp only [valid.injEq]
    split <;> rename_i h
    · simp only [valid.injEq]
      constructor
      · rintro rfl
        exact ⟨rfl, h⟩
      · exact And.left
    all_goals
      simp only [fault_ne_valid, reduceCtorEq, false_iff, not_and]
      rintro rfl
      rw [h]
      simp
  | faulty fs => simp
  | aborted e => simp

end Verdict

/-! ### Readers -/

theorem readRecord_eq_valid_iff {sort : String} {read : List (String × Document) → Verdict α}
    {d : Document} {a : α} :
    readRecord sort read d = .valid a ↔ ∃ fields, d = .record fields ∧ read fields = .valid a := by
  cases d <;> simp [readRecord]

/-- A field is valid if it is read as valid, or absent and has a default. -/
theorem readField_eq_valid_iff {fields : List (String × Document)} {name : String}
    {default? : Option α} {read : Document → Verdict α} {a : α} :
    readField fields name default? read = .valid a ↔
      (∃ d, Document.lookUp fields name = some d ∧ read d = .valid a) ∨
        Document.lookUp fields name = none ∧ default? = some a := by
  unfold readField
  cases Document.lookUp fields name with
  | some d => simp
  | none => cases default? <;> simp

/-- Every item of a valid list is valid. -/
theorem exists_of_mem_readItems {read : Document → Verdict α} {position : ℕ}
    {ds : List Document} {as : List α} (h : readItems read position ds = .valid as) {a : α}
    (ha : a ∈ as) : ∃ d ∈ ds, read d = .valid a := by
  induction ds generalizing position as with
  | nil =>
    cases h
    cases ha
  | cons d ds ih =>
    obtain ⟨⟨first, rest⟩, hread, rfl⟩ := Verdict.map_eq_valid_iff.mp h
    obtain ⟨hfirst, hrest⟩ := Verdict.both_eq_valid_iff.mp hread
    rcases List.mem_cons.mp ha with rfl | ha
    · -- the item in front
      exact ⟨d, List.mem_cons_self, Verdict.under_eq_valid_iff.mp hfirst⟩
    · -- an item behind it
      obtain ⟨d', hd', hvalid⟩ := ih hrest ha
      exact ⟨d', List.mem_cons_of_mem d hd', hvalid⟩

theorem two_le_length_of_readCurve {d : Document} {samples : List (Binary64 × Binary64)}
    (h : readCurve d = .valid samples) : 2 ≤ samples.length := by
  cases d with
  | list items =>
    simp only [readCurve] at h
    split_ifs at h with hfew hempty hempty
    · -- there are too few samples, which is a fault
      simp at hempty
    · -- there are enough samples, and no faults
      cases h
      exact Nat.not_lt.mp hfew
  | _ => cases h

end ChargingSite

import AlsaqiBackend.Lib.Numerals
import Mathlib.Logic.Function.Basic

/-!
# The numbering service

`NumberingService` draws the next number of a scope from `numbering_counters` and writes it behind the code of
the parent. Every method raises its counter first, also where the number then is above the maximum; only the
rollback of a transaction takes the counter back.
-/

namespace AlsaqiBackend.Numbering

open AlsaqiBackend.Lib

/-! ## Counters -/

/-- `last_value` by `scope_type` and `scope_id`; 0 where `numbering_counters` has no row. -/
abbrev Counters := String → String → ℕ

namespace Counters

def empty : Counters := fun _ _ => 0

/-- The counters after `last_value` of a scope is set. -/
def set (counters : Counters) (scopeType scopeId : String) (value : ℕ) : Counters :=
  Function.update counters scopeType (Function.update (counters scopeType) scopeId value)

@[simp]
theorem set_same (counters : Counters) (scopeType scopeId : String) (value : ℕ) :
    counters.set scopeType scopeId value scopeType scopeId = value := by
  unfold set
  rw [Function.update_self, Function.update_self]

theorem set_other (counters : Counters) {scopeType scopeId otherType otherId : String} (value : ℕ)
    (h : otherType ≠ scopeType ∨ otherId ≠ scopeId) :
    counters.set scopeType scopeId value otherType otherId = counters otherType otherId := by
  unfold set
  by_cases htype : otherType = scopeType
  · subst htype
    rw [Function.update_self, Function.update_of_ne (h.resolve_left fun hne => hne rfl)]
  · rw [Function.update_of_ne htype]

end Counters

/-- The greatest value of an INTEGER. -/
def MAX_INTEGER : ℕ := 2147483647

/-- `nextCounter`; the statement is an error where the value is no INTEGER. -/
def nextCounter (scopeType scopeId : String) (counters : Counters) : Option (ℕ × Counters) :=
  let value := counters scopeType scopeId + 1
  if value ≤ MAX_INTEGER then some (value, counters.set scopeType scopeId value) else none

/-! ## Codes -/

/-- `PADDING.plan`. -/
def PADDING_PLAN : ℕ := 3

/-- `PADDING.child`. -/
def PADDING_CHILD : ℕ := 2

def MAX_PLAN_SEQ : ℕ := 999

def MAX_CHILD_SEQ : ℕ := 99

/-- The text of a number that is drawn, and the counters; without a text the call throws. -/
def numbered (scopeType scopeId : String) (maxSeq : ℕ) (format : ℕ → String) (counters : Counters) :
    Option String × Counters :=
  match nextCounter scopeType scopeId counters with
  | none => (none, counters)
  | some (seq, counters) => (if seq > maxSeq then none else some (format seq), counters)

/-- `year.slice(-2).padStart(2, '0')`. -/
def shortYear (year : String) : String :=
  String.ofList (padZeros 2 (year.toList.drop (year.toList.length - 2)))

def planCode (year : String) (seq : ℕ) : String :=
  "IA-PL-" ++ shortYear year ++ "-" ++ String.ofList (padded PADDING_PLAN seq)

/-- The code of a child: that of its parent, a letter and a number. -/
def childCode (parent letter : String) (seq : ℕ) : String :=
  parent ++ "-" ++ letter ++ String.ofList (padded PADDING_CHILD seq)

def nextPlanCode (year : ℕ) : Counters → Option String × Counters :=
  numbered "plan_year" (toString year) MAX_PLAN_SEQ (planCode (toString year))

def nextTaskNumber (planId planCode : String) : Counters → Option String × Counters :=
  numbered "task" planId MAX_CHILD_SEQ (childCode planCode "T")

def nextFindingNumber (planId planCode : String) : Counters → Option String × Counters :=
  numbered "finding" planId MAX_CHILD_SEQ (childCode planCode "F")

def nextRecommendationNumber (findingId findingNumber : String) : Counters → Option String × Counters :=
  numbered "rec" findingId MAX_CHILD_SEQ (childCode findingNumber "R")

def nextEvidenceNumber (findingId findingNumber : String) : Counters → Option String × Counters :=
  numbered "evidence" findingId MAX_CHILD_SEQ (childCode findingNumber "E")

/-- What a draw does: nothing where the number is no INTEGER, or it raises the counter, with a text up to the
maximum. -/
theorem numbered_cases (scopeType scopeId : String) (maxSeq : ℕ) (format : ℕ → String) (counters : Counters) :
    let value := counters scopeType scopeId + 1
    (¬ value ≤ MAX_INTEGER ∧ numbered scopeType scopeId maxSeq format counters = (none, counters)) ∨
    (value ≤ MAX_INTEGER ∧ ¬ value ≤ maxSeq ∧ numbered scopeType scopeId maxSeq format counters =
      (none, counters.set scopeType scopeId value)) ∨
    (value ≤ MAX_INTEGER ∧ value ≤ maxSeq ∧ numbered scopeType scopeId maxSeq format counters =
      (some (format value), counters.set scopeType scopeId value)) := by
  unfold numbered nextCounter
  by_cases hint : counters scopeType scopeId + 1 ≤ MAX_INTEGER
  · simp only [if_pos hint]
    by_cases hmax : counters scopeType scopeId + 1 ≤ maxSeq
    · rw [if_neg (by omega)]
      exact Or.inr (Or.inr ⟨hint, hmax, rfl⟩)
    · rw [if_pos (by omega)]
      exact Or.inr (Or.inl ⟨hint, hmax, rfl⟩)
  · rw [if_neg hint]
    exact Or.inl ⟨hint, rfl⟩

/-- A number is drawn exactly below the maximum, and the counter is then that number. -/
theorem numbered_spec (scopeType scopeId : String) {maxSeq : ℕ} (hmax : maxSeq < MAX_INTEGER)
    (format : ℕ → String) (counters : Counters) :
    let value := counters scopeType scopeId + 1
    ((numbered scopeType scopeId maxSeq format counters).1 =
        if counters scopeType scopeId < maxSeq then some (format value) else none) ∧
      ((numbered scopeType scopeId maxSeq format counters).2 = counters.set scopeType scopeId value ∨
        (numbered scopeType scopeId maxSeq format counters).2 = counters ∧
          maxSeq < counters scopeType scopeId) := by
  intro value
  rcases numbered_cases scopeType scopeId maxSeq format counters with
    ⟨hint, heq⟩ | ⟨hint, hgt, heq⟩ | ⟨hint, hle, heq⟩
  · -- Above the greatest INTEGER the number is above the maximum.
    have hgt : maxSeq < counters scopeType scopeId := by omega
    have hnot : ¬ counters scopeType scopeId < maxSeq := by omega
    rw [heq, if_neg hnot]
    exact ⟨rfl, Or.inr ⟨rfl, hgt⟩⟩
  · have hnot : ¬ counters scopeType scopeId < maxSeq := by omega
    rw [heq, if_neg hnot]
    exact ⟨rfl, Or.inl rfl⟩
  · have hlt : counters scopeType scopeId < maxSeq := by omega
    rw [heq, if_pos hlt]
    exact ⟨rfl, Or.inl rfl⟩

example : (nextPlanCode 2025 Counters.empty).1 = some "IA-PL-25-001" := by decide +kernel

end AlsaqiBackend.Numbering

import Mathlib.Data.List.Basic

/-!
# Text around a separator

A text that is cut at a separator is determined by its two sides when the separator does not occur
in the first one (`cut_at_first`), or does not occur in the last one (`cut_at_last`). `cutFirst` and
`cutLast` find these two sides (`cutFirst_append`, `cutLast_append`).
-/

namespace AlsaqiBackend.Lib

variable {α : Type*} {sep : α}

/-- The cut at the first separator is unique. -/
theorem cut_at_first {a a' b b' : List α} (ha : sep ∉ a) (ha' : sep ∉ a') :
    a ++ sep :: b = a' ++ sep :: b' ↔ a = a' ∧ b = b' := by
  induction a generalizing a' with
  | nil =>
    cases a' with
    | nil => simp
    | cons x a' =>
      have hx : sep ≠ x := fun h => ha' (by simp [h])
      simp [hx]
  | cons x a ih =>
    cases a' with
    | nil =>
      have hx : x ≠ sep := fun h => ha (by simp [h])
      simp [hx]
    | cons y a' =>
      rw [List.cons_append, List.cons_append, List.cons.injEq, List.cons.injEq,
        ih (fun h => ha (List.mem_cons_of_mem _ h)) (fun h => ha' (List.mem_cons_of_mem _ h)),
        and_assoc]

/-- The cut at the last separator is unique. -/
theorem cut_at_last {a a' b b' : List α} (hb : sep ∉ b) (hb' : sep ∉ b') :
    a ++ sep :: b = a' ++ sep :: b' ↔ a = a' ∧ b = b' := by
  rw [← List.reverse_inj]
  simp only [List.reverse_append, List.reverse_cons, List.append_assoc, List.singleton_append]
  rw [cut_at_first (by simpa using hb) (by simpa using hb'), List.reverse_inj, List.reverse_inj]
  exact and_comm

/-- What stands before the first separator, and what stands after it. -/
def cutFirst [DecidableEq α] (sep : α) (text : List α) : List α × List α :=
  (text.takeWhile (· ≠ sep), (text.dropWhile (· ≠ sep)).drop 1)

theorem cutFirst_append [DecidableEq α] {a : List α} (ha : sep ∉ a) (b : List α) :
    cutFirst sep (a ++ sep :: b) = (a, b) := by
  have hkeep : ∀ x ∈ a, decide (x ≠ sep) = true := fun x hx =>
    decide_eq_true fun heq => ha (heq ▸ hx)
  unfold cutFirst
  rw [List.dropWhile_append_of_pos hkeep, List.takeWhile_append_of_pos hkeep]
  simp

/-- What stands before the last separator, and what stands after it. -/
def cutLast [DecidableEq α] (sep : α) (text : List α) : List α × List α :=
  (((text.reverse.dropWhile (· ≠ sep)).drop 1).reverse, (text.reverse.takeWhile (· ≠ sep)).reverse)

theorem cutLast_append [DecidableEq α] {a b : List α} (hb : sep ∉ b) :
    cutLast sep (a ++ sep :: b) = (a, b) := by
  have hreverse : (a ++ sep :: b).reverse = b.reverse ++ sep :: a.reverse := by
    rw [List.reverse_append, List.reverse_cons, List.append_assoc, List.singleton_append]
  have hkeep : ∀ x ∈ b.reverse, decide (x ≠ sep) = true := by
    intro x hx
    have hmem := List.mem_reverse.1 hx
    exact decide_eq_true fun heq => hb (heq ▸ hmem)
  unfold cutLast
  rw [hreverse, List.dropWhile_append_of_pos hkeep, List.takeWhile_append_of_pos hkeep]
  simp

end AlsaqiBackend.Lib

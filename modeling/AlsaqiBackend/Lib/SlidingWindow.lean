import Mathlib.Algebra.Order.Group.Basic
import Mathlib.Data.List.Induction
import Mathlib.Data.List.Basic

/-!
# Sliding windows

Events at times of an ordered group, and a window of length `w`: at the time `t` an event is live as
long as less than `w` has passed since. Events are `Admitted` under a limit when each of them meets
fewer live ones than the limit. Then every half-open interval of the length of the window has at most
as many of them as the limit (`Admitted.atMostPerWindow`), wherever it begins: the last event in the
interval has met all the others there alive.
-/

namespace AlsaqiBackend.Lib

variable {τ : Type*} [AddCommGroup τ] [LinearOrder τ] [IsOrderedAddMonoid τ]

/-- The times that are live at `t`. -/
def live (w t : τ) (times : List τ) : List τ := times.filter fun a => t - w < a

/-- Every event met fewer live ones before it than the limit. -/
def Admitted (limit : ℕ) (w : τ) (times : List τ) : Prop :=
  ∀ before t after, times = before ++ t :: after → (live w t before).length < limit

/-- No half-open interval of the length of the window has more events than the limit. -/
def AtMostPerWindow (limit : ℕ) (w : τ) (times : List τ) : Prop :=
  ∀ x, (times.filter fun a => x ≤ a ∧ a < x + w).length ≤ limit

variable {limit : ℕ} {w t u : τ} {times times' : List τ}

omit [IsOrderedAddMonoid τ] in
theorem mem_live {a : τ} : a ∈ live w t times ↔ a ∈ times ∧ t - w < a := by simp [live]

omit [IsOrderedAddMonoid τ] in
@[simp]
theorem live_append : live w t (times ++ times') = live w t times ++ live w t times' := by
  simp [live]

/-- What is live later is live now. -/
theorem live_live (h : t ≤ u) : live w u (live w t times) = live w u times := by
  unfold live
  rw [List.filter_filter]
  refine List.filter_congr fun a _ => ?_
  have hle : t - w ≤ u - w := sub_le_sub_right h w
  simpa using fun ha => hle.trans_lt ha

omit [IsOrderedAddMonoid τ] in
/-- No events are admitted. -/
theorem admitted_nil : Admitted limit w ([] : List τ) := by
  intro before t after h
  exact absurd h.symm (by simp)

/-- An element of a list with one more at its end is the last one, or it is an element of the list. -/
theorem last_or_of_append_singleton {α : Type*} {xs before after : List α} {x y : α}
    (h : xs ++ [x] = before ++ y :: after) :
    (before = xs ∧ y = x) ∨ ∃ after', xs = before ++ y :: after' := by
  rcases List.eq_nil_or_concat after with rfl | ⟨after, z, rfl⟩
  · obtain ⟨hxs, hx⟩ := List.append_inj' h rfl
    exact Or.inl ⟨hxs.symm, (List.head_eq_of_cons_eq hx).symm⟩
  · have h' : xs ++ [x] = (before ++ y :: after) ++ [z] := by simp [h]
    exact Or.inr ⟨after, (List.append_inj' h' rfl).1⟩

omit [IsOrderedAddMonoid τ] in
/-- The last event of admitted ones has met fewer live ones than the limit. -/
theorem admitted_append_singleton :
    Admitted limit w (times ++ [t]) ↔ Admitted limit w times ∧ (live w t times).length < limit := by
  constructor
  · intro h
    refine ⟨fun before u after heq => h before u (after ++ [t]) (by simp [heq]), ?_⟩
    exact h times t [] rfl
  · rintro ⟨h, hlast⟩ before u after heq
    obtain ⟨rfl, rfl⟩ | ⟨after', hbefore⟩ := last_or_of_append_singleton heq
    · exact hlast
    · exact h before u after' hbefore

/-- The rule of the sliding window: where every event met fewer live ones than the limit, no interval
of the length of the window has more of them than the limit. -/
theorem Admitted.atMostPerWindow (h : Admitted limit w times) (hsorted : times.Pairwise (· ≤ ·)) :
    AtMostPerWindow limit w times := by
  intro x
  induction times using List.reverseRecOn with
  | nil => simp
  | append_singleton times t ih =>
    obtain ⟨hadm, hlast⟩ := admitted_append_singleton.1 h
    have hrest := ih hadm (List.pairwise_append.1 hsorted).1
    rw [List.filter_append, List.length_append]
    by_cases ht : x ≤ t ∧ t < x + w
    · -- The event is in the interval, so all others in the interval are live at its time.
      have hsub : (times.filter fun a => x ≤ a ∧ a < x + w).Sublist (live w t times) := by
        refine List.monotone_filter_right times fun a ha => ?_
        simp only [decide_eq_true_eq] at ha ⊢
        exact (sub_lt_iff_lt_add.2 ht.2).trans_le ha.1
      have hle := hsub.length_le
      have hone : ([t].filter fun a => x ≤ a ∧ a < x + w).length ≤ 1 := List.length_filter_le _ _
      omega
    · have hnil : [t].filter (fun a => x ≤ a ∧ a < x + w) = [] := by
        rw [List.filter_eq_nil_iff]
        simpa using ht
      rw [hnil, List.length_nil]
      omega

end AlsaqiBackend.Lib

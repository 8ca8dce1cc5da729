import Mathlib.Data.List.Basic

/-!
# Runs of a guarded transition function

A system is a partial step function `step : σ → α → Option σ`: `step s a = none` says that the action
`a` is not possible in the state `s`. `run` performs a list of actions, `Reachable` is what some list of
actions reaches, and the rules of this module carry a fact about one step to every run: `run_invariant`
for an invariant, `along_of_guarded` for one that only steps with a condition keep, `along_iff_guarded`
for a property that holds along a run exactly when every one of its steps meets a condition,
`guarded_congr` for two conditions on the steps, `run_iff_sometime` for one that holds after it
exactly when some step meets one, and `run_iff_guarded` for one that holds at its end exactly when every
step meets one.
-/

namespace AlsaqiBackend.Lib

variable {σ α : Type*}

/-- Perform the actions in turn; `none` when one of them is not possible. -/
def run (step : σ → α → Option σ) : σ → List α → Option σ
  | s, [] => some s
  | s, a :: as => (step s a).bind fun t => run step t as

/-- The states that some list of actions reaches from `s`. -/
def Reachable (step : σ → α → Option σ) (s t : σ) : Prop :=
  ∃ as, run step s as = some t

/-- `P` holds in every state of the run: the first, each one between two actions, and the last. -/
def Along (step : σ → α → Option σ) (P : σ → Prop) : σ → List α → Prop
  | s, [] => P s
  | s, a :: as => P s ∧ ∀ t, step s a = some t → Along step P t as

/-- Every step of the run meets the condition `C` on the state before it and its action. -/
def Guarded (step : σ → α → Option σ) (C : σ → α → Prop) : σ → List α → Prop
  | _, [] => True
  | s, a :: as => ∀ t, step s a = some t → C s a ∧ Guarded step C t as

/-- Some step of the run meets the condition `C` on the state before it and its action. -/
def Sometime (step : σ → α → Option σ) (C : σ → α → Prop) : σ → List α → Prop
  | _, [] => False
  | s, a :: as => ∃ t, step s a = some t ∧ (C s a ∨ Sometime step C t as)

variable {step : σ → α → Option σ}

instance {C : σ → α → Prop} [∀ s a, Decidable (C s a)] :
    ∀ (s : σ) (as : List α), Decidable (Guarded step C s as)
  | _, [] => isTrue trivial
  | s, a :: as =>
    match h : step s a with
    | none => isTrue fun t ht => absurd (h.symm.trans ht) (by simp)
    | some t =>
      have : Decidable (Guarded step C t as) := instDecidableGuarded t as
      decidable_of_iff (C s a ∧ Guarded step C t as) (by simp [Guarded, h])

/-- A run of a nonempty list is its first step followed by a run of the rest. -/
theorem run_cons {s u : σ} {a : α} {as : List α} :
    run step s (a :: as) = some u ↔ ∃ t, step s a = some t ∧ run step t as = some u := by
  simp only [run, Option.bind_eq_some_iff]

/-- What holds of every result of a step that is possible is what holds of its one result. -/
theorem forall_step_iff {P : σ → Prop} {s t : σ} {a : α} (hst : step s a = some t) :
    (∀ u, step s a = some u → P u) ↔ P t := by
  constructor
  · intro h
    exact h t hst
  · intro h u hu
    obtain rfl := Option.some.inj (hst.symm.trans hu)
    exact h

/-- A run with one more action goes on with it. -/
theorem run_concat (s : σ) (as : List α) (a : α) :
    run step s (as ++ [a]) = (run step s as).bind fun t => step t a := by
  induction as generalizing s with
  | nil =>
    simp only [List.nil_append, run, Option.bind_some]
    exact Option.bind_fun_some (step s a)
  | cons b as ih =>
    rw [List.cons_append, run, run, Option.bind_assoc]
    exact congrArg _ (funext ih)

/-- The invariant rule: what every step keeps, every run keeps. -/
theorem run_invariant {I : σ → Prop} (hstep : ∀ s a t, I s → step s a = some t → I t) {s u : σ}
    {as : List α} (hs : I s) (h : run step s as = some u) : I u := by
  induction as generalizing s with
  | nil =>
    rw [run, Option.some.injEq] at h
    exact h ▸ hs
  | cons a as ih =>
    obtain ⟨t, hst, htu⟩ := run_cons.1 h
    exact ih (hstep s a t hs hst) htu

/-- One more step reaches a state. -/
theorem Reachable.tail {s t u : σ} {a : α} (h : Reachable step s t) (hstep : step t a = some u) :
    Reachable step s u := by
  obtain ⟨as, has⟩ := h
  refine ⟨as ++ [a], ?_⟩
  rw [run_concat, has]
  exact hstep

/-- The invariant rule for reachable states. -/
theorem Reachable.invariant {I : σ → Prop} (hstep : ∀ s a t, I s → step s a = some t → I t)
    {s u : σ} (hs : I s) (h : Reachable step s u) : I u := by
  obtain ⟨as, has⟩ := h
  exact run_invariant hstep hs has

/-- The invariant rule for a run whose steps all meet a condition: what every such step keeps holds
along the run. -/
theorem along_of_guarded {I P : σ → Prop} {C : σ → α → Prop} (hP : ∀ s, I s → P s)
    (hstep : ∀ s a t, I s → C s a → step s a = some t → I t) {s : σ} {as : List α} (hs : I s)
    (h : Guarded step C s as) : Along step P s as := by
  induction as generalizing s with
  | nil => exact hP s hs
  | cons a as ih =>
    refine ⟨hP s hs, fun t hst => ?_⟩
    obtain ⟨hC, hrest⟩ := h t hst
    exact ih (hstep s a t hs hC hst) hrest

/-- A condition that holds everywhere. -/
theorem guarded_of_forall {C : σ → α → Prop} (h : ∀ s a, C s a) (s : σ) (as : List α) :
    Guarded step C s as := by
  induction as generalizing s with
  | nil => trivial
  | cons a as ih => exact fun t _ => ⟨h s a, ih t⟩

/-- Two conditions that every step meets are one. -/
theorem Guarded.and {C D : σ → α → Prop} {s : σ} {as : List α} (hC : Guarded step C s as)
    (hD : Guarded step D s as) : Guarded step (fun s a => C s a ∧ D s a) s as := by
  induction as generalizing s with
  | nil => trivial
  | cons a as ih =>
    intro t hst
    obtain ⟨hCs, hCt⟩ := hC t hst
    obtain ⟨hDs, hDt⟩ := hD t hst
    exact ⟨⟨hCs, hDs⟩, ih hCt hDt⟩

/-- The condition is met at the step after a part of the run. -/
theorem Guarded.of_run {C : σ → α → Prop} {s t u : σ} {as bs : List α} {a : α}
    (h : Guarded step C s (as ++ a :: bs)) (hrun : run step s as = some t) (hst : step t a = some u) : C t a := by
  induction as generalizing s with
  | nil =>
    rw [run, Option.some.injEq] at hrun
    subst hrun
    exact (h u hst).1
  | cons b as ih =>
    obtain ⟨v, hv, htail⟩ := run_cons.1 hrun
    exact ih (h v hv).2 htail

/-- Two conditions that say the same of the possible steps, where an invariant holds that the steps with
the first one keep. -/
theorem guarded_congr {I : σ → Prop} {C D : σ → α → Prop}
    (hI : ∀ s a t, I s → C s a → step s a = some t → I t)
    (hCD : ∀ s a t, I s → step s a = some t → (C s a ↔ D s a)) {s : σ} (as : List α) (hs : I s) :
    Guarded step C s as ↔ Guarded step D s as := by
  induction as generalizing s with
  | nil => exact Iff.rfl
  | cons a as ih =>
    refine forall₂_congr fun t hst => ?_
    have hiff := hCD s a t hs hst
    constructor
    · rintro ⟨hC, hrest⟩
      exact ⟨hiff.1 hC, (ih (hI s a t hs hC hst)).1 hrest⟩
    · rintro ⟨hD, hrest⟩
      have hC := hiff.2 hD
      exact ⟨hC, (ih (hI s a t hs hC hst)).2 hrest⟩

/-- Two properties that are the same in every state hold along the same runs. -/
theorem along_congr {P Q : σ → Prop} (h : ∀ s, P s ↔ Q s) (s : σ) (as : List α) :
    Along step P s as ↔ Along step Q s as := by
  induction as generalizing s with
  | nil => exact h s
  | cons a as ih => exact and_congr (h s) (forall₂_congr fun t _ => ih t)

/-- What follows in every state from a property that holds along a run holds along it. -/
theorem Along.mono {P Q : σ → Prop} (h : ∀ s, P s → Q s) {s : σ} {as : List α} (hP : Along step P s as) :
    Along step Q s as := by
  induction as generalizing s with
  | nil => exact h s hP
  | cons a as ih => exact ⟨h s hP.1, fun t hst => ih (hP.2 t hst)⟩

/-- Two properties that hold along a run hold together. -/
theorem Along.and {P Q : σ → Prop} {s : σ} {as : List α} (hP : Along step P s as) (hQ : Along step Q s as) :
    Along step (fun s => P s ∧ Q s) s as := by
  induction as generalizing s with
  | nil => exact ⟨hP, hQ⟩
  | cons a as ih => exact ⟨⟨hP.1, hQ.1⟩, fun t hst => ih (hP.2 t hst) (hQ.2 t hst)⟩

/-- What holds along a run holds where it begins. -/
theorem Along.head {P : σ → Prop} {s : σ} {as : List α} (h : Along step P s as) : P s := by
  cases as with
  | nil => exact h
  | cons a as => exact h.1

/-- And where it ends. -/
theorem Along.last {P : σ → Prop} {s u : σ} {as : List α} (h : Along step P s as)
    (hrun : run step s as = some u) : P u := by
  induction as generalizing s with
  | nil =>
    rw [run, Option.some.injEq] at hrun
    exact hrun ▸ h
  | cons a as ih =>
    obtain ⟨t, hst, htu⟩ := run_cons.1 hrun
    exact ih (h.2 t hst) htu

/-- The rule for a property that can only be lost at a step that breaks the condition: where `I` is
an invariant and, from a state with `I` and `P`, a step keeps `P` exactly when it meets `C`, `P`
holds along a run exactly when all its steps meet `C`. -/
theorem along_iff_guarded {I P : σ → Prop} {C : σ → α → Prop}
    (hI : ∀ s a t, I s → step s a = some t → I t)
    (hP : ∀ s a t, I s → P s → step s a = some t → (P t ↔ C s a)) {s : σ} (as : List α)
    (hsI : I s) (hsP : P s) : Along step P s as ↔ Guarded step C s as := by
  induction as generalizing s with
  | nil => exact ⟨fun _ => trivial, fun _ => hsP⟩
  | cons a as ih =>
    constructor
    · rintro ⟨-, h⟩ t hst
      have hPt : P t := (h t hst).head
      exact ⟨(hP s a t hsI hsP hst).1 hPt, (ih (hI s a t hsI hst) hPt).1 (h t hst)⟩
    · intro h
      refine ⟨hsP, fun t hst => ?_⟩
      obtain ⟨hC, hrest⟩ := h t hst
      have hPt : P t := (hP s a t hsI hsP hst).2 hC
      exact (ih (hI s a t hsI hst) hPt).2 hrest

/-- The condition is met at the first step or later. -/
theorem sometime_cons {C : σ → α → Prop} {s t : σ} {a : α} {as : List α} (hst : step s a = some t) :
    Sometime step C s (a :: as) ↔ C s a ∨ Sometime step C t as := by
  constructor
  · rintro ⟨t', hst', hrest⟩
    obtain rfl := Option.some.inj (hst.symm.trans hst')
    exact hrest
  · intro hrest
    exact ⟨t, hst, hrest⟩

/-- The rule for a property that only steps with a condition bring about, and that then stays: it holds
after a run exactly when it held before, or some step met the condition. -/
theorem run_iff_sometime {I P : σ → Prop} {C : σ → α → Prop}
    (hI : ∀ s a t, I s → step s a = some t → I t)
    (hP : ∀ s a t, I s → step s a = some t → (P t ↔ P s ∨ C s a)) {s u : σ} {as : List α} (hs : I s)
    (h : run step s as = some u) : P u ↔ P s ∨ Sometime step C s as := by
  induction as generalizing s with
  | nil =>
    rw [run, Option.some.injEq] at h
    subst h
    exact ⟨Or.inl, fun h => h.resolve_right id⟩
  | cons a as ih =>
    obtain ⟨t, hst, htu⟩ := run_cons.1 h
    rw [ih (hI s a t hs hst) htu, hP s a t hs hst, or_assoc]
    rw [sometime_cons hst]

/-- Where the steps that meet a condition keep `G`, the first one that does not leads to `B`, and nothing
leads out of `B`, a run ends in `G` or in `B` according to whether all its steps meet the condition. -/
theorem guarded_or_spoiled {I G B : σ → Prop} {C : σ → α → Prop}
    (hI : ∀ s a t, I s → step s a = some t → I t)
    (hG : ∀ s a t, I s → G s → C s a → step s a = some t → G t)
    (hB : ∀ s a t, I s → G s → ¬C s a → step s a = some t → B t)
    (hstay : ∀ s a t, I s → B s → step s a = some t → B t) {s u : σ} {as : List α} (hsI : I s)
    (hsG : G s) (h : run step s as = some u) :
    Guarded step C s as ∧ G u ∨ ¬Guarded step C s as ∧ B u := by
  induction as generalizing s with
  | nil =>
    rw [run, Option.some.injEq] at h
    exact Or.inl ⟨trivial, h ▸ hsG⟩
  | cons a as ih =>
    obtain ⟨t, hst, htu⟩ := run_cons.1 h
    have htI : I t := hI s a t hsI hst
    have hcons : Guarded step C s (a :: as) ↔ C s a ∧ Guarded step C t as := forall_step_iff hst
    rw [hcons]
    by_cases hC : C s a
    · obtain ⟨hrest, hu⟩ | ⟨hrest, hu⟩ := ih htI (hG s a t hsI hsG hC hst) htu
      · exact Or.inl ⟨⟨hC, hrest⟩, hu⟩
      · exact Or.inr ⟨fun hall => hrest hall.2, hu⟩
    · have hinv : ∀ s a t, I s ∧ B s → step s a = some t → I t ∧ B t :=
        fun s a t hs hst => ⟨hI s a t hs.1 hst, hstay s a t hs.1 hs.2 hst⟩
      have hu : I u ∧ B u := run_invariant hinv ⟨htI, hB s a t hsI hsG hC hst⟩ htu
      exact Or.inr ⟨fun hall => hC hall.1, hu.2⟩

/-- The rule for a property of the state where a run ends: it holds exactly when all the steps met the
condition, where `G` gives it and `B` excludes it. -/
theorem run_iff_guarded {I G B P : σ → Prop} {C : σ → α → Prop}
    (hI : ∀ s a t, I s → step s a = some t → I t)
    (hG : ∀ s a t, I s → G s → C s a → step s a = some t → G t)
    (hB : ∀ s a t, I s → G s → ¬C s a → step s a = some t → B t)
    (hstay : ∀ s a t, I s → B s → step s a = some t → B t) {s u : σ} {as : List α} (hsI : I s)
    (hsG : G s) (h : run step s as = some u) (hPG : I u → G u → P u) (hPB : I u → B u → ¬P u) :
    P u ↔ Guarded step C s as := by
  have huI : I u := run_invariant hI hsI h
  obtain ⟨hall, hu⟩ | ⟨hall, hu⟩ := guarded_or_spoiled hI hG hB hstay hsI hsG h
  · exact iff_of_true (hPG huI hu) hall
  · exact iff_of_false (hPB huI hu) hall

/-- In a run that performs all its actions, some step meets a condition on the action alone exactly when
one of the actions does. -/
theorem sometime_iff_exists {C : α → Prop} {s u : σ} {as : List α} (h : run step s as = some u) :
    Sometime step (fun _ a => C a) s as ↔ ∃ a ∈ as, C a := by
  induction as generalizing s with
  | nil => exact iff_of_false id (by simp)
  | cons a as ih =>
    obtain ⟨t, hst, htu⟩ := run_cons.1 h
    rw [List.exists_mem_cons_iff, ← ih htu]
    exact sometime_cons hst

end AlsaqiBackend.Lib

import Mathlib.Data.List.Induction
import Mathlib.Data.List.Nodup
import Mathlib.Data.Set.Insert

/-!
# Grants and revocations

A list of grants and revocations changes a set, one entry after the other: a grant adds its key and a
revocation removes it. `mem_applyAll_iff` says that the last entry of a key decides. Where no key has two
entries the first one does as well (`lastSays_eq_firstSays`), and the result is the set with all that is
granted, without all that is revoked (`applyAll_eq`). `exists_foldlM_applyAll` is for a loop that keeps such
a set in a data structure. The last section is about undoing a list with the reversed entries.
-/

namespace AlsaqiBackend.Lib

variable {α β γ : Type*}

/-- A grant, with `true`, or a revocation of a key. -/
def applyOne (s : Set α) (entry : α × Bool) : Set α :=
  if entry.2 then insert entry.1 s else s \ {entry.1}

/-- Grants and revocations in turn. -/
def applyAll (s : Set α) (entries : List (α × Bool)) : Set α := entries.foldl applyOne s

/-- A loop over a data structure that stands for a set, when each round is one grant or revocation and none
throws. -/
theorem exists_foldlM_applyAll {ε : Type} {abs : β → Set α} {f : β → γ → Except ε β} {g : γ → α × Bool}
    {cs : List γ} (h : ∀ x, ∀ c ∈ cs, ∃ y, f x c = .ok y ∧ abs y = applyOne (abs x) (g c)) (x : β) :
    ∃ y, cs.foldlM f x = .ok y ∧ abs y = applyAll (abs x) (cs.map g) := by
  induction cs generalizing x with
  | nil => exact ⟨x, rfl, rfl⟩
  | cons c cs ih =>
    obtain ⟨y, hy, habs⟩ := h x c List.mem_cons_self
    obtain ⟨z, hz, hrest⟩ := ih (fun x c' hmem => h x c' (List.mem_cons_of_mem _ hmem)) y
    refine ⟨z, ?_, ?_⟩
    · rw [List.foldlM_cons, hy]
      exact hz
    · rw [hrest, habs]
      rfl

variable [DecidableEq α]

/-- What the last entry of a key says. -/
def lastSays (entries : List (α × Bool)) (a : α) : Option Bool :=
  entries.foldl (fun last entry => if entry.1 = a then some entry.2 else last) none

/-- What the first entry of a key says. -/
def firstSays (entries : List (α × Bool)) (a : α) : Option Bool :=
  (entries.find? fun entry => entry.1 = a).map Prod.snd

variable {s : Set α} {entries : List (α × Bool)} {entry : α × Bool} {a : α}

theorem lastSays_concat : lastSays (entries ++ [entry]) a =
    if entry.1 = a then some entry.2 else lastSays entries a := by
  unfold lastSays
  rw [List.foldl_append]
  rfl

theorem mem_applyOne_iff : a ∈ applyOne s entry ↔ if entry.1 = a then entry.2 = true else a ∈ s := by
  unfold applyOne
  by_cases ha : entry.1 = a
  · subst ha
    cases entry.2 with
    | true => simp
    | false => simp
  · have ha' : a ≠ entry.1 := Ne.symm ha
    rw [if_neg ha]
    cases entry.2 with
    | true => simp [ha']
    | false => simp [ha']

/-- The last entry of a key decides; a key without one stays as it was. -/
theorem mem_applyAll_iff :
    a ∈ applyAll s entries ↔ lastSays entries a = some true ∨ (lastSays entries a = none ∧ a ∈ s) := by
  induction entries using List.reverseRecOn with
  | nil => simp [applyAll, lastSays]
  | append_singleton entries entry ih =>
    have happly : applyAll s (entries ++ [entry]) = applyOne (applyAll s entries) entry := by
      unfold applyAll
      rw [List.foldl_append]
      rfl
    rw [happly, mem_applyOne_iff, lastSays_concat]
    by_cases ha : entry.1 = a
    · simp [ha]
    · simp only [if_neg ha]
      exact ih

/-- Grants alone add their keys. -/
theorem mem_applyAll_grants {keys : List α} :
    a ∈ applyAll s (keys.map (·, true)) ↔ a ∈ s ∨ a ∈ keys := by
  unfold applyAll
  induction keys generalizing s with
  | nil => simp
  | cons key keys ih =>
    rw [List.map_cons, List.foldl_cons, ih, mem_applyOne_iff, List.mem_cons]
    by_cases ha : key = a
    · simp [ha]
    · simp [ha, Ne.symm ha]

theorem lastSays_eq_none_iff : lastSays entries a = none ↔ a ∉ entries.map Prod.fst := by
  induction entries using List.reverseRecOn with
  | nil => simp [lastSays]
  | append_singleton entries entry ih =>
    rw [lastSays_concat, List.map_append, List.mem_append, not_or, ← ih]
    by_cases ha : entry.1 = a
    · simp [ha]
    · simp [ha, Ne.symm ha]

/-- Without the entries of some keys, those keys have no entry and the others the same. -/
theorem lastSays_filter (p : α → Bool) :
    lastSays (entries.filter fun entry => p entry.1) a = if p a then lastSays entries a else none := by
  induction entries using List.reverseRecOn with
  | nil => simp [lastSays]
  | append_singleton entries entry ih =>
    rw [List.filter_append, lastSays_concat]
    cases hp : p entry.1 with
    | true =>
      rw [List.filter_singleton, hp, cond_true, lastSays_concat, ih]
      by_cases ha : entry.1 = a
      · subst ha
        simp [hp]
      · simp [ha]
    | false =>
      rw [List.filter_singleton, hp, cond_false, List.append_nil, ih]
      by_cases ha : entry.1 = a
      · subst ha
        simp [hp]
      · simp [ha]

/-- What the last entry of a key says, an entry says. -/
theorem mem_of_lastSays_eq_some {b : Bool} (h : lastSays entries a = some b) : (a, b) ∈ entries := by
  induction entries using List.reverseRecOn with
  | nil => cases h
  | append_singleton entries entry ih =>
    rw [lastSays_concat] at h
    split_ifs at h with ha
    · obtain rfl := Option.some.inj h
      subst ha
      exact List.mem_append_right _ (List.mem_singleton_self _)
    · exact List.mem_append_left _ (ih h)

/-- Where no key has two entries, the entry of a key is what the last one says. -/
theorem lastSays_eq_some_iff (h : (entries.map Prod.fst).Nodup) {b : Bool} :
    lastSays entries a = some b ↔ (a, b) ∈ entries := by
  refine ⟨mem_of_lastSays_eq_some, fun hmem => ?_⟩
  cases hlast : lastSays entries a with
  | none => exact absurd (List.mem_map_of_mem hmem) (lastSays_eq_none_iff.1 hlast)
  | some c =>
    have hsame : (a, c) = (a, b) :=
      List.inj_on_of_nodup_map h (mem_of_lastSays_eq_some hlast) hmem rfl
    rw [(Prod.mk.inj hsame).2]

/-- Where no key has two entries, the first one of a key is the last. -/
theorem lastSays_eq_firstSays (h : (entries.map Prod.fst).Nodup) :
    lastSays entries a = firstSays entries a := by
  unfold firstSays
  cases hfound : entries.find? fun entry => entry.1 = a with
  | none =>
    refine lastSays_eq_none_iff.2 fun hmem => ?_
    obtain ⟨entry, hentry, hkey⟩ := List.mem_map.1 hmem
    exact List.find?_eq_none.1 hfound entry hentry (decide_eq_true hkey)
  | some entry =>
    have hkey : entry.1 = a := by simpa using List.find?_some hfound
    refine (lastSays_eq_some_iff h).2 ?_
    rw [← hkey]
    exact List.mem_of_find?_eq_some hfound

/-- Where no key has two entries, the result is all that is granted, without all that is revoked. -/
theorem applyAll_eq (h : (entries.map Prod.fst).Nodup) :
    applyAll s entries = (s ∪ {a | (a, true) ∈ entries}) \ {a | (a, false) ∈ entries} := by
  ext a
  rw [mem_applyAll_iff, Set.mem_sdiff, Set.mem_union, Set.mem_ofPred_eq, Set.mem_ofPred_eq,
    ← lastSays_eq_some_iff h, ← lastSays_eq_some_iff h]
  match lastSays entries a with
  | none => simp
  | some true => simp
  | some false => simp

/-! ## Undoing -/

/-- A list changes nothing exactly when the last entry of each key says what the set has. -/
theorem applyAll_eq_self_iff :
    applyAll s entries = s ↔ ∀ a b, lastSays entries a = some b → (a ∈ s ↔ b = true) := by
  rw [Set.ext_iff]
  refine forall_congr' fun a => ?_
  rw [mem_applyAll_iff]
  cases lastSays entries a with
  | none => simp
  | some b =>
    simp only [Option.some.injEq, forall_eq', reduceCtorEq, false_and, or_false]
    exact Iff.comm

theorem lastSays_map_not :
    lastSays (entries.map fun entry => (entry.1, !entry.2)) a = (lastSays entries a).map (!·) := by
  induction entries using List.reverseRecOn with
  | nil => rfl
  | append_singleton entries entry ih =>
    rw [List.map_append, List.map_singleton, lastSays_concat, lastSays_concat, ih]
    by_cases ha : entry.1 = a
    · rw [if_pos ha, if_pos ha, Option.map_some]
    · rw [if_neg ha, if_neg ha]

/-- A list and then the reversed entries, in the same order, change nothing exactly when the last entry of
each key asks for a change. -/
theorem applyAll_undo_eq_iff :
    applyAll (applyAll s entries) (entries.map fun entry => (entry.1, !entry.2)) = s ↔
      ∀ a b, lastSays entries a = some b → (a ∈ s ↔ b = false) := by
  rw [Set.ext_iff]
  refine forall_congr' fun a => ?_
  rw [mem_applyAll_iff, mem_applyAll_iff, lastSays_map_not]
  cases lastSays entries a with
  | none => simp
  | some b =>
    simp only [Option.map_some, Option.some.injEq, Bool.not_eq_true', forall_eq', reduceCtorEq,
      false_and, or_false]
    exact Iff.comm

end AlsaqiBackend.Lib

import Mathlib.Data.List.Nodup
import Mathlib.Data.List.Perm.Basic

/-!
# Lists with an entry that changes

A list stands for a table, or for the calls that are under way, and one entry of it is changed at a
time. The lemmas say which entries the changed list has, and which one is found by its key.
-/

namespace AlsaqiBackend.Lib

variable {α : Type*} {l : List α} {i j : ℕ} {x y : α}

/-- An entry of the changed list is the changed one, or an old one at another place. -/
theorem getElem?_modify_cases {f : α → α} (h : (l.modify i f)[j]? = some x) :
    (j = i ∧ ∃ y, l[i]? = some y ∧ x = f y) ∨ (j ≠ i ∧ l[j]? = some x) := by
  rw [List.getElem?_modify] at h
  obtain ⟨y, hy, hx⟩ := Option.map_eq_some_iff.1 h
  by_cases hij : i = j
  · subst hij
    rw [if_pos rfl] at hx
    exact Or.inl ⟨rfl, y, hy, hx.symm⟩
  · rw [if_neg hij] at hx
    exact Or.inr ⟨Ne.symm hij, hx ▸ hy⟩

/-- An entry of the changed list is an old one, or an old one that has been changed. -/
theorem mem_modify_cases {f : α → α} (h : x ∈ l.modify i f) : x ∈ l ∨ ∃ y ∈ l, x = f y := by
  obtain ⟨j, hj⟩ := List.mem_iff_getElem?.1 h
  rcases getElem?_modify_cases hj with ⟨-, y, hy, hx⟩ | ⟨-, hold⟩
  · exact Or.inr ⟨y, List.mem_of_getElem? hy, hx⟩
  · exact Or.inl (List.mem_of_getElem? hold)

/-- The entry at the place is the changed one. -/
theorem getElem?_modify_of_eq_some (h : l[i]? = some x) (f : α → α) :
    (l.modify i f)[i]? = some (f x) := by
  rw [List.getElem?_modify_eq, h, Option.map_eq_map, Option.map_some]

/-- A change that gives a field a fixed value sets that value among the fields. -/
theorem map_modify_of_forall_eq {β : Type*} {f : α → α} {g : α → β} {b : β} (h : ∀ x, g (f x) = b) :
    (l.modify i f).map g = (l.map g).set i b := by
  apply List.ext_getElem?
  intro j
  by_cases hij : i = j
  · subst hij
    rw [List.getElem?_map, List.getElem?_modify_eq, List.getElem?_set_self', List.getElem?_map,
      Option.map_eq_map, Option.map_eq_map, Option.map_map, Option.map_map]
    congr 1
    funext x
    exact h x
  · rw [List.getElem?_map, List.getElem?_modify_ne f l hij, List.getElem?_set_ne hij,
      List.getElem?_map]

/-- A change that keeps a field keeps that field of every entry. -/
theorem map_modify_of_forall {β : Type*} {f : α → α} {g : α → β} (h : ∀ x, g (f x) = g x) (l : List α) (i : ℕ) :
    (l.modify i f).map g = l.map g := by
  apply List.ext_getElem?
  intro j
  rw [List.getElem?_map, List.getElem?_map, List.getElem?_modify]
  split_ifs
  · rw [Option.map_eq_map, Option.map_map]
    congr 1
    funext x
    exact h x
  · rw [Option.map_eq_map, Option.map_id_fun', id_eq]

/-- What stands in a list with one element set is that element, or what stood there. -/
theorem getElem?_set_cases (h : (l.set i y)[j]? = some x) : (j = i ∧ x = y) ∨ (j ≠ i ∧ l[j]? = some x) := by
  rw [List.getElem?_set] at h
  split_ifs at h with hij hlt
  · exact Or.inl ⟨hij.symm, (Option.some.inj h).symm⟩
  · exact Or.inr ⟨fun heq => hij heq.symm, h⟩

/-- The entry that stood at a place of a list without repetitions is gone when another one is put
there. -/
theorem notMem_set_of_nodup (h : l.Nodup) (hx : l[i]? = some x) (hne : y ≠ x) : x ∉ l.set i y := by
  intro hmem
  obtain ⟨k, hk⟩ := List.mem_iff_getElem?.1 hmem
  rw [List.getElem?_set] at hk
  have hi : i < l.length := (List.getElem?_eq_some_iff.1 hx).1
  split_ifs at hk with hik
  · exact hne (Option.some.inj hk)
  · exact hik ((List.getElem?_inj hi h).1 (hx.trans hk.symm))

/-- An entry of a list with one more at its end is an old one, or the new one at the end. -/
theorem getElem?_concat_cases (h : (l ++ [y])[i]? = some x) :
    l[i]? = some x ∨ (i = l.length ∧ x = y) := by
  rw [List.getElem?_append] at h
  split_ifs at h with hi
  · exact Or.inl h
  · have hzero : i - l.length = 0 := by
      by_contra hne
      rw [List.getElem?_eq_none (by simp; omega)] at h
      cases h
    rw [hzero] at h
    exact Or.inr ⟨by omega, (Option.some.inj h).symm⟩

/-- The last entry is changed. -/
theorem modify_concat_length (l : List α) (y : α) (f : α → α) :
    (l ++ [y]).modify l.length f = l ++ [f y] := by
  apply List.ext_getElem?
  intro j
  rw [List.getElem?_modify, List.getElem?_append, List.getElem?_append]
  rcases Nat.lt_trichotomy j l.length with hj | rfl | hj
  · simp [hj, (Nat.ne_of_lt hj).symm]
  · simp
  · have hout : ¬ j < l.length := by omega
    have hpos : j - l.length ≠ 0 := by omega
    simp [hout, Nat.ne_of_lt hj, hpos]

/-- An entry before the last one is changed. -/
theorem modify_concat_of_lt (hi : i < l.length) (y : α) (f : α → α) :
    (l ++ [y]).modify i f = l.modify i f ++ [y] := by
  apply List.ext_getElem?
  intro j
  rw [List.getElem?_modify, List.getElem?_append, List.getElem?_append, List.length_modify,
    List.getElem?_modify]
  by_cases hj : j < l.length
  · rw [if_pos hj, if_pos hj]
  · have hij : i ≠ j := by omega
    rw [if_neg hj, if_neg hj]
    simp only [if_neg hij]
    rw [Option.map_eq_map, Option.map_id_fun', id_eq]

/-- Putting another entry in a place keeps the number of entries with a property that both have, or
neither. -/
theorem countP_set_of_eq {p : α → Bool} (h : l[i]? = some x) (hp : p y = p x) :
    (l.set i y).countP p = l.countP p := by
  obtain ⟨hi, rfl⟩ := List.getElem?_eq_some_iff.1 h
  rw [List.countP_set hi, hp]
  split_ifs with hx
  · have hpos : 0 < l.countP p := List.countP_pos_iff.2 ⟨_, List.getElem_mem hi, hx⟩
    omega
  · omega

/-- An entry that gets a property adds one to their number. -/
theorem countP_set_of_new {p : α → Bool} (h : l[i]? = some x) (hx : p x = false) (hy : p y = true) :
    (l.set i y).countP p = l.countP p + 1 := by
  obtain ⟨hi, rfl⟩ := List.getElem?_eq_some_iff.1 h
  rw [List.countP_set hi, hx, hy]
  simp

/-- When another entry is put in a place, one that has the property if the old one had it, there is an
entry with the property exactly when there was one, or the new one has it. -/
theorem exists_mem_set_iff {p : α → Prop} (hx : l[i]? = some x) (hp : p x → p y) :
    (∃ z ∈ l.set i y, p z) ↔ (∃ z ∈ l, p z) ∨ p y := by
  have hi : i < l.length := (List.getElem?_eq_some_iff.1 hx).1
  constructor
  · rintro ⟨z, hz, hpz⟩
    rcases List.mem_or_eq_of_mem_set hz with hold | rfl
    · exact Or.inl ⟨z, hold, hpz⟩
    · exact Or.inr hpz
  · rintro (⟨z, hz, hpz⟩ | hpy)
    · obtain ⟨j, hj⟩ := List.mem_iff_getElem?.1 hz
      by_cases hij : i = j
      · subst hij
        obtain rfl := Option.some.inj (hx.symm.trans hj)
        exact ⟨y, List.mem_set hi y, hp hpz⟩
      · refine ⟨z, List.mem_iff_getElem?.2 ⟨j, ?_⟩, hpz⟩
        rw [List.getElem?_set_ne hij, hj]
    · exact ⟨y, List.mem_set hi y, hpy⟩

/-! ## Keys -/

section keys

variable {β : Type*} [DecidableEq β] {key : α → β} {k : β}

/-- The entry that is found by a key has it. -/
theorem of_find?_key (h : l.find? (fun x => key x = k) = some x) : x ∈ l ∧ key x = k := by
  have hkey := List.find?_some h
  exact ⟨List.mem_of_find?_eq_some h, of_decide_eq_true hkey⟩

theorem ne_of_find?_key (h : l.find? (fun x => key x = k) = none) (hx : x ∈ l) : key x ≠ k := by
  intro heq
  exact List.find?_eq_none.1 h x hx (decide_eq_true heq)

/-- Without repeated keys, the entry with a key is found by it. -/
theorem find?_key_of_mem (hkeys : (l.map key).Nodup) (hx : x ∈ l) (h : key x = k) :
    l.find? (fun x => key x = k) = some x := by
  cases hfound : l.find? fun x => key x = k with
  | none => exact absurd h (ne_of_find?_key hfound hx)
  | some found =>
    obtain ⟨hmem, hkey⟩ := of_find?_key hfound
    rw [List.inj_on_of_nodup_map hkeys hmem hx (hkey.trans h.symm)]

theorem any_key_eq_false (h : ∀ x ∈ l, key x ≠ k) : (l.any fun x => key x = k) = false := by
  rw [List.any_eq_false]
  intro x hx heq
  exact h x hx (of_decide_eq_true heq)

end keys

/-- A list without repeated keys has at most one entry exactly when all its entries have one key. -/
theorem length_le_one_iff_of_nodup {β : Type*} {f : α → β} (h : (l.map f).Nodup) :
    l.length ≤ 1 ↔ ∀ x ∈ l, ∀ y ∈ l, f x = f y := by
  match l with
  | [] => simp
  | [x] => simp
  | x :: y :: l =>
    have hne : f x ≠ f y := by
      rw [List.map_cons, List.map_cons, List.nodup_cons] at h
      exact fun heq => h.1 (heq ▸ List.mem_cons_self)
    constructor
    · intro hlength
      simp at hlength
    · intro hall
      exact absurd (hall x (by simp) y (by simp)) hne

/-- A list without one of its entries has one entry less that counts, if that one does. -/
theorem countP_eraseIdx (p : α → Bool) (h : l[i]? = some x) :
    (l.eraseIdx i).countP p + (if p x then 1 else 0) = l.countP p := by
  obtain ⟨hi, rfl⟩ := List.getElem?_eq_some_iff.1 h
  have hperm : (l[i] :: l.eraseIdx i).Perm l := List.getElem_cons_eraseIdx_perm hi
  rw [← hperm.countP_eq p, List.countP_cons]

/-- Putting another entry in a place takes out what the old one contributed and puts in what the new one does.
-/
theorem flatMap_set_perm {β : Type*} (f : α → List β) (h : l[i]? = some x) :
    ((l.set i y).flatMap f ++ f x).Perm (l.flatMap f ++ f y) := by
  induction l generalizing i with
  | nil => cases h
  | cons z l ih =>
    cases i with
    | zero =>
      obtain rfl := Option.some.inj h
      rw [List.set_cons_zero, List.flatMap_cons, List.flatMap_cons]
      calc (f y ++ l.flatMap f ++ f z).Perm (f z ++ (f y ++ l.flatMap f)) := List.perm_append_comm
        _ |>.Perm (f z ++ (l.flatMap f ++ f y)) := List.perm_append_comm.append_left _
        _ |>.Perm (f z ++ l.flatMap f ++ f y) := by rw [List.append_assoc]
    | succ i =>
      rw [List.set_cons_succ, List.flatMap_cons, List.flatMap_cons, List.append_assoc, List.append_assoc]
      exact (ih h).append_left _

end AlsaqiBackend.Lib

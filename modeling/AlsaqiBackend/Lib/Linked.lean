import Mathlib.Data.Set.Finite.List
import Mathlib.Data.List.Nodup
import Mathlib.Data.List.Perm.Basic
import Mathlib.Data.Fintype.EquivFin
import Mathlib.Order.WellFounded

/-!
# Linked lists of keyed items

Every item has a key and names the key of the item before it. A list is `Linked` from a root when the
first item names the root and every later one names the key of the item in front of it. A list is
`Intact`, whatever its order, when no two items name the same key and every item names the root or
the key of an item of the list.

- A linked list with different keys is intact (`Linked.intact`), and its order is the only one in
  which its items are linked (`Linked.unique`).
- An intact list without cycles is a linked list in some order (`Intact.exists_linked`).
- What is left of a linked list after deletions names only keys that are left exactly when it is a
  beginning of the list (`Linked.sublist_closed_iff`).
-/

namespace AlsaqiBackend.Lib

variable {α κ : Type*} (key prev : α → κ)

/-- The list is linked from `p`. -/
def Linked (p : κ) : List α → Prop
  | [] => True
  | a :: l => prev a = p ∧ Linked (key a) l

/-- The key that the next item of a list linked from `p` names. -/
def tip (p : κ) : List α → κ
  | [] => p
  | a :: l => tip (key a) l

/-- No two items name the same key, and every item names the root or the key of an item. -/
def Intact (p : κ) (l : List α) : Prop :=
  (∀ a ∈ l, prev a = p ∨ prev a ∈ l.map key) ∧ (l.map prev).Nodup

/-- An item of the list goes from the key `k` to the key `k'`. -/
def Feeds (l : List α) (k k' : κ) : Prop := ∃ a ∈ l, prev a = k ∧ key a = k'

/-- No way from a key along the items leads back to it. -/
def CycleFree (l : List α) : Prop := ∀ k, ¬ Relation.TransGen (Feeds key prev l) k k

variable {key prev} {p : κ} {l l' : List α}

/-- Two linked parts make a linked list when the second is linked from the tip of the first. -/
theorem linked_append : Linked key prev p (l ++ l') ↔
    Linked key prev p l ∧ Linked key prev (tip key p l) l' := by
  induction l generalizing p with
  | nil => simp [Linked, tip]
  | cons a l ih => simp [Linked, tip, ih, and_assoc]

@[simp]
theorem tip_append : tip key p (l ++ l') = tip key (tip key p l) l' := by
  induction l generalizing p with
  | nil => rfl
  | cons a l ih => simp [tip, ih]

/-- Whether a list is linked depends only on its keys and on the keys that its items name. -/
theorem Linked.congr {β : Type*} {key' prev' : β → κ} {m : List β} (h : Linked key prev p l)
    (hkey : l.map key = m.map key') (hprev : l.map prev = m.map prev') :
    Linked key' prev' p m := by
  induction l generalizing m p with
  | nil => rw [List.map_eq_nil_iff.1 hkey.symm]; trivial
  | cons a l ih =>
    cases m with
    | nil => simp at hkey
    | cons b m =>
      rw [List.map_cons, List.map_cons, List.cons.injEq] at hkey hprev
      refine ⟨hprev.1.symm.trans h.1, ?_⟩
      rw [← hkey.1]
      exact ih h.2 hkey.2 hprev.2

/-- Whether a list is intact depends only on its keys and on the keys that its items name. -/
theorem Intact.congr {β : Type*} {key' prev' : β → κ} {m : List β} (h : Intact key prev p l)
    (hkey : l.map key = m.map key') (hprev : l.map prev = m.map prev') :
    Intact key' prev' p m := by
  refine ⟨fun b hb => ?_, hprev ▸ h.2⟩
  have hmem : prev' b ∈ l.map prev := hprev ▸ List.mem_map_of_mem hb
  obtain ⟨a, ha, hab⟩ := List.mem_map.1 hmem
  rw [← hkey, ← hab]
  exact h.1 a ha

/-- The keys that the items of a linked list name, and its tip, are the root and its keys. -/
theorem Linked.map_prev (h : Linked key prev p l) :
    l.map prev ++ [tip key p l] = p :: l.map key := by
  induction l generalizing p with
  | nil => rfl
  | cons a l ih =>
    obtain ⟨hp, hl⟩ := h
    rw [List.map_cons, List.cons_append, tip, ih hl, hp, List.map_cons]

/-- A linked list whose keys are different, and different from the root, is intact. -/
theorem Linked.intact (h : Linked key prev p l) (hnd : (p :: l.map key).Nodup) :
    Intact key prev p l := by
  have hmap := h.map_prev
  rw [← hmap] at hnd
  refine ⟨fun a ha => ?_, hnd.of_append_left⟩
  have hmem : prev a ∈ p :: l.map key := by
    rw [← hmap]
    exact List.mem_append_left _ (List.mem_map_of_mem ha)
  exact List.mem_cons.1 hmem

/-- Two linked lists of the same items, no two of which name the same key, are the same list. -/
theorem Linked.unique (h : Linked key prev p l) (h' : Linked key prev p l') (hperm : l.Perm l')
    (hnd : (l.map prev).Nodup) : l = l' := by
  induction l generalizing p l' with
  | nil => exact hperm.nil_eq
  | cons a l ih =>
    cases l' with
    | nil => simp at hperm
    | cons b l' =>
      -- Both first items name the root, so they are the same.
      have hab : a = b := by
        have ha : a ∈ b :: l' := hperm.mem_iff.1 (by simp)
        have hndb : ((b :: l').map prev).Nodup := (hperm.map prev).nodup_iff.1 hnd
        exact List.inj_on_of_nodup_map hndb ha (by simp) (h.1.trans h'.1.symm)
      subst hab
      rw [ih h.2 h'.2 hperm.cons_inv (List.nodup_cons.1 hnd).2]

/-- A part of the list has only the ways of the list. -/
theorem Feeds.mono (hsub : ∀ a ∈ l, a ∈ l') {k k' : κ} (h : Feeds key prev l k k') :
    Feeds key prev l' k k' := by
  obtain ⟨a, ha, hp, hk⟩ := h
  exact ⟨a, hsub a ha, hp, hk⟩

/-- A part of a list without cycles has none. -/
theorem CycleFree.mono (h : CycleFree key prev l') (hsub : ∀ a ∈ l, a ∈ l') :
    CycleFree key prev l :=
  fun k hk => h k (Relation.TransGen.mono (fun _ _ => Feeds.mono hsub) k k hk)

/-- Along a linked list there is a way from the root to every key. -/
theorem Linked.transGen (h : Linked key prev p l) {k : κ} (hk : k ∈ l.map key) :
    Relation.TransGen (Feeds key prev l) p k := by
  induction l generalizing p with
  | nil => simp at hk
  | cons a l ih =>
    have hfirst : Feeds key prev (a :: l) p (key a) := ⟨a, by simp, h.1, rfl⟩
    rw [List.map_cons, List.mem_cons] at hk
    rcases hk with rfl | hk
    · exact .single hfirst
    · have hsub : ∀ b ∈ l, b ∈ a :: l := fun b hb => by simp [hb]
      exact .head hfirst (Relation.TransGen.mono (fun _ _ => Feeds.mono hsub) _ _ (ih h.2 hk))

/-- Without cycles, the root and the keys of a linked list are different. -/
theorem Linked.nodup_of_cycleFree (h : Linked key prev p l) (hcf : CycleFree key prev l) :
    (p :: l.map key).Nodup := by
  induction l generalizing p with
  | nil => simp
  | cons a l ih =>
    rw [List.nodup_cons]
    exact ⟨fun hmem => hcf p (h.transGen hmem), ih h.2 (hcf.mono fun b hb => by simp [hb])⟩

/-- Where an item's key determines the key that it names, and no key is the root, the root and the
keys of a linked list are different. -/
theorem Linked.nodup_of_determined (h : Linked key prev p l) (hroot : p ∉ l.map key)
    (hdet : ∀ a ∈ l, ∀ b ∈ l, key a = key b → prev a = prev b) : (p :: l.map key).Nodup := by
  induction l using List.reverseRecOn with
  | nil => simp
  | append_singleton l a ih =>
    rw [linked_append] at h
    obtain ⟨hl, ha, -⟩ := h
    rw [List.map_append, List.mem_append, not_or] at hroot
    have hnd : (p :: l.map key).Nodup := ih hl hroot.1
      fun b hb c hc => hdet b (by simp [hb]) c (by simp [hc])
    -- If the last key were an earlier one, its item would name what an earlier item names.
    have hlast : key a ∉ l.map key := by
      intro hmem
      obtain ⟨b, hb, hkb⟩ := List.mem_map.1 hmem
      have hprev : prev b = tip key p l := (hdet b (by simp [hb]) a (by simp) hkb).trans ha
      rw [← hl.map_prev] at hnd
      exact List.disjoint_of_nodup_append hnd (List.mem_map_of_mem hb) (by simp [hprev])
    rw [List.map_append, ← List.cons_append, List.nodup_append]
    refine ⟨hnd, by simp, ?_⟩
    rintro k hk k' hk' rfl
    simp only [List.map_cons, List.map_nil, List.mem_singleton] at hk' hroot
    subst hk'
    rcases List.mem_cons.1 hk with heq | hk
    · exact hroot.2 heq.symm
    · exact hlast hk

/-- A relation along which a rank grows has no cycle. -/
theorem not_transGen_self_of_rank {r : κ → κ → Prop} (rank : κ → ℕ)
    (h : ∀ k k', r k k' → rank k < rank k') (k : κ) : ¬ Relation.TransGen r k k := by
  have hgrow : ∀ k', Relation.TransGen r k k' → rank k < rank k' := by
    intro k' hk'
    induction hk' with
    | single hstep => exact h _ _ hstep
    | tail _ hstep ih => exact ih.trans (h _ _ hstep)
  intro hcycle
  exact lt_irrefl _ (hgrow k hcycle)

/-- Whether a list is intact does not depend on its order. -/
theorem Intact.perm (h : Intact key prev p l) (hperm : l.Perm l') : Intact key prev p l' := by
  refine ⟨fun a ha => ?_, (hperm.map prev).nodup_iff.1 h.2⟩
  rcases h.1 a (hperm.mem_iff.2 ha) with hp | hk
  · exact Or.inl hp
  · exact Or.inr ((hperm.map key).mem_iff.1 hk)

/-- A nonempty list without cycles has an item that no item names. -/
theorem CycleFree.exists_last (h : CycleFree key prev l) (hne : l ≠ []) :
    ∃ a ∈ l, key a ∉ l.map prev := by
  -- The items ordered by the ways between their keys: a last one exists, as there are finitely many.
  let r : {a // a ∈ l} → {a // a ∈ l} → Prop := fun a b =>
    Relation.TransGen (Feeds key prev l) (key b.1) (key a.1)
  have : Finite {a // a ∈ l} := (List.finite_toSet l).to_subtype
  have : IsTrans {a // a ∈ l} r := ⟨fun a b c hab hbc => hbc.trans hab⟩
  have : Std.Irrefl r := ⟨fun a => h (key a.1)⟩
  obtain ⟨a, ha⟩ := List.exists_mem_of_ne_nil l hne
  obtain ⟨⟨m, hm⟩, -, hmin⟩ :=
    (Finite.wellFounded_of_trans_of_irrefl r).has_min Set.univ ⟨⟨a, ha⟩, trivial⟩
  refine ⟨m, hm, fun hnamed => ?_⟩
  obtain ⟨b, hb, hbm⟩ := List.mem_map.1 hnamed
  exact hmin ⟨b, hb⟩ trivial (.single ⟨b, hb, hbm, rfl⟩)

/-- An intact list without cycles is linked in some order. -/
theorem Intact.exists_linked (h : Intact key prev p l) (hcf : CycleFree key prev l) :
    ∃ l', l'.Perm l ∧ Linked key prev p l' := by
  -- By induction on the number of items: the item that no item names comes last.
  induction hn : l.length generalizing l with
  | zero => exact ⟨[], by rw [List.length_eq_zero_iff.1 hn], trivial⟩
  | succ n ih =>
    have hne : l ≠ [] := by
      rintro rfl
      simp at hn
    obtain ⟨a, ha, hlast⟩ := hcf.exists_last hne
    obtain ⟨s, t, rfl⟩ := List.append_of_mem ha
    obtain ⟨hnames, hnd⟩ := h
    have hperm : (s ++ a :: t).Perm (a :: (s ++ t)) := List.perm_middle
    have hsub : ∀ b ∈ s ++ t, b ∈ s ++ a :: t := fun b hb => hperm.mem_iff.2 (by simp [hb])
    have hkeys : ∀ k ∈ (s ++ a :: t).map key, k = key a ∨ k ∈ (s ++ t).map key := by
      intro k hk
      simpa using (hperm.map key).mem_iff.1 hk
    have hnd' : (prev a :: (s ++ t).map prev).Nodup := (hperm.map prev).nodup_iff.1 hnd
    have hrest : Intact key prev p (s ++ t) := by
      refine ⟨fun b hb => ?_, (List.nodup_cons.1 hnd').2⟩
      rcases hnames b (hsub b hb) with hp | hk
      · exact Or.inl hp
      · rcases hkeys _ hk with hka | hk
        · exact absurd (hka ▸ List.mem_map_of_mem (hsub b hb)) hlast
        · exact Or.inr hk
    have hlen : (s ++ t).length = n := by
      have := hperm.length_eq
      rw [hn, List.length_cons] at this
      omega
    obtain ⟨l', hl', hlinked⟩ := ih hrest (hcf.mono hsub) hlen
    refine ⟨l' ++ [a], ?_, linked_append.2 ⟨hlinked, ?_, trivial⟩⟩
    · exact (List.perm_append_singleton a l').trans ((hl'.cons a).trans hperm.symm)
    · -- The key that `a` names is the root or a key, and no other item names it: it is the tip.
      have hroot : prev a ∈ p :: l'.map key := by
        rcases hnames a ha with hp | hk
        · exact List.mem_cons.2 (Or.inl hp)
        · rcases hkeys _ hk with hka | hk
          · exact absurd (hka ▸ List.mem_map_of_mem ha) hlast
          · exact List.mem_cons_of_mem _ ((hl'.map key).mem_iff.2 hk)
      rw [← hlinked.map_prev, List.mem_append, List.mem_singleton] at hroot
      rcases hroot with hmem | htip
      · exact absurd ((hl'.map prev).mem_iff.1 hmem) (List.nodup_cons.1 hnd').1
      · exact htip

/-- Items left of a linked list that name only keys that are left are none: the first of them names
the key of an item before it. -/
theorem Linked.sublist_eq_nil (h : Linked key prev p l) (hnd : (p :: l.map key).Nodup)
    (hsub : l'.Sublist l) (hclosed : ∀ a ∈ l', prev a ∈ l'.map key) : l' = [] := by
  induction l generalizing p with
  | nil => exact List.sublist_nil.1 hsub
  | cons a l ih =>
    cases hsub with
    | cons _ hsub => exact ih h.2 (List.nodup_cons.1 hnd).2 hsub
    | @cons_cons l' _ _ hsub =>
      have hmem := hclosed a (by simp)
      rw [h.1] at hmem
      have hsub' : ((a :: l').map key).Sublist ((a :: l).map key) := (hsub.cons_cons a).map key
      exact absurd (hsub'.subset hmem) (List.nodup_cons.1 hnd).1

/-- What is left of a linked list names only the root and keys that are left exactly when it is a
beginning of the list. -/
theorem Linked.sublist_closed_iff (h : Linked key prev p l) (hnd : (p :: l.map key).Nodup)
    (hsub : l'.Sublist l) : (∀ a ∈ l', prev a = p ∨ prev a ∈ l'.map key) ↔ l' <+: l := by
  constructor
  · intro hclosed
    induction l generalizing p l' with
    | nil => rw [List.sublist_nil.1 hsub]
    | cons a l ih =>
      have hnd' := (List.nodup_cons.1 hnd).2
      -- No item after the first names the root.
      have hnoroot : ∀ b ∈ l, prev b ≠ p := by
        intro b hb hp
        have hmem : prev b ∈ key a :: l.map key := by
          rw [← h.2.map_prev]
          exact List.mem_append_left _ (List.mem_map_of_mem hb)
        rw [hp] at hmem
        exact (List.nodup_cons.1 hnd).1 hmem
      cases hsub with
      | cons _ hsub =>
        have hnil : l' = [] := h.2.sublist_eq_nil hnd' hsub fun b hb =>
          (hclosed b hb).resolve_left (hnoroot b (hsub.subset hb))
        rw [hnil]
        exact List.nil_prefix
      | @cons_cons l' _ _ hsub =>
        rw [List.prefix_cons_inj]
        refine ih h.2 hnd' hsub fun b hb => ?_
        have hb' := (hclosed b (by simp [hb])).resolve_left (hnoroot b (hsub.subset hb))
        simpa using hb'
  · rintro ⟨t, rfl⟩
    obtain ⟨hl', -⟩ := linked_append.1 h
    have hpre : (p :: l'.map key).Nodup := by
      refine hnd.sublist (List.Sublist.cons_cons _ ?_)
      exact (List.sublist_append_left l' t).map key
    exact (hl'.intact hpre).1

end AlsaqiBackend.Lib

import AlsaqiBackend.Organization.Service

/-!
# The structure is a forest

The checks of the two services look at the entity itself and at its children. Longer cycles, parents that are
archived, and a child that comes while its parent is being archived pass them.

The entities are a forest and the tree has every one that is not archived in every state of a run whose
statements are safe: an entity that is not archived is put under no other one or under one that is not archived,
none is put below itself, and none is archived that has a child which is not. Where there are never more entities than
`getAll` reads, only such runs keep the structure (`sound_along_iff`).
-/

namespace AlsaqiBackend.Organization

open AlsaqiBackend.Lib

variable {K : Type} [DecidableEq K]

/-! ## What is asked -/

/-- The entity is not archived. -/
def Entity.IsLive (e : Entity K) : Prop := e.status ≠ some .archived

instance (e : Entity K) : Decidable e.IsLive := instDecidableNot

/-- The parent of an id in the table. -/
def parentOf (rows : List (Entity K)) : K → Option K := upOf Entity.id Entity.parentId rows

/-- Going up from an entity ends at a root. -/
def IsForest (rows : List (Entity K)) : Prop := ∀ e ∈ rows, EndsAtRoot (parentOf rows) e.id

/-- The tree has every entity that is not archived exactly once. -/
def IsComplete (orderBy : Entity K → Entity K → Bool) (rows : List (Entity K)) : Prop :=
  ∀ e ∈ rows, e.IsLive → ((RoseTree.toListAll (getTree orderBy rows)).map Entity.id).count e.id = 1

def liveCount (rows : List (Entity K)) : ℕ := rows.countP fun e => decide e.IsLive

def OrgState.Sound (orderBy : Entity K → Entity K → Bool) (s : OrgState K) : Prop :=
  IsForest s.rows ∧ (liveCount s.rows ≤ 2000 → IsComplete orderBy s.rows)

/-- An entity that is not archived has a status, and no parent or one that is not archived. -/
def Placed (rows : List (Entity K)) (e : Entity K) : Prop :=
  e.IsLive → e.status ≠ none ∧ ∀ p, e.parentId = some p → ∃ f ∈ rows, f.id = p ∧ f.IsLive

/-- All entities are placed. -/
def IsTidy (rows : List (Entity K)) : Prop := ∀ e ∈ rows, Placed rows e

/-- A new entity is placed. An entity that is changed is placed, it is not put below itself, and if it is archived
then, it has no child that is not. -/
def Write.Safe (rows : List (Entity K)) : Write K → Prop
  | .insert row => Placed rows row
  | .update id change => ∀ e ∈ rows, e.id = id →
      (∀ p, (change.apply e).parentId = some p → ¬Above (parentOf rows) id p) ∧
        Placed rows (change.apply e) ∧
          ((change.apply e).IsLive ∨ ∀ child ∈ rows, child.IsLive → child.parentId ≠ some id)

/-- The statement of a step is safe, or breaks a key. -/
def SafeStep (uuid : String → Option K) (s : OrgState K) (a : OrgAction K) : Prop :=
  ∀ w, s.write uuid a = some w → w.Accepted s.rows → w.Safe s.rows

/-! ## The keys of the table -/

/-- Ids are unique, and parents are rows. -/
structure KeysInv (rows : List (Entity K)) : Prop where
  nodup : (rows.map Entity.id).Nodup
  parents : ∀ e ∈ rows, ∀ p, e.parentId = some p → p ∈ rows.map Entity.id

variable {rows : List (Entity K)} {row e : Entity K} {id p q : K} {change : Change K}

omit [DecidableEq K] in
theorem KeysInv.eq_of_id_eq (h : KeysInv rows) {f : Entity K} (he : e ∈ rows) (hf : f ∈ rows) (hid : e.id = f.id) :
    e = f := List.inj_on_of_nodup_map h.nodup he hf hid

theorem KeysInv.parentOf_id (h : KeysInv rows) (he : e ∈ rows) : parentOf rows e.id = e.parentId :=
  upOf_key h.nodup he

/-- What has no row has no parent. -/
theorem parentOf_eq_none (hid : id ∉ rows.map Entity.id) : parentOf rows id = none := by
  have hnone : rows.find? (·.id = id) = none := by
    rw [List.find?_eq_none]
    intro e he
    simpa using fun heq : e.id = id => hid (heq ▸ List.mem_map_of_mem he)
  rw [parentOf, upOf, hnone, Option.bind_none]

/-- Above a row are rows. -/
theorem KeysInv.mem_of_above (h : KeysInv rows) (hq : q ∈ rows.map Entity.id) (habove : Above (parentOf rows) p q) :
    p ∈ rows.map Entity.id := by
  obtain ⟨n, hn⟩ := habove
  match n, hn with
  | 0, hn => exact Option.some.inj hn ▸ hq
  | n + 1, hn =>
    rw [climb_succ] at hn
    obtain ⟨b, -, hb⟩ := Option.bind_eq_some_iff.1 hn
    obtain ⟨e, he, -, hp⟩ := exists_of_upOf hb
    exact h.parents e he p hp

/-- In a forest every id ends at a root. -/
theorem isForest_iff : IsForest rows ↔ ∀ k, EndsAtRoot (parentOf rows) k := by
  constructor
  · intro h k
    by_cases hk : k ∈ rows.map Entity.id
    · obtain ⟨e, he, rfl⟩ := List.mem_map.1 hk
      exact h e he
    · exact ⟨1, climb_one.trans (parentOf_eq_none hk)⟩
  · exact fun h e _ => h e.id

/-! ## An insert -/

omit [DecidableEq K] in
theorem KeysInv.insert (h : KeysInv rows) (hw : (Write.insert row).Accepted rows) : KeysInv (rows ++ [row]) where
  nodup := by
    rw [List.map_append, List.map_singleton, ← List.concat_eq_append, List.nodup_concat]
    exact ⟨hw.1, h.nodup⟩
  parents e he p hp := by
    rw [List.map_append, List.mem_append]
    obtain he | he := List.mem_append.1 he
    · exact Or.inl (h.parents e he p hp)
    · obtain rfl := List.mem_singleton.1 he
      exact Or.inl (hw.2.2 p hp)

theorem KeysInv.parentOf_insert (h : KeysInv rows) (hw : (Write.insert row).Accepted rows) :
    parentOf (rows ++ [row]) = Function.update (parentOf rows) row.id row.parentId := by
  have hinv := h.insert hw
  funext k
  by_cases hk : k = row.id
  · rw [hk, Function.update_self]
    exact hinv.parentOf_id (List.mem_append_right _ List.mem_cons_self)
  · rw [Function.update_of_ne hk]
    by_cases hrows : k ∈ rows.map Entity.id
    · obtain ⟨e, he, rfl⟩ := List.mem_map.1 hrows
      rw [h.parentOf_id he]
      exact hinv.parentOf_id (List.mem_append_left _ he)
    · rw [parentOf_eq_none hrows]
      apply parentOf_eq_none
      rw [List.map_append, List.mem_append, List.map_singleton, List.mem_singleton]
      exact fun hor => hor.elim hrows hk

/-- A new entity closes no cycle. -/
theorem KeysInv.isForest_insert (h : KeysInv rows) (hforest : IsForest rows)
    (hw : (Write.insert row).Accepted rows) : IsForest (rows ++ [row]) := by
  rw [isForest_iff, h.parentOf_insert hw]
  refine endsAtRoot_update (isForest_iff.1 hforest) fun q hq habove => ?_
  exact hw.1 (h.mem_of_above (hw.2.2 q hq) habove)

omit [DecidableEq K] in
theorem Placed.mono {rows' : List (Entity K)} (hsub : ∀ f ∈ rows, f ∈ rows') (h : Placed rows e) : Placed rows' e := by
  intro hlive
  obtain ⟨hstatus, hparent⟩ := h hlive
  refine ⟨hstatus, fun p hp => ?_⟩
  obtain ⟨f, hf, hfp⟩ := hparent p hp
  exact ⟨f, hsub f hf, hfp⟩

omit [DecidableEq K] in
theorem isTidy_insert_iff (htidy : IsTidy rows) (hw : (Write.insert row).Accepted rows) :
    IsTidy (rows ++ [row]) ↔ Placed rows row := by
  constructor
  · intro h hlive
    obtain ⟨hstatus, hparent⟩ := h row (List.mem_append_right _ List.mem_cons_self) hlive
    refine ⟨hstatus, fun p hp => ?_⟩
    obtain ⟨f, hf, hid, hflive⟩ := hparent p hp
    obtain hf | hf := List.mem_append.1 hf
    · exact ⟨f, hf, hid, hflive⟩
    · obtain rfl := List.mem_singleton.1 hf
      exact absurd (hid.symm ▸ hw.2.2 p hp) hw.1
  · intro h f hf
    have hsub : ∀ f ∈ rows, f ∈ rows ++ [row] := fun f hf => List.mem_append_left _ hf
    obtain hf | hf := List.mem_append.1 hf
    · exact (htidy f hf).mono hsub
    · obtain rfl := List.mem_singleton.1 hf
      exact h.mono hsub

/-! ## An update -/

/-- The rows after an update. -/
def updated (rows : List (Entity K)) (id : K) (change : Change K) : List (Entity K) :=
  updateWhere (fun e => decide (e.id = id)) change.apply rows

theorem mem_updated {g : Entity K} :
    g ∈ updated rows id change ↔ g ∈ rows ∧ g.id ≠ id ∨ ∃ e ∈ rows, e.id = id ∧ g = change.apply e := by
  rw [updated, mem_updateWhere]
  constructor
  · rintro ⟨f, hf, rfl⟩
    by_cases hid : f.id = id
    · rw [if_pos (decide_eq_true hid)]
      exact Or.inr ⟨f, hf, hid, rfl⟩
    · rw [if_neg fun h => hid (of_decide_eq_true h)]
      exact Or.inl ⟨hf, hid⟩
  · rintro (⟨hg, hid⟩ | ⟨f, hf, hid, rfl⟩)
    · exact ⟨g, hg, if_neg fun h => hid (of_decide_eq_true h)⟩
    · exact ⟨f, hf, if_pos (decide_eq_true hid)⟩

theorem map_id_updated : (updated rows id change).map Entity.id = rows.map Entity.id :=
  map_key_updateWhere change.id_apply

theorem KeysInv.update (h : KeysInv rows) (hw : (Write.update id change).Accepted rows) :
    KeysInv (updated rows id change) where
  nodup := by
    rw [map_id_updated]
    exact h.nodup
  parents g hg p hp := by
    rw [map_id_updated]
    obtain ⟨hg, -⟩ | ⟨e, he, hid, rfl⟩ := mem_updated.1 hg
    · exact h.parents g hg p hp
    · exact (hw e he hid).2 p hp

theorem KeysInv.parentOf_update (h : KeysInv rows) (hw : (Write.update id change).Accepted rows) (he : e ∈ rows)
    (hid : e.id = id) :
    parentOf (updated rows id change) = Function.update (parentOf rows) id (change.apply e).parentId := by
  have hinv := h.update hw
  funext k
  by_cases hk : k = id
  · rw [hk, Function.update_self]
    have hmem : change.apply e ∈ updated rows id change := mem_updated.2 (Or.inr ⟨e, he, hid, rfl⟩)
    rw [← hinv.parentOf_id hmem, change.id_apply, hid]
  · rw [Function.update_of_ne hk]
    by_cases hrows : k ∈ rows.map Entity.id
    · obtain ⟨f, hf, rfl⟩ := List.mem_map.1 hrows
      rw [h.parentOf_id hf]
      exact hinv.parentOf_id (mem_updated.2 (Or.inl ⟨hf, hk⟩))
    · rw [parentOf_eq_none hrows]
      apply parentOf_eq_none
      rw [map_id_updated]
      exact hrows

theorem KeysInv.isForest_update_iff (h : KeysInv rows) (hforest : IsForest rows)
    (hw : (Write.update id change).Accepted rows) (he : e ∈ rows) (hid : e.id = id) :
    IsForest (updated rows id change) ↔
      ∀ p, (change.apply e).parentId = some p → ¬Above (parentOf rows) id p := by
  rw [isForest_iff, h.parentOf_update hw he hid]
  exact endsAtRoot_update_iff (isForest_iff.1 hforest)

/-- In a forest no entity is its own parent. -/
theorem KeysInv.parentId_ne (h : KeysInv rows) (hforest : IsForest rows) (he : e ∈ rows) :
    e.parentId ≠ some e.id := by
  intro hself
  refine (hforest e he).climb_succ_ne 0 ?_
  rw [climb_one, h.parentOf_id he, hself]

theorem KeysInv.isTidy_update_iff (h : KeysInv rows) (hforest : IsForest rows) (htidy : IsTidy rows)
    (hw : (Write.update id change).Accepted rows) (he : e ∈ rows) (hid : e.id = id)
    (habove : ∀ p, (change.apply e).parentId = some p → ¬Above (parentOf rows) id p) :
    IsTidy (updated rows id change) ↔ Placed rows (change.apply e) ∧
      ((change.apply e).IsLive ∨ ∀ child ∈ rows, child.IsLive → child.parentId ≠ some id) := by
  have hinv := h.update hw
  have hnew : change.apply e ∈ updated rows id change := mem_updated.2 (Or.inr ⟨e, he, hid, rfl⟩)
  have hnewId : (change.apply e).id = id := (change.id_apply e).trans hid
  -- the new parent is another row
  have hother : ∀ p, (change.apply e).parentId = some p → p ≠ id := by
    rintro p hp rfl
    exact habove p hp ⟨0, rfl⟩
  constructor
  · intro h'
    refine ⟨fun hlive => ?_, ?_⟩
    · obtain ⟨hstatus, hparent⟩ := h' _ hnew hlive
      refine ⟨hstatus, fun p hp => ?_⟩
      obtain ⟨f, hf, rfl, hflive⟩ := hparent p hp
      obtain ⟨hf, -⟩ | ⟨f', hf', hid', rfl⟩ := mem_updated.1 hf
      · exact ⟨f, hf, rfl, hflive⟩
      · exact absurd ((change.id_apply f').trans hid') (hother _ hp)
    · by_contra hnot
      rw [not_or] at hnot
      obtain ⟨harchived, hchildren⟩ := hnot
      refine hchildren fun child hchild hlive hparent => harchived ?_
      have hne : child.id ≠ id := by
        intro heq
        exact h.parentId_ne hforest hchild (heq.symm ▸ hparent)
      obtain ⟨f, hf, hfid, hflive⟩ := (h' child (mem_updated.2 (Or.inl ⟨hchild, hne⟩)) hlive).2 id hparent
      obtain rfl := hinv.eq_of_id_eq hf hnew (hfid.trans hnewId.symm)
      exact hflive
  · rintro ⟨hplaced, hchildren⟩ g hg hlive
    obtain ⟨hrow, -⟩ | ⟨e', he', hid', rfl⟩ := mem_updated.1 hg
    · obtain ⟨hstatus, hparent⟩ := htidy g hrow hlive
      refine ⟨hstatus, fun p hp => ?_⟩
      by_cases hpid : p = id
      · subst hpid
        obtain hchange | hnone := hchildren
        · exact ⟨change.apply e, hnew, hnewId, hchange⟩
        · exact absurd hp (hnone g hrow hlive)
      · obtain ⟨f, hf, rfl, hflive⟩ := hparent p hp
        exact ⟨f, mem_updated.2 (Or.inl ⟨hf, hpid⟩), rfl, hflive⟩
    · obtain rfl := h.eq_of_id_eq he' he (hid'.trans hid.symm)
      obtain ⟨hstatus, hparent⟩ := hplaced hlive
      refine ⟨hstatus, fun p hp => ?_⟩
      obtain ⟨f, hf, rfl, hflive⟩ := hparent p hp
      exact ⟨f, mem_updated.2 (Or.inl ⟨hf, hother _ hp⟩), rfl, hflive⟩

/-! ## One step -/

theorem KeysInv.perform (h : KeysInv rows) (w : Write K) : KeysInv (w.perform rows) := by
  unfold Write.perform
  split_ifs with hw
  · match w, hw with
    | .insert row, hw => exact h.insert hw
    | .update id change, hw => exact h.update hw
  · exact h

/-- From a tidy forest an accepted statement leads to one exactly when it is safe. -/
theorem KeysInv.perform_iff (h : KeysInv rows) (hforest : IsForest rows) (htidy : IsTidy rows) {w : Write K}
    (hw : w.Accepted rows) : IsForest (w.perform rows) ∧ IsTidy (w.perform rows) ↔ w.Safe rows := by
  unfold Write.perform
  rw [if_pos hw]
  match w, hw with
  | .insert row, hw =>
    show IsForest (rows ++ [row]) ∧ IsTidy (rows ++ [row]) ↔ Placed rows row
    rw [isTidy_insert_iff htidy hw, and_iff_right (h.isForest_insert hforest hw)]
  | .update id change, hw =>
    show IsForest (updated rows id change) ∧ IsTidy (updated rows id change) ↔ _
    by_cases hid : ∃ e ∈ rows, e.id = id
    · obtain ⟨e, he, hid⟩ := hid
      have hsafe : (Write.update id change).Safe rows ↔
          (∀ p, (change.apply e).parentId = some p → ¬Above (parentOf rows) id p) ∧ Placed rows (change.apply e) ∧
            ((change.apply e).IsLive ∨ ∀ child ∈ rows, child.IsLive → child.parentId ≠ some id) := by
        constructor
        · exact fun hsafe => hsafe e he hid
        · intro hsafe f hf hfid
          obtain rfl := h.eq_of_id_eq hf he (hfid.trans hid.symm)
          exact hsafe
      rw [hsafe, h.isForest_update_iff hforest hw he hid]
      exact and_congr_right fun habove => h.isTidy_update_iff hforest htidy hw he hid habove
    · have heq : updated rows id change = rows :=
        updateWhere_eq_self fun e he => decide_eq_false fun heq => hid ⟨e, he, heq⟩
      rw [heq]
      exact iff_of_true ⟨hforest, htidy⟩ fun e he heq => absurd ⟨e, he, heq⟩ hid

variable {uuid : String → Option K} {s t : OrgState K} {a : OrgAction K}

theorem rows_of_step (h : step uuid s a = some t) : t.rows = s.rowsAfter uuid a := by
  match a, h with
  | .settles i linked, h =>
    obtain ⟨op, -, rfl⟩ := Option.map_eq_some_iff.1 h
    rfl
  | .createOrgEntity .., h => exact (Option.some.inj h) ▸ rfl
  | .updateOrgEntity .., h => exact (Option.some.inj h) ▸ rfl
  | .deleteOrgEntity .., h => exact (Option.some.inj h) ▸ rfl
  | .createDepartment .., h => exact (Option.some.inj h) ▸ rfl
  | .updateDepartment .., h => exact (Option.some.inj h) ▸ rfl
  | .deleteDepartment .., h => exact (Option.some.inj h) ▸ rfl

theorem KeysInv.step (hs : KeysInv s.rows) (h : step uuid s a = some t) : KeysInv t.rows := by
  rw [rows_of_step h, OrgState.rowsAfter]
  split
  · exact hs
  · exact hs.perform _

/-- From a tidy forest a step leads to one exactly when it is safe. -/
theorem KeysInv.step_iff (hs : KeysInv s.rows) (hforest : IsForest s.rows) (htidy : IsTidy s.rows)
    (h : Organization.step uuid s a = some t) :
    IsForest t.rows ∧ IsTidy t.rows ↔ SafeStep uuid s a := by
  rw [rows_of_step h, OrgState.rowsAfter, SafeStep]
  split
  · next hnone =>
    refine iff_of_true ⟨hforest, htidy⟩ fun w hw => ?_
    exact absurd (hw.symm.trans hnone) (Option.some_ne_none w)
  · next w hwrite =>
    have hone : (∀ v, s.write uuid a = some v → v.Accepted s.rows → v.Safe s.rows) ↔
        (w.Accepted s.rows → w.Safe s.rows) := by
      rw [hwrite]
      simp only [Option.some.injEq, forall_eq']
    rw [hone]
    by_cases hw : w.Accepted s.rows
    · rw [hs.perform_iff hforest htidy hw]
      exact (imp_iff_right hw).symm
    · unfold Write.perform
      rw [if_neg hw]
      exact iff_of_true ⟨hforest, htidy⟩ fun hacc => absurd hacc hw

/-! ## The tree -/

variable {orderBy : Entity K → Entity K → Bool}

omit [DecidableEq K] in
theorem isListed_iff : e.isListed = true ↔ e.IsLive ∧ e.status ≠ none := by
  unfold Entity.isListed Entity.IsLive
  match e.status with
  | none => simp
  | some .active => simp
  | some .inactive => simp
  | some .archived => simp

omit [DecidableEq K] in
/-- Where there are not too many entities, `getAll` reads all that are listed. -/
theorem mem_getAll_iff (hcount : liveCount rows ≤ 2000) :
    e ∈ getAll orderBy rows ↔ e ∈ rows ∧ e.isListed = true := by
  have hlisted : rows.countP Entity.isListed ≤ liveCount rows :=
    List.countP_mono_left fun f _ hf => decide_eq_true (isListed_iff.1 hf).1
  have hlength : ((rows.filter Entity.isListed).mergeSort orderBy).length ≤ 2000 := by
    rw [List.length_mergeSort, ← List.countP_eq_length_filter]
    exact Nat.le_trans hlisted hcount
  rw [getAll, List.take_of_length_le hlength, List.mem_mergeSort, List.mem_filter]

omit [DecidableEq K] in
theorem KeysInv.nodup_getAll (h : KeysInv rows) : ((getAll orderBy rows).map Entity.id).Nodup := by
  have hperm : (((rows.filter Entity.isListed).mergeSort orderBy).map Entity.id).Perm
      ((rows.filter Entity.isListed).map Entity.id) := (List.mergeSort_perm _ orderBy).map Entity.id
  have hsorted : (((rows.filter Entity.isListed).mergeSort orderBy).map Entity.id).Nodup :=
    hperm.nodup_iff.2 (h.nodup.sublist (List.filter_sublist.map _))
  exact hsorted.sublist ((List.take_sublist 2000 _).map _)

/-- The tree of a forest has every entity that is not archived exactly once when the entities are placed. -/
theorem KeysInv.isComplete_iff (h : KeysInv rows) (hforest : IsForest rows) (hcount : liveCount rows ≤ 2000) :
    IsComplete orderBy rows ↔ IsTidy rows := by
  have hnodes : ∀ f, f ∈ getAll orderBy rows ↔ f ∈ rows ∧ f.isListed = true := fun f => mem_getAll_iff hcount
  constructor
  · intro hcomplete e he hlive
    have hone := hcomplete e he hlive
    have hmem : e.id ∈ (RoseTree.toListAll (getTree orderBy rows)).map Entity.id := by
      rw [← List.count_pos_iff, hone]
      exact Nat.zero_lt_one
    obtain ⟨f, hf, hid⟩ := List.mem_map.1 hmem
    obtain ⟨hfrows, hflisted⟩ := (hnodes f).1 (mem_of_mem_under hf)
    obtain rfl := h.eq_of_id_eq hfrows he hid
    refine ⟨(isListed_iff.1 hflisted).2, fun p hp => ?_⟩
    obtain hnone | ⟨c, hc, hparent⟩ := parent_of_mem_under hf
    · exact absurd (hp.symm.trans hnone) (Option.some_ne_none p)
    · obtain ⟨hcrows, hclisted⟩ := (hnodes c).1 hc
      exact ⟨c, hcrows, Option.some.inj (hparent.symm.trans hp), (isListed_iff.1 hclisted).1⟩
  · intro htidy e he hlive
    have hlisted : ∀ f ∈ rows, f.IsLive → f ∈ getAll orderBy rows :=
      fun f hf hflive => (hnodes f).2 ⟨hf, isListed_iff.2 ⟨hflive, (htidy f hf hflive).1⟩⟩
    have hroot : ∀ k, EndsAtRoot (upOf Entity.id Entity.parentId (getAll orderBy rows)) k := by
      refine fun k => (isForest_iff.1 hforest k).mono fun k p hp => ?_
      obtain ⟨c, hc, rfl, hparent⟩ := exists_of_upOf hp
      exact (h.parentOf_id ((hnodes c).1 hc).1).trans hparent
    have hclosed : ∀ c ∈ getAll orderBy rows, ∀ q, c.parentId = some q →
        q ∈ (getAll orderBy rows).map Entity.id := by
      intro c hc q hq
      obtain ⟨hcrows, hclisted⟩ := (hnodes c).1 hc
      obtain ⟨f, hf, rfl, hflive⟩ := (htidy c hcrows (isListed_iff.1 hclisted).1).2 q hq
      exact List.mem_map_of_mem (hlisted f hf hflive)
    have hunder : e ∈ RoseTree.toListAll (getTree orderBy rows) :=
      mem_under_of_closed h.nodup_getAll hroot hclosed (hlisted e he hlive)
    have hnodup : (RoseTree.toListAll (getTree orderBy rows)).Nodup := nodup_under h.nodup_getAll hroot
    have hids : ((RoseTree.toListAll (getTree orderBy rows)).map Entity.id).Nodup := by
      refine hnodup.map_on fun f hf g hg hid => ?_
      exact h.eq_of_id_eq ((hnodes f).1 (mem_of_mem_under hf)).1 ((hnodes g).1 (mem_of_mem_under hg)).1 hid
    exact List.count_eq_one_of_mem hids (List.mem_map_of_mem hunder)

/-! ## Runs -/

/-- No entities, and nothing under way. -/
def OrgState.init : OrgState K := ⟨[], []⟩

/-- In a run whose statements are safe or break a key, every state is a forest whose tree has each entity that is
not archived exactly once, if these are at most as many as `getAll` reads. Where they never are more, this holds
only in such runs. -/
theorem sound_along_iff (uuid : String → Option K) (orderBy : Entity K → Entity K → Bool)
    (as : List (OrgAction K)) :
    (Guarded (Organization.step uuid) (SafeStep uuid) OrgState.init as →
      Along (Organization.step uuid) (OrgState.Sound orderBy) OrgState.init as) ∧
    (Along (Organization.step uuid) (fun s => liveCount s.rows ≤ 2000) OrgState.init as →
      Along (Organization.step uuid) (OrgState.Sound orderBy) OrgState.init as →
        Guarded (Organization.step uuid) (SafeStep uuid) OrgState.init as) := by
  have hkeys : KeysInv (OrgState.init : OrgState K).rows :=
    ⟨List.nodup_nil, fun _ he => absurd he List.not_mem_nil⟩
  have hinit : IsForest (OrgState.init : OrgState K).rows ∧ IsTidy (OrgState.init : OrgState K).rows :=
    ⟨fun _ he => absurd he List.not_mem_nil, fun _ he => absurd he List.not_mem_nil⟩
  have hinv : Along (Organization.step uuid) (fun s : OrgState K => KeysInv s.rows) OrgState.init as :=
    along_of_guarded (fun _ hs => hs) (fun _ _ _ hs _ hst => hs.step hst) hkeys
      (guarded_of_forall (fun _ _ => trivial) _ as)
  have hiff : Along (Organization.step uuid) (fun s : OrgState K => IsForest s.rows ∧ IsTidy s.rows)
      OrgState.init as ↔ Guarded (Organization.step uuid) (SafeStep uuid) OrgState.init as :=
    along_iff_guarded (I := fun s => KeysInv s.rows) (fun _ _ _ hs hst => hs.step hst)
      (fun _ _ _ hs hP hst => hs.step_iff hP.1 hP.2 hst) as hkeys hinit
  constructor
  · intro hsafe
    refine (hinv.and (hiff.2 hsafe)).mono fun s ⟨hs, hforest, htidy⟩ => ?_
    exact ⟨hforest, fun hcount => (hs.isComplete_iff hforest hcount).2 htidy⟩
  · intro hcount hsound
    refine hiff.1 (((hinv.and hcount).and hsound).mono fun s ⟨⟨hs, hcount⟩, hforest, hcomplete⟩ => ?_)
    exact ⟨hforest, (hs.isComplete_iff hforest hcount).1 (hcomplete hcount)⟩

/-- The data of an entity. -/
def entityData (code : String) (parentId : Option String) : OrgData :=
  ⟨some code, some code, some code, some "Department", parentId, none, some .active, none⟩

/-- One entity, without a parent. -/
theorem oneEntity_sound : Along (Organization.step some) (OrgState.Sound fun _ _ => true) OrgState.init
    [.createOrgEntity "a" (entityData "A" none), .settles 0 false] := by
  refine (sound_along_iff some (fun _ _ => true) _).1 ((forall_step_iff rfl).2 ⟨fun w hw => ?_,
    (forall_step_iff rfl).2 ⟨fun w hw _ => ?_, trivial⟩⟩)
  · exact absurd hw.symm (Option.some_ne_none w)
  · obtain rfl := Option.some.inj hw
    exact fun _ => ⟨Option.some_ne_none _, fun p hp => absurd hp.symm (Option.some_ne_none p)⟩

/-- An entity that is put below its own child. -/
def roundTrip : List (OrgAction String) :=
  [.createOrgEntity "a" (entityData "A" none), .settles 0 false,
    .createOrgEntity "b" (entityData "B" (some "a")), .settles 0 false,
    .updateOrgEntity "a" (entityData "A" (some "b"))]

theorem roundTrip_not_sound : ∃ s, run (Organization.step some) OrgState.init roundTrip = some s ∧
    ¬s.Sound fun _ _ => true := by
  refine ⟨_, rfl, fun hsound => ?_⟩
  exact (isForest_iff.1 hsound.1 "a").climb_succ_ne 1 (by decide)

end AlsaqiBackend.Organization

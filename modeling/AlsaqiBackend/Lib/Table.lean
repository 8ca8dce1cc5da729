import AlsaqiBackend.Lib.Modify

/-!
# Rows of a table that a statement updates

`updateWhere p f rows` is `UPDATE … SET f WHERE p`. Where rows have a key that the update keeps, a row
is still there after it exactly when the update does not select it, or leaves it as it is
(`mem_updateWhere_iff`). `Keyed key` is a table whose rows have different keys, with the statements that
keep this.
-/

namespace AlsaqiBackend.Lib

variable {α β : Type*} {p : α → Bool} {f : α → α} {key : α → β} {rows : List α} {row : α}

/-- The rows with a condition are changed. -/
def updateWhere (p : α → Bool) (f : α → α) (rows : List α) : List α :=
  rows.map fun row => if p row then f row else row

theorem mem_updateWhere {row' : α} :
    row' ∈ updateWhere p f rows ↔ ∃ row ∈ rows, (if p row then f row else row) = row' := List.mem_map

/-- A row that is not selected is still there. -/
theorem mem_updateWhere_of_not (hrow : row ∈ rows) (hp : p row = false) :
    row ∈ updateWhere p f rows := mem_updateWhere.2 ⟨row, hrow, by rw [hp]; rfl⟩

/-- The changed row of one that is selected is there. -/
theorem mem_updateWhere_of (hrow : row ∈ rows) (hp : p row = true) :
    f row ∈ updateWhere p f rows := mem_updateWhere.2 ⟨row, hrow, by rw [hp]; rfl⟩

/-- Where the condition does not look at what is changed, the rows that it does not select are the same. -/
theorem mem_updateWhere_iff_of_not (hf : ∀ row, p (f row) = p row) (hp : p row = false) :
    row ∈ updateWhere p f rows ↔ row ∈ rows := by
  refine ⟨fun hmem => ?_, fun hrow => mem_updateWhere_of_not hrow hp⟩
  obtain ⟨other, hother, heq⟩ := mem_updateWhere.1 hmem
  split_ifs at heq with hselected
  · have hpos : p row = true := by rw [← heq, hf, hselected]
    rw [hp] at hpos
    cases hpos
  · exact heq ▸ hother

/-- An update changes nothing exactly when it leaves every row that it selects. -/
theorem updateWhere_eq_self_iff :
    updateWhere p f rows = rows ↔ ∀ row ∈ rows, p row = true → f row = row := by
  have hid : updateWhere p f rows = rows ↔ updateWhere p f rows = rows.map id := by
    rw [List.map_id]
  rw [hid, updateWhere, List.map_inj_left]
  refine forall₂_congr fun row _ => ?_
  by_cases hp : p row = true
  · simp [hp]
  · simp [hp]

/-- An update that selects no row changes nothing. -/
theorem updateWhere_eq_self (h : ∀ row ∈ rows, p row = false) : updateWhere p f rows = rows :=
  updateWhere_eq_self_iff.2 fun row hrow hp => absurd hp (by simp [h row hrow])

/-- Two updates of the same columns are one, where the second one leaves the rows of the first. -/
theorem updateWhere_updateWhere {q : α → Bool} (h : ∀ row, p row = true → q (f row) = false) :
    updateWhere q f (updateWhere p f rows) = updateWhere (fun row => p row || q row) f rows := by
  unfold updateWhere
  rw [List.map_map]
  refine List.map_congr_left fun row _ => ?_
  show (if q (if p row then f row else row) then _ else _) = _
  by_cases hp : p row = true
  · simp [hp, h row hp]
  · simp [hp]

/-- An update of columns that are no part of the key keeps the keys. -/
theorem map_key_updateWhere (hkey : ∀ row, key (f row) = key row) :
    (updateWhere p f rows).map key = rows.map key := by
  rw [updateWhere, List.map_map]
  refine List.map_congr_left fun row _ => ?_
  show key (if p row then f row else row) = key row
  split_ifs
  · exact hkey row
  · rfl

/-- A row is still there after an update that keeps the keys exactly when the update leaves it. -/
theorem mem_updateWhere_iff (hnodup : (rows.map key).Nodup) (hkey : ∀ row, key (f row) = key row)
    (hrow : row ∈ rows) : row ∈ updateWhere p f rows ↔ (p row = true → f row = row) := by
  constructor
  · intro hmem hp
    obtain ⟨other, hother, heq⟩ := mem_updateWhere.1 hmem
    have hsame : key other = key row := by
      rw [← heq]
      split_ifs
      · exact (hkey other).symm
      · rfl
    obtain rfl := List.inj_on_of_nodup_map hnodup hother hrow hsame
    rwa [if_pos hp] at heq
  · intro hleft
    by_cases hp : p row = true
    · have hmem := mem_updateWhere_of (f := f) hrow hp
      rwa [hleft hp] at hmem
    · exact mem_updateWhere_of_not hrow (Bool.eq_false_iff.2 hp)

/-- A table: rows without a repeated key. -/
structure Keyed (key : α → β) where
  rows : List α
  nodup : (rows.map key).Nodup

namespace Keyed

variable {table : Keyed key} {row row' : α}

/-- `DELETE` of the rows that a condition selects. -/
def delete (p : α → Bool) (table : Keyed key) : Keyed key where
  rows := table.rows.filter fun row => !p row
  nodup := table.nodup.sublist (List.filter_sublist.map key)

/-- `UPDATE` of columns that are no part of the key. -/
def update (p : α → Bool) (f : α → α) (hkey : ∀ row, key (f row) = key row) (table : Keyed key) :
    Keyed key where
  rows := updateWhere p f table.rows
  nodup := (map_key_updateWhere hkey).symm ▸ table.nodup

/-- `INSERT` of a row whose key is not taken. -/
def insert (row : α) (table : Keyed key) (hfree : key row ∉ table.rows.map key) : Keyed key where
  rows := table.rows ++ [row]
  nodup := by
    rw [List.map_append, List.map_singleton, ← List.concat_eq_append]
    exact table.nodup.concat hfree

/-- A row is determined by its key. -/
theorem eq_of_key_eq (hrow : row ∈ table.rows) (hrow' : row' ∈ table.rows) (h : key row = key row') :
    row = row' := List.inj_on_of_nodup_map table.nodup hrow hrow' h

theorem mem_delete {p : α → Bool} : row ∈ (table.delete p).rows ↔ row ∈ table.rows ∧ p row = false := by
  show row ∈ table.rows.filter (fun row => !p row) ↔ _
  rw [List.mem_filter, Bool.not_eq_true']

theorem mem_insert {hfree : key row ∉ table.rows.map key} :
    row' ∈ (table.insert row hfree).rows ↔ row' ∈ table.rows ∨ row' = row := by
  show row' ∈ table.rows ++ [row] ↔ _
  rw [List.mem_append, List.mem_singleton]

/-- An update of the row with a key: the other rows, and what becomes of that one. -/
theorem mem_update_key [DecidableEq β] {b : β} {f : α → α} {hkey : ∀ row, key (f row) = key row} :
    row ∈ (table.update (fun row => key row = b) f hkey).rows ↔
      (row ∈ table.rows ∧ key row ≠ b) ∨ ∃ old ∈ table.rows, key old = b ∧ f old = row := by
  have hmem : row ∈ (table.update (fun row => key row = b) f hkey).rows ↔
      ∃ old ∈ table.rows, (if decide (key old = b) then f old else old) = row := mem_updateWhere
  rw [hmem]
  constructor
  · rintro ⟨old, hold, heq⟩
    by_cases hb : key old = b
    · rw [decide_eq_true hb, if_pos rfl] at heq
      exact Or.inr ⟨old, hold, hb, heq⟩
    · rw [decide_eq_false hb, if_neg Bool.false_ne_true] at heq
      exact Or.inl ⟨heq ▸ hold, heq ▸ hb⟩
  · rintro (⟨hrow, hb⟩ | ⟨old, hold, hb, heq⟩)
    · exact ⟨row, hrow, by rw [decide_eq_false hb, if_neg Bool.false_ne_true]⟩
    · exact ⟨old, hold, by rw [decide_eq_true hb, if_pos rfl, heq]⟩

/-- The rows with the key of a row of the table are that one row. -/
theorem filter_key_eq [DecidableEq β] (hrow : row ∈ table.rows) :
    table.rows.filter (fun row' => key row' = key row) = [row] := by
  have hnodup : (table.rows.filter fun row' => key row' = key row).Nodup :=
    (List.Nodup.of_map key table.nodup).filter _
  have hmem : ∀ row', row' ∈ table.rows.filter (fun row' => key row' = key row) ↔ row' ∈ [row] := by
    intro row'
    rw [List.mem_filter, List.mem_singleton, decide_eq_true_eq]
    constructor
    · intro h
      exact eq_of_key_eq h.1 hrow h.2
    · rintro rfl
      exact ⟨hrow, rfl⟩
  exact List.perm_singleton.1 ((List.perm_ext_iff_of_nodup hnodup (List.nodup_singleton row)).2 hmem)

end Keyed

end AlsaqiBackend.Lib

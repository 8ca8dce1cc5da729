import AlsaqiBackend.Templates.Service
import AlsaqiBackend.Lib.Checks

/-!
# The invariants of PDF templates

What every step of a run should keep (`Lawful`): at most one default of each type, every default
approved, a type that has an approved default keeps one unless an update says otherwise, and a new
content gets the next version. `create` always does. An `update` writes a version, and a `delete`
removes a row, that were checked on a row read before the transaction, and an `update` that changes
the status of a default is not checked at all: `templates_lawful_iff_orderly` says what has to hold of the row at
the moment of the write.
-/

namespace AlsaqiBackend.Templates

open AlsaqiBackend.Lib

/-! ## The invariants -/

/-- Each type has at most one default. -/
def OneDefault (table : List Template) : Prop :=
  ∀ row ∈ table, ∀ other ∈ table, row.templateTypeKey = other.templateTypeKey →
    row.isDefault = true → other.isDefault = true → row.id = other.id

/-- Every default is approved. -/
def DefaultsApproved (table : List Template) : Prop :=
  ∀ row ∈ table, row.isDefault = true → row.status = .approved

/-- The type has an approved default. -/
def HasDefault (table : List Template) (key : String) : Prop :=
  ∃ row ∈ table, row.templateTypeKey = key ∧ row.isDefault = true ∧ row.status = .approved

/-- No two contents of a template have been stored with one version. -/
def VersionsDistinct (history : List Stored) : Prop :=
  ∀ r ∈ history, ∀ r' ∈ history, r.id = r'.id → r.version = r'.version → r.content = r'.content

/-- The action commits an update which says that a template of the type is no default. -/
def Clears (s : TemplateState) (a : TemplateAction) (key : String) : Prop :=
  ∃ i newId existing data newVersion stage flag, a = .commit i newId ∧
    s.calls[i]? = some ⟨.update existing data newVersion, stage⟩ ∧
      existing.templateTypeKey = key ∧ data.isDefault = some flag ∧ flag.truthy = false

/-- What a step keeps and brings about. -/
structure Keeps (s : TemplateState) (a : TemplateAction) (t : TemplateState) : Prop where
  oneDefault : OneDefault t.table
  approved : DefaultsApproved t.table
  hasDefault : ∀ key, HasDefault s.table key → HasDefault t.table key ∨ Clears s a key
  nextVersion : ∀ row ∈ s.table, ∀ row' ∈ t.table, row.id = row'.id → row'.content ≠ row.content →
    row'.version = row.version + 1
  versions : VersionsDistinct t.history

def Lawful (s : TemplateState) (a : TemplateAction) : Prop :=
  ∀ t, templateStep s a = some t → Keeps s a t

/-- What an update needs of the row that it changes: it leaves no default that is not approved, the
version that it computed is the next one for a new content, and that version has not been stored with
another content. -/
structure MayUpdate (history : List Stored) (row : Template) (data : UpdateTemplateDto)
    (newVersion : ℤ) : Prop where
  approved : (data.isDefault.map DefaultFlag.truthy).getD row.isDefault = true →
    data.status.getD row.status = .approved
  nextVersion : data.content.getD row.content ≠ row.content → newVersion = row.version + 1
  version : ∀ r ∈ history, r.id = row.id → r.version = newVersion →
    r.content = data.content.getD row.content

/-- What makes a step lawful: an update that the index does not refuse finds a row that it may change
so, and a delete finds no approved default. -/
def Orderly (s : TemplateState) : TemplateAction → Prop
  | .commit i _ => ∀ call, s.calls[i]? = some call →
    match call.write with
    | .insert _ _ _ => True
    | .update existing data newVersion => ∀ row ∈ s.table, row.id = existing.id →
      indexAllows (clearRows call.stage.cleared s.table) (updatedRow data newVersion row) = true →
        MayUpdate s.history row data newVersion
    | .delete existing => ∀ row ∈ s.table, row.id = existing.id → row.indexed = false
  | _ => True

/-! ## Rows that are cleared and put -/

theorem of_findRow {table : List Template} {id : String} {row : Template}
    (h : findRow table id = some row) : row ∈ table ∧ row.id = id := of_find?_key h

theorem ne_of_findRow {table : List Template} {id : String} {row : Template}
    (h : findRow table id = none) (hrow : row ∈ table) : row.id ≠ id := ne_of_find?_key h hrow

variable {s t : TemplateState} {table : List Template} {row : Template} {cleared : List String}

/-- A row after the clearing statement. -/
def clearRow (cleared : List String) (row : Template) : Template :=
  if row.id ∈ cleared then { row with isDefault := false } else row

theorem mem_clearRows : row ∈ clearRows cleared table ↔ ∃ r ∈ table, clearRow cleared r = row :=
  List.mem_map

@[simp]
theorem clearRow_id (cleared : List String) (row : Template) : (clearRow cleared row).id = row.id := by
  unfold clearRow
  split_ifs <;> rfl

@[simp]
theorem clearRow_templateTypeKey (cleared : List String) (row : Template) :
    (clearRow cleared row).templateTypeKey = row.templateTypeKey := by
  unfold clearRow
  split_ifs <;> rfl

@[simp]
theorem clearRow_stored (cleared : List String) (row : Template) :
    (clearRow cleared row).stored = row.stored := by
  unfold clearRow
  split_ifs <;> rfl

@[simp]
theorem clearRow_status (cleared : List String) (row : Template) :
    (clearRow cleared row).status = row.status := by
  unfold clearRow
  split_ifs <;> rfl

@[simp]
theorem clearRow_isDefault (cleared : List String) (row : Template) :
    (clearRow cleared row).isDefault = true ↔ row.isDefault = true ∧ row.id ∉ cleared := by
  unfold clearRow
  split_ifs with h
  · simp [h]
  · simp [h]

theorem map_id_clearRows (cleared : List String) (table : List Template) :
    (clearRows cleared table).map Template.id = table.map Template.id := by
  rw [clearRows, List.map_map]
  exact List.map_congr_left fun row _ => clearRow_id cleared row

/-- The row that is put, or one with another id. -/
theorem mem_putRow {row' : Template} (h : row' ∈ putRow row table) :
    row' = row ∨ row' ∈ table ∧ row'.id ≠ row.id := by
  obtain ⟨other, hother, heq⟩ := List.mem_map.1 h
  by_cases hid : other.id = row.id
  · rw [if_pos hid] at heq
    exact Or.inl heq.symm
  · rw [if_neg hid] at heq
    subst heq
    exact Or.inr ⟨hother, hid⟩

theorem mem_putRow_self {r : Template} (hr : r ∈ table) (hid : r.id = row.id) :
    row ∈ putRow row table := List.mem_map.2 ⟨r, hr, if_pos hid⟩

theorem mem_putRow_of_ne {r : Template} (hr : r ∈ table) (hid : r.id ≠ row.id) :
    r ∈ putRow row table := List.mem_map.2 ⟨r, hr, if_neg hid⟩

theorem map_id_putRow (row : Template) (table : List Template) :
    (putRow row table).map Template.id = table.map Template.id := by
  rw [putRow, List.map_map]
  refine List.map_congr_left fun other _ => ?_
  by_cases hid : other.id = row.id
  · simp [hid]
  · simp [hid]

/-- Beside an indexed row, the index allows no other one of its type. -/
theorem indexAllows_iff : indexAllows table row = true ↔
    ∀ other ∈ table, row.indexed = true → other.indexed = true →
      other.templateTypeKey = row.templateTypeKey → other.id = row.id := by
  simp only [indexAllows, List.all_eq_true, Bool.not_eq_true', Bool.and_eq_false_iff,
    decide_eq_false_iff_not, not_not]
  refine forall₂_congr fun other _ => ?_
  cases row.indexed <;> cases other.indexed <;> simp [Classical.or_iff_not_imp_right]

theorem indexed_iff : row.indexed = true ↔ row.isDefault = true ∧ row.status = .approved := by
  simp [Template.indexed]

/-! ## What holds between the steps -/

/-- What a call knows still holds: the row of a `create` is a default only if it is approved, and the
rows that are to be changed, or have been cleared, are of the types that the call knows. -/
structure Call.Fits (s : TemplateState) (call : Call) : Prop where
  insert : ∀ data status, call.write = .insert data status true → status = .approved
  update : ∀ existing data newVersion, call.write = .update existing data newVersion →
    existing.id ∈ s.history.map Stored.id ∧
      ∀ row ∈ s.table, row.id = existing.id → row.templateTypeKey = existing.templateTypeKey
  cleared : ∀ id ∈ call.stage.cleared, id ∈ s.history.map Stored.id ∧
    ∀ row ∈ s.table, row.id = id → call.write.clears = some row.templateTypeKey

/-- The table is in order, every row of it has been stored, and the calls fit it. -/
structure Inv (s : TemplateState) : Prop where
  nodup : (s.table.map Template.id).Nodup
  oneDefault : OneDefault s.table
  approved : DefaultsApproved s.table
  versions : VersionsDistinct s.history
  stored : ∀ row ∈ s.table, row.stored ∈ s.history
  calls : ∀ call ∈ s.calls, call.Fits s

/-- Two rows of one id are the same row. -/
theorem Inv.row_unique (hs : Inv s) {r r' : Template} (hr : r ∈ s.table) (hr' : r' ∈ s.table)
    (hid : r.id = r'.id) : r = r' := List.inj_on_of_nodup_map hs.nodup hr hr' hid

theorem Inv.id_mem (hs : Inv s) {r : Template} (hr : r ∈ s.table) :
    r.id ∈ s.history.map Stored.id := List.mem_map.2 ⟨r.stored, hs.stored r hr, rfl⟩

/-- After the clearing statement there is one default of each type still. -/
theorem OneDefault.clearRows (h : OneDefault table) : OneDefault (clearRows cleared table) := by
  intro row hrow other hother hkey hdefault hdefault'
  obtain ⟨r, hr, rfl⟩ := mem_clearRows.1 hrow
  obtain ⟨r', hr', rfl⟩ := mem_clearRows.1 hother
  rw [clearRow_isDefault] at hdefault hdefault'
  rw [clearRow_id, clearRow_id]
  rw [clearRow_templateTypeKey, clearRow_templateTypeKey] at hkey
  exact h r hr r' hr' hkey hdefault.1 hdefault'.1

theorem DefaultsApproved.clearRows (h : DefaultsApproved table) :
    DefaultsApproved (clearRows cleared table) := by
  intro row hrow hdefault
  obtain ⟨r, hr, rfl⟩ := mem_clearRows.1 hrow
  rw [clearRow_isDefault] at hdefault
  rw [clearRow_status]
  exact h r hr hdefault.1

/-- A row that the index allows beside approved defaults is the only default of its type. -/
theorem OneDefault.of_indexAllows {rows : List Template}
    (hone : OneDefault table) (happroved : DefaultsApproved table)
    (hrow : row.isDefault = true → row.status = .approved) (hallows : indexAllows table row = true)
    (hmem : ∀ r ∈ rows, r = row ∨ r ∈ table) : OneDefault rows := by
  have hbeside : ∀ r ∈ table, r.templateTypeKey = row.templateTypeKey → r.isDefault = true →
      row.isDefault = true → r.id = row.id := fun r hr hkey hdefault hdefault' =>
    indexAllows_iff.1 hallows r hr (indexed_iff.2 ⟨hdefault', hrow hdefault'⟩)
      (indexed_iff.2 ⟨hdefault, happroved r hr hdefault⟩) hkey
  intro r hr r' hr' hkey hdefault hdefault'
  rcases hmem r hr with rfl | hin
  · rcases hmem r' hr' with rfl | hin'
    · rfl
    · exact (hbeside r' hin' hkey.symm hdefault' hdefault).symm
  · rcases hmem r' hr' with rfl | hin'
    · exact hbeside r hin hkey hdefault hdefault'
    · exact hone r hin r' hin' hkey hdefault hdefault'

/-- One more version keeps the versions apart when it has not been stored with another content. -/
theorem VersionsDistinct.concat {history : List Stored} {new : Stored} (h : VersionsDistinct history)
    (hnew : ∀ r ∈ history, r.id = new.id → r.version = new.version → r.content = new.content) :
    VersionsDistinct (history ++ [new]) := by
  intro r hr r' hr' hid hversion
  rw [List.mem_append, List.mem_singleton] at hr hr'
  rcases hr with hr | rfl
  · rcases hr' with hr' | rfl
    · exact h r hr r' hr' hid hversion
    · exact hnew r hr hid hversion
  · rcases hr' with hr' | rfl
    · exact (hnew r' hr' hid.symm hversion.symm).symm
    · rfl

/-! ## Steps that write nothing -/

/-- A step that leaves the table keeps everything. -/
theorem Inv.keeps_of_same (hs : Inv s) {a : TemplateAction} (htable : t.table = s.table)
    (hhistory : t.history = s.history) : Keeps s a t := by
  refine ⟨?_, ?_, ?_, ?_, ?_⟩
  · rw [htable]
    exact hs.oneDefault
  · rw [htable]
    exact hs.approved
  · intro key hkey
    rw [htable]
    exact Or.inl hkey
  · intro row hrow row' hrow' hid hne
    rw [htable] at hrow'
    exact absurd (congrArg Template.content (hs.row_unique hrow' hrow hid.symm)) hne
  · rw [hhistory]
    exact hs.versions

/-! ## What a commit does -/

/-- What the last statement of a call leaves: everything as it was, a row more, a row changed, or a row
less. -/
theorem commitWrite_cases {i : ℕ} {newId : String} {write : Write}
    (h : s.commitWrite i newId write cleared = some t) :
    t.calls = (s.setStage i .done).calls ∧
      ((t.table = s.table ∧ t.history = s.history ∧
          (∀ existing, write ≠ .delete existing) ∧
          ∀ existing data v, write = .update existing data v → ∀ row,
            findRow (clearRows cleared s.table) existing.id = some row →
              indexAllows (clearRows cleared s.table) (updatedRow data v row) = false) ∨
        (∃ data status isDefault, write = .insert data status isDefault ∧
          newId ∉ s.history.map Stored.id ∧
          indexAllows (clearRows cleared s.table) (insertedRow newId data status isDefault) = true ∧
          t.table = clearRows cleared s.table ++ [insertedRow newId data status isDefault] ∧
          t.history = s.history ++ [(insertedRow newId data status isDefault).stored]) ∨
        (∃ existing data v row, write = .update existing data v ∧
          findRow (clearRows cleared s.table) existing.id = some row ∧
          indexAllows (clearRows cleared s.table) (updatedRow data v row) = true ∧
          t.table = putRow (updatedRow data v row) (clearRows cleared s.table) ∧
          t.history = s.history ++ [(updatedRow data v row).stored]) ∨
        ∃ existing, write = .delete existing ∧ t.history = s.history ∧
          t.table = s.table.filter fun row => row.id ≠ existing.id) := by
  cases write with
  | insert data status isDefault =>
    simp only [TemplateState.commitWrite] at h
    split_ifs at h with hid hallows
    · obtain rfl := Option.some.inj h
      exact ⟨rfl, Or.inr (Or.inl ⟨data, status, isDefault, rfl, hid, hallows, rfl, rfl⟩)⟩
    · obtain rfl := Option.some.inj h
      exact ⟨rfl, Or.inl ⟨rfl, rfl, by simp, by simp⟩⟩
  | update existing data v =>
    simp only [TemplateState.commitWrite] at h
    split_ifs at h with hlocked
    cases hfind : findRow (clearRows cleared s.table) existing.id with
    | none =>
      rw [hfind] at h
      obtain rfl := Option.some.inj h
      -- The row of the update is gone.
      refine ⟨rfl, Or.inl ⟨rfl, rfl, by simp, ?_⟩⟩
      rintro existing' data' v' heq row hrow
      obtain ⟨rfl, rfl, rfl⟩ := Write.update.inj heq
      exact absurd (hfind.symm.trans hrow) (by simp)
    | some row =>
      rw [hfind] at h
      simp only at h
      split_ifs at h with hallows
      · obtain rfl := Option.some.inj h
        exact ⟨rfl, Or.inr (Or.inr (Or.inl ⟨existing, data, v, row, rfl, hfind, hallows, rfl, rfl⟩))⟩
      · obtain rfl := Option.some.inj h
        -- The index refuses the row, and the whole transaction is rolled back.
        refine ⟨rfl, Or.inl ⟨rfl, rfl, by simp, ?_⟩⟩
        rintro existing' data' v' heq row' hrow'
        obtain ⟨rfl, rfl, rfl⟩ := Write.update.inj heq
        obtain rfl := Option.some.inj (hfind.symm.trans hrow')
        exact Bool.eq_false_iff.2 hallows
  | delete existing =>
    simp only [TemplateState.commitWrite] at h
    split_ifs at h with hlocked
    obtain rfl := Option.some.inj h
    exact ⟨rfl, Or.inr (Or.inr (Or.inr ⟨existing, rfl, rfl, rfl⟩))⟩

/-- A commit is the last statement of a call that has cleared what it had to. -/
theorem commit_cases {i : ℕ} {newId : String}
    (h : templateStep s (.commit i newId) = some t) :
    ∃ call, s.calls[i]? = some call ∧
      s.commitWrite i newId call.write call.stage.cleared = some t := by
  simp only [templateStep] at h
  split at h
  · rename_i write hcall
    split_ifs at h with hclears
    exact ⟨_, hcall, h⟩
  · rename_i write cleared hcall
    exact ⟨_, hcall, h⟩
  · exact absurd h (by simp)

variable {i : ℕ} {newId : String} {call : Call}

/-- A row that the clearing statement of a call has changed is of the type that the call clears. -/
theorem Inv.clears_of_mem (hs : Inv s) (hcall : s.calls[i]? = some call) {r : Template}
    (hr : r ∈ s.table) (hid : r.id ∈ call.stage.cleared) :
    call.write.clears = some r.templateTypeKey :=
  ((hs.calls call (List.mem_of_getElem? hcall)).cleared r.id hid).2 r hr rfl

/-- A row stays as it is, or its type is the one that the call clears. -/
theorem Inv.clears_or_kept (hs : Inv s) (hcall : s.calls[i]? = some call) {r : Template}
    (hr : r ∈ s.table) :
    call.write.clears = some r.templateTypeKey ∨ clearRow call.stage.cleared r = r := by
  by_cases hid : r.id ∈ call.stage.cleared
  · exact Or.inl (hs.clears_of_mem hcall hr hid)
  · exact Or.inr (if_neg hid)

/-- The commit of a `create` keeps everything. -/
theorem Inv.keeps_insert (hs : Inv s) (hcall : s.calls[i]? = some call) {data : CreateTemplateDto}
    {status : TemplateStatus} {isDefault : Bool}
    (hwrite : call.write = .insert data status isDefault) (hid : newId ∉ s.history.map Stored.id)
    (hallows : indexAllows (clearRows call.stage.cleared s.table)
      (insertedRow newId data status isDefault) = true)
    (htable : t.table = clearRows call.stage.cleared s.table ++
      [insertedRow newId data status isDefault])
    (hhistory : t.history = s.history ++ [(insertedRow newId data status isDefault).stored]) :
    Keeps s (.commit i newId) t := by
  have happroved : isDefault = true → status = .approved := by
    rintro rfl
    exact (hs.calls call (List.mem_of_getElem? hcall)).insert data status hwrite
  have hmem : ∀ r ∈ t.table, r = insertedRow newId data status isDefault ∨
      r ∈ clearRows call.stage.cleared s.table := by
    intro r hr
    rw [htable, List.mem_append, List.mem_singleton] at hr
    exact hr.symm
  refine ⟨?_, ?_, ?_, ?_, ?_⟩
  · exact OneDefault.of_indexAllows hs.oneDefault.clearRows hs.approved.clearRows happroved hallows
      hmem
  · intro r hr hdefault
    rcases hmem r hr with rfl | hin
    · exact happroved hdefault
    · exact hs.approved.clearRows r hin hdefault
  · rintro key ⟨r, hr, rfl, hdefault, hstatus⟩
    refine Or.inl ?_
    rcases hs.clears_or_kept hcall hr with hclears | hsame
    · -- The cleared default is replaced by the new row.
      rw [hwrite, Write.clears] at hclears
      split_ifs at hclears with hnew
      refine ⟨insertedRow newId data status isDefault, ?_, Option.some.inj hclears, hnew,
        happroved hnew⟩
      rw [htable]
      exact List.mem_append_right _ (List.mem_singleton_self _)
    · refine ⟨r, ?_, rfl, hdefault, hstatus⟩
      rw [htable]
      exact List.mem_append_left _ (mem_clearRows.2 ⟨r, hr, hsame⟩)
  · intro r hr r' hr' heq hne
    rcases hmem r' hr' with rfl | hin
    · have hnew : r.id = newId := heq
      exact absurd (hnew ▸ hs.id_mem hr) hid
    · obtain ⟨r₀, hr₀, rfl⟩ := mem_clearRows.1 hin
      rw [clearRow_id] at heq
      obtain rfl := hs.row_unique hr hr₀ heq
      exact absurd (congrArg Stored.content (clearRow_stored _ r)) hne
  · rw [hhistory]
    refine hs.versions.concat fun r hr heq _ => ?_
    exact absurd (List.mem_map.2 ⟨r, hr, heq⟩) hid

/-- The row that an update finds after its clearing statement is a row of the table, and becomes what
that row would become. -/
theorem Inv.findRow_clearRows (hs : Inv s) (hcall : s.calls[i]? = some call) {existing : Template}
    {data : UpdateTemplateDto} {v : ℤ} (hwrite : call.write = .update existing data v)
    (hfind : findRow (clearRows call.stage.cleared s.table) existing.id = some row) :
    ∃ r ∈ s.table, r.id = existing.id ∧ clearRow call.stage.cleared r = row ∧
      updatedRow data v row = updatedRow data v r := by
  obtain ⟨hmem, hid⟩ := of_findRow hfind
  obtain ⟨r, hr, rfl⟩ := mem_clearRows.1 hmem
  rw [clearRow_id] at hid
  refine ⟨r, hr, hid, rfl, ?_⟩
  unfold clearRow
  split_ifs with hcleared
  · -- Only an update that makes the row a default has cleared it before.
    have hclears := hs.clears_of_mem hcall hr hcleared
    rw [hwrite, Write.clears] at hclears
    split_ifs at hclears with hwants
    have hflag : data.isDefault = some (.bool true) := of_decide_eq_true hwants
    simp [updatedRow, hflag]
  · rfl

/-- A row that is there is found after the clearing statement. -/
theorem exists_findRow_clearRows (cleared : List String) {r : Template} {id : String} (hr : r ∈ s.table)
    (hid : r.id = id) :
    ∃ row, findRow (clearRows cleared s.table) id = some row := by
  cases hfind : findRow (clearRows cleared s.table) id with
  | none =>
    have hne := ne_of_findRow hfind (mem_clearRows.2 ⟨r, hr, rfl⟩)
    exact absurd ((clearRow_id cleared r).trans hid) hne
  | some row => exact ⟨row, rfl⟩

/-- The commit of an update keeps everything exactly when it may change the row. -/
theorem Inv.keeps_update_iff (hs : Inv s) (hcall : s.calls[i]? = some call) {existing r : Template}
    {data : UpdateTemplateDto} {v : ℤ} (hwrite : call.write = .update existing data v)
    (hr : r ∈ s.table) (hid : r.id = existing.id)
    (hallows : indexAllows (clearRows call.stage.cleared s.table) (updatedRow data v r) = true)
    (htable : t.table = putRow (updatedRow data v r) (clearRows call.stage.cleared s.table))
    (hhistory : t.history = s.history ++ [(updatedRow data v r).stored]) :
    Keeps s (.commit i newId) t ↔ MayUpdate s.history r data v := by
  have hput : updatedRow data v r ∈ t.table := by
    rw [htable]
    exact mem_putRow_self (mem_clearRows.2 ⟨r, hr, rfl⟩) (clearRow_id _ r)
  constructor
  · intro hkeeps
    refine ⟨fun hdefault => hkeeps.approved _ hput hdefault,
      fun hcontent => hkeeps.nextVersion r hr _ hput rfl hcontent, fun r' hr' heq hversion => ?_⟩
    have hr't : r' ∈ t.history := by
      rw [hhistory]
      exact List.mem_append_left _ hr'
    have hnew : (updatedRow data v r).stored ∈ t.history := by
      rw [hhistory]
      exact List.mem_append_right _ (List.mem_singleton_self _)
    exact hkeeps.versions r' hr't _ hnew heq hversion
  · intro hmay
    have hmem : ∀ x ∈ t.table, x = updatedRow data v r ∨
        x ∈ clearRows call.stage.cleared s.table := by
      intro x hx
      rw [htable] at hx
      exact (mem_putRow hx).imp id And.left
    refine ⟨?_, ?_, ?_, ?_, ?_⟩
    · exact OneDefault.of_indexAllows hs.oneDefault.clearRows hs.approved.clearRows hmay.approved
        hallows hmem
    · intro x hx hdefault
      rcases hmem x hx with rfl | hin
      · exact hmay.approved hdefault
      · exact hs.approved.clearRows x hin hdefault
    · rintro key ⟨x, hx, rfl, hdefault, hstatus⟩
      have hkey := ((hs.calls call (List.mem_of_getElem? hcall)).update existing data v hwrite).2 r hr
        hid
      -- A default that the update puts is the approved default of its type.
      have hnew : (updatedRow data v r).isDefault = true → r.templateTypeKey = x.templateTypeKey →
          HasDefault t.table x.templateTypeKey :=
        fun hput' htype => ⟨updatedRow data v r, hput, htype, hput', hmay.approved hput'⟩
      by_cases hsame : x.id = r.id
      · obtain rfl := hs.row_unique hx hr hsame
        cases hflag : data.isDefault with
        | none =>
          refine Or.inl (hnew ?_ rfl)
          simp [updatedRow, hflag, hdefault]
        | some flag =>
          by_cases htruthy : flag.truthy = true
          · refine Or.inl (hnew ?_ rfl)
            simp [updatedRow, hflag, htruthy]
          · exact Or.inr ⟨i, newId, existing, data, v, call.stage, flag, rfl,
              by rw [hcall, ← hwrite], hkey.symm, hflag, Bool.eq_false_iff.2 htruthy⟩
      · refine Or.inl ?_
        rcases hs.clears_or_kept hcall hx with hclears | hkept
        · rw [hwrite, Write.clears] at hclears
          split_ifs at hclears with hwants
          have hflag : data.isDefault = some (.bool true) := of_decide_eq_true hwants
          refine hnew ?_ (hkey.trans (Option.some.inj hclears))
          simp [updatedRow, hflag, DefaultFlag.truthy]
        · refine ⟨x, ?_, rfl, hdefault, hstatus⟩
          rw [htable]
          exact mem_putRow_of_ne (mem_clearRows.2 ⟨x, hx, hkept⟩) hsame
    · intro x hx x' hx' heq hne
      rcases hmem x' hx' with rfl | hin
      · obtain rfl := hs.row_unique hx hr heq
        exact hmay.nextVersion hne
      · obtain ⟨x₀, hx₀, rfl⟩ := mem_clearRows.1 hin
        rw [clearRow_id] at heq
        obtain rfl := hs.row_unique hx hx₀ heq
        exact absurd (congrArg Stored.content (clearRow_stored _ x)) hne
    · rw [hhistory]
      exact hs.versions.concat hmay.version

/-- The commit of a delete keeps everything exactly when the row is no approved default. -/
theorem Inv.keeps_delete_iff (hs : Inv s) (hcall : s.calls[i]? = some call) {existing : Template}
    (hwrite : call.write = .delete existing) (hhistory : t.history = s.history)
    (htable : t.table = s.table.filter fun row => row.id ≠ existing.id) :
    Keeps s (.commit i newId) t ↔ ∀ row ∈ s.table, row.id = existing.id → row.indexed = false := by
  have hmem : ∀ x, x ∈ t.table ↔ x ∈ s.table ∧ x.id ≠ existing.id := by
    intro x
    rw [htable, List.mem_filter, decide_eq_true_eq]
  constructor
  · intro hkeeps row hrow hid
    refine Bool.eq_false_iff.2 fun hindexed => ?_
    obtain ⟨hdefault, hstatus⟩ := indexed_iff.1 hindexed
    rcases hkeeps.hasDefault row.templateTypeKey ⟨row, hrow, rfl, hdefault, hstatus⟩ with
      ⟨other, hother, hkey, hdefault', -⟩ | hclears
    · obtain ⟨hin, hne⟩ := (hmem other).1 hother
      have hsame := hs.oneDefault other hin row hrow hkey hdefault' hdefault
      exact hne (hsame.trans hid)
    · obtain ⟨i', newId', existing', data, v, stage, flag, heq, hcall', -⟩ := hclears
      obtain ⟨rfl, rfl⟩ := TemplateAction.commit.inj heq
      obtain rfl := Option.some.inj (hcall.symm.trans hcall')
      exact absurd hwrite (by simp)
  · intro hrow
    refine ⟨?_, ?_, ?_, ?_, ?_⟩
    · intro x hx x' hx'
      exact hs.oneDefault x ((hmem x).1 hx).1 x' ((hmem x').1 hx').1
    · intro x hx
      exact hs.approved x ((hmem x).1 hx).1
    · rintro key ⟨x, hx, rfl, hdefault, hstatus⟩
      refine Or.inl ⟨x, (hmem x).2 ⟨hx, fun hid => ?_⟩, rfl, hdefault, hstatus⟩
      have hfalse := hrow x hx hid
      rw [indexed_iff.2 ⟨hdefault, hstatus⟩] at hfalse
      exact absurd hfalse (by simp)
    · intro x hx x' hx' hid hne
      exact absurd (congrArg Template.content (hs.row_unique ((hmem x').1 hx').1 hx hid.symm)) hne
    · rw [hhistory]
      exact hs.versions

/-! ## Steps -/

/-- What a new call has found out in the state. -/
def Write.Checked (s : TemplateState) : Write → Prop
  | .insert _ status isDefault => isDefault = true → status = .approved
  | .update existing _ _ => existing ∈ s.table
  | .delete _ => True

/-- The rows that a stage adds to the cleared ones are defaults of the type that is cleared. -/
def Stage.Extends (s : TemplateState) (call : Call) (stage : Stage) : Prop :=
  ∀ id ∈ stage.cleared, id ∈ call.stage.cleared ∨
    ∃ row ∈ s.table, row.id = id ∧ call.write.clears = some row.templateTypeKey

/-- A row that is a default only if approved. -/
theorem validateCreate_approved {data : CreateTemplateDto} {status : TemplateStatus}
    {isDefault : Bool} (h : validateCreate data = .ok (status, isDefault)) (hdefault : isDefault = true) :
    status = .approved := by
  simp only [validateCreate, bind_eq_ok, ite_throw_eq_ok, pure_eq_ok, Prod.mk.injEq] at h
  obtain ⟨-, -, -, -, -, -, hcheck, rfl, rfl⟩ := h
  by_contra hstatus
  exact hcheck ⟨hdefault, hstatus⟩

/-- A step that is no commit leaves the table, and begins a call, or takes one further. -/
theorem step_cases {a : TemplateAction} (hstep : templateStep s a = some t)
    (ha : ∀ i newId, a ≠ .commit i newId) :
    t.table = s.table ∧ t.history = s.history ∧
      (t.calls = s.calls ∨
        (∃ write, t.calls = s.calls ++ [⟨write, .validated⟩] ∧ write.Checked s) ∨
        ∃ i stage, t.calls = s.calls.modify i (fun call => { call with stage }) ∧
          ∀ call, s.calls[i]? = some call → stage.Extends s call) := by
  cases a with
  | create data =>
    simp only [templateStep] at hstep
    cases hvalid : validateCreate data with
    | error e =>
      rw [hvalid] at hstep
      obtain rfl := Option.some.inj hstep
      exact ⟨rfl, rfl, Or.inl rfl⟩
    | ok r =>
      rw [hvalid] at hstep
      obtain rfl := Option.some.inj hstep
      exact ⟨rfl, rfl, Or.inr (Or.inl ⟨_, rfl, validateCreate_approved hvalid⟩)⟩
  | update id data =>
    simp only [templateStep] at hstep
    cases hfind : findRow s.table id with
    | none =>
      rw [hfind] at hstep
      obtain rfl := Option.some.inj hstep
      exact ⟨rfl, rfl, Or.inl rfl⟩
    | some existing =>
      simp only [hfind] at hstep
      cases hvalid : validateUpdate existing data with
      | error e =>
        rw [hvalid] at hstep
        obtain rfl := Option.some.inj hstep
        exact ⟨rfl, rfl, Or.inl rfl⟩
      | ok v =>
        rw [hvalid] at hstep
        obtain rfl := Option.some.inj hstep
        exact ⟨rfl, rfl, Or.inr (Or.inl ⟨_, rfl, (of_findRow hfind).1⟩)⟩
  | delete id =>
    simp only [templateStep] at hstep
    cases hfind : findRow s.table id with
    | none =>
      rw [hfind] at hstep
      obtain rfl := Option.some.inj hstep
      exact ⟨rfl, rfl, Or.inl rfl⟩
    | some existing =>
      simp only [hfind] at hstep
      cases hvalid : validateDelete existing with
      | error e =>
        rw [hvalid] at hstep
        obtain rfl := Option.some.inj hstep
        exact ⟨rfl, rfl, Or.inl rfl⟩
      | ok u =>
        rw [hvalid] at hstep
        obtain rfl := Option.some.inj hstep
        exact ⟨rfl, rfl, Or.inr (Or.inl ⟨_, rfl, trivial⟩)⟩
  | clear i =>
    simp only [templateStep] at hstep
    split at hstep
    · obtain ⟨key, -, rfl⟩ := Option.map_eq_some_iff.1 hstep
      refine ⟨rfl, rfl, Or.inr (Or.inr ⟨i, _, rfl, fun call _ id hid => ?_⟩)⟩
      exact absurd hid List.not_mem_nil
    · exact absurd hstep (by simp)
  | clearNext i =>
    simp only [templateStep] at hstep
    split at hstep
    · rename_i write id remaining cleared hcall
      split_ifs at hstep with hlocked hmatching
      · obtain rfl := Option.some.inj hstep
        refine ⟨rfl, rfl, Or.inr (Or.inr ⟨i, _, rfl, fun call hcall' id' hid => ?_⟩)⟩
        obtain rfl := Option.some.inj (hcall.symm.trans hcall')
        rcases List.mem_append.1 hid with hold | hnew
        · exact Or.inl hold
        · obtain rfl := List.mem_singleton.1 hnew
          obtain ⟨row, hrow, hany⟩ := (Option.any_eq_true _ _).1 hmatching
          obtain ⟨key, hkey, hdefault⟩ := (Option.any_eq_true _ _).1 hany
          obtain ⟨hmem, hrowid⟩ := of_findRow hrow
          rw [Template.isDefaultOf, Bool.and_eq_true, decide_eq_true_eq] at hdefault
          exact Or.inr ⟨row, hmem, hrowid, hkey.trans (congrArg some hdefault.1.symm)⟩
      · obtain rfl := Option.some.inj hstep
        refine ⟨rfl, rfl, Or.inr (Or.inr ⟨i, _, rfl, fun call hcall' id' hid => ?_⟩)⟩
        obtain rfl := Option.some.inj (hcall.symm.trans hcall')
        exact Or.inl hid
    · exact absurd hstep (by simp)
  | commit i newId => exact absurd rfl (ha i newId)
  | fail i =>
    obtain rfl := Option.some.inj hstep
    refine ⟨rfl, rfl, Or.inr (Or.inr ⟨i, _, rfl, fun call _ id hid => ?_⟩)⟩
    exact absurd hid List.not_mem_nil

/-- A step keeps everything exactly when it is orderly. -/
theorem lawful_step_iff (s : TemplateState) (a : TemplateAction) (t : TemplateState) (hs : Inv s)
    (hstep : templateStep s a = some t) : Lawful s a ↔ Orderly s a := by
  have hlawful : Lawful s a ↔ Keeps s a t := forall_step_iff hstep
  rw [hlawful]
  by_cases ha : ∃ i newId, a = .commit i newId
  · obtain ⟨i, newId, rfl⟩ := ha
    obtain ⟨call, hcall, hcommit⟩ := commit_cases hstep
    obtain ⟨-, hcases⟩ := commitWrite_cases hcommit
    have horderly : Orderly s (.commit i newId) ↔ match call.write with
        | .insert _ _ _ => True
        | .update existing data newVersion => ∀ row ∈ s.table, row.id = existing.id →
          indexAllows (clearRows call.stage.cleared s.table) (updatedRow data newVersion row) = true →
            MayUpdate s.history row data newVersion
        | .delete existing => ∀ row ∈ s.table, row.id = existing.id → row.indexed = false := by
      simp only [Orderly, hcall, Option.some.injEq, forall_eq']
    rw [horderly]
    rcases hcases with ⟨htable, hhistory, hdelete, hrefused⟩ |
      ⟨data, status, isDefault, hwrite, hid, hallows, htable, hhistory⟩ |
      ⟨existing, data, v, row, hwrite, hfind, hallows, htable, hhistory⟩ |
      ⟨existing, hwrite, hhistory, htable⟩
    · -- The call has thrown, and an update only where the index refuses its row.
      refine iff_of_true (hs.keeps_of_same htable hhistory) ?_
      cases hwrite : call.write with
      | insert data status isDefault => trivial
      | update existing data v =>
        intro r hr hid hallows
        obtain ⟨row, hfind⟩ := exists_findRow_clearRows call.stage.cleared hr hid
        obtain ⟨r', hr', hid', -, hsame⟩ := hs.findRow_clearRows hcall hwrite hfind
        obtain rfl := hs.row_unique hr hr' (hid.trans hid'.symm)
        rw [← hsame, hrefused existing data v hwrite row hfind] at hallows
        exact absurd hallows (by simp)
      | delete existing => exact absurd hwrite (hdelete existing)
    · simp only [hwrite]
      exact iff_of_true (hs.keeps_insert hcall hwrite hid hallows htable hhistory) trivial
    · simp only [hwrite]
      obtain ⟨r, hr, hid, -, hsame⟩ := hs.findRow_clearRows hcall hwrite hfind
      rw [hsame] at hallows htable hhistory
      rw [hs.keeps_update_iff hcall hwrite hr hid hallows htable hhistory]
      constructor
      · intro hmay r' hr' hid' _
        obtain rfl := hs.row_unique hr hr' (hid.trans hid'.symm)
        exact hmay
      · intro hall
        exact hall r hr hid hallows
    · simp only [hwrite]
      exact hs.keeps_delete_iff hcall hwrite hhistory htable
  -- Only a commit writes, and only it has a condition.
  · obtain ⟨htable, hhistory, -⟩ := step_cases hstep fun i newId h => ha ⟨i, newId, h⟩
    refine iff_of_true (hs.keeps_of_same htable hhistory) ?_
    cases a with
    | commit i newId => exact absurd ⟨i, newId, rfl⟩ ha
    | create data => trivial
    | update id data => trivial
    | delete id => trivial
    | clear i => trivial
    | clearNext i => trivial
    | fail i => trivial

/-! ## Runs -/

/-- The rows of a state are new, or rows of the state before with the same type, and nothing that has
been stored is forgotten. -/
structure Follows (s t : TemplateState) : Prop where
  rows : ∀ row ∈ t.table, row.id ∉ s.history.map Stored.id ∨
    ∃ r ∈ s.table, r.id = row.id ∧ r.templateTypeKey = row.templateTypeKey
  history : ∀ r ∈ s.history, r ∈ t.history

/-- A type that is known of an id stays known. -/
theorem Follows.type_eq (h : Follows s t) {id : String} {P : String → Prop}
    (hid : id ∈ s.history.map Stored.id)
    (hs : ∀ row ∈ s.table, row.id = id → P row.templateTypeKey) :
    id ∈ t.history.map Stored.id ∧ ∀ row ∈ t.table, row.id = id → P row.templateTypeKey := by
  constructor
  · obtain ⟨r, hr, hrid⟩ := List.mem_map.1 hid
    exact List.mem_map.2 ⟨r, h.history r hr, hrid⟩
  · rintro row hrow rfl
    rcases h.rows row hrow with hnew | ⟨r, hr, hrid, hkey⟩
    · exact absurd hid hnew
    · exact hkey ▸ hs r hr hrid

/-- A call that fits a state fits those that follow. -/
theorem Call.Fits.follow (h : call.Fits s) (hfollows : Follows s t) : call.Fits t := by
  refine ⟨h.insert, fun existing data v hwrite => ?_, fun id hid => ?_⟩
  · obtain ⟨hmem, hkey⟩ := h.update existing data v hwrite
    exact hfollows.type_eq (P := (· = existing.templateTypeKey)) hmem hkey
  · obtain ⟨hmem, hkey⟩ := h.cleared id hid
    exact hfollows.type_eq (P := fun key => call.write.clears = some key) hmem hkey

/-- The calls of the next state fit the state before. -/
theorem Inv.fits_step (hs : Inv s) {a : TemplateAction} (hstep : templateStep s a = some t) :
    ∀ call ∈ t.calls, call.Fits s := by
  -- A call that is taken further changes its stage only.
  have hmodify : ∀ i stage, (∀ call, s.calls[i]? = some call → stage.Extends s call) →
      ∀ call ∈ s.calls.modify i (fun call => { call with stage }), call.Fits s := by
    intro i stage hextends call hcall
    obtain ⟨j, hj⟩ := List.mem_iff_getElem?.1 hcall
    rcases getElem?_modify_cases hj with ⟨rfl, old, hold, rfl⟩ | ⟨-, hold⟩
    · have hfits := hs.calls old (List.mem_of_getElem? hold)
      refine ⟨hfits.insert, hfits.update, fun id hid => ?_⟩
      rcases hextends old hold id hid with hin | ⟨row, hrow, hid', hclears⟩
      · exact hfits.cleared id hin
      · refine ⟨hid' ▸ hs.id_mem hrow, fun row' hrow' heq => ?_⟩
        rw [hs.row_unique hrow' hrow (heq.trans hid'.symm)]
        exact hclears
    · exact hs.calls call (List.mem_of_getElem? hold)
  by_cases ha : ∃ i newId, a = .commit i newId
  · obtain ⟨i, newId, rfl⟩ := ha
    obtain ⟨call, hcall, hcommit⟩ := commit_cases hstep
    rw [(commitWrite_cases hcommit).1]
    exact hmodify i .done fun _ _ id hid => absurd hid List.not_mem_nil
  · obtain ⟨-, -, hcalls | ⟨write, hcalls, hchecked⟩ | ⟨i, stage, hcalls, hextends⟩⟩ :=
      step_cases hstep fun i newId h => ha ⟨i, newId, h⟩
    · rw [hcalls]
      exact hs.calls
    · rw [hcalls]
      intro call hcall
      rcases List.mem_append.1 hcall with hold | hnew
      · exact hs.calls call hold
      · obtain rfl := List.mem_singleton.1 hnew
        refine ⟨?_, ?_, fun id hid => absurd hid List.not_mem_nil⟩
        · rintro data status rfl
          exact hchecked rfl
        · rintro existing data v rfl
          refine ⟨hs.id_mem hchecked, fun row hrow hid => ?_⟩
          rw [hs.row_unique hrow hchecked hid]
    · rw [hcalls]
      exact hmodify i stage hextends

/-- The rows of the next state follow those of the state before, have different ids, and have been
stored. -/
theorem Inv.table_step (hs : Inv s) {a : TemplateAction} (hstep : templateStep s a = some t) :
    Follows s t ∧ (t.table.map Template.id).Nodup ∧ ∀ row ∈ t.table, row.stored ∈ t.history := by
  -- Clearing a default leaves the id of a row, its type and what has been stored of it.
  have hclear : ∀ cleared, ∀ row ∈ clearRows cleared s.table,
      (∃ r ∈ s.table, r.id = row.id ∧ r.templateTypeKey = row.templateTypeKey) ∧
        row.stored ∈ s.history := by
    intro cleared row hrow
    obtain ⟨r, hr, rfl⟩ := mem_clearRows.1 hrow
    refine ⟨⟨r, hr, (clearRow_id _ r).symm, (clearRow_templateTypeKey _ r).symm⟩, ?_⟩
    rw [clearRow_stored]
    exact hs.stored r hr
  have hsame : t.table = s.table → t.history = s.history →
      Follows s t ∧ (t.table.map Template.id).Nodup ∧ ∀ row ∈ t.table, row.stored ∈ t.history := by
    intro htable hhistory
    refine ⟨⟨fun row hrow => Or.inr ⟨row, htable ▸ hrow, rfl, rfl⟩, fun r hr => hhistory ▸ hr⟩, ?_, ?_⟩
    · rw [htable]
      exact hs.nodup
    · rw [htable, hhistory]
      exact hs.stored
  by_cases ha : ∃ i newId, a = .commit i newId
  · obtain ⟨i, newId, rfl⟩ := ha
    obtain ⟨call, hcall, hcommit⟩ := commit_cases hstep
    obtain ⟨-, hcases⟩ := commitWrite_cases hcommit
    have hadd : ∀ (r : Stored), t.history = s.history ++ [r] → ∀ x ∈ s.history, x ∈ t.history := by
      intro r hhistory x hx
      rw [hhistory]
      exact List.mem_append_left _ hx
    rcases hcases with ⟨htable, hhistory, -⟩ |
      ⟨data, status, isDefault, -, hid, -, htable, hhistory⟩ |
      ⟨existing, data, v, row, -, hfind, -, htable, hhistory⟩ | ⟨existing, -, hhistory, htable⟩
    · exact hsame htable hhistory
    · refine ⟨⟨fun r hr => ?_, hadd _ hhistory⟩, ?_, fun r hr => ?_⟩
      · rw [htable, List.mem_append, List.mem_singleton] at hr
        rcases hr with hold | rfl
        · exact Or.inr (hclear _ r hold).1
        · exact Or.inl hid
      · rw [htable, List.map_append, map_id_clearRows, List.map_singleton, ← List.concat_eq_append]
        -- The new id is the one of no row that has ever been stored.
        refine hs.nodup.concat fun hmem => hid ?_
        obtain ⟨r, hr, hrid⟩ := List.mem_map.1 hmem
        have hnew : r.id = newId := hrid
        exact hnew ▸ hs.id_mem hr
      · rw [htable, List.mem_append, List.mem_singleton] at hr
        rcases hr with hold | rfl
        · exact hadd _ hhistory _ (hclear _ r hold).2
        · rw [hhistory]
          exact List.mem_append_right _ (List.mem_singleton_self _)
    · have hrow := hclear _ row (of_findRow hfind).1
      refine ⟨⟨fun r hr => ?_, hadd _ hhistory⟩, ?_, fun r hr => ?_⟩
      · rw [htable] at hr
        rcases mem_putRow hr with rfl | ⟨hold, -⟩
        · exact Or.inr hrow.1
        · exact Or.inr (hclear _ r hold).1
      · rw [htable, map_id_putRow, map_id_clearRows]
        exact hs.nodup
      · rw [htable] at hr
        rcases mem_putRow hr with rfl | ⟨hold, -⟩
        · rw [hhistory]
          exact List.mem_append_right _ (List.mem_singleton_self _)
        · exact hadd _ hhistory _ (hclear _ r hold).2
    · have hmem : ∀ r ∈ t.table, r ∈ s.table := by
        intro r hr
        rw [htable] at hr
        exact (List.mem_filter.1 hr).1
      refine ⟨⟨fun r hr => Or.inr ⟨r, hmem r hr, rfl, rfl⟩, fun x hx => hhistory ▸ hx⟩, ?_,
        fun r hr => hhistory ▸ hs.stored r (hmem r hr)⟩
      rw [htable]
      exact hs.nodup.sublist ((List.filter_sublist).map _)
  · obtain ⟨htable, hhistory, -⟩ := step_cases hstep fun i newId h => ha ⟨i, newId, h⟩
    exact hsame htable hhistory

/-- A lawful step keeps the invariant. -/
theorem Inv.step (hs : Inv s) {a : TemplateAction} (ha : Lawful s a)
    (hstep : templateStep s a = some t) : Inv t := by
  obtain ⟨hfollows, hnodup, hstored⟩ := hs.table_step hstep
  have hkeeps := ha t hstep
  exact ⟨hnodup, hkeeps.oneDefault, hkeeps.approved, hkeeps.versions, hstored,
    fun call hcall => (hs.fits_step hstep call hcall).follow hfollows⟩

/-- A table in order. -/
structure SoundTable where
  rows : List Template
  nodup : (rows.map Template.id).Nodup
  oneDefault : OneDefault rows
  approved : DefaultsApproved rows

/-- A table, before any call. -/
def TemplateState.init (table : SoundTable) : TemplateState :=
  ⟨table.rows, [], table.rows.map Template.stored⟩

theorem inv_init (table : SoundTable) : Inv (.init table) := by
  refine ⟨table.nodup, table.oneDefault, table.approved, ?_, fun row hrow => ?_, ?_⟩
  · intro r hr r' hr' hid _
    obtain ⟨row, hrow, rfl⟩ := List.mem_map.1 hr
    obtain ⟨row', hrow', rfl⟩ := List.mem_map.1 hr'
    rw [List.inj_on_of_nodup_map table.nodup hrow hrow' hid]
  · exact List.mem_map_of_mem hrow
  · exact fun call hcall => absurd hcall List.not_mem_nil

end AlsaqiBackend.Templates

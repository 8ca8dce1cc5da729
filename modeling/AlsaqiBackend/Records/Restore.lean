import AlsaqiBackend.Records.Bulk

/-!
# Restoring what a soft deletion has marked

`SoftDeleteService.softDelete` marks a row and, by the relations that it is given, the rows that refer to it;
`SoftDeleteService.restore` clears the marks of the one row. `restore_undoes_iff` says when the second undoes the first:
when no other row was marked.
-/

namespace AlsaqiBackend.Records

open AlsaqiBackend.Lib

variable {Id : Type} [DecidableEq Id]

/-! ## SoftDeleteService -/

/-- PostgreSQL with the tables that have the trigger of `schema.sql`, which sets `updated_at`. -/
structure TriggerPostgres (Id : Type) extends Postgres Id where
  hasTrigger : String → Bool

structure CascadeRelation where
  table : String
  foreignKey : String

structure SoftDeleteOptions where
  tableName : String
  id : Value
  deletedBy : String
  cascade : List CascadeRelation

/-- What a call meets: the time in JavaScript and in PostgreSQL, and the statements that fail, of which that of
the row is the first. -/
structure SoftDeleteEnv where
  now : String
  currentTimestamp : String
  fails : ℕ → Option String
  auditFails : Option String

/-- The columns of an `UPDATE`, with the trigger. -/
def withTrigger (pg : TriggerPostgres Id) (tableName now : String) (columns : String → Value) (column : String) :
    Value :=
  if column = "updated_at" ∧ pg.hasTrigger tableName = true then .text now else columns column

/-- `SET deleted_at = ?::timestamptz, deleted_by = ?::uuid`. -/
def markDeleted (now deletedBy : String) (columns : String → Value) (column : String) : Value :=
  if column = "deleted_at" then .text now else if column = "deleted_by" then .text deletedBy else columns column

/-- `SET deleted_at = NULL, deleted_by = NULL`. -/
def clearDeleted (columns : String → Value) (column : String) : Value :=
  if column = "deleted_at" ∨ column = "deleted_by" then .null else columns column

/-- `foreignKey = id`. -/
def references (pg : TriggerPostgres Id) (foreignKey : String) (id : Value) (row : Row Id) : Bool :=
  row.columns foreignKey ≠ .null && pg.parseId (row.columns foreignKey) = pg.parseId id

/-- `UPDATE` of a table. -/
def updateTable (tables : Tables Id) (tableName : String) (p : Row Id → Bool)
    (f : String → (String → Value) → String → Value) : Tables Id :=
  Function.update tables tableName ((tables tableName).update p (f tableName))

namespace SoftDeleteService

def notEligible : ServiceError := .notFound "Record not found or not eligible for this operation"

/-- The columns that a statement of `softDelete` writes. -/
def marks (pg : TriggerPostgres Id) (options : SoftDeleteOptions) (env : SoftDeleteEnv) (tableName : String)
    (columns : String → Value) : String → Value :=
  withTrigger pg tableName env.currentTimestamp (markDeleted env.now options.deletedBy columns)

/-- The loop over the relations, from a statement on. -/
def cascadeAll (pg : TriggerPostgres Id) (options : SoftDeleteOptions) (env : SoftDeleteEnv) :
    ℕ → List CascadeRelation → Tables Id → Except ServiceError (Tables Id)
  | _, [], tables => .ok tables
  | k, rel :: rels, tables => do
    validateIdentifiers [rel.table]
    validateIdentifiers [rel.foreignKey]
    -- The whole transaction is rolled back when one of its statements fails.
    match env.fails k with
    | some message => throw (.database message)
    | none =>
      cascadeAll pg options env (k + 1) rels (updateTable tables rel.table
        (fun row => references pg rel.foreignKey options.id row && row.isLive) (marks pg options env))

/-- `softDelete`: a transaction with the audit entry at its end. -/
def softDelete (pg : TriggerPostgres Id) (tables : Tables Id) (options : SoftDeleteOptions) (env : SoftDeleteEnv) :
    Except ServiceError (Tables Id) := do
  validateIdentifiers [options.tableName]
  let marked ← updateRow pg.toPostgres tables options.tableName options.id Row.isLive
    (marks pg options env options.tableName) (env.fails 0) notEligible
  let cascaded ← cascadeAll pg options env 1 options.cascade marked
  match env.auditFails with
  | some message => throw (.database message)
  | none => return cascaded

/-- `restore`: its `UPDATE` stays when the audit entry fails. -/
def restore (pg : TriggerPostgres Id) (tables : Tables Id) (tableName : String) (id : Value) (env : SoftDeleteEnv) :
    Except ServiceError Unit × Tables Id :=
  match (do
    validateIdentifiers [tableName]
    updateRow pg.toPostgres tables tableName id (fun row => !row.isLive)
      (fun columns => withTrigger pg tableName env.currentTimestamp (clearDeleted columns)) (env.fails 0)
      notEligible) with
  | .error e => (.error e, tables)
  | .ok restored =>
    match env.auditFails with
    | some message => (.error (.database message), restored)
    | none => (.ok (), restored)

end SoftDeleteService

/-! ## What should be undone -/

/-- The row of the options, or one that refers to it by a relation. -/
def IsConcerned (pg : TriggerPostgres Id) (options : SoftDeleteOptions) (tableName : String) (row : Row Id) : Prop :=
  (tableName = options.tableName ∧ pg.parseId options.id = some row.id) ∨
    ∃ rel ∈ options.cascade, rel.table = tableName ∧ references pg rel.foreignKey options.id row = true

/-- The rows of `before` that are concerned are the same in two later states. -/
def Untouched (pg : TriggerPostgres Id) (options : SoftDeleteOptions) (before tables tables' : Tables Id) : Prop :=
  ∀ tableName, ∀ row ∈ (before tableName).rows, IsConcerned pg options tableName row →
    ∀ row' ∈ (tables tableName).rows, row'.id = row.id → row' ∈ (tables' tableName).rows

/-- The same row, but for the time of its last change. -/
def SameRow (row row' : Row Id) : Prop :=
  row'.id = row.id ∧ ∀ column, column ≠ "updated_at" → row'.columns column = row.columns column

/-- The row and those that were marked with it are as before, and those that had been deleted before are still
deleted, at the same time and by the same user. -/
structure Undone (pg : TriggerPostgres Id) (options : SoftDeleteOptions) (before after : Tables Id) : Prop where
  row : ∀ row ∈ (before options.tableName).rows, pg.parseId options.id = some row.id →
    ∃ row' ∈ (after options.tableName).rows, SameRow row row'
  marked : ∀ rel ∈ options.cascade, ∀ row ∈ (before rel.table).rows,
    references pg rel.foreignKey options.id row = true → row.isLive = true →
      ∃ row' ∈ (after rel.table).rows, SameRow row row'
  earlier : ∀ rel ∈ options.cascade, ∀ row ∈ (before rel.table).rows,
    references pg rel.foreignKey options.id row = true → row.isLive = false →
      ∃ row' ∈ (after rel.table).rows, row'.id = row.id ∧
        row'.columns "deleted_at" = row.columns "deleted_at" ∧ row'.columns "deleted_by" = row.columns "deleted_by"

/-- No row is marked besides the one that is deleted, and that one names nobody who has deleted it. -/
def MarksOneRow (pg : TriggerPostgres Id) (options : SoftDeleteOptions) (before : Tables Id) : Prop :=
  (∀ row ∈ (before options.tableName).rows, pg.parseId options.id = some row.id →
    row.columns "deleted_by" = .null) ∧
  ∀ rel ∈ options.cascade, ∀ row ∈ (before rel.table).rows, references pg rel.foreignKey options.id row = true →
    row.isLive = true → rel.table = options.tableName ∧ pg.parseId options.id = some row.id

/-! ## The statements -/

section statements

variable {pg : TriggerPostgres Id} {options : SoftDeleteOptions} {env : SoftDeleteEnv} {tables tables' : Tables Id}

/-- The row after a statement that writes its columns. -/
def Row.set (f : (String → Value) → String → Value) (row : Row Id) : Row Id := { row with columns := f row.columns }

omit [DecidableEq Id] in
/-- The rows of a table after an `UPDATE` of one of the tables. -/
theorem rows_updateTable (tables : Tables Id) (tableName name : String) (p : Row Id → Bool)
    (f : String → (String → Value) → String → Value) : (updateTable tables tableName p f name).rows =
      updateWhere (fun row => name = tableName && p row) (Row.set (f name)) (tables name).rows := by
  unfold updateTable
  by_cases hname : name = tableName
  -- Any other table has no row that the condition selects.
  · subst hname
    rw [Function.update_self]
    simp only [decide_true, Bool.true_and]
    rfl
  · rw [Function.update_of_ne hname]
    simp only [hname, decide_false, Bool.false_and]
    exact (updateWhere_eq_self fun _ _ => rfl).symm

/-- The condition of the relations from one on, in a table. -/
def byRelation (pg : TriggerPostgres Id) (options : SoftDeleteOptions) (rels : List CascadeRelation)
    (tableName : String) (row : Row Id) : Bool :=
  row.isLive && rels.any fun rel => tableName = rel.table && references pg rel.foreignKey options.id row

omit [DecidableEq Id] in
/-- A marked row is not live. -/
theorem isLive_marks (tableName : String) (row : Row Id) :
    (row.set (SoftDeleteService.marks pg options env tableName)).isLive = false := by
  have hdeleted : SoftDeleteService.marks pg options env tableName row.columns "deleted_at" = .text env.now := by
    unfold SoftDeleteService.marks withTrigger
    rw [if_neg fun h => absurd h.1 (by decide)]
    rfl
  show decide (SoftDeleteService.marks pg options env tableName row.columns "deleted_at" = .null) = false
  rw [hdeleted]
  rfl

/-- What the loop over the relations marks. -/
theorem cascadeAll_ok {k : ℕ} {rels : List CascadeRelation}
    (h : SoftDeleteService.cascadeAll pg options env k rels tables = .ok tables') (tableName : String) :
    (tables' tableName).rows = updateWhere (byRelation pg options rels tableName)
      (Row.set (SoftDeleteService.marks pg options env tableName)) (tables tableName).rows := by
  induction rels generalizing k tables with
  | nil =>
    obtain rfl := Except.ok.inj h
    refine (updateWhere_eq_self fun row _ => ?_).symm
    show (row.isLive && false) = false
    rw [Bool.and_false]
  | cons rel rels ih =>
    simp only [SoftDeleteService.cascadeAll, bind, Except.bind] at h
    split at h
    · cases h
    · split at h
      · cases h
      · split at h
        · cases h
        -- A row that this relation has marked is not live for the next ones, so that the two updates are one.
        · rw [ih h, rows_updateTable, updateWhere_updateWhere]
          · congr 1
            funext row
            unfold byRelation
            rw [List.any_cons]
            cases row.isLive <;> simp
          · intro row _
            show ((row.set _).isLive && _) = false
            rw [isLive_marks, Bool.false_and]

theorem decide_parseId {id : Value} {rowId : Id} (h : pg.parseId id = some rowId) (row : Row Id) :
    decide (pg.parseId id = some row.id) = decide (row.id = rowId) := by
  refine decide_eq_decide.2 ?_
  rw [h, Option.some.injEq]
  exact eq_comm

/-- The rows that `softDelete` marks. -/
def isMarked (pg : TriggerPostgres Id) (options : SoftDeleteOptions) (tableName : String) (row : Row Id) : Bool :=
  (tableName = options.tableName && (pg.parseId options.id = some row.id && row.isLive)) ||
    byRelation pg options options.cascade tableName row

/-- What `softDelete` does: it finds its row, and marks. -/
theorem softDelete_ok (h : SoftDeleteService.softDelete pg tables options env = .ok tables') :
    (∃ row ∈ (tables options.tableName).rows, pg.parseId options.id = some row.id ∧ row.isLive = true) ∧
      ∀ tableName, (tables' tableName).rows = updateWhere (isMarked pg options tableName)
        (Row.set (SoftDeleteService.marks pg options env tableName)) (tables tableName).rows := by
  simp only [SoftDeleteService.softDelete, bind, Except.bind] at h
  split at h
  · cases h
  · split at h
    · cases h
    · next hupdate =>
      split at h
      · cases h
      · next hcascade =>
        split at h
        · cases h
        · obtain rfl := Except.ok.inj h
          obtain ⟨_, rowId, hid, ⟨row, hrow, rfl, hlive⟩, rfl⟩ := updateRow_eq_ok.1 hupdate
          refine ⟨⟨row, hrow, hid, hlive⟩, fun tableName => ?_⟩
          rw [cascadeAll_ok hcascade tableName]
          -- The statement of the row is the first update, and those of the relations are the second.
          have hfirst := rows_updateTable tables options.tableName tableName
            (selects row.id Row.isLive) (SoftDeleteService.marks pg options env)
          unfold updateTable at hfirst
          rw [hfirst, updateWhere_updateWhere]
          · congr 1
            funext row'
            unfold isMarked
            rw [decide_parseId hid]
            rfl
          · intro row' _
            show ((row'.set _).isLive && _) = false
            rw [isLive_marks, Bool.false_and]

/-- The row that `restore` clears. -/
def isRestored (pg : TriggerPostgres Id) (name : String) (id : Value) (tableName : String) (row : Row Id) : Bool :=
  tableName = name && (pg.parseId id = some row.id && !row.isLive)

theorem restore_ok {name : String} {id : Value}
    (h : SoftDeleteService.restore pg tables name id env = (.ok (), tables')) (tableName : String) :
    (tables' tableName).rows = updateWhere (isRestored pg name id tableName)
      (Row.set fun columns => withTrigger pg tableName env.currentTimestamp (clearDeleted columns))
        (tables tableName).rows := by
  simp only [SoftDeleteService.restore, bind, Except.bind] at h
  split at h
  · cases h
  · next restored hupdate =>
    have htables : restored = tables' := by
      split at h
      · cases h
      · exact (Prod.mk.inj h).2
    subst htables
    split at hupdate
    · cases hupdate
    · obtain ⟨_, rowId, hid, _, rfl⟩ := updateRow_eq_ok.1 hupdate
      have hrows := rows_updateTable tables name tableName (selects rowId fun row => !row.isLive)
        fun tableName columns => withTrigger pg tableName env.currentTimestamp (clearDeleted columns)
      unfold updateTable at hrows
      rw [hrows]
      congr 1
      funext row
      unfold isRestored
      rw [decide_parseId hid]
      rfl

end statements

/-! ## A row through both -/

section rows

variable {pg : TriggerPostgres Id} {options : SoftDeleteOptions} {env env' : SoftDeleteEnv}
  {before deleted between after : Tables Id} {tableName : String} {row : Row Id}

/-- A row after a soft deletion. -/
def afterDelete (pg : TriggerPostgres Id) (options : SoftDeleteOptions) (env : SoftDeleteEnv) (tableName : String)
    (row : Row Id) : Row Id :=
  if isMarked pg options tableName row then row.set (SoftDeleteService.marks pg options env tableName) else row

/-- And after the restoration. -/
def afterRestore (pg : TriggerPostgres Id) (options : SoftDeleteOptions) (env' : SoftDeleteEnv) (tableName : String)
    (row : Row Id) : Row Id :=
  if isRestored pg options.tableName options.id tableName row then
    row.set fun columns => withTrigger pg tableName env'.currentTimestamp (clearDeleted columns)
  else row

theorem afterDelete_id : (afterDelete pg options env tableName row).id = row.id := by
  unfold afterDelete
  split_ifs <;> rfl

theorem afterRestore_id : (afterRestore pg options env' tableName row).id = row.id := by
  unfold afterRestore
  split_ifs <;> rfl

/-- What becomes of a row that is concerned. -/
theorem exists_after_iff (tableName : String) (row : Row Id) (hdelete : SoftDeleteService.softDelete pg before options env = .ok deleted)
    (huntouched : Untouched pg options before deleted between)
    (hrestore : SoftDeleteService.restore pg between options.tableName options.id env' = (.ok (), after))
    (hrow : row ∈ (before tableName).rows) (hconcerned : IsConcerned pg options tableName row)
    {P : Row Id → Prop} (hP : ∀ row', P row' → row'.id = row.id) :
    (∃ row' ∈ (after tableName).rows, P row') ↔
      P (afterRestore pg options env' tableName (afterDelete pg options env tableName row)) := by
  have hdeleted : afterDelete pg options env tableName row ∈ (deleted tableName).rows := by
    rw [(softDelete_ok hdelete).2 tableName]
    exact mem_updateWhere.2 ⟨row, hrow, rfl⟩
  -- The row goes through the deletion, the time between, and the restoration.
  have hbetween : afterDelete pg options env tableName row ∈ (between tableName).rows :=
    huntouched tableName row hrow hconcerned _ hdeleted afterDelete_id
  have hafter : afterRestore pg options env' tableName (afterDelete pg options env tableName row) ∈
      (after tableName).rows := by
    rw [restore_ok hrestore tableName]
    exact mem_updateWhere.2 ⟨_, hbetween, rfl⟩
  constructor
  · intro ⟨row', hrow', hp⟩
    have hid : row'.id = (afterRestore pg options env' tableName (afterDelete pg options env tableName row)).id := by
      rw [afterRestore_id, afterDelete_id]
      exact hP row' hp
    exact List.inj_on_of_nodup_map (after tableName).nodup hrow' hafter hid ▸ hp
  · intro hp
    exact ⟨_, hafter, hp⟩

/-- The row that is deleted and restored is as before when it named nobody who has deleted it. -/
theorem sameRow_restored_iff (hid : pg.parseId options.id = some row.id) (hlive : row.isLive = true) :
    SameRow row (afterRestore pg options env' options.tableName (afterDelete pg options env options.tableName row)) ↔
      row.columns "deleted_by" = .null := by
  have hmarked : isMarked pg options options.tableName row = true := by
    unfold isMarked
    simp [hid, hlive]
  have hdelete : afterDelete pg options env options.tableName row =
      row.set (SoftDeleteService.marks pg options env options.tableName) := if_pos hmarked
  have hrestored : isRestored pg options.tableName options.id options.tableName
      (row.set (SoftDeleteService.marks pg options env options.tableName)) = true := by
    unfold isRestored
    rw [isLive_marks]
    simp only [decide_true, Bool.true_and, Bool.not_false, Bool.and_true, decide_eq_true_eq]
    exact hid
  have hfinal : afterRestore pg options env' options.tableName
      (row.set (SoftDeleteService.marks pg options env options.tableName)) = _ := if_pos hrestored
  rw [hdelete, hfinal]
  -- The restoration sets to `NULL` what the deletion has written, and nothing else.
  have hcolumn : ∀ column, column ≠ "updated_at" →
      withTrigger pg options.tableName env'.currentTimestamp
        (clearDeleted (SoftDeleteService.marks pg options env options.tableName row.columns)) column =
        if column = "deleted_at" ∨ column = "deleted_by" then .null else row.columns column := by
    intro column hne
    unfold withTrigger
    rw [if_neg fun h => hne h.1]
    unfold clearDeleted
    refine ite_congr rfl (fun _ => rfl) fun hnot => ?_
    rw [not_or] at hnot
    unfold SoftDeleteService.marks withTrigger
    rw [if_neg fun h => hne h.1]
    unfold markDeleted
    rw [if_neg hnot.1, if_neg hnot.2]
  constructor
  · intro ⟨_, hsame⟩
    have hby := hsame "deleted_by" (by decide)
    rw [← hby]
    exact (hcolumn "deleted_by" (by decide)).trans (if_pos (Or.inr rfl))
  -- `deleted_at` was `NULL` since the row was live; `deleted_by` has to be asked for.
  · intro hby
    refine ⟨rfl, fun column hne => (hcolumn column hne).trans ?_⟩
    split_ifs with hdeleted
    · rcases hdeleted with rfl | rfl
      · exact (of_decide_eq_true hlive).symm
      · exact hby.symm
    · rfl

/-- Any other row is left by the restoration. -/
theorem afterRestore_of_ne (h : ¬(tableName = options.tableName ∧ pg.parseId options.id = some row.id)) :
    afterRestore pg options env' tableName row = row := by
  refine if_neg fun hrestored => h ?_
  unfold isRestored at hrestored
  simp only [Bool.and_eq_true, decide_eq_true_eq] at hrestored
  exact ⟨hrestored.1, hrestored.2.1⟩

omit [DecidableEq Id] in
/-- A row that stays marked is not as before. -/
theorem not_sameRow_marked (hlive : row.isLive = true) :
    ¬SameRow row (row.set (SoftDeleteService.marks pg options env tableName)) := by
  intro ⟨_, hsame⟩
  have hdeleted := hsame "deleted_at" (by decide)
  rw [of_decide_eq_true hlive] at hdeleted
  exact absurd (decide_eq_true hdeleted) (by rw [← Row.isLive, isLive_marks]; exact Bool.false_ne_true)

end rows

/-! ## The law -/

/-- A restoration undoes a soft deletion exactly when this has marked one row, which named nobody who has
deleted it. -/
theorem restore_undoes_iff (pg : TriggerPostgres Id) (options : SoftDeleteOptions) (env env' : SoftDeleteEnv)
    (before deleted between after : Tables Id)
    (hdelete : SoftDeleteService.softDelete pg before options env = .ok deleted)
    (huntouched : Untouched pg options before deleted between)
    (hrestore : SoftDeleteService.restore pg between options.tableName options.id env' = (.ok (), after)) :
    Undone pg options before after ↔ MarksOneRow pg options before := by
  obtain ⟨⟨main, hmain, hid, hlive⟩, _⟩ := softDelete_ok hdelete
  have hexists := fun (tableName : String) (row : Row Id) =>
    exists_after_iff tableName row hdelete huntouched hrestore
  have hmainIff : (∃ row' ∈ (after options.tableName).rows, SameRow main row') ↔
      main.columns "deleted_by" = .null :=
    (hexists _ main hmain (Or.inl ⟨rfl, hid⟩) fun _ h => h.1).trans (sameRow_restored_iff hid hlive)
  have honly : ∀ row ∈ (before options.tableName).rows, pg.parseId options.id = some row.id → row = main := by
    intro row hrow hrowId
    have hsame : row.id = main.id := Option.some.inj (hrowId.symm.trans hid)
    exact List.inj_on_of_nodup_map (before options.tableName).nodup hrow hmain hsame
  -- A row that was marked by a relation stays marked, unless it is the main row.
  have hmarkedOnly : ∀ rel ∈ options.cascade, ∀ row ∈ (before rel.table).rows,
      references pg rel.foreignKey options.id row = true → row.isLive = true →
        (∃ row' ∈ (after rel.table).rows, SameRow row row') →
          rel.table = options.tableName ∧ pg.parseId options.id = some row.id := by
    intro rel hrel row hrow href hrowLive hsame
    by_contra hne
    have hfinal := (hexists rel.table row hrow (Or.inr ⟨rel, hrel, rfl, href⟩) fun _ h => h.1).1 hsame
    have hby : byRelation pg options options.cascade rel.table row = true := by
      unfold byRelation
      rw [hrowLive, Bool.true_and, List.any_eq_true]
      exact ⟨rel, hrel, by rw [decide_eq_true rfl, href]; rfl⟩
    have hmarked : afterDelete pg options env rel.table row =
        row.set (SoftDeleteService.marks pg options env rel.table) :=
      if_pos (by unfold isMarked; rw [hby, Bool.or_true])
    have hkept : afterRestore pg options env' rel.table
        (row.set (SoftDeleteService.marks pg options env rel.table)) =
          row.set (SoftDeleteService.marks pg options env rel.table) := afterRestore_of_ne hne
    rw [hmarked, hkept] at hfinal
    exact not_sameRow_marked hrowLive hfinal
  constructor
  · intro h
    refine ⟨fun row hrow hrowId => ?_, fun rel hrel row hrow href hrowLive => ?_⟩
    · obtain rfl := honly row hrow hrowId
      exact hmainIff.1 (h.row row hrow hrowId)
    · exact hmarkedOnly rel hrel row hrow href hrowLive (h.marked rel hrel row hrow href hrowLive)
  · intro ⟨hdeletedBy, hmarks⟩
    have hmainSame := hmainIff.2 (hdeletedBy main hmain hid)
    refine ⟨fun row hrow hrowId => ?_, fun rel hrel row hrow href hrowLive => ?_,
      fun rel hrel row hrow href hrowDeleted => ?_⟩
    · obtain rfl := honly row hrow hrowId
      exact hmainSame
    · obtain ⟨htable, hrowId⟩ := hmarks rel hrel row hrow href hrowLive
      rw [htable] at hrow ⊢
      obtain rfl := honly row hrow hrowId
      exact hmainSame
    -- A row that had been deleted before is not the main row, and is marked by no statement.
    · have hne : ¬(rel.table = options.tableName ∧ pg.parseId options.id = some row.id) := by
        intro ⟨htable, hrowId⟩
        rw [htable] at hrow
        obtain rfl := honly row hrow hrowId
        rw [hlive] at hrowDeleted
        cases hrowDeleted
      have hunmarked : afterDelete pg options env rel.table row = row := by
        refine if_neg fun hmarked => ?_
        unfold isMarked byRelation at hmarked
        rw [hrowDeleted, Bool.and_false, Bool.and_false, Bool.false_and, Bool.or_false] at hmarked
        cases hmarked
      refine (hexists rel.table row hrow (Or.inr ⟨rel, hrel, rfl, href⟩) fun _ h => h.1).2 ?_
      rw [hunmarked, afterRestore_of_ne hne]
      exact ⟨rfl, rfl, rfl⟩

/-- Ids that are texts, without triggers. -/
def textPg : TriggerPostgres String where
  parseId := fun value => match value with
    | .text id => some id
    | _ => none
  default := fun _ _ => .null
  hasTrigger := fun _ => false

/-- A finding, and its recommendations, of which each has its id. -/
def findingTables (recommendations : List String) (h : recommendations.Nodup) : Tables String :=
  fun tableName =>
    if tableName = "audit_findings" then ⟨[⟨"f", fun _ => .null⟩], List.nodup_singleton _⟩
    else if tableName = "recommendations" then
      ⟨recommendations.map fun id => ⟨id, fun column => if column = "finding_id" then .text "f" else .null⟩, by
        rw [List.map_map]
        exact (List.map_id recommendations).symm ▸ h⟩
    else ⟨[], List.nodup_nil⟩

/-- The deletion of the finding with its recommendations. -/
def deleteFinding : SoftDeleteOptions :=
  ⟨"audit_findings", .text "f", "u", [⟨"recommendations", "finding_id"⟩]⟩

def quietEnv : SoftDeleteEnv := ⟨"2026-01-01T00:00:00.000Z", "2026-01-01", fun _ => none, none⟩

/-- A finding without recommendations is as before. -/
theorem loneFinding_undone : ∃ deleted after,
    SoftDeleteService.softDelete textPg (findingTables [] List.nodup_nil) deleteFinding quietEnv = .ok deleted ∧
    SoftDeleteService.restore textPg deleted "audit_findings" (.text "f") quietEnv = (.ok (), after) ∧
      Undone textPg deleteFinding (findingTables [] List.nodup_nil) after := by
  refine ⟨_, _, rfl, rfl, ?_⟩
  refine (restore_undoes_iff textPg deleteFinding quietEnv quietEnv _ _ _ _ rfl (fun _ _ _ _ _ h _ => h) rfl).2 ⟨?_, ?_⟩
  · intro row hrow _
    obtain rfl := List.mem_singleton.1 hrow
    rfl
  · intro rel hrel row hrow
    obtain rfl := List.mem_singleton.1 hrel
    cases hrow

/-- The recommendation of a finding is still deleted after the finding is restored. -/
theorem recommendation_not_undone : ∃ deleted after,
    SoftDeleteService.softDelete textPg (findingTables ["r"] (List.nodup_singleton _)) deleteFinding quietEnv =
      .ok deleted ∧
    SoftDeleteService.restore textPg deleted "audit_findings" (.text "f") quietEnv = (.ok (), after) ∧
      ¬Undone textPg deleteFinding (findingTables ["r"] (List.nodup_singleton _)) after := by
  refine ⟨_, _, rfl, rfl, fun h => ?_⟩
  obtain ⟨row', hrow', _, hsame⟩ := h.marked _ List.mem_cons_self _ List.mem_cons_self rfl rfl
  obtain rfl := List.mem_singleton.1 hrow'
  exact absurd (hsame "deleted_at" (by decide)) (by decide)

end AlsaqiBackend.Records

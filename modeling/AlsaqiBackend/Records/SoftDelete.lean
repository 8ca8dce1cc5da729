import AlsaqiBackend.Lib.Run
import AlsaqiBackend.Records.Bulk
import Mathlib.Data.Set.Insert

/-!
# Soft deletion

Calls of `BaseService` and `BulkOperationsService` on any tables, next to the set of ids that have been
created and not been deleted since. A call is `Lawful` when `findById` and `findAll` show the rows of
this set after it, when it leaves the deleted rows as they are, and when it says that there is no row
where it comes to a deleted one.

`BaseService.update` is the one statement that does not look at `deleted_at`: `lawful_iff_untargeted`
says that a run is lawful exactly when no such call comes to a deleted row.
-/

namespace AlsaqiBackend.Records

open AlsaqiBackend.Lib BulkOperationsService
open AlsaqiBackend.Events (SOFT_DELETE_TABLES codeColumns isIdentifier)

variable {Id : Type} [DecidableEq Id]

/-! ## Calls -/

inductive Call (Id : Type)
  | create (tableName : String) (data : Body) (code : Option String) (slot : Slot Id)
  | update (tableName : String) (id : Value) (data : Body) (now : String) (fails : Option String)
  | delete (tableName : String) (id : Value) (now : String) (fails : Option String)
  | bulk (resource : String) (operation : BulkOperation) (items : List BulkItem) (username : String)
    (env : BatchEnv Id)

/-- The store after a transaction of `BaseService`. -/
def Store.after (store : Store Id) : Except ServiceError (Tables Id) → Except ServiceError Unit × Store Id
  | .ok tables => (.ok (), { store with tables })
  | .error error => (.error error, store)

/-- What a call ends with, and the store then. -/
def Call.perform (pg : Postgres Id) (store : Store Id) :
    Call Id → Except ServiceError Unit × Store Id
  | .create tableName data code slot =>
    store.after (BaseService.create pg store.tables tableName data code slot)
  | .update tableName id data now fails =>
    store.after (BaseService.update pg store.tables tableName id data now fails)
  | .delete tableName id now fails =>
    store.after (BaseService.delete pg store.tables tableName id now fails)
  | .bulk resource operation items username env =>
    let (outcome, t) := execute pg store resource operation items username env
    (outcome.map fun _ => (), t)

/-- The ids of new rows in the results of a batch. -/
def newIds (details : List (BulkItemResult Id)) : List Id :=
  details.filterMap fun result => match result.id with
    | .new id => some id
    | .given _ => none

/-- The rows whose ids were given, in the results of a batch. -/
def givenIds (pg : Postgres Id) (details : List (BulkItemResult Id)) : List Id :=
  details.filterMap fun result => match result.id with
    | .new _ => none
    | .given value => pg.parseId value

/-- The ids that a call creates in a table. -/
def Call.created (pg : Postgres Id) (tables : Tables Id) (call : Call Id) (tableName : String) :
    List Id :=
  match call with
  | .create name data code slot =>
    match BaseService.create pg tables name data code slot with
    | .ok _ => if tableName = name then [slot.id] else []
    | .error _ => []
  | .bulk resource operation items _ env =>
    match executeBatch pg tables resource operation items env with
    | .ok (name, details, _) => if tableName = name then newIds details else []
    | .error _ => []
  | _ => []

/-- The ids that a call deletes in a table. -/
def Call.deleted (pg : Postgres Id) (tables : Tables Id) (call : Call Id) (tableName : String) :
    List Id :=
  match call with
  | .delete name id now fails =>
    match BaseService.delete pg tables name id now fails with
    | .ok _ => if tableName = name then (pg.parseId id).toList else []
    | .error _ => []
  | .bulk resource operation items _ env =>
    match executeBatch pg tables resource operation items env with
    | .ok (name, details, _) =>
      if tableName = name ∧ operation = .delete then givenIds pg details else []
    | .error _ => []
  | _ => []

/-- The store, and the ids that have been created and not been deleted since. -/
structure Tracked (Id : Type) where
  store : Store Id
  live : String → Set Id

/-- One call. -/
def trackedStep (pg : Postgres Id) (s : Tracked Id) (call : Call Id) : Option (Tracked Id) :=
  some ⟨(call.perform pg s.store).2, fun tableName =>
    (s.live tableName ∪ {id | id ∈ call.created pg s.store.tables tableName}) \
      {id | id ∈ call.deleted pg s.store.tables tableName}⟩

/-! ## Lawful calls -/

/-- The ids of the rows that are not deleted. -/
def Table.liveIds (table : Table Id) : Set Id :=
  {id | ∃ row ∈ table.rows, row.id = id ∧ row.isLive = true}

/-- `findById` finds the rows of a set of ids, and the default page of `findAll` has no others, and all of
them when it is not full. -/
structure Shows (pg : Postgres Id) (before : Row Id → Row Id → Bool) (tables : Tables Id)
    (tableName : String) (live : Set Id) : Prop where
  findById : ∀ id, (∃ row, BaseService.findById pg tables tableName id = .ok row) ↔
    ∃ rowId ∈ live, pg.parseId id = some rowId
  findAll : ∃ rows, BaseService.findAll before tables tableName = .ok rows ∧
    (∀ row ∈ rows, row.id ∈ live) ∧
      ∀ rowId ∈ live, (∃ row ∈ rows, row.id = rowId) ∨
        rows.length = BaseService.defaultPageSize tableName

/-- The id is that of a row that is deleted. -/
def IsDeleted (pg : Postgres Id) (tables : Tables Id) (tableName : String) (id : Value) : Prop :=
  ∃ row ∈ (tables tableName).rows, row.isLive = false ∧ pg.parseId id = some row.id

/-- An item in its turn passes its checks and comes to a row that is deleted. -/
def ItemTargets (pg : Postgres Id) (operation : BulkOperation) (tableName : String)
    (tables : Tables Id) (item : BulkItem) (slot : Slot Id) : Prop :=
  slot.fails = none ∧ IsDeleted pg tables tableName (item.id.getD .null) ∧
    match operation with
    | .update => checkUpdate tableName (updateBody item.data) = .ok ()
    | .delete => True
    | _ => False

/-- Some item of a batch does. -/
def ItemsTarget (pg : Postgres Id) (operation : BulkOperation) (tableName : String)
    (slot : ℕ → Slot Id) : ℕ → List BulkItem → Tables Id → Prop
  | _, [], _ => False
  | i, item :: items, tables => ItemTargets pg operation tableName tables item (slot i) ∨
      ∃ result t, processItem pg operation tableName tables i item (slot i) = .ok (result, t) ∧
        ItemsTarget pg operation tableName slot (i + 1) items t

/-- A call that changes or deletes passes its checks and comes to a row that is deleted. -/
def Call.Targets (pg : Postgres Id) (tables : Tables Id) : Call Id → Prop
  | .create _ _ _ _ => False
  | .update tableName id data _ fails => tableName ∈ SOFT_DELETE_TABLES ∧ fails = none ∧
      (∃ body, BaseService.checkUpdate tableName data = .ok body) ∧ IsDeleted pg tables tableName id
  | .delete tableName id _ fails => tableName ∈ SOFT_DELETE_TABLES ∧ fails = none ∧
      IsDeleted pg tables tableName id
  | .bulk resource operation items _ env => validateBatchSize items = .ok () ∧
      validateItems operation items = [] ∧ env.beginFails = none ∧
        ∃ tableName ∈ SOFT_DELETE_TABLES, resolveTable resource = .ok tableName ∧
          ItemsTarget pg operation tableName env.slot 0 items tables

/-- The error says that there is no row of the id. -/
def SaysNotFound : ServiceError → Prop
  | .notFound _ => True
  | .processing _ (.failure message) => ∃ id : Value,
      message = s!"Record with ID {id.template} not found or is deleted" ∨
        message = s!"Record with ID {id.template} not found or already deleted"
  | _ => False

/-- What a call should do to the tables with soft deletion. -/
structure LawfulCall (pg : Postgres Id) (before : Row Id → Row Id → Bool) (s : Tracked Id)
    (call : Call Id) (t : Tracked Id) : Prop where
  shows : ∀ tableName ∈ SOFT_DELETE_TABLES,
    Shows pg before t.store.tables tableName (t.live tableName)
  frozen : ∀ tableName ∈ SOFT_DELETE_TABLES, ∀ row ∈ (s.store.tables tableName).rows,
    row.isLive = false → row ∈ (t.store.tables tableName).rows
  notFound : call.Targets pg s.store.tables →
    (∃ error, (call.perform pg s.store).1 = .error error ∧ SaysNotFound error) ∧
      t.store.tables = s.store.tables

def Lawful (pg : Postgres Id) (before : Row Id → Row Id → Bool) (s : Tracked Id) (call : Call Id) :
    Prop :=
  ∀ t, trackedStep pg s call = some t → LawfulCall pg before s call t

/-- No `BaseService.update` comes to a deleted row. -/
def Untargeted (pg : Postgres Id) (s : Tracked Id) (call : Call Id) : Prop :=
  match call with
  | .update _ _ _ _ _ => ¬call.Targets pg s.store.tables
  | _ => True

/-! ## What a statement does to the live rows -/

/-- A change of one table: of the ids of its live rows, with the deleted rows as they were. -/
structure Moves (tableName : String) (f : Set Id → Set Id) (tables t : Tables Id) : Prop where
  live : (t tableName).liveIds = f (tables tableName).liveIds
  frozen : ∀ row ∈ (tables tableName).rows, row.isLive = false → row ∈ (t tableName).rows
  other : ∀ name, name ≠ tableName → t name = tables name

section Moves

variable {pg : Postgres Id} {tables t u : Tables Id} {tableName : String} {f g : Set Id → Set Id}
  {body : Body} {now : String} {rowId : Id}

omit [DecidableEq Id] in
theorem Moves.refl (tables : Tables Id) (tableName : String) : Moves tableName id tables tables :=
  ⟨rfl, fun _ h _ => h, fun _ _ => rfl⟩

omit [DecidableEq Id] in
theorem Moves.trans (h : Moves tableName f tables t) (h' : Moves tableName g t u) :
    Moves tableName (g ∘ f) tables u := by
  refine ⟨?_, fun row hrow hdeleted => ?_, fun name hname => ?_⟩
  · rw [h'.live, h.live]
    rfl
  · exact h'.frozen row (h.frozen row hrow hdeleted) hdeleted
  · exact (h'.other name hname).trans (h.other name hname)

omit [DecidableEq Id] in
/-- The columns that a body may write do not include `deleted_at`. -/
theorem get_deletedAt (h : checkWhitelist tableName body = []) : body.get "deleted_at" = none := by
  have hall : ∀ entry ∈ TABLE_WRITE_SCHEMAS, "deleted_at" ∉ entry.2 := by decide +kernel
  rw [OrderedMap.get_eq_none]
  intro hkey
  have hallowed := List.filter_eq_nil_iff.1 h "deleted_at" hkey
  rw [decide_eq_true_eq, not_not, getColumnWhitelist] at hallowed
  cases hlookup : TABLE_WRITE_SCHEMAS.lookup tableName with
  | none =>
    rw [hlookup] at hallowed
    exact absurd hallowed List.not_mem_nil
  | some columns =>
    rw [hlookup] at hallowed
    obtain ⟨before, after, heq, -⟩ := List.lookup_eq_some_iff.1 hlookup
    exact hall (tableName, columns) (by simp [heq]) hallowed

/-- A new row is live. -/
theorem Moves.insert {slot : Slot Id} {table : Table Id} (hbody : body.get "deleted_at" = none)
    (h : (tables tableName).insert ⟨slot.id, newColumns pg tableName body slot.now⟩ = some table) :
    Moves tableName (fun ids => ids ∪ {slot.id}) tables (Function.update tables tableName table) := by
  rw [Table.insert] at h
  split_ifs at h
  obtain rfl := Option.some.inj h
  have hlive : Row.isLive ⟨slot.id, newColumns pg tableName body slot.now⟩ = true := by
    simp [Row.isLive, newColumns, hbody]
  refine ⟨?_, fun row hrow _ => ?_, fun name hname => Function.update_of_ne hname _ _⟩
  · rw [Function.update_self]
    ext id
    simp only [Table.liveIds, Set.mem_ofPred_eq, Set.mem_union, Set.mem_singleton_iff]
    constructor
    · rintro ⟨row, hrow, hid, hrowLive⟩
      rcases List.mem_append.1 hrow with hold | hnew
      · exact Or.inl ⟨row, hold, hid, hrowLive⟩
      · rw [List.mem_singleton.1 hnew] at hid
        exact Or.inr hid.symm
    · rintro (⟨row, hrow, hid, hrowLive⟩ | rfl)
      · exact ⟨row, List.mem_append_left _ hrow, hid, hrowLive⟩
      · exact ⟨_, List.mem_append_right _ (List.mem_singleton_self _), rfl, hlive⟩
  · rw [Function.update_self]
    exact List.mem_append_left _ hrow

omit [DecidableEq Id] in
/-- The fields that are set leave `deleted_at`. -/
theorem isLive_setColumns (hbody : body.get "deleted_at" = none) (row : Row Id) :
    Row.isLive { row with columns := setColumns body now row.columns } = row.isLive := by
  simp [Row.isLive, setColumns, hbody]

omit [DecidableEq Id] in
/-- The live rows after an update of fields. -/
theorem liveIds_setColumns (hbody : body.get "deleted_at" = none) (p : Row Id → Bool)
    (table : Table Id) : (table.update p (setColumns body now)).liveIds = table.liveIds := by
  ext id
  simp only [Table.liveIds, Set.mem_ofPred_eq]
  constructor
  · rintro ⟨row, hrow, hid, hlive⟩
    obtain ⟨old, hold, rfl⟩ := mem_updateWhere.1 hrow
    refine ⟨old, hold, ?_⟩
    split_ifs at hid hlive
    · exact ⟨hid, (isLive_setColumns hbody old).symm.trans hlive⟩
    · exact ⟨hid, hlive⟩
  · rintro ⟨row, hrow, hid, hlive⟩
    refine ⟨_, mem_updateWhere.2 ⟨row, hrow, rfl⟩, ?_⟩
    split_ifs
    · exact ⟨hid, (isLive_setColumns hbody row).trans hlive⟩
    · exact ⟨hid, hlive⟩

omit [DecidableEq Id] in
/-- An update that selects no deleted row leaves them. -/
theorem mem_update_of_deleted {p : Row Id → Bool} {f : (String → Value) → String → Value}
    {table : Table Id} (hp : ∀ row ∈ table.rows, p row = true → row.isLive = true) {row : Row Id}
    (hrow : row ∈ table.rows) (hdeleted : row.isLive = false) : row ∈ (table.update p f).rows := by
  refine mem_updateWhere_of_not hrow (Bool.eq_false_iff.2 fun hselected => ?_)
  exact absurd ((hp row hrow hselected).symm.trans hdeleted) (by simp)

omit [DecidableEq Id] in
/-- A live row gets other columns. -/
theorem Moves.setColumns (hbody : body.get "deleted_at" = none) {p : Row Id → Bool}
    (hp : ∀ row ∈ (tables tableName).rows, p row = true → row.isLive = true) :
    Moves tableName id tables
      (Function.update tables tableName ((tables tableName).update p (setColumns body now))) := by
  refine ⟨?_, fun row hrow hdeleted => ?_, fun name hname => Function.update_of_ne hname _ _⟩
  · rw [Function.update_self, liveIds_setColumns hbody]
    rfl
  · rw [Function.update_self]
    exact mem_update_of_deleted hp hrow hdeleted

theorem isLive_of_selects {row : Row Id} (h : selects rowId Row.isLive row = true) :
    row.isLive = true := by
  rw [selects, Bool.and_eq_true] at h
  exact h.2

/-- A live row is deleted. -/
theorem Moves.setDeletedAt : Moves tableName (fun ids => ids \ {rowId}) tables
    (Function.update tables tableName
      ((tables tableName).update (selects rowId Row.isLive) (setDeletedAt now))) := by
  refine ⟨?_, fun row hrow hdeleted => ?_, fun name hname => Function.update_of_ne hname _ _⟩
  · rw [Function.update_self]
    ext id
    simp only [Table.liveIds, Set.mem_ofPred_eq, Set.mem_sdiff, Set.mem_singleton_iff]
    constructor
    · rintro ⟨row, hrow, hid, hlive⟩
      obtain ⟨old, hold, rfl⟩ := mem_updateWhere.1 hrow
      split_ifs at hid hlive with hselected
      · exact absurd hlive (by simp [Row.isLive, Records.setDeletedAt])
      · refine ⟨⟨old, hold, hid, hlive⟩, fun heq => hselected ?_⟩
        simp [selects, hid, heq, hlive]
    · rintro ⟨⟨row, hrow, hid, hlive⟩, hne⟩
      refine ⟨row, mem_updateWhere_of_not hrow ?_, hid, hlive⟩
      simp [selects, hid, hne]
  · rw [Function.update_self]
    exact mem_update_of_deleted (fun _ _ => isLive_of_selects) hrow hdeleted

/-! ## Batches -/

variable {slot : ℕ → Slot Id} {i : ℕ} {items : List BulkItem}

theorem Moves.create (haccepts : ∀ item ∈ items, Accepts .create tableName item)
    (happlies : AppliesAll pg .create tableName slot i items tables t) :
    Moves tableName (fun ids => ids ∪ {id | id ∈ newIds (itemResults .create slot i items)}) tables
      t := by
  induction items generalizing i tables with
  | nil =>
    obtain rfl := happlies
    have hempty : (fun ids : Set Id => ids ∪ {id | id ∈ newIds (itemResults .create slot i [])}) = id := by
      funext ids
      ext id
      simp [newIds, itemResults]
    exact hempty ▸ Moves.refl t tableName
  | cons item items ih =>
    obtain ⟨between, ⟨table, hinsert, rfl⟩, hrest⟩ := happlies
    obtain ⟨⟨hkeys, -⟩, hacceptsRest⟩ := List.forall_mem_cons.1 haccepts
    have hmoves := (Moves.insert (get_deletedAt hkeys) hinsert).trans (ih hacceptsRest hrest)
    have hids : newIds (itemResults .create slot i (item :: items)) =
        (slot i).id :: newIds (itemResults .create slot (i + 1) items) := rfl
    convert hmoves using 2
    ext id
    simp only [hids, Function.comp_apply, Set.mem_union, Set.mem_ofPred_eq, Set.mem_singleton_iff,
      List.mem_cons, or_assoc]

theorem Moves.update (haccepts : ∀ item ∈ items, Accepts .update tableName item)
    (happlies : AppliesAll pg .update tableName slot i items tables t) : Moves tableName id tables t := by
  induction items generalizing i tables with
  | nil =>
    obtain rfl := happlies
    exact Moves.refl t tableName
  | cons item items ih =>
    obtain ⟨between, ⟨rowId, -, -, rfl⟩, hrest⟩ := happlies
    obtain ⟨⟨hkeys, -⟩, hacceptsRest⟩ := List.forall_mem_cons.1 haccepts
    exact (Moves.setColumns (get_deletedAt hkeys) fun _ _ => isLive_of_selects).trans
      (ih hacceptsRest hrest)

theorem Moves.delete (happlies : AppliesAll pg .delete tableName slot i items tables t) :
    Moves tableName (fun ids => ids \ {id | id ∈ givenIds pg (itemResults .delete slot i items)})
      tables t := by
  induction items generalizing i tables with
  | nil =>
    obtain rfl := happlies
    have hempty : (fun ids : Set Id =>
        ids \ {id | id ∈ givenIds pg (itemResults .delete slot i [])}) = id := by
      funext ids
      ext id
      simp [givenIds, itemResults]
    exact hempty ▸ Moves.refl t tableName
  | cons item items ih =>
    obtain ⟨between, ⟨rowId, hparse, -, rfl⟩, hrest⟩ := happlies
    have hmoves := Moves.setDeletedAt.trans (ih hrest)
    have hids : givenIds pg (itemResults .delete slot i (item :: items)) =
        rowId :: givenIds pg (itemResults .delete slot (i + 1) items) := by
      simp [givenIds, itemResults, itemResult, hparse]
    convert hmoves using 2
    ext id
    simp only [hids, Function.comp_apply, Set.mem_sdiff, Set.mem_ofPred_eq, Set.mem_singleton_iff,
      List.mem_cons, not_or, and_assoc]

end Moves

/-! ## Calls that succeed -/

section Perform

variable {pg : Postgres Id} {tables t : Tables Id} {store : Store Id} {tableName : String} {body : Body}

theorem BaseService.checkKeys_eq_ok {u : Unit} :
    BaseService.checkKeys tableName body = .ok u ↔ checkWhitelist tableName body = [] := by
  rw [BaseService.checkKeys]
  by_cases h : checkWhitelist tableName body = []
  · simp [h]
  · simp [h]

/-- A code column is another one. -/
theorem get_deletedAt_withCode (h : checkWhitelist tableName body = []) (code : Option String) :
    (BaseService.withCode tableName code (sanitizeBody body)).get "deleted_at" = none := by
  have hsanitized : (sanitizeBody body).get "deleted_at" = none := by
    rw [OrderedMap.get_eq_none, sanitizeBody, OrderedMap.keys_mapValues, ← OrderedMap.get_eq_none]
    exact get_deletedAt h
  have hcodes : ∀ entry ∈ codeColumns, "deleted_at" ≠ entry.2 := by decide +kernel
  rw [BaseService.withCode]
  split
  · rename_i codeCol code hlookup hcode
    obtain ⟨before, after, heq, -⟩ := List.lookup_eq_some_iff.1 hlookup
    have hne := hcodes (tableName, codeCol) (by simp [heq])
    split_ifs
    · exact hsanitized
    · rw [OrderedMap.get_set, if_neg hne]
      exact hsanitized
  · exact hsanitized

/-- A row that is created. -/
theorem moves_create {data : Body} {code : Option String} {slot : Slot Id}
    (h : BaseService.create pg tables tableName data code slot = .ok t) :
    Moves tableName (fun ids => ids ∪ {slot.id}) tables t := by
  simp only [BaseService.create, bind_eq_ok, BaseService.checkKeys_eq_ok, insertRow_eq_ok] at h
  obtain ⟨_, hkeys, _, -, -, table, hinsert, rfl⟩ := h
  exact Moves.insert (get_deletedAt_withCode hkeys code) hinsert

/-- The row that an update has found, and its fields. -/
theorem update_eq_ok {id : Value} {data : Body} {now : String} {fails : Option String}
    (h : BaseService.update pg tables tableName id data now fails = .ok t) :
    ∃ body rowId, BaseService.checkUpdate tableName data = .ok body ∧ body.get "deleted_at" = none ∧
      fails = none ∧ pg.parseId id = some rowId ∧
        t = Function.update tables tableName
          ((tables tableName).update (selects rowId fun _ => true) (setColumns body now)) := by
  simp only [BaseService.update, bind_eq_ok, updateRow_eq_ok] at h
  obtain ⟨body, hcheck, hfails, rowId, hparse, -, ht⟩ := h
  refine ⟨body, rowId, hcheck, ?_, hfails, hparse, ht⟩
  simp only [BaseService.checkUpdate, bind_eq_ok, BaseService.checkKeys_eq_ok, pure_eq_ok] at hcheck
  obtain ⟨_, hkeys, _, -, rfl⟩ := hcheck
  rw [OrderedMap.get_eq_none, sanitizeBody, OrderedMap.keys_mapValues, ← OrderedMap.get_eq_none]
  exact get_deletedAt hkeys

/-- A row that is deleted softly. -/
theorem moves_delete (htable : tableName ∈ SOFT_DELETE_TABLES) {id : Value} {now : String}
    {fails : Option String} (h : BaseService.delete pg tables tableName id now fails = .ok t) :
    ∃ rowId, pg.parseId id = some rowId ∧ Moves tableName (fun ids => ids \ {rowId}) tables t := by
  simp only [BaseService.delete, bind_eq_ok, if_pos htable, updateLiveRow_eq_ok] at h
  obtain ⟨_, -, -, -, rowId, hparse, -, rfl⟩ := h
  exact ⟨rowId, hparse, Moves.setDeletedAt⟩

/-- A table without soft deletion loses a row; the others stay. -/
theorem delete_other (htable : tableName ∉ SOFT_DELETE_TABLES) {id : Value} {now : String}
    {fails : Option String} (h : BaseService.delete pg tables tableName id now fails = .ok t)
    {name : String} (hname : name ≠ tableName) : t name = tables name := by
  simp only [BaseService.delete, bind_eq_ok, if_neg htable] at h
  obtain ⟨_, -, h⟩ := h
  split at h
  · exact absurd h (by simp [throw, throwThe, MonadExceptOf.throw])
  · exact absurd h (by simp [throw, throwThe, MonadExceptOf.throw])
  · rw [pure_eq_ok] at h
    rw [← h, Function.update_of_ne hname]

/-- The tables after a batch: the ones that it has committed. -/
theorem tables_execute (pg : Postgres Id) (store : Store Id) (resource : String)
    (operation : BulkOperation) (items : List BulkItem) (username : String) (env : BatchEnv Id) :
    (execute pg store resource operation items username env).2.tables =
      match executeBatch pg store.tables resource operation items env with
      | .ok (_, _, t) => t
      | .error _ => store.tables := by
  rw [execute]
  cases executeBatch pg store.tables resource operation items env with
  | error error => rfl
  | ok done =>
    obtain ⟨name, details, t⟩ := done
    dsimp only
    split
    · rfl
    · rfl

omit [DecidableEq Id] in
/-- Only a create has new ids in its results. -/
theorem newIds_itemResults {operation : BulkOperation} (h : operation ≠ .create) (slot : ℕ → Slot Id)
    (i : ℕ) (items : List BulkItem) : newIds (itemResults operation slot i items) = [] := by
  induction items generalizing i with
  | nil => rfl
  | cons item items ih =>
    have hfirst : (itemResult operation i item (slot i)).id = .given (item.id.getD .null) := if_neg h
    have hrest := ih (i + 1)
    rw [newIds] at hrest ⊢
    rw [itemResults, List.filterMap_cons_none, hrest]
    rw [hfirst]

/-- What a batch does to its table. -/
theorem moves_executeBatch {resource : String} {operation : BulkOperation} {items : List BulkItem}
    {env : BatchEnv Id} {details : List (BulkItemResult Id)}
    (h : executeBatch pg tables resource operation items env = .ok (tableName, details, t)) :
    Moves tableName (fun ids => (ids ∪ {id | id ∈ newIds details}) \
      {id | id ∈ if operation = .delete then givenIds pg details else []}) tables t := by
  obtain ⟨hlookup, hcommittable, rfl⟩ := executeBatch_eq_ok.1 h
  obtain ⟨name, hname, haccepts, happlies⟩ := hcommittable.applies
  obtain rfl := Option.some.inj (hlookup.symm.trans hname)
  cases operation with
  | create =>
    have hmoves := Moves.create haccepts happlies
    convert hmoves using 2
    simp
  | update =>
    have hmoves := Moves.update haccepts happlies
    rw [newIds_itemResults (by simp)]
    convert hmoves using 2
    simp
  | delete =>
    have hmoves := Moves.delete happlies
    rw [newIds_itemResults (by simp)]
    convert hmoves using 2
    simp
  | other name =>
    -- A batch has an item, and no item is accepted.
    cases items with
    | nil => exact absurd hcommittable.size.1 (by decide)
    | cons item items => exact (haccepts item List.mem_cons_self).elim

/-- The live rows after a call are those before it, with what it has created and without what it has
deleted. -/
theorem liveIds_perform (call : Call Id) (htable : tableName ∈ SOFT_DELETE_TABLES) :
    ((call.perform pg store).2.tables tableName).liveIds =
      ((store.tables tableName).liveIds ∪ {id | id ∈ call.created pg store.tables tableName}) \
        {id | id ∈ call.deleted pg store.tables tableName} := by
  -- A call that fails creates and deletes nothing.
  have hnothing : ∀ ids : Set Id, (ids ∪ {id | id ∈ ([] : List Id)}) \ {id | id ∈ ([] : List Id)} = ids :=
    fun ids => by simp
  cases call with
  | create name data code slot =>
    simp only [Call.perform, Call.created, Call.deleted]
    cases hcreate : BaseService.create pg store.tables name data code slot with
    | error error => exact (hnothing _).symm
    | ok t =>
      have hmoves := moves_create hcreate
      by_cases hname : tableName = name
      · subst hname
        simp only [Store.after, if_true, hmoves.live]
        simp
      · simp only [Store.after, if_neg hname, hmoves.other _ hname, hnothing]
  | update name id data now fails =>
    simp only [Call.perform, Call.created, Call.deleted, hnothing]
    cases hupdate : BaseService.update pg store.tables name id data now fails with
    | error error => rfl
    | ok t =>
      obtain ⟨body, rowId, -, hbody, -, -, rfl⟩ := update_eq_ok hupdate
      by_cases hname : tableName = name
      · subst hname
        simp only [Store.after, Function.update_self, liveIds_setColumns hbody]
      · simp only [Store.after, Function.update_of_ne hname]
  | delete name id now fails =>
    simp only [Call.perform, Call.created, Call.deleted]
    cases hdelete : BaseService.delete pg store.tables name id now fails with
    | error error => exact (hnothing _).symm
    | ok t =>
      by_cases hname : tableName = name
      · subst hname
        obtain ⟨rowId, hparse, hmoves⟩ := moves_delete htable hdelete
        simp only [Store.after, if_true, hmoves.live, hparse, Option.toList_some, List.mem_singleton]
        simp
      · simp only [Store.after, if_neg hname, hnothing]
        -- Another table is not touched, whether its rows are marked or removed.
        by_cases hsoft : name ∈ SOFT_DELETE_TABLES
        · obtain ⟨rowId, -, hmoves⟩ := moves_delete hsoft hdelete
          rw [hmoves.other _ hname]
        · rw [delete_other hsoft hdelete hname]
  | bulk resource operation items username env =>
    have htables : ((Call.bulk resource operation items username env).perform pg store).2.tables = _ :=
      tables_execute pg store resource operation items username env
    rw [htables]
    simp only [Call.created, Call.deleted]
    cases hbatch : executeBatch pg store.tables resource operation items env with
    | error error => exact (hnothing _).symm
    | ok done =>
      obtain ⟨name, details, t⟩ := done
      have hmoves := moves_executeBatch hbatch
      by_cases hname : tableName = name
      · subst hname
        simp only [hmoves.live, true_and, if_true]
      · simp only [hname, false_and, if_false, hmoves.other _ hname, hnothing]

/-- The deleted rows stay, where no `BaseService.update` comes to one. -/
theorem frozen_perform {call : Call Id} {live : String → Set Id}
    (h : Untargeted pg ⟨store, live⟩ call) (htable : tableName ∈ SOFT_DELETE_TABLES) :
    ∀ row ∈ (store.tables tableName).rows, row.isLive = false →
      row ∈ ((call.perform pg store).2.tables tableName).rows := by
  -- A change of one table leaves the deleted rows of all of them.
  have hmoved : ∀ {name : String} {f : Set Id → Set Id} {t : Tables Id},
      Moves name f store.tables t → ∀ row ∈ (store.tables tableName).rows, row.isLive = false →
        row ∈ (t tableName).rows := by
    intro name f t hmoves row hrow hdeleted
    by_cases hname : tableName = name
    · subst hname
      exact hmoves.frozen row hrow hdeleted
    · rw [hmoves.other _ hname]
      exact hrow
  intro row hrow hdeleted
  cases call with
  | create name data code slot =>
    simp only [Call.perform]
    cases hcreate : BaseService.create pg store.tables name data code slot with
    | error error => exact hrow
    | ok t => exact hmoved (moves_create hcreate) row hrow hdeleted
  | update name id data now fails =>
    simp only [Call.perform]
    cases hupdate : BaseService.update pg store.tables name id data now fails with
    | error error => exact hrow
    | ok t =>
      obtain ⟨body, rowId, hcheck, -, hfails, hparse, rfl⟩ := update_eq_ok hupdate
      by_cases hname : tableName = name
      · subst hname
        -- The row of the id is not a deleted one.
        have hother : row.id ≠ rowId := fun heq =>
          h ⟨htable, hfails, ⟨body, hcheck⟩, row, hrow, hdeleted, heq ▸ hparse⟩
        simp only [Store.after, Function.update_self]
        exact mem_updateWhere_of_not hrow (by simp [selects, hother])
      · simp only [Store.after, Function.update_of_ne hname]
        exact hrow
  | delete name id now fails =>
    simp only [Call.perform]
    cases hdelete : BaseService.delete pg store.tables name id now fails with
    | error error => exact hrow
    | ok t =>
      by_cases hsoft : name ∈ SOFT_DELETE_TABLES
      · obtain ⟨rowId, -, hmoves⟩ := moves_delete hsoft hdelete
        exact hmoved hmoves row hrow hdeleted
      · have hname : tableName ≠ name := fun heq => hsoft (heq ▸ htable)
        simp only [Store.after, delete_other hsoft hdelete hname]
        exact hrow
  | bulk resource operation items username env =>
    have htables : ((Call.bulk resource operation items username env).perform pg store).2.tables = _ :=
      tables_execute pg store resource operation items username env
    rw [htables]
    cases hbatch : executeBatch pg store.tables resource operation items env with
    | error error => exact hrow
    | ok done => exact hmoved (moves_executeBatch hbatch) row hrow hdeleted

end Perform

/-! ## What is shown -/

section Shown

variable {pg : Postgres Id} {tables : Tables Id} {tableName : String}

/-- The tables with soft deletion are identifiers, and have the column. -/
theorem checks_of_soft (htable : tableName ∈ SOFT_DELETE_TABLES) :
    validateIdentifiers [tableName] = .ok () ∧ hasDeletedAt tableName = true := by
  have hall : ∀ name ∈ SOFT_DELETE_TABLES, isIdentifier name = true := by decide +kernel
  refine ⟨validateIdentifiers_eq_ok.2 fun name hname => ?_, ?_⟩
  · rw [List.mem_singleton.1 hname]
    exact hall tableName htable
  · simp [hasDeletedAt, htable]

omit [DecidableEq Id] in
/-- A member of a list is on its first page, or that page is full. -/
theorem mem_take_or_length {rows : List (Row Id)} {row : Row Id} (h : row ∈ rows) (n : ℕ) :
    row ∈ rows.take n ∨ (rows.take n).length = n := by
  rw [List.length_take]
  rcases Nat.lt_or_ge rows.length n with hshort | hlong
  · rw [List.take_of_length_le hshort.le]
    exact Or.inl h
  · exact Or.inr (Nat.min_eq_left hlong)

/-- `findById` returns the live row of its id. -/
theorem findById_eq_ok (htable : tableName ∈ SOFT_DELETE_TABLES) {id : Value} {row : Row Id} :
    BaseService.findById pg tables tableName id = .ok row ↔ ∃ rowId, pg.parseId id = some rowId ∧
      (tables tableName).rows.find? (selects rowId Row.isLive) = some row := by
  obtain ⟨hname, hcolumn⟩ := checks_of_soft htable
  simp only [BaseService.findById, hname, hcolumn, Bool.not_true, Bool.false_eq_true, if_false, bind,
    Except.bind]
  cases pg.parseId id with
  | none => simp [throw, throwThe, MonadExceptOf.throw]
  | some rowId =>
    simp only [Option.some.injEq, exists_eq_left']
    cases (tables tableName).rows.find? (selects rowId Row.isLive) with
    | none => simp [throw, throwThe, MonadExceptOf.throw]
    | some found => simp [pure, Except.pure]

/-- The live rows are shown. -/
theorem shows_liveIds (before : Row Id → Row Id → Bool) (htable : tableName ∈ SOFT_DELETE_TABLES) :
    Shows pg before tables tableName (tables tableName).liveIds := by
  obtain ⟨hname, hcolumn⟩ := checks_of_soft htable
  constructor
  · intro id
    simp only [findById_eq_ok htable]
    constructor
    · rintro ⟨row, rowId, hparse, hfind⟩
      have hselected := List.find?_some hfind
      rw [selects, Bool.and_eq_true, decide_eq_true_eq] at hselected
      exact ⟨rowId, ⟨row, List.mem_of_find?_eq_some hfind, hselected⟩, hparse⟩
    · rintro ⟨rowId, ⟨row, hrow, hid, hlive⟩, hparse⟩
      cases hfind : (tables tableName).rows.find? (selects rowId Row.isLive) with
      | some found => exact ⟨found, rowId, hparse, hfind⟩
      | none => exact absurd (List.find?_eq_none.1 hfind row hrow) (by simp [selects, hid, hlive])
  · have hmem : ∀ row, row ∈ ((tables tableName).rows.filter Row.isLive).mergeSort before ↔
        row ∈ (tables tableName).rows ∧ row.isLive = true := fun row => by
      rw [List.mem_mergeSort, List.mem_filter]
    refine ⟨_, by simp only [BaseService.findAll, hname, hcolumn]; rfl, ?_, ?_⟩
    · intro row hrow
      obtain ⟨hmemRow, hlive⟩ := (hmem row).1 (List.mem_of_mem_take hrow)
      exact ⟨row, hmemRow, rfl, hlive⟩
    · rintro _ ⟨row, hrow, rfl, hlive⟩
      rcases mem_take_or_length ((hmem row).2 ⟨hrow, hlive⟩)
        (BaseService.defaultPageSize tableName) with hpage | hfull
      · exact Or.inl ⟨row, hpage, rfl⟩
      · exact Or.inr hfull

end Shown

/-! ## Rows that are missing -/

section Missing

variable {pg : Postgres Id} {tables : Tables Id} {tableName : String} {operation : BulkOperation}
  {slot : ℕ → Slot Id} {i : ℕ} {item : BulkItem} {items : List BulkItem}

/-- A statement that looks at `deleted_at` does not find a deleted row. -/
theorem updateLiveRow_of_isDeleted {id : Value} (htable : tableName ∈ SOFT_DELETE_TABLES)
    (h : IsDeleted pg tables tableName id) (f : (String → Value) → String → Value)
    (missing : ServiceError) :
    updateLiveRow pg tables tableName id f none missing = .error missing := by
  obtain ⟨row, hrow, hdeleted, hparse⟩ := h
  have hnone : ¬(tables tableName).rows.any (selects row.id Row.isLive) = true := by
    intro hany
    obtain ⟨other, hother, hselected⟩ := List.any_eq_true.1 hany
    rw [selects, Bool.and_eq_true, decide_eq_true_eq] at hselected
    obtain rfl := List.inj_on_of_nodup_map (tables tableName).nodup hother hrow hselected.1
    exact absurd (hselected.2.symm.trans hdeleted) (by simp)
  simp only [updateLiveRow, (checks_of_soft htable).2, if_true, updateRow, hparse, if_neg hnone]

/-- An item that comes to a deleted row fails with a text that says so. -/
theorem processItem_of_targets (htable : tableName ∈ SOFT_DELETE_TABLES) {slot : Slot Id}
    (h : ItemTargets pg operation tableName tables item slot) :
    ∃ cause, processItem pg operation tableName tables i item slot = .error cause ∧
      SaysNotFound (.processing i cause) := by
  obtain ⟨hfails, hdeleted, hchecks⟩ := h
  have hname := (checks_of_soft htable).1
  have hmissing := updateLiveRow_of_isDeleted htable hdeleted
  cases operation with
  | create => exact hchecks.elim
  | other name => exact hchecks.elim
  | update =>
    refine ⟨.failure s!"Record with ID {(item.id.getD .null).template} not found or is deleted", ?_,
      ⟨item.id.getD .null, Or.inl rfl⟩⟩
    simp only [processItem, processUpdate, hchecks, hfails, hmissing, bind, Except.bind]
  | delete =>
    refine ⟨.failure s!"Record with ID {(item.id.getD .null).template} not found or already deleted",
      ?_, ⟨item.id.getD .null, Or.inr rfl⟩⟩
    simp only [processItem, processDelete, hname, hfails, hmissing, bind, Except.bind]

/-- And so does its batch. -/
theorem processItems_of_targets (htable : tableName ∈ SOFT_DELETE_TABLES)
    (h : ItemsTarget pg operation tableName slot i items tables) :
    ∃ error, processItems pg operation tableName slot i items tables = .error error ∧
      SaysNotFound error := by
  induction items generalizing i tables with
  | nil => exact h.elim
  | cons item items ih =>
    rcases h with hitem | ⟨result, t, hfirst, hrest⟩
    · obtain ⟨cause, hcause, hsays⟩ := processItem_of_targets (i := i) htable hitem
      exact ⟨.processing i cause, by rw [processItems, hcause], hsays⟩
    · obtain ⟨error, herror, hsays⟩ := ih hrest
      refine ⟨error, ?_, hsays⟩
      rw [processItems, hfirst]
      simp only [herror, bind, Except.bind]

/-- A call other than `BaseService.update` that comes to a deleted row says so, and has no effect. -/
theorem notFound_perform {store : Store Id} {call : Call Id} {live : String → Set Id}
    (h : Untargeted pg ⟨store, live⟩ call) (htargets : call.Targets pg store.tables) :
    (∃ error, (call.perform pg store).1 = .error error ∧ SaysNotFound error) ∧
      (call.perform pg store).2.tables = store.tables := by
  cases call with
  | create name data code slot => exact htargets.elim
  | update name id data now fails => exact absurd htargets h
  | delete name id now fails =>
    obtain ⟨htable, rfl, hdeleted⟩ := htargets
    have hmissing : BaseService.delete pg store.tables name id now none =
        .error (BaseService.missing name id) := by
      simp only [BaseService.delete, (checks_of_soft htable).1, if_pos htable, bind, Except.bind]
      exact updateLiveRow_of_isDeleted htable hdeleted _ _
    simp only [Call.perform, hmissing]
    exact ⟨⟨_, rfl, trivial⟩, rfl⟩
  | bulk resource operation items username env =>
    obtain ⟨hsize, hvalid, hbegin, name, htable, hresolve, hitems⟩ := htargets
    obtain ⟨error, herror, hsays⟩ := processItems_of_targets htable hitems
    have htransaction : transaction pg operation name items store.tables env = .error error := by
      simp only [transaction, hbegin, herror, bind, Except.bind]
    have hbatch : executeBatch pg store.tables resource operation items env = .error error := by
      simp only [executeBatch, hsize, hresolve, hvalid, htransaction, bind, Except.bind]
      rfl
    simp only [Call.perform, execute, hbatch]
    exact ⟨⟨error, rfl, hsays⟩, trivial⟩

end Missing

/-! ## Runs -/

section Runs

variable {pg : Postgres Id} {before : Row Id → Row Id → Bool} {s t : Tracked Id} {call : Call Id}

/-- The ids that are kept are those of the live rows. -/
def Tracked.Exact (s : Tracked Id) : Prop :=
  ∀ tableName ∈ SOFT_DELETE_TABLES, s.live tableName = (s.store.tables tableName).liveIds

theorem Tracked.Exact.step (h : s.Exact) (hstep : trackedStep pg s call = some t) : t.Exact := by
  obtain rfl := Option.some.inj hstep
  intro tableName htable
  rw [liveIds_perform call htable, ← h tableName htable]

/-- A `BaseService.update` that comes to a deleted row changes it. -/
theorem update_of_targets {store : Store Id} {tableName : String} {id : Value} {data : Body}
    {now : String} {fails : Option String}
    (h : (Call.update tableName id data now fails).Targets pg store.tables) :
    ((Call.update tableName id data now fails).perform pg store).1 = .ok () := by
  obtain ⟨htable, rfl, ⟨body, hbody⟩, row, hrow, -, hparse⟩ := h
  have hany : (tables : Tables Id) → tables = store.tables →
      (tables tableName).rows.any (selects row.id fun _ => true) = true := by
    rintro _ rfl
    exact List.any_eq_true.2 ⟨row, hrow, by simp [selects]⟩
  simp only [Call.perform, BaseService.update, hbody, updateRow, hparse, hany _ rfl, bind, Except.bind]
  rfl

/-- A call is lawful exactly when it is no update that comes to a deleted row. -/
theorem lawful_step_iff (s : Tracked Id) (call : Call Id) (t : Tracked Id) (hs : s.Exact)
    (hstep : trackedStep pg s call = some t) : Lawful pg before s call ↔ Untargeted pg s call := by
  constructor
  · intro hlawful
    cases call with
    | update tableName id data now fails =>
      intro htargets
      obtain ⟨⟨error, herror, -⟩, -⟩ := (hlawful t hstep).notFound htargets
      exact absurd ((update_of_targets htargets).symm.trans herror) (by simp)
    | _ => trivial
  · intro huntargeted u hu
    have hexact := hs.step hu
    obtain rfl := Option.some.inj hu
    constructor
    · intro tableName htable
      rw [hexact tableName htable]
      exact shows_liveIds before htable
    · intro tableName htable
      exact frozen_perform huntargeted htable
    · exact notFound_perform huntargeted

/-- A run is lawful exactly when no `BaseService.update` in it comes to a deleted row. -/
theorem lawful_iff_untargeted (pg : Postgres Id) (before : Row Id → Row Id → Bool)
    (store : Store Id) (calls : List (Call Id)) :
    Guarded (trackedStep pg) (Lawful pg before)
        ⟨store, fun tableName => (store.tables tableName).liveIds⟩ calls ↔
      Guarded (trackedStep pg) (Untargeted pg)
        ⟨store, fun tableName => (store.tables tableName).liveIds⟩ calls :=
  guarded_congr (fun _ _ _ hs _ hstep => hs.step hstep) lawful_step_iff calls fun _ _ => rfl

end Runs

/-- A plan is created, deleted and updated. -/
def updateAfterDeletion : List (Call String) :=
  [.create "audit_plans" (OrderedMap.empty.set "title" (.text "Plan")) none ⟨"r1", "t1", none⟩,
    .delete "audit_plans" (.text "r1") "t2" none,
    .update "audit_plans" (.text "r1") (OrderedMap.empty.set "title" (.text "Other")) "t3" none]

/-- The plans after calls on an empty database. -/
def plansAfter (calls : List (Call String)) : List (Row String) :=
  ((calls.foldl (fun store call => (call.perform textPostgres store).2) emptyStore).tables
    "audit_plans").rows

/-- The update of the deleted plan succeeds. -/
theorem updateAfterDeletion_not_lawful : ¬∀ calls : List (Call String),
    Guarded (trackedStep textPostgres) (Lawful textPostgres fun _ _ => true)
      ⟨emptyStore, fun _ => ∅⟩ calls := by
  intro hall
  obtain ⟨-, hdelete⟩ := hall updateAfterDeletion _ rfl
  obtain ⟨-, hupdate⟩ := hdelete _ rfl
  obtain ⟨hlawful, -⟩ := hupdate _ rfl
  have hfrozen : ∀ row ∈ plansAfter (updateAfterDeletion.take 2), row.isLive = false →
      row ∈ plansAfter updateAfterDeletion := (hlawful _ rfl).frozen "audit_plans" (by decide)
  have hold : ∃ row ∈ plansAfter (updateAfterDeletion.take 2),
      row.isLive = false ∧ row.columns "title" = .text "Plan" := by decide +kernel
  have hnew : ∀ row ∈ plansAfter updateAfterDeletion, row.columns "title" = .text "Other" := by
    decide +kernel
  obtain ⟨row, hrow, hdeleted, htitle⟩ := hold
  have hother := hnew row (hfrozen row hrow hdeleted)
  exact absurd (htitle.symm.trans hother) (by decide)

end AlsaqiBackend.Records

import AlsaqiBackend.Lib.Checks
import AlsaqiBackend.Records.Service
import Mathlib.Tactic.FinCases

/-!
# Batches

`BulkOperationsService.execute` should apply all the items of a batch in order and append one entry to the
audit trail, or throw and leave the tables and the trail as they are (`AllOrNothing`). The entry is
appended by a transaction of its own after the one of the items is committed, so the rule is broken exactly
where a batch that changes something is committed and the append fails (`execute_allOrNothing_iff`).
-/

namespace AlsaqiBackend.Records

open AlsaqiBackend.Lib AlsaqiBackend.Audit

variable {Id : Type} [DecidableEq Id]

/-! ## Statements that succeed -/

section Statements

variable {pg : Postgres Id} {tables t : Tables Id} {tableName : String} {body : Body} {id : Value}

/-- A column that a body may write is an identifier. -/
theorem isIdentifier_of_mem_whitelist {key : String} (hkey : key ∈ getColumnWhitelist tableName) :
    Events.isIdentifier key = true := by
  have hall : ∀ entry ∈ TABLE_WRITE_SCHEMAS, ∀ key ∈ entry.2, Events.isIdentifier key = true := by
    decide +kernel
  rw [getColumnWhitelist] at hkey
  cases hlookup : TABLE_WRITE_SCHEMAS.lookup tableName with
  | none =>
    rw [hlookup] at hkey
    exact absurd hkey List.not_mem_nil
  | some columns =>
    rw [hlookup] at hkey
    obtain ⟨before, after, heq, -⟩ := List.lookup_eq_some_iff.1 hlookup
    exact hall (tableName, columns) (by simp [heq]) key hkey

/-- The keys that the whitelist lets pass can be written in a statement. -/
theorem validateIdentifiers_keys (h : checkWhitelist tableName body = []) :
    validateIdentifiers body.keys = .ok () := by
  refine validateIdentifiers_eq_ok.2 fun key hkey => ?_
  have hallowed := List.filter_eq_nil_iff.1 h key hkey
  exact isIdentifier_of_mem_whitelist (by simpa using hallowed)

/-- The names of a statement pass when the whitelist has let the keys pass, and there is one. -/
theorem checkNames_eq_ok (h : checkWhitelist tableName body = [])
    (htable : Events.isIdentifier tableName = true) {empty : String} {u : Unit} :
    BaseService.checkNames tableName body empty = .ok u ↔ body.keys ≠ [] := by
  have hname : validateIdentifiers [tableName] = .ok () :=
    validateIdentifiers_eq_ok.2 fun name hname => List.mem_singleton.1 hname ▸ htable
  rw [BaseService.checkNames, validateIdentifiers_keys h, hname]
  by_cases hkeys : body.keys = []
  · simp [hkeys, bind, Except.bind, throw, throwThe, MonadExceptOf.throw]
  · simp [hkeys, bind, Except.bind]

/-- An insertion that succeeds. -/
theorem insertRow_eq_ok {slot : Slot Id} : insertRow pg tables tableName body slot = .ok t ↔
    slot.fails = none ∧ ∃ table,
      (tables tableName).insert ⟨slot.id, newColumns pg tableName body slot.now⟩ = some table ∧
        t = Function.update tables tableName table := by
  rw [insertRow]
  cases slot.fails with
  | some message => simp
  | none =>
    cases (tables tableName).insert ⟨slot.id, newColumns pg tableName body slot.now⟩ with
    | none => simp
    | some table => simp [eq_comm]

/-- An update that succeeds has found its row. -/
theorem updateRow_eq_ok {p : Row Id → Bool} {f : (String → Value) → String → Value}
    {fails : Option String} {missing : ServiceError} :
    updateRow pg tables tableName id p f fails missing = .ok t ↔
      fails = none ∧ ∃ rowId, pg.parseId id = some rowId ∧
        (∃ row ∈ (tables tableName).rows, row.id = rowId ∧ p row = true) ∧
          t = Function.update tables tableName ((tables tableName).update (selects rowId p) f) := by
  unfold updateRow
  cases fails with
  | some message => simp
  | none =>
    cases pg.parseId id with
    | none => simp
    | some rowId =>
      have hany : (tables tableName).rows.any (selects rowId p) = true ↔
          ∃ row ∈ (tables tableName).rows, row.id = rowId ∧ p row = true := by
        simp [List.any_eq_true, selects]
      by_cases h : (tables tableName).rows.any (selects rowId p) = true
      · simp only [if_pos h, Except.ok.injEq, Option.some.injEq, true_and, exists_eq_left']
        exact ⟨fun heq => ⟨hany.1 h, heq.symm⟩, fun heq => heq.2.symm⟩
      · simp only [if_neg h, Option.some.injEq, true_and, exists_eq_left']
        exact iff_of_false (by simp) fun heq => h (hany.2 heq.1)

/-- An update of a live row that succeeds. -/
theorem updateLiveRow_eq_ok {f : (String → Value) → String → Value} {fails : Option String}
    {missing : ServiceError} :
    updateLiveRow pg tables tableName id f fails missing = .ok t ↔
      hasDeletedAt tableName = true ∧ fails = none ∧ ∃ rowId, pg.parseId id = some rowId ∧
        (∃ row ∈ (tables tableName).rows, row.id = rowId ∧ row.isLive = true) ∧
          t = Function.update tables tableName
            ((tables tableName).update (selects rowId Row.isLive) f) := by
  rw [updateLiveRow]
  split_ifs with h
  · rw [updateRow_eq_ok]
    simp [h]
  · simp [h]

end Statements

namespace BulkOperationsService

/-! ## What a batch should do -/

section Rules

variable (pg : Postgres Id) (operation : BulkOperation) (tableName : String)

/-- What one item makes of the tables, where it can be applied: one more row, or a change of the one live
row of its id. -/
def AppliesItem (item : BulkItem) (slot : Slot Id) (tables t : Tables Id) : Prop :=
  match operation with
  | .create => ∃ table, (tables tableName).insert
      ⟨slot.id, newColumns pg tableName (createBody item.fields) slot.now⟩ = some table ∧
        t = Function.update tables tableName table
  | .update => ∃ rowId, pg.parseId (item.id.getD .null) = some rowId ∧
      (∃ row ∈ (tables tableName).rows, row.id = rowId ∧ row.isLive = true) ∧
        t = Function.update tables tableName ((tables tableName).update (selects rowId Row.isLive)
          (setColumns (updateBody item.data) slot.now))
  | .delete => ∃ rowId, pg.parseId (item.id.getD .null) = some rowId ∧
      (∃ row ∈ (tables tableName).rows, row.id = rowId ∧ row.isLive = true) ∧
        t = Function.update tables tableName ((tables tableName).update (selects rowId Row.isLive)
          (setDeletedAt slot.now))
  | .other _ => False

/-- The items in order, from an index on. -/
def AppliesAll (slot : ℕ → Slot Id) : ℕ → List BulkItem → Tables Id → Tables Id → Prop
  | _, [], tables, t => t = tables
  | i, item :: items, tables, t => ∃ between,
      AppliesItem pg operation tableName item (slot i) tables between ∧
        AppliesAll slot (i + 1) items between t

/-- The item may be written: it has fields, and all of them are in the whitelist. -/
def Accepts (item : BulkItem) : Prop :=
  match operation with
  | .create => checkWhitelist tableName (createBody item.fields) = [] ∧
      (createBody item.fields).keys ≠ []
  | .update => checkWhitelist tableName (updateBody item.data) = [] ∧
      (updateBody item.data).keys ≠ [] ∧ hasDeletedAt tableName = true
  | .delete => hasDeletedAt tableName = true
  | .other _ => False

end Rules

/-- An entry of the trail as it was given. -/
def IsEntry (entry : AuditEntryInput) (row : StoredRow) : Prop :=
  row.user = entry.user ∧ row.action = entry.action ∧ row.module = entry.module ∧
    row.details = some entry.details

/-- All of a batch has been done: its items in order, with one more entry in the trail. -/
def Applied (pg : Postgres Id) (store : Store Id) (resource : String) (operation : BulkOperation)
    (items : List BulkItem) (username : String) (env : BatchEnv Id)
    (response : BulkOperationResponse Id) (t : Store Id) : Prop :=
  ∃ tableName, BULK_ALLOWED_RESOURCES.lookup resource = some tableName ∧
    AppliesAll pg operation tableName env.slot 0 items store.tables t.tables ∧
      (∃ row, t.trail.table = store.trail.table ++ [row] ∧
        IsEntry (auditEntry resource tableName username operation items.length) row) ∧
        response.processed = items.length ∧ response.success = items.length ∧ response.failed = 0

/-- A batch does all, or throws and changes nothing. -/
def AllOrNothing (pg : Postgres Id) (store : Store Id) (resource : String)
    (operation : BulkOperation) (items : List BulkItem) (username : String) (env : BatchEnv Id) :
    Prop :=
  match execute pg store resource operation items username env with
  | (.ok response, t) => Applied pg store resource operation items username env response t
  | (.error _, t) => t.tables = store.tables ∧ t.trail.table = store.trail.table

/-- A batch that can be committed, and what it makes of the tables. -/
structure Committable (pg : Postgres Id) (tables : Tables Id) (resource : String)
    (operation : BulkOperation) (items : List BulkItem) (env : BatchEnv Id) (t : Tables Id) :
    Prop where
  size : MIN_BATCH_SIZE ≤ items.length ∧ items.length ≤ MAX_BATCH_SIZE
  valid : ∀ item ∈ items, itemErrors operation item = []
  database : env.beginFails = none ∧ env.commitFails = none ∧
    ∀ i < items.length, (env.slot i).fails = none
  applies : ∃ tableName, BULK_ALLOWED_RESOURCES.lookup resource = some tableName ∧
    (∀ item ∈ items, Accepts operation tableName item) ∧
      AppliesAll pg operation tableName env.slot 0 items tables t

end BulkOperationsService

/-- An append that resolves: no step of it fails, and its time can be written. -/
def AppendEnv.Succeeds (env : AppendEnv) : Prop :=
  env.stop = none ∧ ∃ timestamp, canonicalizeTimestamp (timeClip env.now) = .ok timestamp

/-! ## The append -/

section Append

variable {env : AppendEnv} {s u : AppendState}

/-- A step other than a commit leaves the table. -/
theorem table_of_appendStep {a : AppendAction} (ha : a ≠ .commit) (h : appendStep s a = some u) :
    u.table = s.table := by
  cases a with
  | commit => exact absurd rfl ha
  | call id entry =>
    obtain rfl := Option.some.inj h
    rfl
  | lock id | readTail now | insert rowId =>
    simp only [appendStep] at h
    split at h
    · obtain rfl := Option.some.inj h
      rfl
    · exact absurd h (by simp)
  | fail id =>
    simp only [appendStep] at h
    split at h
    · split_ifs at h
      · obtain rfl := Option.some.inj h
        rfl
      · obtain rfl := Option.some.inj h
        rfl
    · obtain rfl := Option.some.inj h
      rfl

theorem table_of_run {as : List AppendAction} (has : .commit ∉ as)
    (h : run appendStep s as = some u) : u.table = s.table := by
  induction as generalizing s with
  | nil =>
    obtain rfl := Option.some.inj h
    rfl
  | cons a as ih =>
    obtain ⟨t, hst, htu⟩ := run_cons.1 h
    rw [List.mem_cons, not_or] at has
    have hrest := ih has.2 htu
    exact hrest.trans (table_of_appendStep (Ne.symm has.1) hst)

/-- An append that resolves adds its entry. -/
theorem append_of_succeeds (trail : Trail) (entry : AuditEntryInput) (h : env.Succeeds) :
    ∃ row, BulkOperationsService.IsEntry entry row ∧
      trail.append entry env = (true, ⟨trail.table ++ [row], trail.nextSeq + 1⟩) := by
  obtain ⟨hstop, timestamp, htime⟩ := h
  refine ⟨insertedRow entry env.now timestamp ((selectLastHash trail.table).getD GENESIS_PREVIOUS_HASH)
    env.rowId trail.nextSeq, ⟨rfl, rfl, rfl, rfl⟩, ?_⟩
  simp [Trail.append, hstop, appendSteps, run, appendStep, htime]

/-- An append that throws leaves the trail. -/
theorem append_of_not_succeeds (trail : Trail) (entry : AuditEntryInput) (h : ¬env.Succeeds) :
    (trail.append entry env).1 = false ∧ (trail.append entry env).2.table = trail.table := by
  rw [Trail.append]
  cases hstop : env.stop with
  | some k =>
    have hcommit : AppendAction.commit ∉ (appendSteps entry env).take k ++ [.fail 0] := by
      fin_cases k <;> simp [appendSteps]
    simp only
    cases hrun : run appendStep ⟨trail.table, trail.nextSeq, [], none⟩
        ((appendSteps entry env).take k ++ [.fail 0]) with
    | none => exact ⟨rfl, rfl⟩
    | some s => exact ⟨rfl, table_of_run hcommit hrun⟩
  | none =>
    -- The time has no text, and the step that takes it throws.
    have htime : ∀ timestamp, canonicalizeTimestamp (timeClip env.now) ≠ .ok timestamp :=
      fun timestamp htime => h ⟨hstop, timestamp, htime⟩
    have hrun : run appendStep ⟨trail.table, trail.nextSeq, [], none⟩ (appendSteps entry env) = none := by
      cases hcanon : canonicalizeTimestamp (timeClip env.now) with
      | ok timestamp => exact absurd hcanon (htime timestamp)
      | error e => simp [appendSteps, run, appendStep, hcanon]
    simp only [hrun, and_self]

end Append

namespace BulkOperationsService

/-! ## Items -/

section Items

variable {pg : Postgres Id} {operation : BulkOperation} {tableName : String} {tables t : Tables Id}
  {i : ℕ} {item : BulkItem} {items : List BulkItem} {env : BatchEnv Id}

/-- The result of an item that is done. -/
def itemResult (operation : BulkOperation) (i : ℕ) (item : BulkItem) (slot : Slot Id) :
    BulkItemResult Id where
  index := i
  id := if operation = .create then .new slot.id else .given (item.id.getD .null)
  success := true

theorem checkKeys_eq_ok {body : Body} {u : Unit} :
    checkKeys tableName body = .ok u ↔ checkWhitelist tableName body = [] := by
  rw [checkKeys]
  by_cases h : checkWhitelist tableName body = []
  · simp [h]
  · simp [h]

theorem processCreate_eq_ok (htable : Events.isIdentifier tableName = true) {slot : Slot Id} :
    processCreate pg tables tableName item.fields slot = .ok t ↔
      slot.fails = none ∧ Accepts .create tableName item ∧
        AppliesItem pg .create tableName item slot tables t := by
  simp only [processCreate, bind_eq_ok, checkKeys_eq_ok, insertRow_eq_ok, Accepts, AppliesItem]
  constructor
  · rintro ⟨_, hkeys, _, hnames, hfails, htables⟩
    exact ⟨hfails, ⟨hkeys, (checkNames_eq_ok hkeys htable).1 hnames⟩, htables⟩
  · rintro ⟨hfails, ⟨hkeys, hnames⟩, htables⟩
    exact ⟨(), hkeys, (), (checkNames_eq_ok hkeys htable).2 hnames, hfails, htables⟩

theorem checkUpdate_eq_ok (htable : Events.isIdentifier tableName = true) {body : Body} {u : Unit} :
    checkUpdate tableName body = .ok u ↔ checkWhitelist tableName body = [] ∧ body.keys ≠ [] := by
  simp only [checkUpdate, bind_eq_ok, checkKeys_eq_ok]
  constructor
  · rintro ⟨-, hkeys, hnames⟩
    exact ⟨hkeys, (checkNames_eq_ok hkeys htable).1 hnames⟩
  · rintro ⟨hkeys, hnames⟩
    exact ⟨(), hkeys, (checkNames_eq_ok hkeys htable).2 hnames⟩

theorem processUpdate_eq_ok (htable : Events.isIdentifier tableName = true) {slot : Slot Id} :
    processUpdate pg tables tableName (item.id.getD .null) item.data slot = .ok t ↔
      slot.fails = none ∧ Accepts .update tableName item ∧
        AppliesItem pg .update tableName item slot tables t := by
  simp only [processUpdate, bind_eq_ok, checkUpdate_eq_ok htable, updateLiveRow_eq_ok, Accepts,
    AppliesItem]
  constructor
  · rintro ⟨-, ⟨hkeys, hnames⟩, hdeleted, hfails, htables⟩
    exact ⟨hfails, ⟨hkeys, hnames, hdeleted⟩, htables⟩
  · rintro ⟨hfails, ⟨hkeys, hnames, hdeleted⟩, htables⟩
    exact ⟨(), ⟨hkeys, hnames⟩, hdeleted, hfails, htables⟩

theorem processDelete_eq_ok (htable : Events.isIdentifier tableName = true) {slot : Slot Id} :
    processDelete pg tables tableName (item.id.getD .null) slot = .ok t ↔
      slot.fails = none ∧ Accepts .delete tableName item ∧
        AppliesItem pg .delete tableName item slot tables t := by
  have hname : validateIdentifiers [tableName] = .ok () :=
    validateIdentifiers_eq_ok.2 fun name hname => List.mem_singleton.1 hname ▸ htable
  simp only [processDelete, bind_eq_ok, hname, updateLiveRow_eq_ok, Accepts, AppliesItem]
  constructor
  · rintro ⟨-, -, hdeleted, hfails, htables⟩
    exact ⟨hfails, hdeleted, htables⟩
  · rintro ⟨hfails, hdeleted, htables⟩
    exact ⟨(), trivial, hdeleted, hfails, htables⟩

/-- An item is done exactly when no statement fails, it may be written, and it can be applied. -/
theorem processItem_eq_ok (htable : Events.isIdentifier tableName = true)
    (hvalid : itemErrors operation item = []) {slot : Slot Id}
    {done : List (BulkItemResult Id) × Tables Id} :
    processItem pg operation tableName tables i item slot = .ok done ↔
      slot.fails = none ∧ Accepts operation tableName item ∧
        AppliesItem pg operation tableName item slot tables done.2 ∧
          done.1 = [itemResult operation i item slot] := by
  obtain ⟨results, u⟩ := done
  -- each operation gives its new tables, and then the one result of the item
  have hresult : ∀ {A : Prop} {B : Tables Id → Prop} {result : BulkItemResult Id},
      (∃ t, (slot.fails = none ∧ A ∧ B t) ∧ [result] = results ∧ t = u) ↔
        slot.fails = none ∧ A ∧ B u ∧ results = [result] := by
    intro A B result
    constructor
    · rintro ⟨t, ⟨hfails, haccepts, happlies⟩, rfl, rfl⟩
      exact ⟨hfails, haccepts, happlies, rfl⟩
    · rintro ⟨hfails, haccepts, happlies, rfl⟩
      exact ⟨u, ⟨hfails, haccepts, happlies⟩, rfl, rfl⟩
  cases operation with
  | create =>
    simp only [processItem, bind_eq_ok, pure_eq_ok, processCreate_eq_ok htable, Prod.mk.injEq,
      itemResult, if_true]
    exact hresult
  | update =>
    simp only [processItem, bind_eq_ok, pure_eq_ok, processUpdate_eq_ok htable, Prod.mk.injEq,
      itemResult, reduceCtorEq, if_false]
    exact hresult
  | delete =>
    simp only [processItem, bind_eq_ok, pure_eq_ok, processDelete_eq_ok htable, Prod.mk.injEq,
      itemResult, reduceCtorEq, if_false]
    exact hresult
  | other name =>
    -- The checks before the transaction let no such operation pass.
    cases item with
    | object fields => exact absurd hvalid (by simp [itemErrors])
    | nonObject => exact absurd hvalid (by simp [itemErrors])

/-- The results of the items from an index on. -/
def itemResults (operation : BulkOperation) (slot : ℕ → Slot Id) :
    ℕ → List BulkItem → List (BulkItemResult Id)
  | _, [] => []
  | i, item :: items =>
    itemResult operation i item (slot i) :: itemResults operation slot (i + 1) items

/-- The items are done exactly when each of them is. -/
theorem processItems_eq_ok (htable : Events.isIdentifier tableName = true) {slot : ℕ → Slot Id}
    (hvalid : ∀ item ∈ items, itemErrors operation item = [])
    {done : List (BulkItemResult Id) × Tables Id} :
    processItems pg operation tableName slot i items tables = .ok done ↔
      (∀ k < items.length, (slot (i + k)).fails = none) ∧
        (∀ item ∈ items, Accepts operation tableName item) ∧
          AppliesAll pg operation tableName slot i items tables done.2 ∧
            done.1 = itemResults operation slot i items := by
  induction items generalizing i tables done with
  | nil =>
    obtain ⟨results, u⟩ := done
    simp [processItems, AppliesAll, itemResults, eq_comm, and_comm]
  | cons item items ih =>
    obtain ⟨results, u⟩ := done
    -- The first item, and the others, whose slots are numbered from the next one on.
    have hitem : ∀ first : List (BulkItemResult Id) × Tables Id,
        processItem pg operation tableName tables i item (slot i) = .ok first ↔ _ :=
      fun first => processItem_eq_ok htable (hvalid item List.mem_cons_self)
    have hrest : ∀ (t : Tables Id) (rest : List (BulkItemResult Id) × Tables Id),
        processItems pg operation tableName slot (i + 1) items t = .ok rest ↔ _ :=
      fun t rest => ih fun item h => hvalid item (List.mem_cons_of_mem _ h)
    constructor
    · intro h
      simp only [processItems] at h
      split at h
      · exact absurd h (by simp)
      · rename_i result t hfirst
        simp only [bind_eq_ok, pure_eq_ok, Prod.mk.injEq] at h
        obtain ⟨⟨results', u'⟩, hothers, hresults, rfl⟩ := h
        obtain ⟨hfails, haccepts, happlies, hresult⟩ := (hitem _).1 hfirst
        obtain ⟨hfailsRest, hacceptsRest, happliesRest, hresultsRest⟩ := (hrest _ _).1 hothers
        refine ⟨?_, List.forall_mem_cons.2 ⟨haccepts, hacceptsRest⟩, ⟨t, happlies, happliesRest⟩, ?_⟩
        · intro k hk
          cases k with
          | zero => exact hfails
          | succ k =>
            have hk' := hfailsRest k (by simpa using hk)
            rwa [show i + 1 + k = i + (k + 1) by omega] at hk'
        · simp only at hresult hresultsRest
          rw [← hresults, hresult, hresultsRest]
          rfl
    · rintro ⟨hfails, haccepts, ⟨t, happlies, happliesRest⟩, hresults⟩
      obtain ⟨hacceptsItem, hacceptsRest⟩ := List.forall_mem_cons.1 haccepts
      have hfailsRest : ∀ k < items.length, (slot (i + 1 + k)).fails = none := by
        intro k hk
        have hk' := hfails (k + 1) (by simpa using hk)
        rwa [show i + (k + 1) = i + 1 + k by omega] at hk'
      have hfirst := (hitem ([itemResult operation i item (slot i)], t)).2
        ⟨hfails 0 (by simp), hacceptsItem, happlies, rfl⟩
      have hothers := (hrest t (itemResults operation slot (i + 1) items, u)).2
        ⟨hfailsRest, hacceptsRest, happliesRest, rfl⟩
      simp only [processItems, hfirst, bind_eq_ok, pure_eq_ok, Prod.mk.injEq]
      exact ⟨_, hothers, hresults.symm, rfl⟩

omit [DecidableEq Id] in
theorem length_itemResults (operation : BulkOperation) (slot : ℕ → Slot Id) (i : ℕ)
    (items : List BulkItem) : (itemResults operation slot i items).length = items.length := by
  induction items generalizing i with
  | nil => rfl
  | cons item items ih => rw [itemResults, List.length_cons, ih, List.length_cons]

omit [DecidableEq Id] in
theorem itemResults_success (operation : BulkOperation) (slot : ℕ → Slot Id) (i : ℕ)
    (items : List BulkItem) : ∀ result ∈ itemResults operation slot i items, result.success = true := by
  induction items generalizing i with
  | nil => exact fun result h => absurd h List.not_mem_nil
  | cons item items ih => exact List.forall_mem_cons.2 ⟨rfl, ih (i + 1)⟩

end Items

/-! ## The whole call -/

section Execute

variable {pg : Postgres Id} {store : Store Id} {tables t : Tables Id} {resource tableName : String}
  {operation : BulkOperation} {items : List BulkItem} {username : String} {env : BatchEnv Id}

/-- The tables of the batches are identifiers. -/
theorem isIdentifier_of_lookup (h : BULK_ALLOWED_RESOURCES.lookup resource = some tableName) :
    Events.isIdentifier tableName = true := by
  have hnames : ∀ entry ∈ BULK_ALLOWED_RESOURCES, Events.isIdentifier entry.2 = true := by
    decide +kernel
  obtain ⟨before, after, heq, -⟩ := List.lookup_eq_some_iff.1 h
  exact hnames (resource, tableName) (by simp [heq])

/-- What `resolveTable` returns is the table of the resource, or no identifier. -/
theorem lookup_of_resolveTable (h : resolveTable resource = .ok tableName) :
    BULK_ALLOWED_RESOURCES.lookup resource = some tableName ∨
      Events.isIdentifier tableName = false := by
  rw [resolveTable] at h
  cases hlookup : BULK_ALLOWED_RESOURCES.lookup resource with
  | some name =>
    rw [hlookup] at h
    obtain rfl := Except.ok.inj h
    exact Or.inl rfl
  | none =>
    -- The text of an inherited property has a blank.
    have hinherited : ∀ text, inheritedProperty resource = some text →
        Events.isIdentifier text = false := by
      intro text htext
      rw [inheritedProperty] at htext
      split_ifs at htext with hproto hconstructor hfunction
      · obtain rfl := Option.some.inj htext
        decide +kernel
      · obtain rfl := Option.some.inj htext
        decide +kernel
      · have hfunctions : ∀ name ∈ inheritedFunctions,
            Events.isIdentifier s!"function {name}() \x7b [native code] \x7d" = false := by
          decide +kernel
        obtain rfl := Option.some.inj htext
        exact hfunctions resource hfunction
    rw [hlookup, Option.none_or] at h
    cases htext : inheritedProperty resource with
    | none =>
      rw [htext] at h
      exact absurd h (by simp)
    | some text =>
      rw [htext] at h
      obtain rfl := Except.ok.inj h
      exact Or.inr (hinherited text htext)

theorem resolveTable_of_lookup (h : BULK_ALLOWED_RESOURCES.lookup resource = some tableName) :
    resolveTable resource = .ok tableName := by
  rw [resolveTable, h]
  rfl

theorem isIdentifier_of_checkNames {body : Body} {empty : String} {u : Unit}
    (h : BaseService.checkNames tableName body empty = .ok u) :
    Events.isIdentifier tableName = true := by
  simp only [BaseService.checkNames, bind_eq_ok] at h
  obtain ⟨_, -, hrest⟩ := h
  split_ifs at hrest with hkeys
  · exact absurd hrest (by simp [bind, Except.bind, throw, throwThe, MonadExceptOf.throw])
  · exact validateIdentifiers_eq_ok.1 hrest tableName (List.mem_singleton_self _)

/-- Nothing is done with an item in a table whose name is no identifier. -/
theorem isIdentifier_of_processItem {i : ℕ} {item : BulkItem} {slot : Slot Id}
    {done : List (BulkItemResult Id) × Tables Id} (hvalid : itemErrors operation item = [])
    (h : processItem pg operation tableName tables i item slot = .ok done) :
    Events.isIdentifier tableName = true := by
  cases operation with
  | create =>
    simp only [processItem, processCreate, bind_eq_ok] at h
    obtain ⟨t, ⟨_, -, _, hnames, -⟩, -⟩ := h
    exact isIdentifier_of_checkNames hnames
  | update =>
    simp only [processItem, processUpdate, checkUpdate, bind_eq_ok] at h
    obtain ⟨t, ⟨_, ⟨_, -, hnames⟩, -⟩, -⟩ := h
    exact isIdentifier_of_checkNames hnames
  | delete =>
    simp only [processItem, processDelete, bind_eq_ok] at h
    obtain ⟨t, ⟨_, hnames, -⟩, -⟩ := h
    exact validateIdentifiers_eq_ok.1 hnames tableName (List.mem_singleton_self _)
  | other name =>
    cases item with
    | object fields => exact absurd hvalid (by simp [itemErrors])
    | nonObject => exact absurd hvalid (by simp [itemErrors])

theorem validateBatchSize_eq_ok {u : Unit} : validateBatchSize items = .ok u ↔
    MIN_BATCH_SIZE ≤ items.length ∧ items.length ≤ MAX_BATCH_SIZE := by
  rw [validateBatchSize]
  split_ifs with h
  · exact iff_of_false (by simp) (by omega)
  · exact iff_of_true rfl (by omega)

theorem validateItems_eq_nil : validateItems operation items = [] ↔
    ∀ item ∈ items, itemErrors operation item = [] := by
  have hitems : items.zipIdx.map Prod.fst = items := List.zipIdx_map_fst 0 items
  rw [validateItems, List.filter_eq_nil_iff, List.forall_mem_map]
  nth_rewrite 2 [← hitems]
  rw [List.forall_mem_map]
  exact forall₂_congr fun _ _ => by simp

/-- The transaction succeeds exactly when it begins, all its items are done, and it is committed. -/
theorem transaction_eq_ok {done : List (BulkItemResult Id) × Tables Id} :
    transaction pg operation tableName items tables env = .ok done ↔
      env.beginFails = none ∧ env.commitFails = none ∧
        processItems pg operation tableName env.slot 0 items tables = .ok done := by
  rw [transaction]
  cases env.beginFails with
  | some message => simp [bind, Except.bind, throw, throwThe, MonadExceptOf.throw]
  | none =>
    simp only [bind_eq_ok]
    cases env.commitFails with
    | some message => simp [bind, Except.bind, throw, throwThe, MonadExceptOf.throw]
    | none => simp [pure, Except.pure]

/-- A batch is committed exactly when it can be, and then has these results. -/
theorem executeBatch_eq_ok {details : List (BulkItemResult Id)} :
    executeBatch pg tables resource operation items env = .ok (tableName, details, t) ↔
      BULK_ALLOWED_RESOURCES.lookup resource = some tableName ∧
        Committable pg tables resource operation items env t ∧
          details = itemResults operation env.slot 0 items := by
  simp only [executeBatch, bind_eq_ok, validateBatchSize_eq_ok, ite_throw_eq_ok, pure_eq_ok,
    transaction_eq_ok, not_not, ne_eq, validateItems_eq_nil, Prod.mk.injEq]
  constructor
  · rintro ⟨_, hsize, name, hresolve, hvalid, done, ⟨hbegin, hcommit, hprocess⟩, rfl, rfl⟩
    rcases lookup_of_resolveTable hresolve with hlookup | hinherited
    · have htable := isIdentifier_of_lookup hlookup
      obtain ⟨hfails, haccepts, happlies, hresults⟩ := (processItems_eq_ok htable hvalid).1 hprocess
      have hslots : ∀ k < items.length, (env.slot k).fails = none := fun k hk => by
        simpa using hfails k hk
      exact ⟨hlookup, ⟨hsize, hvalid, ⟨hbegin, hcommit, hslots⟩, ⟨name, hlookup, haccepts, happlies⟩⟩,
        hresults⟩
    · -- The first item fails, and there is one.
      exfalso
      cases items with
      | nil => exact absurd hsize.1 (by decide)
      | cons item items =>
        simp only [processItems] at hprocess
        split at hprocess
        · exact absurd hprocess (by simp)
        · rename_i result u hfirst
          have htable := isIdentifier_of_processItem (hvalid item List.mem_cons_self) hfirst
          exact absurd (htable.symm.trans hinherited) (by simp)
  · rintro ⟨hlookup, ⟨hsize, hvalid, ⟨hbegin, hcommit, hslots⟩, ⟨name, hname, haccepts, happlies⟩⟩, rfl⟩
    obtain rfl := Option.some.inj (hlookup.symm.trans hname)
    have hresolve := resolveTable_of_lookup hlookup
    have hfails : ∀ k < items.length, (env.slot (0 + k)).fails = none := fun k hk => by
      simpa using hslots k hk
    have hprocess : processItems pg operation tableName env.slot 0 items tables =
        .ok (itemResults operation env.slot 0 items, t) :=
      (processItems_eq_ok (isIdentifier_of_lookup hlookup) hvalid).2 ⟨hfails, haccepts, happlies, rfl⟩
    exact ⟨(), hsize, _, hresolve, hvalid, _, ⟨hbegin, hcommit, hprocess⟩, rfl, rfl⟩

/-- A batch is all or nothing exactly when, if it is committed and changes a table, the append of its entry
resolves. -/
theorem execute_allOrNothing_iff (pg : Postgres Id) (store : Store Id) (resource : String)
    (operation : BulkOperation) (items : List BulkItem) (username : String) (env : BatchEnv Id) :
    AllOrNothing pg store resource operation items username env ↔
      ∀ t, Committable pg store.tables resource operation items env t → t ≠ store.tables →
        env.append.Succeeds := by
  rw [AllOrNothing, execute]
  cases hbatch : executeBatch pg store.tables resource operation items env with
  | error error =>
    -- Nothing is committed, since nothing could be.
    refine iff_of_true ⟨rfl, rfl⟩ fun t hcommittable _ => ?_
    obtain ⟨tableName, hlookup, -⟩ := hcommittable.applies
    have hok := executeBatch_eq_ok.2 ⟨hlookup, hcommittable, rfl⟩
    exact absurd (hbatch.symm.trans hok) (by simp)
  | ok done =>
    obtain ⟨tableName, details, t⟩ := done
    obtain ⟨hlookup, hcommittable, hdetails⟩ := executeBatch_eq_ok.1 hbatch
    by_cases happend : env.append.Succeeds
    · refine iff_of_true ?_ fun _ _ _ => happend
      obtain ⟨row, hentry, happended⟩ := append_of_succeeds store.trail
        (auditEntry resource tableName username operation items.length) happend
      simp only [happended]
      refine ⟨tableName, hlookup, ?_, ⟨row, rfl, hentry⟩, ?_⟩
      · obtain ⟨name, hname, -, happlies⟩ := hcommittable.applies
        obtain rfl := Option.some.inj (hlookup.symm.trans hname)
        exact happlies
      -- In a batch that is committed every item has succeeded.
      · have hall : details.filter BulkItemResult.success = details := by
          rw [List.filter_eq_self, hdetails]
          exact itemResults_success operation env.slot 0 items
        have hlength : details.length = items.length := by
          rw [hdetails, length_itemResults]
        refine ⟨hlength, ?_, ?_⟩
        · show (details.filter BulkItemResult.success).length = items.length
          rw [hall, hlength]
        · show details.length - (details.filter BulkItemResult.success).length = 0
          rw [hall, Nat.sub_self]
    · -- The entry is missing, and the rows are there: the rule holds when nothing has changed.
      obtain ⟨hthrows, htrail⟩ := append_of_not_succeeds store.trail
        (auditEntry resource tableName username operation items.length) happend
      dsimp only
      generalize store.trail.append (auditEntry resource tableName username operation items.length)
        env.append = result at hthrows htrail ⊢
      obtain ⟨resolves, trail⟩ := result
      obtain rfl : resolves = false := hthrows
      have hunique : ∀ t', Committable pg store.tables resource operation items env t' → t' = t := by
        intro t' ht'
        have hok := executeBatch_eq_ok.2 ⟨hlookup, ht', rfl⟩
        have hsame := Except.ok.inj (hok.symm.trans hbatch)
        simp only [Prod.mk.injEq] at hsame
        exact hsame.2.2
      constructor
      · rintro ⟨hsame, -⟩ t' ht' hchanged
        exact absurd ((hunique t' ht').trans hsame) hchanged
      · intro hall
        refine ⟨?_, htrail⟩
        by_contra hchanged
        exact happend (hall t hcommittable hchanged)

/-! ## An append that fails -/

/-- A database of texts without rows, whose ids are what they are read as. -/
def textPostgres : Postgres String where
  parseId
    | .text t => some t
    | _ => none
  default _ _ := .null

def emptyStore : Store String := ⟨fun _ => ⟨[], List.nodup_nil⟩, ⟨[], 1⟩⟩

/-- The last step of the append, its `COMMIT`, fails. -/
def failingAppend : BatchEnv String :=
  ⟨none, fun _ => ⟨"r1", "2025-01-01", none⟩, none, ⟨0, "a1", some 4⟩⟩

/-- One plan. -/
def onePlan : List BulkItem := [.object (OrderedMap.empty.set "title" (.text "Plan"))]

/-- The plan is created although the call throws. -/
theorem execute_not_allOrNothing : ¬∀ (store : Store String) (resource : String)
    (operation : BulkOperation) (items : List BulkItem) (username : String) (env : BatchEnv String),
    AllOrNothing textPostgres store resource operation items username env := by
  intro hall
  have hplan := hall emptyStore "audit-plans" .create onePlan "admin" failingAppend
  have hthrows : (execute textPostgres emptyStore "audit-plans" .create onePlan "admin"
      failingAppend).1.toOption.isSome = false := by decide +kernel
  have hrows : ((execute textPostgres emptyStore "audit-plans" .create onePlan "admin"
      failingAppend).2.tables "audit_plans").rows.length = 1 := by decide +kernel
  rw [AllOrNothing] at hplan
  split at hplan
  · rename_i response t hexecute
    rw [hexecute] at hthrows
    exact absurd hthrows (by simp [Except.toOption])
  · rename_i error t hexecute
    rw [hexecute, hplan.1] at hrows
    exact absurd hrows (by decide)

end Execute

end BulkOperationsService

end AlsaqiBackend.Records

import AlsaqiBackend.Lib.JsString
import AlsaqiBackend.Lib.ParentPointers
import AlsaqiBackend.Lib.Run
import AlsaqiBackend.Lib.Table

/-!
# The organisation structure

`OrgService` and `DepartmentService` write one table of entities, where `parent_id` refers to another entity.
Both check something before they write: that the code is free, that an entity is not its own parent, that an
entity to be archived has no children that are not archived. `DepartmentService.getTree` builds the trees from the
entities that are not archived.

An operation is cut at its awaits. Texts of ids are read by PostgreSQL (`uuid`).
-/

namespace AlsaqiBackend.Organization

open AlsaqiBackend.Lib

/-! ## The table -/

inductive EntityStatus where
  | active
  | inactive
  | archived
deriving DecidableEq

/-- A row of `org_entities`. -/
structure Entity (K : Type) where
  id : K
  entityCode : String
  nameAr : String
  nameEn : String
  entityType : String
  parentId : Option K
  level : Option ℤ
  status : Option EntityStatus
  displayOrder : Option ℤ

/-- What an `UPDATE` sets in a row; it leaves the id. -/
structure Change (K : Type) where
  apply : Entity K → Entity K
  id_apply : ∀ e, (apply e).id = e.id

/-- A statement that writes the table. -/
inductive Write (K : Type) where
  | insert (row : Entity K)
  | update (id : K) (change : Change K)

variable {K : Type} [DecidableEq K]

/-- The keys hold after a row has been written: its code is that of no other row, and its parent is a row. -/
def KeysHold (rows : List (Entity K)) (row : Entity K) : Prop :=
  (∀ other ∈ rows, other.id ≠ row.id → other.entityCode ≠ row.entityCode) ∧
    ∀ p ∈ row.parentId, p ∈ rows.map Entity.id

instance (rows : List (Entity K)) (row : Entity K) : Decidable (KeysHold rows row) := instDecidableAnd

/-- The statement breaks no key. -/
def Write.Accepted (rows : List (Entity K)) : Write K → Prop
  | .insert row => row.id ∉ rows.map Entity.id ∧ KeysHold rows row
  | .update id change => ∀ e ∈ rows, e.id = id → KeysHold rows (change.apply e)

instance (rows : List (Entity K)) : ∀ w : Write K, Decidable (w.Accepted rows)
  | .insert _ => instDecidableAnd
  | .update id change => inferInstanceAs (Decidable (∀ e ∈ rows, e.id = id → KeysHold rows (change.apply e)))

/-- The rows after the statement; one that breaks a key changes nothing. -/
def Write.perform (rows : List (Entity K)) (w : Write K) : List (Entity K) :=
  if w.Accepted rows then
    match w with
    | .insert row => rows ++ [row]
    | .update id change => updateWhere (fun e => decide (e.id = id)) change.apply rows
  else rows

/-! ## Arguments -/

/-- The data of `createOrgEntity` and `updateOrgEntity`. -/
structure OrgData where
  entityCode : Option String
  nameAr : Option String
  nameEn : Option String
  entityType : Option String
  parentId : Option String
  level : Option ℤ
  status : Option EntityStatus
  displayOrder : Option ℤ

/-- The data of `DepartmentService.create`. -/
structure DepartmentData where
  entityCode : String
  nameAr : String
  nameEn : Option String
  entityType : Option String
  parentId : Option String

/-- The data of `DepartmentService.update`. A parent that is given can be `null`. -/
structure DepartmentUpdate where
  nameAr : Option String
  nameEn : Option String
  entityType : Option String
  parentId : Option (Option String)
  status : Option EntityStatus

section Statements

variable (uuid : String → Option K)

/-- A value for a column of ids; the statement fails where the text is no id. -/
def readId : Option String → Option (Option K)
  | none => some none
  | some text => (uuid text).map some

/-- `value || other` on a number. -/
def orNumber (value : Option ℤ) (other : ℤ) : ℤ := (value.filter (· ≠ 0)).getD other

/-- The row of the data. Of the columns that may not be `NULL`, none is missing. -/
def OrgData.row (data : OrgData) (id : K) : Option (Entity K) := do
  let entityCode ← data.entityCode
  let nameAr ← data.nameAr
  let nameEn ← data.nameEn
  let entityType ← data.entityType
  let parentId ← readId uuid data.parentId
  some ⟨id, entityCode, nameAr, nameEn, entityType, parentId, data.level, data.status, data.displayOrder⟩

/-- The defaults of `createOrgEntity`. -/
def OrgData.withDefaults (data : OrgData) : OrgData :=
  { data with
    level := some (orNumber data.level 1)
    status := some (data.status.getD .active)
    displayOrder := some (orNumber data.displayOrder 0) }

/-- The `UPDATE` of `updateOrgEntity`, which sets every column. -/
def OrgData.change (data : OrgData) (row : Entity K) : Change K where
  apply e := { row with id := e.id }
  id_apply _ := rfl

/-- The `INSERT` of `DepartmentService.create`. -/
def DepartmentData.row (data : DepartmentData) (id : K) (level : ℤ) : Option (Entity K) :=
  (readId uuid data.parentId).map fun parentId =>
    { id := id
      entityCode := data.entityCode
      nameAr := data.nameAr
      nameEn := (orElse data.nameEn none).getD data.nameAr
      entityType := data.entityType.getD "Department"
      parentId := parentId
      level := some level
      status := some .active
      displayOrder := some 0 }

/-- The `UPDATE` of `DepartmentService.update`, which sets what is given. -/
def DepartmentUpdate.change (data : DepartmentUpdate) (parentId : Option (Option K)) : Change K where
  apply e :=
    { e with
      nameAr := data.nameAr.getD e.nameAr
      nameEn := data.nameEn.getD e.nameEn
      entityType := data.entityType.getD e.entityType
      parentId := parentId.getD e.parentId
      status := data.status <|> e.status }
  id_apply _ := rfl

/-- `SET status = 'Archived'`. -/
def archiveChange : Change K where
  apply e := { e with status := some .archived }
  id_apply _ := rfl

/-! ## Operations -/

/-- The statement that an operation under way performs next. -/
inductive Pending (K : Type) where
  | insertOrgEntity (newId : K) (data : OrgData)
  | selectParent (newId : K) (data : DepartmentData)
  | insertDepartment (newId : K) (data : DepartmentData) (level : ℤ)
  | updateDepartment (id : String) (data : DepartmentUpdate)
  | countUsers (id : String)
  | archive (id : String)

/-- What the statement writes. -/
def Pending.write : Pending K → Option (Write K)
  | .insertOrgEntity newId data => (data.withDefaults.row uuid newId).map .insert
  | .insertDepartment newId data level => (data.row uuid newId level).map .insert
  | .updateDepartment id data =>
    (uuid id).bind fun k =>
      match data.parentId with
      | none => some (.update k (data.change none))
      | some parentId => (readId uuid parentId).map fun parentId => .update k (data.change (some parentId))
  | .archive id => (uuid id).map fun k => .update k archiveChange
  | .selectParent .. => none
  | .countUsers .. => none

/-- `parent ? parent.level + 1 : 1`. -/
def levelBelow (rows : List (Entity K)) (p : K) : ℤ :=
  match rows.find? (·.id = p) with
  | none => 1
  | some parent => parent.level.getD 0 + 1

/-- What the operation performs after the statement; `linked` says whether a user refers to the entity. -/
def Pending.next (rows : List (Entity K)) (linked : Bool) : Pending K → Option (Pending K)
  | .selectParent newId data =>
    data.parentId.bind fun text => (uuid text).map fun p => .insertDepartment newId data (levelBelow rows p)
  | .countUsers id => if linked then none else some (.archive id)
  | _ => none

/-- The call of an operation, up to its first statement, or the next statement of one under way. The id of a new
entity is random. -/
inductive OrgAction (K : Type) where
  | createOrgEntity (newId : K) (data : OrgData)
  | updateOrgEntity (id : String) (data : OrgData)
  | deleteOrgEntity (id : String)
  | createDepartment (newId : K) (data : DepartmentData)
  | updateDepartment (id : String) (data : DepartmentUpdate)
  | deleteDepartment (id : String)
  | settles (i : ℕ) (linked : Bool)

/-- `status != 'Archived'`, which is not true of `NULL`. -/
def Entity.isListed (e : Entity K) : Bool := e.status = some .active || e.status = some .inactive

/-- `SELECT COUNT(*) … WHERE parent_id = ? AND status != 'Archived'`. -/
def childCount (rows : List (Entity K)) (id : K) : ℕ := rows.countP fun e => e.parentId = some id && e.isListed

/-- What an operation performs after its first statement. -/
def OrgAction.starts (rows : List (Entity K)) : OrgAction K → Option (Pending K)
  | .createOrgEntity newId data =>
    if ∃ e ∈ rows, some e.entityCode = data.entityCode then none else some (.insertOrgEntity newId data)
  | .deleteOrgEntity id => (uuid id).bind fun k => if 0 < childCount rows k then none else some (.countUsers id)
  | .createDepartment newId data =>
    if ∃ e ∈ rows, e.entityCode = data.entityCode then none
    else if (orElse data.parentId none).isSome then some (.selectParent newId data)
    else some (.insertDepartment newId data 1)
  | .updateDepartment id data =>
    (uuid id).bind fun k => if k ∈ rows.map Entity.id then some (.updateDepartment id data) else none
  | .deleteDepartment id => (uuid id).bind fun k => if 0 < childCount rows k then none else some (.archive id)
  | .updateOrgEntity .. => none
  | .settles .. => none

/-- The `UPDATE` of `updateOrgEntity`, where the entity is not its own parent. -/
def updateOrgEntity (id : String) (data : OrgData) : Option (Write K) :=
  if (orElse data.parentId none) = some id then none
  else (uuid id).bind fun k => (data.row uuid k).map fun row => .update k (data.change row)

/-- The table and the operations under way. -/
structure OrgState (K : Type) where
  rows : List (Entity K)
  pending : List (Pending K)

/-- What a step writes. -/
def OrgState.write (s : OrgState K) : OrgAction K → Option (Write K)
  | .updateOrgEntity id data => Organization.updateOrgEntity uuid id data
  | .settles i _ => s.pending[i]?.bind (Pending.write uuid)
  | _ => none

/-- The rows after a step. -/
def OrgState.rowsAfter (s : OrgState K) (a : OrgAction K) : List (Entity K) :=
  match s.write uuid a with
  | none => s.rows
  | some w => w.perform s.rows

def step (s : OrgState K) (a : OrgAction K) : Option (OrgState K) :=
  match a with
  | .settles i linked =>
    s.pending[i]?.map fun op =>
      ⟨s.rowsAfter uuid a, (op.next uuid s.rows linked).toList ++ s.pending.eraseIdx i⟩
  | a => some ⟨s.rowsAfter uuid a, (a.starts uuid s.rows).toList ++ s.pending⟩

end Statements

/-! ## The tree -/

/-- `getAll`. The order is that of `ORDER BY level, display_order, name_ar`. -/
def getAll (orderBy : Entity K → Entity K → Bool) (rows : List (Entity K)) : List (Entity K) :=
  ((rows.filter Entity.isListed).mergeSort orderBy).take 2000

/-- `buildTree`, to a height. -/
def buildTree (nodes : List (Entity K)) (height : ℕ) (parentId : Option K) : List (RoseTree (Entity K)) :=
  nest Entity.id Entity.parentId nodes height parentId

/-- `getTree`. -/
def getTree (orderBy : Entity K → Entity K → Bool) (rows : List (Entity K)) : List (RoseTree (Entity K)) :=
  buildTree (getAll orderBy rows) (getAll orderBy rows).length none

end AlsaqiBackend.Organization

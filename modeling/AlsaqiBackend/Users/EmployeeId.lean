import AlsaqiBackend.Lib.JsString
import AlsaqiBackend.Lib.PgTransaction
import AlsaqiBackend.Users.Identity
import Mathlib.Data.List.Infix

/-!
# The employee id of a new user

`createUser` gives a new user an `employee_id` of the department's code, a number and three random bytes.
The column is unique, and when another transaction has taken the id meanwhile, the `INSERT` is retried
with other bytes, five times in all. All of it is one transaction, and PostgreSQL fails every statement
after the first conflict.

`createUser_iff` says when a user is created although one of the five ids is free: exactly when the first
one is.
-/

namespace AlsaqiBackend.Users

open AlsaqiBackend.Lib TxM

/-! ## Tables -/

/-- A row of `users`, with the columns that a creation finds or generates. -/
structure Employee extends UserRecord where
  employeeId : Option String
  roleId : Option String
  deriving DecidableEq, Repr

structure OrgEntity where
  nameAr : Option String
  nameEn : Option String
  entityCode : Option String
  deriving DecidableEq, Repr

/-- The tables; `late` has the rows of `users` that other transactions commit between the `SELECT`s and
the `INSERT`. -/
structure EmployeeDb where
  users : List Employee
  late : List Employee
  /-- The name and the id of a row of `roles`. -/
  roles : List (String × String)
  orgEntities : List OrgEntity
  deriving DecidableEq, Repr

/-- `text LIKE pattern`. -/
def like : List Char → List Char → Bool
  | [], text => text.isEmpty
  | '%' :: pattern, text => text.tails.any (like pattern)
  | '_' :: pattern, _ :: text => like pattern text
  | '\\' :: c :: pattern, d :: text => c = d && like pattern text
  | c :: pattern, d :: text => c = d && like pattern text
  | _ :: _, [] => false

namespace EmployeeDb

/-- All rows that the `INSERT` is compared with. -/
def rows (db : EmployeeDb) : List Employee := db.users ++ db.late

/-- The code of the department, if there is an entity with this name that has one. -/
def deptCode (db : EmployeeDb) (department : String) : Option String :=
  (db.orgEntities.find? fun entity => entity.nameAr = some department || entity.nameEn = some department).bind
    fun entity => orNull entity.entityCode

/-- `SELECT employee_id FROM users WHERE employee_id LIKE ?`. -/
def latestEmp (db : EmployeeDb) (deptCode : String) : List String :=
  (db.users.filterMap fun user => user.employeeId).filter fun employeeId =>
    like (deptCode ++ "-%").toList employeeId.toList

end EmployeeDb

/-! ## The creation -/

/-- The number after the highest one among these ids. -/
def nextNum (deptCode : String) (latestEmp : List String) : ℤ :=
  latestEmp.foldl (fun nextNum employeeId =>
    let seqPart := (employeeId.toList.drop (deptCode.length + 1)).takeWhile (· ≠ '-')
    match if employeeId = "" then none else parseInt10 seqPart with
    | some lastNum => if nextNum < lastNum + 1 then lastNum + 1 else nextNum
    | none => nextNum) 1001

def makeEmployeeId (deptCode : String) (nextNum : ℤ) (disambiguator : String) : String :=
  deptCode ++ "-" ++ toString nextNum ++ "-" ++ disambiguator

/-- The text has this part, without regard to case. -/
def hasPart (part text : String) : Bool := part.toList <:+: text.toList.map Char.toLower

/-- The test of the error of an `INSERT`. -/
def isEmployeeIdConflict (message : String) : Bool :=
  hasPart "employee_id" message &&
    (hasPart "unique" message || hasPart "duplicate" message || hasPart "constraint" message)

def uniqueViolation (constraint : String) : String :=
  "duplicate key value violates unique constraint \"" ++ constraint ++ "\""

/-- `INSERT INTO users … RETURNING id`. -/
def insertUser (row : Employee) : TxM EmployeeDb String := query fun db =>
  if db.rows.any fun user => user.username = row.username then
    .error (uniqueViolation "users_username_key")
  else if db.rows.any fun user => user.employeeId = row.employeeId then
    .error (uniqueViolation "users_employee_id_key")
  else .ok ({ db with users := db.users ++ [row] }, row.id)

def MAX_EMP_ID_ATTEMPTS : ℕ := 5

/-- The loop, with the number of attempts that are left after this one: it returns the id of the row and
the `employee_id`. -/
def insertWithRetry (row : String → Employee) (employeeId : ℕ → String) :
    ℕ → ℕ → TxM EmployeeDb (String × String)
  | 0, attempt => do
    let id ← insertUser (row (employeeId attempt))
    pure (id, employeeId attempt)
  | left + 1, attempt =>
    tryCatch (do
      let id ← insertUser (row (employeeId attempt))
      pure (id, employeeId attempt))
    fun insertErr =>
      if isEmployeeIdConflict insertErr then insertWithRetry row employeeId left (attempt + 1)
      else throw insertErr

variable (lower hash : String → String)

/-- The row that `createUser` inserts. -/
def createdEmployee (id : String) (data : UserData) (roleId : Option String) (employeeId : String) :
    Employee :=
  { createdRow hash id data with employeeId := some employeeId, roleId }

/-- What `createUser` returns. -/
structure CreatedUser where
  id : String
  username : String
  name : String
  email : Option String
  department : Option String
  role : String
  status : String
  employeeId : String
  deriving DecidableEq, Repr

/-- The checks for a user with the same username or email. -/
def checkDuplicate (data : UserData) : TxM EmployeeDb Unit := do
  let existingUser ← select fun db => db.users.any fun user => user.username = data.username
  if existingUser then throw "A user with this username already exists"
  let existingEmail ← select fun db => (orNull data.email).any fun email =>
    db.users.any fun user => user.email.any fun other => lower other = lower email
  if existingEmail then throw "A user with this email already exists"

/-- `deptCode`; an error of the query is caught. -/
def readDeptCode (data : UserData) : TxM EmployeeDb String :=
  match orNull data.department with
  | none => pure "EMP"
  | some department => do
    let code ← attempt (select fun db => db.deptCode department) none
    pure (code.getD "EMP")

/-- The body of the transaction of `createUser`. The `id` is a new UUID, and `disambiguator n` what the
`n`-th call of `crypto.randomBytes` gives. -/
def createUser (data : UserData) (id : String) (disambiguator : ℕ → String) :
    TxM EmployeeDb CreatedUser := do
  checkDuplicate lower data
  let roleId ← select fun db => (db.roles.find? fun role => role.1 = data.role).map fun role => role.2
  let deptCode ← readDeptCode data
  let latestEmp ← select fun db => db.latestEmp deptCode
  let employeeId := fun attempt =>
    makeEmployeeId deptCode (nextNum deptCode latestEmp) (disambiguator attempt)
  let (id, employeeId) ←
    insertWithRetry (createdEmployee hash id data roleId) employeeId (MAX_EMP_ID_ATTEMPTS - 1) 0
  pure ⟨id, data.username, data.name, data.email, data.department, data.role, "Active", employeeId⟩

/-! ## When it succeeds -/

/-- The id that the `n`-th attempt generates. -/
def generatedId (db : EmployeeDb) (data : UserData) (disambiguator : ℕ → String) (n : ℕ) : String :=
  let deptCode := ((orNull data.department).bind db.deptCode).getD "EMP"
  makeEmployeeId deptCode (nextNum deptCode (db.latestEmp deptCode)) (disambiguator n)

/-- No user has the `employee_id`. -/
def Unused (db : EmployeeDb) (employeeId : String) : Prop :=
  ∀ user ∈ db.rows, user.employeeId ≠ some employeeId

instance (db : EmployeeDb) (employeeId : String) : Decidable (Unused db employeeId) :=
  inferInstanceAs (Decidable (∀ user ∈ db.rows, _))

/-- No user has the username or the email. -/
def FreshNames (db : EmployeeDb) (data : UserData) : Prop :=
  ∀ user ∈ db.rows, user.username ≠ data.username ∧
    ∀ email, data.email = some email → ∀ other, user.email = some other → lower other ≠ lower email

instance (db : EmployeeDb) (data : UserData) : Decidable (FreshNames lower db data) :=
  inferInstanceAs (Decidable (∀ user ∈ db.rows, _))

/-- A user is created and committed, with an `employee_id` that no other user has. -/
def Creates (db : EmployeeDb) (data : UserData) (id : String) (disambiguator : ℕ → String) : Prop :=
  ∃ created row, transaction (createUser lower hash data id disambiguator) db =
      (.ok created, { db with users := db.users ++ [row] }) ∧
    row.username = data.username ∧ row.employeeId = some created.employeeId ∧
      Unused db created.employeeId

variable {lower hash} {db : EmployeeDb} {data : UserData} {id : String} {disambiguator : ℕ → String}

theorem isEmployeeIdConflict_abortedError : isEmployeeIdConflict abortedError = false := by
  decide +kernel

theorem isEmployeeIdConflict_uniqueViolation :
    isEmployeeIdConflict (uniqueViolation "users_employee_id_key") = true := by
  decide +kernel

section Retry

variable {row : String → Employee} {employeeId : ℕ → String} {left attempt : ℕ}

/-- In an aborted transaction no attempt succeeds, and there is no other one. -/
theorem insertWithRetry_aborted :
    insertWithRetry row employeeId left attempt ⟨db, true⟩ = (.error abortedError, ⟨db, true⟩) := by
  cases left with
  | zero => rfl
  | succ left =>
    unfold insertWithRetry
    rw [tryCatch_apply, bind_apply, insertUser, query_aborted]
    dsimp only
    rw [isEmployeeIdConflict_abortedError, if_neg Bool.false_ne_true, throw_apply]

theorem insertUser_of_unused {new : Employee} (hname : ∀ user ∈ db.rows, user.username ≠ new.username)
    (hid : ∀ user ∈ db.rows, user.employeeId ≠ new.employeeId) :
    insertUser new ⟨db, false⟩ = (.ok new.id, ⟨{ db with users := db.users ++ [new] }, false⟩) := by
  have hnameAny : (db.rows.any fun user => user.username = new.username) = false := any_key_eq_false hname
  have hidAny : (db.rows.any fun user => user.employeeId = new.employeeId) = false := any_key_eq_false hid
  rw [insertUser, query_apply, hnameAny, hidAny]
  rfl

theorem insertUser_of_used {new : Employee} (hname : ∀ user ∈ db.rows, user.username ≠ new.username)
    (hid : ∃ user ∈ db.rows, user.employeeId = new.employeeId) :
    insertUser new ⟨db, false⟩ = (.error (uniqueViolation "users_employee_id_key"), ⟨db, true⟩) := by
  have hnameAny : (db.rows.any fun user => user.username = new.username) = false := any_key_eq_false hname
  have hidAny : (db.rows.any fun user => user.employeeId = new.employeeId) = true := by
    rw [List.any_eq_true]
    obtain ⟨user, hmem, heq⟩ := hid
    exact ⟨user, hmem, decide_eq_true heq⟩
  rw [insertUser, query_apply, hnameAny, hidAny]
  rfl

/-- An unused id is inserted at the first attempt. -/
theorem insertWithRetry_of_unused (hrow : ∀ text, (row text).employeeId = some text)
    (hname : ∀ text, ∀ user ∈ db.rows, user.username ≠ (row text).username)
    (hid : Unused db (employeeId attempt)) :
    insertWithRetry row employeeId (left + 1) attempt ⟨db, false⟩ =
      (.ok ((row (employeeId attempt)).id, employeeId attempt),
        ⟨{ db with users := db.users ++ [row (employeeId attempt)] }, false⟩) := by
  unfold insertWithRetry
  rw [tryCatch_apply, bind_apply, insertUser_of_unused (hname _) (by rw [hrow]; exact hid)]
  rfl

/-- When it is used, the attempts after the first one fail as well. -/
theorem insertWithRetry_of_used (hrow : ∀ text, (row text).employeeId = some text)
    (hname : ∀ text, ∀ user ∈ db.rows, user.username ≠ (row text).username)
    (hid : ¬ Unused db (employeeId attempt)) :
    insertWithRetry row employeeId (left + 1) attempt ⟨db, false⟩ =
      (.error abortedError, ⟨db, true⟩) := by
  have hused : ∃ user ∈ db.rows, user.employeeId = (row (employeeId attempt)).employeeId := by
    rw [hrow]
    by_contra hnone
    exact hid fun user hmem heq => hnone ⟨user, hmem, heq⟩
  unfold insertWithRetry
  rw [tryCatch_apply, bind_apply, insertUser_of_used (hname _) hused]
  dsimp only
  rw [isEmployeeIdConflict_uniqueViolation, if_pos rfl]
  exact insertWithRetry_aborted

end Retry

theorem readDeptCode_apply : readDeptCode data ⟨db, false⟩ =
    (.ok (((orNull data.department).bind db.deptCode).getD "EMP"), ⟨db, false⟩) := by
  unfold readDeptCode
  cases orNull data.department with
  | none => rfl
  | some department => rfl

theorem checkDuplicate_apply (h : FreshNames lower db data) :
    checkDuplicate lower data ⟨db, false⟩ = (.ok (), ⟨db, false⟩) := by
  have husername : (db.users.any fun user => user.username = data.username) = false :=
    any_key_eq_false fun user hmem => (h user (List.mem_append_left _ hmem)).1
  have hemail : ((orNull data.email).any fun email =>
      db.users.any fun user => user.email.any fun other => lower other = lower email) = false := by
    rw [← Bool.not_eq_true]
    simp only [Option.any_eq_true, List.any_eq_true, decide_eq_true_eq]
    rintro ⟨email, hsome, user, hmem, other, hother, heq⟩
    have hdata : data.email = some email := (Option.filter_eq_some_iff.1 hsome).1
    exact (h user (List.mem_append_left _ hmem)).2 email hdata other hother heq
  unfold checkDuplicate
  rw [select_bind_apply, husername, if_neg Bool.false_ne_true]
  dsimp only
  rw [select_bind_apply, hemail]
  rfl

/-- Where the names are fresh, `createUser` is the loop. -/
theorem createUser_apply (h : FreshNames lower db data) :
    createUser lower hash data id disambiguator ⟨db, false⟩ =
      (insertWithRetry (createdEmployee hash id data
          ((db.roles.find? fun role => role.1 = data.role).map fun role => role.2))
          (generatedId db data disambiguator) (MAX_EMP_ID_ATTEMPTS - 1) 0 >>= fun inserted =>
        pure ⟨inserted.1, data.username, data.name, data.email, data.department, data.role, "Active",
          inserted.2⟩) ⟨db, false⟩ := by
  unfold createUser
  rw [bind_apply, checkDuplicate_apply h]
  dsimp only
  rw [select_bind_apply, bind_apply, readDeptCode_apply]
  dsimp only
  rw [select_bind_apply]
  rfl

/-- When the first id is free, the user has it. -/
theorem creates_of_unused (h : FreshNames lower db data)
    (hid : Unused db (generatedId db data disambiguator 0)) :
    Creates lower hash db data id disambiguator := by
  refine ⟨⟨id, data.username, data.name, data.email, data.department, data.role, "Active",
      generatedId db data disambiguator 0⟩, createdEmployee hash id data
      ((db.roles.find? fun role => role.1 = data.role).map fun role => role.2)
      (generatedId db data disambiguator 0), ?_, rfl, rfl, hid⟩
  rw [transaction, createUser_apply h, bind_apply, MAX_EMP_ID_ATTEMPTS,
    insertWithRetry_of_unused (fun _ => rfl) (fun _ user hmem => (h user hmem).1) hid]
  rfl

/-- When it is not, `createUser` throws what PostgreSQL answers to the second attempt, and nothing is
committed. -/
theorem createUser_of_used (h : FreshNames lower db data)
    (hid : ¬ Unused db (generatedId db data disambiguator 0)) :
    transaction (createUser lower hash data id disambiguator) db = (.error abortedError, db) := by
  rw [transaction, createUser_apply h, bind_apply, MAX_EMP_ID_ATTEMPTS,
    insertWithRetry_of_used (fun _ => rfl) (fun _ user hmem => (h user hmem).1) hid]

/-- A user is created whenever one of the five ids is free, exactly when the first one is, or none. -/
theorem createUser_iff (lower hash : String → String) (db : EmployeeDb) (data : UserData) (id : String)
    (disambiguator : ℕ → String) (h : FreshNames lower db data) :
    ((∃ n < MAX_EMP_ID_ATTEMPTS, Unused db (generatedId db data disambiguator n)) →
      Creates lower hash db data id disambiguator) ↔
    (Unused db (generatedId db data disambiguator 0) ∨
      ∀ n < MAX_EMP_ID_ATTEMPTS, ¬ Unused db (generatedId db data disambiguator n)) := by
  constructor
  · intro hcreates
    by_contra hnot
    rw [not_or] at hnot
    obtain ⟨hused, hsome⟩ := hnot
    have hfree : ∃ n < MAX_EMP_ID_ATTEMPTS, Unused db (generatedId db data disambiguator n) := by
      by_contra hnone
      exact hsome fun n hn hfree => hnone ⟨n, hn, hfree⟩
    obtain ⟨created, row, htransaction, -⟩ := hcreates hfree
    rw [createUser_of_used h hused] at htransaction
    cases congrArg Prod.fst htransaction
  · rintro (hfirst | hnone) ⟨n, hn, hfree⟩
    · exact creates_of_unused h hfirst
    · exact absurd hfree (hnone n hn)

/-- A hash that is the password. -/
def plainHash (password : String) : String := password

/-- A user of the examples, with an `employee_id`. -/
def employee (username employeeId : String) : Employee where
  toUserRecord := createdRow plainHash username (auditor username (username ++ "@example.com"))
  employeeId := some employeeId
  roleId := none

/-- The disambiguators of the examples. -/
def someDisambiguators : ℕ → String
  | 0 => "A1B2C3"
  | _ => "D4E5F6"

/-- The first id is free: the number after those of the users. -/
theorem createUser_iff_free :
    Creates lowerAscii plainHash ⟨[employee "alice" "EMP-1001-A1B2C3"], [], [], []⟩
      (auditor "bob" "bob@example.com") "user-2" someDisambiguators :=
  (createUser_iff lowerAscii plainHash _ _ _ _ (by decide +kernel)).2 (Or.inl (by decide +kernel))
    ⟨0, by decide, by decide +kernel⟩

/-- Another transaction takes "EMP-1001-A1B2C3" after the `SELECT`. The second id is free, but no user is
created. -/
theorem conflict_not_retried :
    Unused ⟨[], [employee "alice" "EMP-1001-A1B2C3"], [], []⟩ "EMP-1001-D4E5F6" ∧
      transaction
          (createUser lowerAscii plainHash (auditor "bob" "bob@example.com") "user-2" someDisambiguators)
          ⟨[], [employee "alice" "EMP-1001-A1B2C3"], [], []⟩ =
        (.error abortedError, ⟨[], [employee "alice" "EMP-1001-A1B2C3"], [], []⟩) :=
  ⟨by decide +kernel, createUser_of_used (by decide +kernel) (by decide +kernel)⟩

end AlsaqiBackend.Users

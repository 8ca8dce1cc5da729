import AlsaqiBackend.Lib.Checks
import AlsaqiBackend.Lib.Run
import AlsaqiBackend.Passwords.Policy

/-!
# The password history

`changePassword` and `updatePassword` put the hash of the password that they replace into
`password_history`, and reject a new password that is one of the last five there. `approveReset`,
`resetPassword` and `updateUser` replace a password as well, and put nothing there. The calls for one user
come one after the other.

`notReused_iff_recorded` says when no accepted password is the current one, or one of the five before it:
exactly when none is a password that one of these three has replaced.
-/

namespace AlsaqiBackend.Passwords

open AlsaqiBackend.Lib

/-! ## The operations -/

/-- `bcrypt`, with a comparison that is exact. -/
structure Bcrypt where
  hash : String → String → String
  compare : String → String → Bool
  exact : ∀ salt password other, compare other (hash salt password) = true ↔ other = password

/-- A password that is no longer in force, and whether `password_history` has its hash. -/
structure PastPassword where
  password : String
  hash : String
  recorded : Bool
  deriving DecidableEq, Repr

/-- One user: the columns, and the passwords that they come from. -/
structure PasswordState where
  /-- The row of `user_management_settings`. -/
  settings : Option PolicySettings
  /-- `users.password`. -/
  password : String
  /-- The hashes of `password_history`, the last one first. -/
  history : List String
  /-- The password in force. -/
  current : String
  /-- Those before it, the last one first. -/
  past : List PastPassword
  deriving DecidableEq, Repr

inductive PasswordOp
  | changePassword (newPassword salt : String)
  | updatePassword (currentPassword newPassword salt : String)
  /-- `approveReset`, with what `crypto.randomBytes` gives. -/
  | approveReset (random salt : String)
  | resetPassword (newPassword salt : String)
  /-- `updateUser` with this password. -/
  | updateUser (password salt : String)
  /-- The settings change. -/
  | configure (settings : Option PolicySettings)
  deriving DecidableEq, Repr

variable (bcrypt : Bcrypt)

/-- A new password, with the hash of the old one put into `password_history` or not. -/
def PasswordState.replace (s : PasswordState) (recorded : Bool) (password salt : String) :
    PasswordState :=
  { s with
    password := bcrypt.hash salt password
    history := if recorded then s.password :: s.history else s.history
    current := password
    past := ⟨s.current, s.password, recorded⟩ :: s.past }

/-- One of the last five hashes is that of the password. -/
def inHistory (history : List String) (password : String) : Bool :=
  (history.take 5).any fun passwordHash => bcrypt.compare password passwordHash

def changePassword (s : PasswordState) (newPassword salt : String) : Except String PasswordState := do
  validatePasswordPolicy s.settings newPassword
  if bcrypt.compare newPassword s.password then
    throw "New password cannot be the same as the current password"
  if inHistory bcrypt s.history newPassword then
    throw "Password has been used previously. Please choose a different one."
  return s.replace bcrypt true newPassword salt

def updatePassword (s : PasswordState) (currentPassword newPassword salt : String) :
    Except String PasswordState := do
  if !bcrypt.compare currentPassword s.password then throw "Incorrect current password"
  if currentPassword = newPassword then
    throw "New password cannot be the same as the current password"
  validatePasswordPolicy s.settings newPassword
  if inHistory bcrypt s.history newPassword then
    throw "Password has been used previously. Please choose a different one."
  return s.replace bcrypt true newPassword salt

def resetPassword (s : PasswordState) (newPassword salt : String) : Except String PasswordState := do
  validatePasswordPolicy s.settings newPassword
  return s.replace bcrypt false newPassword salt

/-- What an operation does. `updateUser` without a password leaves it. -/
def perform (s : PasswordState) : PasswordOp → Except String PasswordState
  | .changePassword newPassword salt => changePassword bcrypt s newPassword salt
  | .updatePassword currentPassword newPassword salt =>
    updatePassword bcrypt s currentPassword newPassword salt
  | .approveReset random salt => .ok (s.replace bcrypt false (random ++ "!") salt)
  | .resetPassword newPassword salt => resetPassword bcrypt s newPassword salt
  | .updateUser password salt => if password = "" then .ok s else resetPassword bcrypt s password salt
  | .configure settings => .ok { s with settings }

/-- An operation that throws leaves the state. -/
def passwordStep (s : PasswordState) (op : PasswordOp) : Option PasswordState :=
  match perform bcrypt s op with
  | .ok t => some t
  | .error _ => some s

/-- A user with a first password. -/
def PasswordState.init (settings : Option PolicySettings) (password salt : String) : PasswordState where
  settings := settings
  password := bcrypt.hash salt password
  history := []
  current := password
  past := []

/-! ## The last five -/

/-- The five passwords before the one in force. -/
def PasswordState.lastFive (s : PasswordState) : List PastPassword := s.past.take 5

/-- The last five that `password_history` has. -/
def PasswordState.lastRecorded (s : PasswordState) : List PastPassword :=
  (s.past.filter fun past => past.recorded).take 5

/-- The password that a user chooses. -/
def PasswordOp.chosen : PasswordOp → Option String
  | .changePassword newPassword _ => some newPassword
  | .updatePassword _ newPassword _ => some newPassword
  | _ => none

/-- A password that a user chooses and the code accepts is not the one in force, and none of the five
before it. -/
def NotReused (s : PasswordState) (op : PasswordOp) : Prop :=
  ∀ password t, op.chosen = some password → perform bcrypt s op = .ok t →
    password ≠ s.current ∧ ∀ past ∈ s.lastFive, past.password ≠ password

/-- A password that meets the policy, and is neither the one in force nor one of the last five that are
recorded. -/
structure Fresh (s : PasswordState) (password : String) : Prop where
  policy : validatePasswordPolicy s.settings password = .ok ()
  current : password ≠ s.current
  recorded : ∀ past ∈ s.lastRecorded, past.password ≠ password

/-- A fresh password, for `updatePassword` with the right one in force, is none of those of the last five
that are not recorded. -/
def NotUnrecorded (s : PasswordState) : PasswordOp → Prop
  | .changePassword newPassword _ =>
    Fresh s newPassword → ∀ past ∈ s.lastFive, past.recorded = false → past.password ≠ newPassword
  | .updatePassword currentPassword newPassword _ =>
    currentPassword = s.current → Fresh s newPassword →
      ∀ past ∈ s.lastFive, past.recorded = false → past.password ≠ newPassword
  | _ => True

/-- The columns come from the passwords. -/
structure Hashed (s : PasswordState) : Prop where
  password : ∃ salt, s.password = bcrypt.hash salt s.current
  past : ∀ past ∈ s.past, ∃ salt, past.hash = bcrypt.hash salt past.password
  history : s.history = (s.past.filter fun past => past.recorded).map fun past => past.hash

variable {bcrypt} {s t : PasswordState} {newPassword salt : String}

theorem Hashed.replace (h : Hashed bcrypt s) (recorded : Bool) (newPassword salt : String) :
    Hashed bcrypt (s.replace bcrypt recorded newPassword salt) := by
  refine ⟨⟨salt, rfl⟩, ?_, ?_⟩
  · show ∀ past ∈ _ :: s.past, _
    rw [List.forall_mem_cons]
    exact ⟨h.password, h.past⟩
  · show (if recorded then s.password :: s.history else s.history) = _
    cases recorded with
    | true => rw [if_pos rfl, h.history]; rfl
    | false => rw [if_neg Bool.false_ne_true, h.history]; rfl

/-- A password compares with the column exactly when it is the one in force. -/
theorem Hashed.compare_current (h : Hashed bcrypt s) (password : String) :
    bcrypt.compare password s.password = true ↔ password = s.current := by
  obtain ⟨salt, hsalt⟩ := h.password
  rw [hsalt, bcrypt.exact]

/-- The history has a password exactly when it is one of the last five that are recorded. -/
theorem Hashed.inHistory_iff (h : Hashed bcrypt s) (password : String) :
    inHistory bcrypt s.history password = true ↔
      ∃ past ∈ s.lastRecorded, past.password = password := by
  unfold inHistory PasswordState.lastRecorded
  rw [h.history, ← List.map_take, List.any_map, List.any_eq_true]
  refine exists_congr fun past => and_congr_right fun hmem => ?_
  obtain ⟨salt, hsalt⟩ := h.past past (List.mem_filter.1 (List.mem_of_mem_take hmem)).1
  show bcrypt.compare password past.hash = true ↔ _
  rw [hsalt, bcrypt.exact, eq_comm]

theorem inHistory_eq_false_iff (h : Hashed bcrypt s) :
    inHistory bcrypt s.history newPassword = false ↔
      ∀ past ∈ s.lastRecorded, past.password ≠ newPassword := by
  rw [← Bool.not_eq_true, h.inHistory_iff, not_exists]
  exact forall_congr' fun past => not_and

/-- What is recorded among the last five is among the last five that are recorded. -/
theorem mem_lastRecorded {past : PastPassword} (hmem : past ∈ s.lastFive)
    (hrecorded : past.recorded = true) : past ∈ s.lastRecorded := by
  have hfiltered : past ∈ s.lastFive.filter fun past => past.recorded :=
    List.mem_filter.2 ⟨hmem, hrecorded⟩
  have hprefix : (s.lastFive.filter fun past => past.recorded) <+: s.past.filter fun past => past.recorded :=
    (List.take_prefix 5 s.past).filter _
  have hlength : (s.lastFive.filter fun past => past.recorded).length ≤ 5 :=
    (List.length_filter_le _ _).trans (List.length_take_le 5 s.past)
  unfold PasswordState.lastRecorded
  rw [List.prefix_iff_eq_take.1 hprefix] at hfiltered
  exact List.take_subset_take_left _ hlength hfiltered

/-- `changePassword` accepts exactly the fresh passwords. -/
theorem changePassword_eq_ok (h : Hashed bcrypt s) :
    changePassword bcrypt s newPassword salt = .ok t ↔
      Fresh s newPassword ∧ s.replace bcrypt true newPassword salt = t := by
  unfold changePassword
  simp only [bind_eq_ok, ite_throw_eq_ok, pure_eq_ok, Bool.not_eq_true]
  rw [inHistory_eq_false_iff h, ← Bool.not_eq_true, h.compare_current]
  constructor
  · rintro ⟨_, hpolicy, hcurrent, hrecorded, ht⟩
    exact ⟨⟨hpolicy, hcurrent, hrecorded⟩, ht⟩
  · rintro ⟨⟨hpolicy, hcurrent, hrecorded⟩, ht⟩
    exact ⟨_, hpolicy, hcurrent, hrecorded, ht⟩

/-- `updatePassword` accepts them from a user who gives the password in force. -/
theorem updatePassword_eq_ok (h : Hashed bcrypt s) {currentPassword : String} :
    updatePassword bcrypt s currentPassword newPassword salt = .ok t ↔
      currentPassword = s.current ∧ Fresh s newPassword ∧ s.replace bcrypt true newPassword salt = t := by
  unfold updatePassword
  simp only [bind_eq_ok, ite_throw_eq_ok, pure_eq_ok, Bool.not_eq_true, Bool.not_eq_true',
    Bool.not_eq_false]
  rw [inHistory_eq_false_iff h, h.compare_current]
  constructor
  · rintro ⟨rfl, hcurrent, _, hpolicy, hrecorded, ht⟩
    exact ⟨rfl, ⟨hpolicy, Ne.symm hcurrent, hrecorded⟩, ht⟩
  · rintro ⟨rfl, ⟨hpolicy, hcurrent, hrecorded⟩, ht⟩
    exact ⟨rfl, Ne.symm hcurrent, _, hpolicy, hrecorded, ht⟩

theorem resetPassword_eq_ok : resetPassword bcrypt s newPassword salt = .ok t ↔
    validatePasswordPolicy s.settings newPassword = .ok () ∧
      s.replace bcrypt false newPassword salt = t := by
  unfold resetPassword
  simp only [bind_eq_ok, pure_eq_ok]
  exact ⟨fun ⟨_, hpolicy, ht⟩ => ⟨hpolicy, ht⟩, fun ⟨hpolicy, ht⟩ => ⟨_, hpolicy, ht⟩⟩

/-- An operation changes the settings, if anything, or puts a new password in force. -/
theorem perform_cases {op : PasswordOp} (h : Hashed bcrypt s) (hop : perform bcrypt s op = .ok t) :
    (∃ settings, t = { s with settings }) ∨
      ∃ recorded newPassword salt, t = s.replace bcrypt recorded newPassword salt := by
  cases op with
  | changePassword newPassword salt =>
    obtain ⟨-, rfl⟩ := (changePassword_eq_ok h).1 hop
    exact Or.inr ⟨true, newPassword, salt, rfl⟩
  | updatePassword currentPassword newPassword salt =>
    obtain ⟨-, -, rfl⟩ := (updatePassword_eq_ok h).1 hop
    exact Or.inr ⟨true, newPassword, salt, rfl⟩
  | approveReset random salt =>
    obtain rfl := Except.ok.inj hop
    exact Or.inr ⟨false, random ++ "!", salt, rfl⟩
  | resetPassword newPassword salt =>
    obtain ⟨-, rfl⟩ := resetPassword_eq_ok.1 hop
    exact Or.inr ⟨false, newPassword, salt, rfl⟩
  | updateUser password salt =>
    unfold perform at hop
    dsimp only at hop
    split_ifs at hop
    · obtain rfl := Except.ok.inj hop
      exact Or.inl ⟨s.settings, rfl⟩
    · obtain ⟨-, rfl⟩ := resetPassword_eq_ok.1 hop
      exact Or.inr ⟨false, password, salt, rfl⟩
  | configure settings =>
    obtain rfl := Except.ok.inj hop
    exact Or.inl ⟨settings, rfl⟩

theorem passwordStep_hashed (s : PasswordState) (op : PasswordOp) (t : PasswordState)
    (h : Hashed bcrypt s) (hstep : passwordStep bcrypt s op = some t) : Hashed bcrypt t := by
  unfold passwordStep at hstep
  cases hop : perform bcrypt s op with
  | error e =>
    rw [hop] at hstep
    obtain rfl := Option.some.inj hstep
    exact h
  | ok u =>
    rw [hop] at hstep
    obtain rfl := Option.some.inj hstep
    rcases perform_cases h hop with ⟨settings, rfl⟩ | ⟨recorded, newPassword, salt, rfl⟩
    · exact ⟨h.password, h.past, h.history⟩
    · exact h.replace recorded newPassword salt

/-- A fresh password is none of the last five exactly when it is none of those that are not recorded. -/
theorem Fresh.forall_lastFive_iff (h : Fresh s newPassword) :
    (∀ past ∈ s.lastFive, past.password ≠ newPassword) ↔
      ∀ past ∈ s.lastFive, past.recorded = false → past.password ≠ newPassword := by
  refine forall₂_congr fun past hmem => ?_
  constructor
  · intro hne _
    exact hne
  · intro hunrecorded
    cases hrecorded : past.recorded with
    | true => exact h.recorded past (mem_lastRecorded hmem hrecorded)
    | false => exact hunrecorded hrecorded

/-- An operation keeps to the rule exactly when it chooses none of the passwords that are not recorded. -/
theorem notReused_iff (s : PasswordState) (op : PasswordOp) (h : Hashed bcrypt s) :
    NotReused bcrypt s op ↔ NotUnrecorded s op := by
  unfold NotReused NotUnrecorded
  cases op with
  | changePassword newPassword salt =>
    simp only [PasswordOp.chosen, perform, Option.some.injEq, changePassword_eq_ok h]
    constructor
    · intro hrule hfresh
      exact hfresh.forall_lastFive_iff.1 (hrule _ _ rfl ⟨hfresh, rfl⟩).2
    · rintro hunrecorded _ t rfl ⟨hfresh, -⟩
      exact ⟨hfresh.current, hfresh.forall_lastFive_iff.2 (hunrecorded hfresh)⟩
  | updatePassword currentPassword newPassword salt =>
    simp only [PasswordOp.chosen, perform, Option.some.injEq, updatePassword_eq_ok h]
    constructor
    · intro hrule hcurrent hfresh
      exact hfresh.forall_lastFive_iff.1 (hrule _ _ rfl ⟨hcurrent, hfresh, rfl⟩).2
    · rintro hunrecorded _ t rfl ⟨hcurrent, hfresh, -⟩
      exact ⟨hfresh.current, hfresh.forall_lastFive_iff.2 (hunrecorded hcurrent hfresh)⟩
  | _ => exact iff_of_true (fun _ _ hchosen => nomatch hchosen) trivial

/-- Over a run no accepted password is the one in force, or one of the five before it, exactly when none is
one of those five that the history does not have. -/
theorem notReused_iff_recorded (bcrypt : Bcrypt) (settings : Option PolicySettings)
    (password salt : String) (ops : List PasswordOp) :
    Guarded (passwordStep bcrypt) (NotReused bcrypt) (.init bcrypt settings password salt) ops ↔
      Guarded (passwordStep bcrypt) NotUnrecorded (.init bcrypt settings password salt) ops := by
  have hinit : Hashed bcrypt (.init bcrypt settings password salt) :=
    ⟨⟨salt, rfl⟩, fun _ hmem => (nomatch hmem), rfl⟩
  exact guarded_congr (fun s op t hs _ => passwordStep_hashed s op t hs) (fun s op _ hs _ => notReused_iff s op hs)
    ops hinit

/-- A hash that is the password. -/
def plainBcrypt : Bcrypt where
  hash _ password := password
  compare password passwordHash := password = passwordHash
  exact _ _ _ := decide_eq_true_iff

/-- An administrator resets the password "first password", and then the user changes it back. -/
theorem first_password_again :
    ∃ s t, run (passwordStep plainBcrypt) (.init plainBcrypt none "first password" "salt")
        [.resetPassword "second password" "salt"] = some s ∧
      changePassword plainBcrypt s "first password" "salt" = .ok t ∧
      s.lastFive = [⟨"first password", "first password", false⟩] :=
  ⟨_, _, rfl, rfl, rfl⟩

end AlsaqiBackend.Passwords

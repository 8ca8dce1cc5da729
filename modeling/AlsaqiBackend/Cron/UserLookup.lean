import AlsaqiBackend.Cron.Deadlines
import AlsaqiBackend.Lib.Checks
import AlsaqiBackend.Lib.OrderedMap
import AlsaqiBackend.Lib.Paging
import AlsaqiBackend.Lib.Statements

/-!
# Users by their names

The jobs look up the users of many names at once, in batches of 500 (`batchResolveUsersByName`), where a
request looks up one (`getUserIdByName`). The statement of a batch has the parameters `$1, …, $n` twice,
and each name is bound to it twice, so that PostgreSQL gets `2 * n` values for `n` parameters.

`batchResolve_eq`: a batched lookup with any name fails. `lookups_agree_iff`: it agrees with the single lookups
exactly when there is no name to look up, and no user has an empty one.
-/

namespace AlsaqiBackend.Cron

open Lib Lib.Statements

def BATCH_SIZE : ℕ := 500

/-! ## The table -/

inductive UserColumn where
  | name
  | username
  | status
  deriving DecidableEq, Repr

variable {K : Type}

def UserRow.columns (user : UserRow K) : UserColumn → Option String
  | .name => user.name
  | .username => user.username
  | .status => some user.status

/-- The table, and the order in which a query returns its rows. -/
structure UsersTable (K : Type) where
  users : List (UserRow K)
  arrange : List (UserRow K) → List (UserRow K)
  perm : ∀ rows, (arrange rows).Perm rows

/-- `db.prepare(…).all(…)`. -/
def UsersTable.all (db : UsersTable K) (condition : Condition UserColumn) (bound : List String) :
    Except BindError (List (UserRow K)) := do
  let rows ← select UserRow.columns (condition.number 1).1 bound db.users
  return db.arrange rows

/-- `db.prepare(…).get(…)`. -/
def UsersTable.get (db : UsersTable K) (condition : Condition UserColumn) (bound : List String) :
    Except BindError (Option (UserRow K)) := do
  let rows ← db.all condition bound
  return rows.head?

/-! ## One name -/

def NotificationService.getUserIdByName (db : UsersTable K) (name : String) : Except BindError (Option K) := do
  let user ← db.get (.or (.eq .name .question) (.eq .username .question)) [name, name]
  return user.map UserRow.id

def resolveLeadAuditorId (db : UsersTable K) (leadAuditor : Option String) : Except BindError (Option K) := do
  match leadAuditor with
  | none => return none
  | some leadAuditor =>
    if leadAuditor = "" then return none
    else
      let user ← db.get (.and (.or (.eq .name .question) (.eq .username .question))
        (.eq .status (.literal "Active"))) [leadAuditor, leadAuditor]
      return user.map UserRow.id

/-! ## Many names -/

/-- The batches begin at `0`, `BATCH_SIZE`, `2 * BATCH_SIZE`, and so on, below the number of items. -/
def processBatches {m : Type → Type} [Monad m] {T R : Type} (items : List T) (batchFn : List T → m (List R)) :
    m (List R) :=
  (List.range (Paging.pageCount BATCH_SIZE items.length)).foldlM (fun results i => do
    let batch := (items.drop (i * BATCH_SIZE)).take BATCH_SIZE
    let batchResults ← batchFn batch
    return results ++ batchResults) []

/-- `if (key) result.set(key, id);`. -/
def setTruthy (result : OrderedMap String K) (key : Option String) (id : K) : OrderedMap String K :=
  match key with
  | none => result
  | some key => if key = "" then result else result.set key id

/-- What the loop over the users of a batch does with one of them. -/
def setUser (result : OrderedMap String K) (user : UserRow K) : OrderedMap String K :=
  setTruthy (setTruthy result user.name user.id) user.username user.id

/-- The lookup of a batch, with the `WHERE` clause that is made of its placeholders. -/
def resolveBatch (db : UsersTable K) (condition : List Operand → Condition UserColumn) (batch : List String) :
    StateT (OrderedMap String K) (Except BindError) (List (UserRow K)) := do
  let placeholders := params batch.length
  -- Both lists of the clause have the same placeholders, and the names are bound twice.
  let users ← db.all (condition placeholders) (batch ++ batch)
  modify fun result => users.foldl setUser result
  return users

/-- `[...new Set(names.filter(Boolean))]`. -/
def uniqueNames (names : List String) : List String := (names.filter (· ≠ "")).eraseDups

def batchResolve (db : UsersTable K) (condition : List Operand → Condition UserColumn) (names : List String) :
    Except BindError (OrderedMap String K) := do
  if names.length = 0 then return OrderedMap.empty
  if (uniqueNames names).length = 0 then return OrderedMap.empty
  let (_, result) ← (processBatches (uniqueNames names) (resolveBatch db condition)).run OrderedMap.empty
  return result

def batchResolveUsersByName (db : UsersTable K) (names : List String) : Except BindError (OrderedMap String K) :=
  batchResolve db (fun placeholders => .or (.isIn .name placeholders) (.isIn .username placeholders)) names

def batchResolveActiveUsersByName (db : UsersTable K) (names : List String) :
    Except BindError (OrderedMap String K) :=
  batchResolve db (fun placeholders => .and (.or (.isIn .name placeholders) (.isIn .username placeholders))
    (.eq .status (.literal "Active"))) names

/-! ## When the two agree -/

/-- The user has the name, or the username. -/
def UserRow.goesBy (user : UserRow K) (name : String) : Bool := user.name = some name || user.username = some name

namespace UsersTable

/-- The users that a single lookup finds. -/
def matching (db : UsersTable K) (name : String) : List (UserRow K) := db.users.filter (·.goesBy name)

def activeMatching (db : UsersTable K) (name : String) : List (UserRow K) :=
  (db.matching name).filter (·.status = "Active")

end UsersTable

/-- For the names of exactly one user the batched lookup has what the single one has, and both find
nobody for the same names. -/
def Agrees (batched : Except BindError (OrderedMap String K)) (single : String → Except BindError (Option K))
    (matching : String → List (UserRow K)) (names : List String) : Prop :=
  ∃ result, batched = .ok result ∧ ∀ n ∈ names,
    ((matching n).length = 1 → single n = .ok (result.get n)) ∧ (result.get n = none ↔ single n = .ok none)

/-! ## The single lookups -/

variable {db : UsersTable K} {names : List String}

/-- The first of the users with the name. -/
theorem getUserIdByName_eq (name : String) : NotificationService.getUserIdByName db name =
    .ok ((db.arrange (db.matching name)).head?.map UserRow.id) := by
  -- The two question marks are `$1` and `$2`, and both have the name.
  have hrows : (db.users.filter fun row => (Condition.or (.eq .name (.param 1)) (.eq .username (.param 2))).holds
      [name, name] row.columns) = db.matching name := by
    refine List.filter_congr fun user _ => ?_
    simp only [Condition.holds, Operand.value, List.getElem?_cons_zero, List.getElem?_cons_succ, equal_some]
    rfl
  unfold UsersTable.matching at *
  rw [← hrows]
  rfl

/-- A user is found exactly when one goes by the name. -/
theorem getUserIdByName_eq_none_iff {name : String} : NotificationService.getUserIdByName db name = .ok none ↔
    ∀ user ∈ db.users, user.goesBy name = false := by
  have hperm := db.perm (db.matching name)
  rw [getUserIdByName_eq, Except.ok.injEq, Option.map_eq_none_iff, List.head?_eq_none_iff]
  constructor
  · intro hnil user huser
    rw [hnil] at hperm
    have hempty : db.matching name = [] := hperm.nil_eq.symm
    rw [Bool.eq_false_iff]
    exact List.filter_eq_nil_iff.1 hempty user huser
  · intro hnone
    have hempty : db.matching name = [] :=
      List.filter_eq_nil_iff.2 fun user huser => by rw [hnone user huser]; exact Bool.false_ne_true
    rw [hempty] at hperm ⊢
    exact hperm.eq_nil

/-! ## A statement of a batch -/

/-- The clause has the placeholders as its only parameters, and keeps their numbers. -/
structure BatchClause (condition : List Operand → Condition UserColumn) : Prop where
  number : ∀ n, ((condition (params n)).number 1).1 = condition (params n)
  highest : ∀ n, (condition (params n)).highest = n

theorem batchClause_users : BatchClause fun placeholders =>
    .or (.isIn .name placeholders) (.isIn .username placeholders) := by
  constructor
  · intro n
    simp only [Condition.number, numberAll_params]
  · intro n
    simp only [Condition.highest, highest_params, max_self]

theorem batchClause_activeUsers : BatchClause fun placeholders =>
    .and (.or (.isIn .name placeholders) (.isIn .username placeholders)) (.eq .status (.literal "Active")) := by
  constructor
  · intro n
    simp only [Condition.number, numberAll_params, Operand.number]
  · intro n
    simp only [Condition.highest, highest_params, max_self, Operand.highest]
    exact Nat.max_zero n

/-- Twice as many values are bound as there are parameters. -/
theorem all_batch {condition : List Operand → Condition UserColumn} (hcondition : BatchClause condition)
    {batch : List String} (hbatch : batch ≠ []) :
    db.all (condition (params batch.length)) (batch ++ batch) = .error ⟨2 * batch.length, batch.length⟩ := by
  have hlength : (batch ++ batch).length = 2 * batch.length := by
    rw [List.length_append]
    omega
  have hpos : 0 < batch.length := List.length_pos_iff.2 hbatch
  have hne : 2 * batch.length ≠ batch.length := by omega
  unfold UsersTable.all select
  rw [hcondition.number, hcondition.highest, hlength, if_neg hne]
  rfl

/-- Items are processed from their first batch on. -/
theorem processBatches_error {σ ε T R : Type} {items : List T} {batchFn : List T → StateT σ (Except ε) (List R)}
    {state : σ} {e : ε} (hitems : items ≠ []) (h : (batchFn (items.take BATCH_SIZE)).run state = .error e) :
    (processBatches items batchFn).run state = .error e := by
  have hpos : 0 < items.length := List.length_pos_iff.2 hitems
  -- There is a first batch, and an error of it is that of the loop.
  obtain ⟨n, hn⟩ : ∃ n, Paging.pageCount BATCH_SIZE items.length = n + 1 := by
    have hle : items.length ≤ Paging.pageCount BATCH_SIZE items.length * BATCH_SIZE :=
      Paging.le_pageCount_mul (by decide) items.length
    have hne : Paging.pageCount BATCH_SIZE items.length ≠ 0 := by
      intro hzero
      rw [hzero, Nat.zero_mul] at hle
      omega
    exact Nat.exists_eq_succ_of_ne_zero hne
  unfold processBatches
  rw [hn, List.range_succ_eq_map, List.foldlM_cons, Nat.zero_mul, List.drop_zero]
  simp only [StateT.run_bind, h]
  rfl

theorem uniqueNames_eq_nil_iff : uniqueNames names = [] ↔ ∀ n ∈ names, n = "" := by
  have hfilter : uniqueNames names = [] ↔ names.filter (· ≠ "") = [] := by
    unfold uniqueNames
    cases names.filter (· ≠ "") with
    | nil => exact Iff.rfl
    | cons first rest => simp [List.eraseDups_cons]
  rw [hfilter, List.filter_eq_nil_iff]
  simp

/-- A batched lookup of any name fails with its first statement, and one without a name finds nobody. -/
theorem batchResolve_eq {condition : List Operand → Condition UserColumn} (hcondition : BatchClause condition) :
    batchResolve db condition names =
      if uniqueNames names = [] then .ok OrderedMap.empty
      else .error ⟨2 * min BATCH_SIZE (uniqueNames names).length, min BATCH_SIZE (uniqueNames names).length⟩ := by
  by_cases hnone : uniqueNames names = []
  · have hlength : (uniqueNames names).length = 0 := List.length_eq_zero_iff.2 hnone
    rw [if_pos hnone]
    unfold batchResolve
    rw [if_pos hlength, ite_self]
    rfl
  · have hnames : names.length ≠ 0 := by
      intro hzero
      obtain rfl := List.length_eq_zero_iff.1 hzero
      exact hnone rfl
    have hunique : (uniqueNames names).length ≠ 0 := fun hzero => hnone (List.length_eq_zero_iff.1 hzero)
    -- The first batch has a name, and its statement is rejected.
    have hbatch : (uniqueNames names).take BATCH_SIZE ≠ [] := by
      intro hnil
      have hzero := congrArg List.length hnil
      rw [List.length_take, List.length_nil] at hzero
      unfold BATCH_SIZE at hzero
      omega
    have hfirst : (resolveBatch db condition ((uniqueNames names).take BATCH_SIZE)).run OrderedMap.empty =
        .error ⟨2 * min BATCH_SIZE (uniqueNames names).length, min BATCH_SIZE (uniqueNames names).length⟩ := by
      unfold resolveBatch
      dsimp only
      rw [all_batch hcondition hbatch, List.length_take]
      rfl
    rw [if_neg hnone]
    unfold batchResolve
    rw [if_neg hnames, if_neg hunique, processBatches_error hnone hfirst]
    rfl

/-! ## The users of a batch -/

theorem get_setTruthy (result : OrderedMap String K) (key : Option String) (id : K) {n : String} (hn : n ≠ "") :
    (setTruthy result key id).get n = if key = some n then some id else result.get n := by
  unfold setTruthy
  cases key with
  | none => rfl
  | some key =>
    dsimp only
    split_ifs with hempty hkey hkey
    · exact absurd ((Option.some.inj hkey).symm.trans hempty) hn
    · rfl
    · rw [OrderedMap.get_set, if_pos (Option.some.inj hkey).symm]
    · rw [OrderedMap.get_set, if_neg fun heq => hkey (congrArg some heq.symm)]

theorem get_setUser (result : OrderedMap String K) (user : UserRow K) {n : String} (hn : n ≠ "") :
    (setUser result user).get n = if user.goesBy n then some user.id else result.get n := by
  unfold setUser UserRow.goesBy
  rw [get_setTruthy _ _ _ hn, get_setTruthy _ _ _ hn]
  by_cases husername : user.username = some n
  · simp [husername]
  · by_cases hname : user.name = some n
    · simp [husername, hname]
    · simp [husername, hname]

/-- Of the users that go by a name, the last one has it. -/
theorem get_foldl_setUser (users : List (UserRow K)) (result : OrderedMap String K) {n : String} (hn : n ≠ "") :
    (users.foldl setUser result).get n =
      ((users.reverse.find? (·.goesBy n)).map UserRow.id).or (result.get n) := by
  -- A later user overwrites what an earlier one has set.
  induction users generalizing result with
  | nil => simp
  | cons user users ih =>
    rw [List.foldl_cons, ih, get_setUser result user hn, List.reverse_cons, List.find?_append, Option.map_or,
      Option.or_assoc]
    congr 1
    by_cases hgoes : user.goesBy n
    · simp [hgoes]
    · simp [hgoes]

/-! ## The exact condition -/

theorem get_empty (n : String) : (OrderedMap.empty : OrderedMap String K).get n = none := rfl

/-- The batched lookups agree with the single ones exactly when there is no name to look up, and nobody
has an empty name where one is asked for. -/
theorem lookups_agree_iff (db : UsersTable K) (names : List String) :
    Agrees (batchResolveUsersByName db names) (NotificationService.getUserIdByName db) db.matching names ∧
        Agrees (batchResolveActiveUsersByName db names) (fun n => resolveLeadAuditorId db (some n))
          db.activeMatching names ↔
      (∀ n ∈ names, n = "") ∧ (names ≠ [] → ∀ user ∈ db.users, user.goesBy "" = false) := by
  unfold batchResolveUsersByName batchResolveActiveUsersByName
  rw [batchResolve_eq batchClause_users, batchResolve_eq batchClause_activeUsers]
  by_cases hnone : uniqueNames names = []
  · have hempty : ∀ n ∈ names, n = "" := uniqueNames_eq_nil_iff.1 hnone
    rw [if_pos hnone]
    constructor
    -- The batched lookup finds nobody, so that the single one of the empty name has to.
    · rintro ⟨⟨result, hresult, hagree⟩, -⟩
      obtain rfl := Except.ok.inj hresult
      refine ⟨hempty, fun hnames => ?_⟩
      obtain ⟨n, hn⟩ := List.exists_mem_of_ne_nil names hnames
      have hnobody := (hagree n hn).2.1 (get_empty n)
      rw [hempty n hn] at hnobody
      exact getUserIdByName_eq_none_iff.1 hnobody
    · rintro ⟨-, hnobody⟩
      refine ⟨⟨_, rfl, fun n hn => ?_⟩, ⟨_, rfl, fun n hn => ?_⟩⟩
      · have hsingle : NotificationService.getUserIdByName db n = .ok none :=
          getUserIdByName_eq_none_iff.2 (hempty n hn ▸ hnobody (List.ne_nil_of_mem hn))
        exact ⟨fun _ => hsingle, iff_of_true (get_empty n) hsingle⟩
      -- `resolveLeadAuditorId` does not look up an empty name.
      · have hsingle : resolveLeadAuditorId db (some n) = .ok none := by
          rw [hempty n hn]
          rfl
        exact ⟨fun _ => hsingle, iff_of_true (get_empty n) hsingle⟩
  · rw [if_neg hnone]
    refine iff_of_false ?_ fun h => hnone (uniqueNames_eq_nil_iff.2 h.1)
    rintro ⟨⟨result, hresult, -⟩, -⟩
    cases hresult

/-- One user. -/
def singleUser : UsersTable ℕ := ⟨[⟨1, some "Full Name", some "username", "Auditor", "Active"⟩], id, fun _ => .refl _⟩

/-- The user is found alone, and the batch is rejected: two values for one parameter. -/
theorem batch_rejected :
    NotificationService.getUserIdByName singleUser "username" = .ok (some 1) ∧
      batchResolveUsersByName singleUser ["username"] = .error ⟨2, 1⟩ ∧
      ¬ Agrees (batchResolveUsersByName singleUser ["username"]) (NotificationService.getUserIdByName singleUser)
        singleUser.matching ["username"] := by
  have hrejected : batchResolveUsersByName singleUser ["username"] = .error ⟨2, 1⟩ := by
    unfold batchResolveUsersByName
    rw [batchResolve_eq batchClause_users, if_neg (by decide)]
    rfl
  refine ⟨by decide +kernel, hrejected, ?_⟩
  rw [hrejected]
  rintro ⟨result, hresult, -⟩
  cases hresult

end AlsaqiBackend.Cron

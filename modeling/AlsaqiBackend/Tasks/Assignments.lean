import AlsaqiBackend.Lib.Modify
import AlsaqiBackend.Lib.Run

/-!
# Assignments of users to tasks

`assignUsers` reads the role of the caller, the task and the users, and then inserts its rows in one transaction,
each after a `SELECT` that looks for it. Other calls, and the removals of `unassignUser`, run between its
statements. At `READ COMMITTED` a `SELECT` does not see the rows that another transaction has inserted and not yet
committed; the unique index on the task and the user makes an `INSERT` of such a row wait, and refuses one of a
committed row.

`assignments_sound` says what holds after every run: no user is assigned twice to a task, the rows that were
inserted and not removed are exactly those of the calls that have returned, and such a call has returned one row for
each of its users. A call that throws has left nothing.
-/

namespace AlsaqiBackend.Tasks

open AlsaqiBackend.Lib

variable {Id User Task : Type*}

/-- The columns of `task_assignments` that are written here. -/
structure Assignment (Id User Task : Type*) where
  id : Id
  taskId : Task
  userId : User
  assignedBy : User

/-- The columns of the unique index. -/
def Assignment.key (row : Assignment Id User Task) : Task × User := (row.taskId, row.userId)

inductive AssignError (User : Type*) where
  /-- The list of users is empty or has more than 50. -/
  | validation
  | noAssigner
  | forbidden
  | noTask
  | missingUserIds (ids : List User)
  | conflict (userId : User)
  | noAssignment
  /-- A statement has failed. -/
  | database

/-- Where a call of `assignUsers` is. -/
inductive AssignPhase (Id User Task : Type*) where
  | selectAssigner
  | selectTask
  | selectUsers
  /-- In the transaction, with the users that are left and the rows that were inserted; `selected` tells that the
  `SELECT` for the next user has found nothing. -/
  | inserting (left : List User) (selected : Bool) (results : List (Assignment Id User Task))
  | returned (assignments : List (Assignment Id User Task))
  | threw (error : AssignError User)

/-- A call, with `uniqueUserIds`. -/
structure AssignCall (Id User Task : Type*) where
  taskId : Task
  uniqueUserIds : List User
  assignedBy : User
  phase : AssignPhase Id User Task

/-- Where a call of `unassignUser` is. -/
inductive UnassignPhase (User : Type*) where
  | selectRemover
  | selectAssignment
  | delete
  | returned
  | threw (error : AssignError User)

structure UnassignCall (User Task : Type*) where
  taskId : Task
  userId : User
  removedBy : User
  phase : UnassignPhase User

/-- `role` is the role of a user in `users`. `removed` has the rows that were deleted. -/
structure AssignState (Id User Task : Type*) where
  role : User → Option String
  isTask : Task → Bool
  rows : List (Assignment Id User Task)
  removed : List (Assignment Id User Task)
  calls : List (AssignCall Id User Task)
  removals : List (UnassignCall User Task)

inductive AssignAction (Id User Task : Type*) where
  | assignUsers (taskId : Task) (userIds : List User) (assignedBy : User)
  /-- The next statement of a call; an inserted row gets this id. -/
  | advance (i : ℕ) (id : Id)
  /-- A statement of a call fails; a transaction is rolled back. -/
  | fail (i : ℕ)
  | unassignUser (taskId : Task) (userId removedBy : User)
  | advanceRemoval (i : ℕ)
  | failRemoval (i : ℕ)
  /-- Users and tasks change, and a task that is deleted takes its rows with it. -/
  | change (role : User → Option String) (isTask : Task → Bool)

/-- The rows of a transaction that is not committed. -/
def AssignCall.pending (call : AssignCall Id User Task) : List (Assignment Id User Task) :=
  match call.phase with
  | .inserting _ _ results => results
  | _ => []

/-- The rows that a call has returned. -/
def AssignCall.assigned (call : AssignCall Id User Task) : List (Assignment Id User Task) :=
  match call.phase with
  | .returned assignments => assignments
  | _ => []

def AssignCall.to (call : AssignCall Id User Task) (phase : AssignPhase Id User Task) : AssignCall Id User Task :=
  { call with phase := phase }

/-- `[UserRole.MANAGER, UserRole.ADMIN]`. -/
def assignRoles : List String := ["Manager", "Admin"]

namespace AssignState

def init (role : User → Option String) (isTask : Task → Bool) : AssignState Id User Task :=
  ⟨role, isTask, [], [], [], []⟩

def setCall (s : AssignState Id User Task) (i : ℕ) (call : AssignCall Id User Task) : AssignState Id User Task :=
  { s with calls := s.calls.set i call }

def setRemoval (s : AssignState Id User Task) (i : ℕ) (removal : UnassignCall User Task)
    (phase : UnassignPhase User) : AssignState Id User Task :=
  { s with removals := s.removals.set i { removal with phase := phase } }

def deleteRows (s : AssignState Id User Task) (p : Assignment Id User Task → Bool) : AssignState Id User Task :=
  { s with
    rows := s.rows.filter fun row => !p row
    removed := s.removed ++ s.rows.filter p }

section Steps

variable [DecidableEq User] [DecidableEq Task]

/-- The next statement of a call, where that is possible. -/
def advance (s : AssignState Id User Task) (i : ℕ) (id : Id) (call : AssignCall Id User Task) :
    Option (AssignState Id User Task) :=
  match call.phase with
  | .selectAssigner =>
    match s.role call.assignedBy with
    | none => some (s.setCall i (call.to (.threw .noAssigner)))
    | some role =>
      some (s.setCall i (call.to (if role ∈ assignRoles then .selectTask else .threw .forbidden)))
  | .selectTask =>
    some (s.setCall i (call.to (if s.isTask call.taskId then .selectUsers else .threw .noTask)))
  | .selectUsers =>
    let missing := call.uniqueUserIds.filter fun userId => (s.role userId).isNone
    some (s.setCall i (call.to
      (if missing = [] then .inserting call.uniqueUserIds false [] else .threw (.missingUserIds missing))))
  | .inserting (userId :: left) false results =>
    -- The `SELECT` sees the committed rows and those of its own transaction.
    if (call.taskId, userId) ∈ (s.rows ++ results).map Assignment.key then
      some (s.setCall i (call.to (.threw (.conflict userId))))
    else some (s.setCall i (call.to (.inserting (userId :: left) true results)))
  | .inserting (userId :: left) true results =>
    if (s.role userId).isNone ∨ s.isTask call.taskId = false ∨
        (call.taskId, userId) ∈ (s.rows ++ results).map Assignment.key then
      some (s.setCall i (call.to (.threw .database)))
    else if (call.taskId, userId) ∈ (s.calls.flatMap AssignCall.pending).map Assignment.key then
      -- It waits for the end of the transaction that has inserted the row.
      none
    else
      some (s.setCall i (call.to (.inserting left false (results ++ [⟨id, call.taskId, userId, call.assignedBy⟩]))))
  | .inserting [] _ results =>
    some { s.setCall i (call.to (.returned results)) with rows := s.rows ++ results }
  | .returned _ => none
  | .threw _ => none

def advanceRemoval (s : AssignState Id User Task) (i : ℕ) (removal : UnassignCall User Task) :
    Option (AssignState Id User Task) :=
  match removal.phase with
  | .selectRemover =>
    match s.role removal.removedBy with
    | none => some (s.setRemoval i removal (.threw .forbidden))
    | some role =>
      some (s.setRemoval i removal (if role ∈ assignRoles then .selectAssignment else .threw .forbidden))
  | .selectAssignment =>
    some (s.setRemoval i removal
      (if (removal.taskId, removal.userId) ∈ s.rows.map Assignment.key then .delete else .threw .noAssignment))
  | .delete =>
    some ((s.setRemoval i removal .returned).deleteRows fun row => row.key = (removal.taskId, removal.userId))
  | .returned => none
  | .threw _ => none

/-- `assignUsers` up to its first statement. -/
def assignUsers (s : AssignState Id User Task) (taskId : Task) (userIds : List User) (assignedBy : User) :
    AssignState Id User Task :=
  let phase := if userIds.length = 0 ∨ 50 < userIds.length then .threw .validation else .selectAssigner
  { s with calls := s.calls ++ [⟨taskId, userIds.eraseDups, assignedBy, phase⟩] }

def step (s : AssignState Id User Task) : AssignAction Id User Task → Option (AssignState Id User Task)
  | .assignUsers taskId userIds assignedBy => some (s.assignUsers taskId userIds assignedBy)
  | .advance i id => s.calls[i]?.bind (s.advance i id)
  | .fail i =>
    s.calls[i]?.bind fun call =>
      match call.phase with
      | .returned _ | .threw _ => none
      | _ => some (s.setCall i (call.to (.threw .database)))
  | .unassignUser taskId userId removedBy =>
    some { s with removals := s.removals ++ [⟨taskId, userId, removedBy, .selectRemover⟩] }
  | .advanceRemoval i => s.removals[i]?.bind (s.advanceRemoval i)
  | .failRemoval i =>
    s.removals[i]?.bind fun removal =>
      match removal.phase with
      | .returned | .threw _ => none
      | _ => some (s.setRemoval i removal (.threw .database))
  | .change role isTask =>
    -- The deletion of a task waits for a transaction that has inserted a row of it.
    if (s.calls.flatMap AssignCall.pending).all fun row => isTask row.taskId then
      some { s.deleteRows (fun row => !isTask row.taskId) with role := role, isTask := isTask }
    else none

end Steps

/-! ## The invariant -/

/-- The rows of a call are those that it was asked for: all of them once it has returned. -/
def Faithful (call : AssignCall Id User Task) : Prop :=
  match call.phase with
  | .inserting left _ results => results.map (·.userId) ++ left = call.uniqueUserIds ∧
      ∀ row ∈ results, row.taskId = call.taskId ∧ row.assignedBy = call.assignedBy
  | .returned results => results.map (·.userId) = call.uniqueUserIds ∧
      ∀ row ∈ results, row.taskId = call.taskId ∧ row.assignedBy = call.assignedBy
  | _ => True

/-- The unique index holds for the committed rows and those of the open transactions together. -/
structure Inv (s : AssignState Id User Task) : Prop where
  keys : ((s.rows ++ s.calls.flatMap AssignCall.pending).map Assignment.key).Nodup
  accounted : (s.rows ++ s.removed).Perm (s.calls.flatMap AssignCall.assigned)
  faithful : ∀ call ∈ s.calls, Faithful call

theorem init_inv (role : User → Option String) (isTask : Task → Bool) :
    (init role isTask : AssignState Id User Task).Inv where
  keys := List.nodup_nil
  accounted := List.Perm.nil
  faithful call h := by cases h

variable {s : AssignState Id User Task} {i : ℕ} {call call' : AssignCall Id User Task}

/-- A call moves on: rows are dropped, inserted or committed, and what is new has other keys. -/
theorem Inv.move {rows d e : List (Assignment Id User Task)} (h : s.Inv) (hi : s.calls[i]? = some call)
    (hkeys : (rows ++ call'.pending ++ d).Perm (s.rows ++ call.pending ++ e))
    (hassigned : (rows ++ call.assigned).Perm (s.rows ++ call'.assigned))
    (hnew : ((s.rows ++ s.calls.flatMap AssignCall.pending ++ e).map Assignment.key).Nodup)
    (hfaithful : Faithful call') : ({ s.setCall i call' with rows := rows } : AssignState Id User Task).Inv where
  keys := by
    classical
    have hset := flatMap_set_perm (y := call') AssignCall.pending hi
    have hall : (rows ++ (s.calls.set i call').flatMap AssignCall.pending ++ d).Perm
        (s.rows ++ s.calls.flatMap AssignCall.pending ++ e) := by
      refine List.perm_iff_count.2 fun r => ?_
      have hcount := hset.count_eq r
      have hcountKeys := hkeys.count_eq r
      simp only [List.count_append] at hcount hcountKeys ⊢
      omega
    have hnodup := (hall.map Assignment.key).nodup_iff.2 hnew
    rw [List.map_append] at hnodup
    exact hnodup.of_append_left
  accounted := by
    classical
    show (rows ++ s.removed).Perm ((s.calls.set i call').flatMap AssignCall.assigned)
    have hset := flatMap_set_perm (y := call') AssignCall.assigned hi
    refine List.perm_iff_count.2 fun r => ?_
    have hcount := hset.count_eq r
    have hcountAssigned := hassigned.count_eq r
    have haccounted := h.accounted.count_eq r
    simp only [List.count_append] at hcount hcountAssigned haccounted ⊢
    omega
  faithful := by
    intro other hother
    rcases List.mem_or_eq_of_mem_set hother with hother | rfl
    · exact h.faithful other hother
    · exact hfaithful

/-- A step that inserts and commits nothing. When the call throws, the rows of its transaction are dropped. -/
theorem Inv.setCall {d : List (Assignment Id User Task)} (h : s.Inv) (hi : s.calls[i]? = some call)
    (hpending : call.pending = call'.pending ++ d) (hassigned : call'.assigned = call.assigned)
    (hfaithful : Faithful call') : (s.setCall i call').Inv := by
  refine h.move (d := d) (e := []) hi ?_ ?_ ?_ hfaithful
  · rw [hpending, List.append_nil, List.append_assoc]
  · rw [hassigned]
  · rw [List.append_nil]
    exact h.keys

/-- A row is inserted whose columns no committed and no pending row has. -/
theorem Inv.insert {r : Assignment Id User Task} (h : s.Inv) (hi : s.calls[i]? = some call)
    (hpending : call'.pending = call.pending ++ [r]) (hassigned : call'.assigned = call.assigned)
    (hfaithful : Faithful call')
    (hnew : r.key ∉ (s.rows ++ s.calls.flatMap AssignCall.pending).map Assignment.key) :
    (s.setCall i call').Inv := by
  refine h.move (d := []) (e := [r]) hi ?_ ?_ ?_ hfaithful
  · rw [hpending, List.append_nil, List.append_assoc]
  · rw [hassigned]
  · rw [List.map_append, List.map_singleton, ← List.concat_eq_append]
    exact h.keys.concat hnew

/-- The rows of a transaction are committed, and the call returns them. -/
theorem Inv.commit {results : List (Assignment Id User Task)} (h : s.Inv) (hi : s.calls[i]? = some call)
    (hpending : call.pending = results) (hassigned : call.assigned = [])
    (hfaithful : Faithful (call.to (.returned results))) :
    ({ s.setCall i (call.to (.returned results)) with
      rows := s.rows ++ results } : AssignState Id User Task).Inv := by
  have hnone : (call.to (.returned results)).pending = [] := rfl
  have hall : (call.to (.returned results)).assigned = results := rfl
  refine h.move (d := []) (e := []) hi ?_ ?_ ?_ hfaithful
  · rw [hpending, hnone, List.append_nil]
  · rw [hassigned, hall, List.append_nil]
  · rw [List.append_nil]
    exact h.keys

/-- Rows that are deleted are accounted for. -/
theorem Inv.deleteRows (h : s.Inv) (p : Assignment Id User Task → Bool) : (s.deleteRows p).Inv where
  keys := by
    have hsub : (s.rows.filter fun row => !p row).Sublist s.rows := List.filter_sublist
    exact h.keys.sublist ((hsub.append_right _).map Assignment.key)
  accounted := by
    have hsplit := List.filter_append_perm p s.rows
    refine List.Perm.trans ?_ h.accounted
    show ((s.rows.filter fun row => !p row) ++ (s.removed ++ s.rows.filter p)).Perm (s.rows ++ s.removed)
    rw [← List.append_assoc]
    refine List.perm_append_comm.trans ?_
    rw [← List.append_assoc]
    exact hsplit.append_right s.removed
  faithful := h.faithful

variable [DecidableEq User] [DecidableEq Task]

/-- The next statement of a call keeps the invariant. -/
theorem Inv.advance {t : AssignState Id User Task} {id : Id} (h : s.Inv) (hi : s.calls[i]? = some call)
    (hadvance : s.advance i id call = some t) : t.Inv := by
  have hfaithful : Faithful call := h.faithful call (List.mem_of_getElem? hi)
  obtain ⟨taskId, uniqueUserIds, assignedBy, phase⟩ := call
  -- Before the transaction a call has no rows, and goes on without any.
  have hbefore : ∀ next : AssignPhase Id User Task,
      (AssignCall.mk taskId uniqueUserIds assignedBy phase).pending = [] →
      (AssignCall.mk taskId uniqueUserIds assignedBy phase).assigned = [] →
      (AssignCall.mk taskId uniqueUserIds assignedBy next).pending = [] →
      (AssignCall.mk taskId uniqueUserIds assignedBy next).assigned = [] →
      Faithful (AssignCall.mk taskId uniqueUserIds assignedBy next) →
      (s.setCall i ⟨taskId, uniqueUserIds, assignedBy, next⟩).Inv := by
    intro next hpending hassigned hpending' hassigned' hnext
    refine h.setCall (d := []) hi ?_ (hassigned'.trans hassigned.symm) hnext
    rw [hpending, hpending', List.append_nil]
  cases phase with
  | selectAssigner =>
    simp only [AssignState.advance] at hadvance
    split at hadvance
    · obtain rfl := Option.some.inj hadvance
      exact hbefore _ rfl rfl rfl rfl trivial
    · obtain rfl := Option.some.inj hadvance
      split <;> exact hbefore _ rfl rfl rfl rfl trivial
  | selectTask =>
    simp only [AssignState.advance, Option.some.injEq] at hadvance
    subst hadvance
    split <;> exact hbefore _ rfl rfl rfl rfl trivial
  | selectUsers =>
    simp only [AssignState.advance, Option.some.injEq] at hadvance
    subst hadvance
    split
    · exact hbefore _ rfl rfl rfl rfl ⟨rfl, by simp⟩
    · exact hbefore _ rfl rfl rfl rfl trivial
  | inserting left selected results =>
    cases left with
    | nil =>
      simp only [AssignState.advance, Option.some.injEq] at hadvance
      subst hadvance
      have hdone : results.map (·.userId) = uniqueUserIds := by
        have hall := hfaithful.1
        rwa [List.append_nil] at hall
      exact h.commit hi rfl rfl ⟨hdone, hfaithful.2⟩
    | cons userId left =>
      cases selected with
      | false =>
        simp only [AssignState.advance] at hadvance
        split at hadvance
        · obtain rfl := Option.some.inj hadvance
          exact h.setCall (d := results) hi rfl rfl trivial
        · obtain rfl := Option.some.inj hadvance
          exact h.setCall (d := []) hi (List.append_nil results).symm rfl hfaithful
      | true =>
        simp only [AssignState.advance] at hadvance
        split at hadvance
        · obtain rfl := Option.some.inj hadvance
          exact h.setCall (d := results) hi rfl rfl trivial
        split at hadvance
        · cases hadvance
        · rename_i hown hother
          obtain rfl := Option.some.inj hadvance
          have hall :
              (results ++ [Assignment.mk id taskId userId assignedBy]).map (·.userId) ++ left = uniqueUserIds := by
            rw [List.map_append, List.append_assoc]
            exact hfaithful.1
          refine h.insert (r := ⟨id, taskId, userId, assignedBy⟩) hi rfl rfl ⟨hall, fun row hrow => ?_⟩ ?_
          · rcases List.mem_append.1 hrow with hrow | hrow
            · exact hfaithful.2 row hrow
            · obtain rfl := List.mem_singleton.1 hrow
              exact ⟨rfl, rfl⟩
          · rw [List.map_append, List.mem_append]
            rintro (hmem | hmem)
            · exact hown (Or.inr (Or.inr (by
                rw [List.map_append]
                exact List.mem_append_left _ hmem)))
            · exact hother hmem
  | returned results => cases hadvance
  | threw error => cases hadvance

/-- A removal deletes the row of its user and keeps the other ones. -/
theorem Inv.advanceRemoval {t : AssignState Id User Task} {removal : UnassignCall User Task} (h : s.Inv)
    (hadvance : s.advanceRemoval i removal = some t) : t.Inv := by
  obtain ⟨taskId, userId, removedBy, phase⟩ := removal
  have hsame : ∀ phase', (s.setRemoval i ⟨taskId, userId, removedBy, phase⟩ phase').Inv :=
    fun _ => ⟨h.keys, h.accounted, h.faithful⟩
  cases phase with
  | selectRemover =>
    simp only [AssignState.advanceRemoval] at hadvance
    split at hadvance
    · exact Option.some.inj hadvance ▸ hsame _
    · exact Option.some.inj hadvance ▸ hsame _
  | selectAssignment => exact Option.some.inj hadvance ▸ hsame _
  | delete =>
    simp only [AssignState.advanceRemoval, Option.some.injEq] at hadvance
    subst hadvance
    exact (hsame _).deleteRows _
  | returned => cases hadvance
  | threw error => cases hadvance

theorem step_inv {t : AssignState Id User Task} {action : AssignAction Id User Task} (h : s.Inv)
    (hstep : s.step action = some t) : t.Inv := by
  cases action with
  | assignUsers taskId userIds assignedBy =>
    obtain rfl := Option.some.inj hstep
    have hnew : ∀ call : AssignCall Id User Task, call.pending = [] → call.assigned = [] → Faithful call →
        ({ s with calls := s.calls ++ [call] } : AssignState Id User Task).Inv := by
      intro call hpending hassigned hfaithful
      refine ⟨?_, ?_, ?_⟩
      · simpa [hpending] using h.keys
      · simpa [hassigned] using h.accounted
      · intro other hother
        rcases List.mem_append.1 hother with hother | hother
        · exact h.faithful other hother
        · obtain rfl := List.mem_singleton.1 hother
          exact hfaithful
    unfold AssignState.assignUsers
    split <;> exact hnew _ rfl rfl trivial
  | advance i id =>
    obtain ⟨call, hi, hadvance⟩ := Option.bind_eq_some_iff.1 hstep
    exact h.advance hi hadvance
  | fail i =>
    obtain ⟨call, hi, hfail⟩ := Option.bind_eq_some_iff.1 hstep
    have hdrop : call.assigned = [] → (s.setCall i (call.to (.threw .database))).Inv :=
      fun hassigned => h.setCall (d := call.pending) hi rfl hassigned.symm trivial
    obtain ⟨taskId, uniqueUserIds, assignedBy, phase⟩ := call
    cases phase with
    | selectAssigner => exact Option.some.inj hfail ▸ hdrop rfl
    | selectTask => exact Option.some.inj hfail ▸ hdrop rfl
    | selectUsers => exact Option.some.inj hfail ▸ hdrop rfl
    | inserting left selected results => exact Option.some.inj hfail ▸ hdrop rfl
    | returned results => cases hfail
    | threw error => cases hfail
  | unassignUser taskId userId removedBy =>
    obtain rfl := Option.some.inj hstep
    exact ⟨h.keys, h.accounted, h.faithful⟩
  | advanceRemoval i =>
    obtain ⟨removal, -, hadvance⟩ := Option.bind_eq_some_iff.1 hstep
    exact h.advanceRemoval hadvance
  | failRemoval i =>
    obtain ⟨removal, -, hfail⟩ := Option.bind_eq_some_iff.1 hstep
    have hsame : (s.setRemoval i removal (.threw .database)).Inv := ⟨h.keys, h.accounted, h.faithful⟩
    obtain ⟨taskId, userId, removedBy, phase⟩ := removal
    cases phase with
    | selectRemover => exact Option.some.inj hfail ▸ hsame
    | selectAssignment => exact Option.some.inj hfail ▸ hsame
    | delete => exact Option.some.inj hfail ▸ hsame
    | returned => cases hfail
    | threw error => cases hfail
  | change role isTask =>
    simp only [AssignState.step, Option.ite_none_right_eq_some, Option.some.injEq] at hstep
    obtain ⟨-, rfl⟩ := hstep
    have hdeleted := h.deleteRows fun row => !isTask row.taskId
    exact ⟨hdeleted.keys, hdeleted.accounted, hdeleted.faithful⟩

end AssignState

/-- After every run of calls whose statements interleave, no user is assigned twice to a task, the rows that are
there or were removed are those that calls have returned, each of them once, and a call that has returned has one row
for each of its users. -/
theorem assignments_sound [DecidableEq User] [DecidableEq Task] {role : User → Option String}
    {isTask : Task → Bool} {actions : List (AssignAction Id User Task)} {s : AssignState Id User Task}
    (hrun : run AssignState.step (.init role isTask) actions = some s) :
    (s.rows.map Assignment.key).Nodup ∧ (s.rows ++ s.removed).Perm (s.calls.flatMap AssignCall.assigned) ∧
      ∀ call ∈ s.calls, ∀ results, call.phase = .returned results →
        results.map (·.userId) = call.uniqueUserIds ∧
          ∀ row ∈ results, row.taskId = call.taskId ∧ row.assignedBy = call.assignedBy := by
  have hinv : s.Inv := run_invariant (fun _ _ _ => AssignState.step_inv) (AssignState.init_inv role isTask) hrun
  refine ⟨?_, hinv.accounted, fun call hcall results hphase => ?_⟩
  · have hkeys := hinv.keys
    rw [List.map_append] at hkeys
    exact hkeys.of_append_left
  · have hfaithful := hinv.faithful call hcall
    unfold AssignState.Faithful at hfaithful
    rw [hphase] at hfaithful
    exact hfaithful

/-- Two managers assign the same user: the second call has looked for the row before the first one inserts it. -/
def concurrentAssignments : List (AssignAction ℕ ℕ ℕ) :=
  [.assignUsers 0 [1, 2] 8, .assignUsers 0 [2] 9, .advance 0 0, .advance 0 0, .advance 0 0, .advance 1 0,
    .advance 1 0, .advance 1 0, .advance 0 0, .advance 0 100, .advance 0 0, .advance 1 0, .advance 0 101,
    .advance 0 0, .advance 1 102]

theorem concurrentAssignments_sound : ∃ s,
    run AssignState.step (.init (fun _ => some "Manager") fun _ => true) concurrentAssignments = some s ∧
      (s.rows.map Assignment.key).Nodup ∧ (s.rows ++ s.removed).Perm (s.calls.flatMap AssignCall.assigned) ∧
        ∀ call ∈ s.calls, ∀ results, call.phase = .returned results →
          results.map (·.userId) = call.uniqueUserIds ∧
            ∀ row ∈ results, row.taskId = call.taskId ∧ row.assignedBy = call.assignedBy := by
  have hrun : run AssignState.step (.init (fun _ => some "Manager") fun _ => true) concurrentAssignments =
      some _ := rfl
  exact ⟨_, hrun, assignments_sound hrun⟩

end AlsaqiBackend.Tasks

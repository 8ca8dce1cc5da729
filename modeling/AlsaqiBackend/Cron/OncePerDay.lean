import AlsaqiBackend.Cron.Deadlines

/-!
# Deadline notifications once per day

The day of the last check is read where a call begins and written at its end. A call that begins in between sends
everything again, and so does one after a restart, or after a call for another day that has ended in the meantime.
Errors only leave notifications out, since a section that fails is not done again.

Each notification of a day is sent once in a run where a call begins for the day only when no other one is under
way for it and none has sent any of its notifications, and where what it finds is what is due
(`oncePerDay_of_guarded`): the local clock has to count the days ahead right, and the dates of plans have to be
texts.
-/

namespace AlsaqiBackend.Cron

open AlsaqiBackend.Lib

variable {K : Type} [DecidableEq K]

/-! ## What is due -/

namespace DeadlineDb

/-- The open tasks that are due on a day, each with its assigned users. -/
def taskPairs (db : DeadlineDb K) (day : ℤ) : List (Subject K × K) :=
  (db.tasksDue day).flatMap fun t => (db.assignedUserIds t.id).map (.task t.id, ·)

/-- The active user that a plan names as its lead auditor. -/
def leadOf (db : DeadlineDb K) (plan : PlanDue K) : Option K := plan.leadAuditor.bind db.leadAuditorId

/-- The plans that start or end on a day, each with the managers and the lead auditor. -/
def planPairs (db : DeadlineDb K) (day : ℤ) : List (Subject K × K) :=
  (db.plansDue day).flatMap fun p => (p.create db.getManagerAdminIds (db.leadOf p)).pairs

/-- What is to be notified on a day: tasks one day ahead, and plans three days ahead. -/
def due (db : DeadlineDb K) (day : ℤ) : List (Subject K × K) := db.taskPairs (day + 1) ++ db.planPairs (day + 3)

/-- The plans that a call finds for a day. -/
def foundPlanPairs (db : DeadlineDb K) (day : ℤ) : List (Subject K × K) :=
  (db.getPlansDueIn3Days day).flatMap fun p => (p.create db.getManagerAdminIds (db.leadOf p)).pairs

/-- What a call finds: the days ahead are counted in local time. -/
def selected (db : DeadlineDb K) (clock : LocalClock) (day : ℤ) : List (Subject K × K) :=
  db.taskPairs (clock.daysLater day 1) ++ db.foundPlanPairs (clock.daysLater day 3)

end DeadlineDb

namespace CronState

/-- What the calls for a day have sent. -/
def sentPairs (s : CronState K) (day : ℤ) : List (Subject K × K) :=
  (s.sent.filter (·.1 = day)).flatMap (·.2.pairs)

/-- What is due on a day is notified at most once, and exactly once when a call for the day has come to its end
and no await failed in those for it. -/
def OncePerDay (db : DeadlineDb K) (s : CronState K) : Prop :=
  ∀ day, ∀ pair ∈ db.due day, (s.sentPairs day).count pair ≤ 1 ∧
    (day ∈ s.completed → day ∉ s.failed → (s.sentPairs day).count pair = 1)

end CronState

/-- A call that begins finds what is due, and if this is something, no other call for the day is under way
and nothing of it has been sent. -/
def SoleCall (db : DeadlineDb K) (clock : LocalClock) (s : CronState K) : CronAction → Prop
  | .begins now =>
    s.lastDeadlineCheckDate ≠ some (isoDay now) →
      db.selected clock (isoDay now) = db.due (isoDay now) ∧
        (db.due (isoDay now) = [] ∨
          (∀ call ∈ s.calls, call.today ≠ isoDay now) ∧
            ∀ pair ∈ db.due (isoDay now), pair ∉ s.sentPairs (isoDay now))
  | _ => True

instance (db : DeadlineDb K) (clock : LocalClock) (s : CronState K) : ∀ a, Decidable (SoleCall db clock s a)
  | .begins _ => instDecidableForall
  | .settles .. => isTrue trivial
  | .restarts => isTrue trivial

/-! ## What is due is due once -/

omit [DecidableEq K] in
/-- Pairs of different subjects with different users. -/
theorem nodup_flatMap_pairs {α S : Type} {l : List α} {subject : α → S} {users : α → List K}
    (hsubject : (l.map subject).Nodup) (husers : ∀ a ∈ l, (users a).Nodup) :
    (l.flatMap fun a => (users a).map (subject a, ·)).Nodup := by
  rw [List.nodup_flatMap]
  refine ⟨fun a ha => ?_, ?_⟩
  · exact (husers a ha).map (fun _ _ h => (Prod.mk.inj h).2)
  · rw [List.Nodup, List.pairwise_map] at hsubject
    refine hsubject.imp fun {a b} hne pair hpair hpair' => ?_
    obtain ⟨u, -, rfl⟩ := List.mem_map.1 hpair
    obtain ⟨v, -, heq⟩ := List.mem_map.1 hpair'
    exact hne (Prod.mk.inj heq).1.symm

namespace DeadlineDb

variable (db : DeadlineDb K)

theorem nodup_assignedUserIds (taskId : K) : (db.assignedUserIds taskId).Nodup := by
  refine List.Nodup.map_on ?_ (db.assignments_nodup.filter _)
  intro a ha b hb heq
  have hfst : a.1 = b.1 :=
    (of_decide_eq_true (List.mem_filter.1 ha).2).trans (of_decide_eq_true (List.mem_filter.1 hb).2).symm
  exact Prod.ext hfst heq

theorem nodup_taskPairs (day : ℤ) : (db.taskPairs day).Nodup := by
  have hids : ((db.tasksDue day).map TaskRow.id).Nodup := db.tasks.nodup.sublist (List.filter_sublist.map _)
  have hsubjects : ((db.tasksDue day).map fun t => Subject.task t.id).Nodup := by
    have h := hids.map (f := Subject.task) fun _ _ heq => Subject.task.inj heq
    rwa [List.map_map] at h
  exact nodup_flatMap_pairs hsubjects fun t _ => db.nodup_assignedUserIds t.id

omit [DecidableEq K] in
theorem nodup_getManagerAdminIds : db.getManagerAdminIds.Nodup :=
  db.users.nodup.sublist (List.filter_sublist.map _)

omit [DecidableEq K] in
/-- A row gives at most one element for its start and one for its end. -/
theorem nodup_due_subjects (plan : PlanRow K) (day : ℤ) :
    ((plan.due day).map fun p => Subject.plan p.planId p.dateType).Nodup := by
  unfold PlanRow.due
  split_ifs <;> simp

omit [DecidableEq K] in
theorem planId_of_mem_due {plan : PlanRow K} {day : ℤ} {p : PlanDue K} (h : p ∈ plan.due day) :
    p.planId = plan.id := by
  unfold PlanRow.due at h
  split_ifs at h <;> simp at h
  · obtain rfl | rfl := h <;> rfl
  · rw [h]
  · rw [h]

omit [DecidableEq K] in
theorem nodup_plansDue_subjects (day : ℤ) :
    ((db.plansDue day).map fun p => Subject.plan p.planId p.dateType).Nodup := by
  rw [plansDue, List.map_flatMap, List.nodup_flatMap]
  refine ⟨fun plan _ => nodup_due_subjects plan day, ?_⟩
  have hids := db.plans.nodup
  rw [List.Nodup, List.pairwise_map] at hids
  refine (hids.sublist List.filter_sublist).imp fun {a b} hne subject ha hb => ?_
  obtain ⟨p, hp, rfl⟩ := List.mem_map.1 ha
  obtain ⟨q, hq, heq⟩ := List.mem_map.1 hb
  have hid : q.planId = p.planId := (Subject.plan.inj heq).1
  rw [planId_of_mem_due hp, planId_of_mem_due hq] at hid
  exact hne hid.symm

theorem nodup_recipientIds (leadAuditorId : Option K) : (recipientIds db.getManagerAdminIds leadAuditorId).Nodup := by
  cases leadAuditorId with
  | none => exact db.nodup_getManagerAdminIds
  | some id =>
    rw [recipientIds]
    split_ifs with hid
    · exact db.nodup_getManagerAdminIds
    · rw [← List.concat_eq_append, List.nodup_concat]
      exact ⟨hid, db.nodup_getManagerAdminIds⟩

theorem nodup_planPairs (day : ℤ) : (db.planPairs day).Nodup :=
  nodup_flatMap_pairs (db.nodup_plansDue_subjects day) fun p _ => db.nodup_recipientIds (db.leadOf p)

/-- A pair of a task, or of a plan. -/
def IsDeadline (pair : Subject K × K) : Prop := ∀ year, pair.1 ≠ .yearEnd year

theorem exists_task_of_mem {day : ℤ} {pair : Subject K × K} (h : pair ∈ db.taskPairs day) :
    ∃ id, pair.1 = .task id := by
  obtain ⟨t, -, h⟩ := List.mem_flatMap.1 h
  obtain ⟨u, -, rfl⟩ := List.mem_map.1 h
  exact ⟨t.id, rfl⟩

theorem exists_plan_of_mem {day : ℤ} {pair : Subject K × K} (h : pair ∈ db.planPairs day) :
    ∃ id dateType, pair.1 = .plan id dateType := by
  obtain ⟨p, -, h⟩ := List.mem_flatMap.1 h
  obtain ⟨u, -, rfl⟩ := List.mem_map.1 h
  exact ⟨p.planId, p.dateType, rfl⟩

theorem isDeadline_of_mem_due {day : ℤ} {pair : Subject K × K} (h : pair ∈ db.due day) : IsDeadline pair := by
  intro year heq
  obtain h | h := List.mem_append.1 h
  · obtain ⟨id, htask⟩ := db.exists_task_of_mem h
    cases htask.symm.trans heq
  · obtain ⟨id, dateType, hplan⟩ := db.exists_plan_of_mem h
    cases hplan.symm.trans heq

theorem nodup_due (day : ℤ) : (db.due day).Nodup := by
  refine (db.nodup_taskPairs _).append (db.nodup_planPairs _) fun pair htask hplan => ?_
  obtain ⟨id, htask⟩ := db.exists_task_of_mem htask
  obtain ⟨id', dateType, hplan⟩ := db.exists_plan_of_mem hplan
  cases htask.symm.trans hplan

end DeadlineDb

/-! ## What a call has still to send -/

/-- What a call that stands at an await still sends if nothing fails, but the reminder of the year. -/
def Phase.pending (db : DeadlineDb K) (clock : LocalClock) (now : ℤ) : Phase K → List (Subject K × K)
  | .tasks => db.selected clock (isoDay now)
  | .assignments task rest results =>
    results.flatMap (·.create.pairs) ++
      (task :: rest).flatMap (fun t => (db.assignedUserIds t.id).map (.task t.id, ·)) ++
        db.foundPlanPairs (clock.daysLater (isoDay now) 3)
  | .notifyTask task tasksDue =>
    (task :: tasksDue).flatMap (·.create.pairs) ++ db.foundPlanPairs (clock.daysLater (isoDay now) 3)
  | .plans => db.foundPlanPairs (clock.daysLater (isoDay now) 3)
  | .managers plansDue => plansDue.flatMap fun p => (p.create db.getManagerAdminIds (db.leadOf p)).pairs
  | .leadAuditor managerAdminIds plan name plansDue =>
    (plan.create managerAdminIds (db.leadAuditorId name)).pairs ++
      plansDue.flatMap fun p => (p.create managerAdminIds (db.leadOf p)).pairs
  | .notifyPlan managerAdminIds plan leadAuditorId plansDue =>
    (plan.create managerAdminIds leadAuditorId).pairs ++
      plansDue.flatMap fun p => (p.create managerAdminIds (db.leadOf p)).pairs
  | .yearPlans => []
  | .yearManagers _ => []
  | .notifyYear _ _ => []

/-- A call that has come to its end sends nothing. -/
def pendingOf (db : DeadlineDb K) (clock : LocalClock) (now : ℤ) (phase : Option (Phase K)) :
    List (Subject K × K) :=
  phase.elim [] (·.pending db clock now)

section Pending

variable (db : DeadlineDb K) (clock : LocalClock) (now : ℤ)

theorem pending_tasksLoop (tasksDue : List (TaskDue K)) :
    (tasksLoop tasksDue).pending db clock now =
      tasksDue.flatMap (·.create.pairs) ++ db.foundPlanPairs (clock.daysLater (isoDay now) 3) := by
  cases tasksDue with
  | nil => rfl
  | cons task tasksDue => rfl

theorem pending_assignmentsLoop (tasks : List (TaskRow K)) (results : List (TaskDue K)) :
    (assignmentsLoop tasks results).pending db clock now =
      results.flatMap (·.create.pairs) ++
        tasks.flatMap (fun t => (db.assignedUserIds t.id).map (.task t.id, ·)) ++
          db.foundPlanPairs (clock.daysLater (isoDay now) 3) := by
  cases tasks with
  | nil =>
    rw [assignmentsLoop, pending_tasksLoop, List.flatMap_nil, List.append_nil]
  | cons task tasks => rfl

theorem pendingOf_yearSection : pendingOf db clock now (yearSection clock now) = [] := by
  unfold yearSection
  split_ifs <;> rfl

theorem pendingOf_plansLoop (managerAdminIds : List K) (plansDue : List (PlanDue K)) :
    pendingOf db clock now (plansLoop clock now managerAdminIds plansDue) =
      plansDue.flatMap fun p => (p.create managerAdminIds (db.leadOf p)).pairs := by
  cases plansDue with
  | nil => exact pendingOf_yearSection db clock now
  | cons plan plansDue =>
    obtain ⟨planId, title, dateType, date, leadAuditor⟩ := plan
    cases leadAuditor with
    | none => rfl
    | some name => rfl

/-- What a task adds is for its assigned users. -/
theorem flatMap_taskDue (task : TaskRow K) :
    (db.taskDue task).flatMap (·.create.pairs) = (db.assignedUserIds task.id).map (.task task.id, ·) := by
  unfold DeadlineDb.taskDue
  split_ifs with h
  · rw [h]
    rfl
  · rw [List.flatMap_singleton]
    rfl

/-- An await that succeeds takes what it sends from what is to be sent. -/
theorem count_creates_add_count_next (phase : Phase K) {pair : Subject K × K}
    (hpair : DeadlineDb.IsDeadline pair) :
    ((phase.creates clock now).toList.flatMap CreateCall.pairs).count pair +
      (pendingOf db clock now (phase.next db clock now)).count pair = (phase.pending db clock now).count pair := by
  cases phase with
  | tasks =>
    show ([] : List (Subject K × K)).count pair + ((assignmentsLoop _ []).pending db clock now).count pair = _
    rw [pending_assignmentsLoop, List.count_nil, Nat.zero_add]
    rfl
  | assignments task rest results =>
    show ([] : List (Subject K × K)).count pair + ((assignmentsLoop rest _).pending db clock now).count pair = _
    rw [pending_assignmentsLoop, List.flatMap_append, flatMap_taskDue, List.count_nil, Nat.zero_add,
      Phase.pending, List.flatMap_cons, List.append_assoc (results.flatMap _)]
  | notifyTask task tasksDue =>
    show (task.create.pairs ++ []).count pair + ((tasksLoop tasksDue).pending db clock now).count pair = _
    rw [pending_tasksLoop, Phase.pending, List.flatMap_cons, List.append_nil]
    simp only [List.count_append]
    omega
  | plans =>
    show ([] : List (Subject K × K)).count pair + _ = _
    rw [List.count_nil, Nat.zero_add, Phase.next, Phase.pending, DeadlineDb.foundPlanPairs]
    split_ifs with h
    · rw [pendingOf_yearSection, h, List.flatMap_nil]
    · rfl
  | managers plansDue =>
    show ([] : List (Subject K × K)).count pair + (pendingOf db clock now (plansLoop ..)).count pair = _
    rw [pendingOf_plansLoop, List.count_nil, Nat.zero_add, Phase.pending]
  | leadAuditor managerAdminIds plan name plansDue =>
    show ([] : List (Subject K × K)).count pair + _ = _
    rw [List.count_nil, Nat.zero_add]
    rfl
  | notifyPlan managerAdminIds plan leadAuditorId plansDue =>
    show ((plan.create managerAdminIds leadAuditorId).pairs ++ []).count pair +
      (pendingOf db clock now (plansLoop ..)).count pair = _
    rw [pendingOf_plansLoop, List.append_nil, Phase.pending, List.count_append]
  | yearPlans =>
    show ([] : List (Subject K × K)).count pair + _ = _
    rw [Phase.next]
    split_ifs <;> rfl
  | yearManagers unarchivedPlans => rfl
  | notifyYear unarchivedPlans managerAdminIds =>
    have hnot : pair ∉ (yearEndCreate (getFullYear clock.offset now) unarchivedPlans managerAdminIds).pairs := by
      intro hmem
      obtain ⟨u, -, rfl⟩ := List.mem_map.1 hmem
      exact hpair _ rfl
    show (_ ++ []).count pair + 0 = 0
    rw [List.append_nil, List.count_eq_zero.2 hnot]

/-- An await that fails leaves nothing more to be sent than before. -/
theorem count_catch_le (phase : Phase K) (pair : Subject K × K) :
    (pendingOf db clock now (phase.catch clock now)).count pair ≤ (phase.pending db clock now).count pair := by
  cases phase with
  | tasks | assignments task rest results =>
    show (db.foundPlanPairs _).count pair ≤ (_ ++ db.foundPlanPairs _).count pair
    rw [List.count_append]
    omega
  | notifyTask task tasksDue =>
    show ((tasksLoop tasksDue).pending db clock now).count pair ≤ _
    rw [pending_tasksLoop, Phase.pending, List.flatMap_cons]
    simp only [List.count_append]
    omega
  | plans | managers plansDue | leadAuditor managerAdminIds plan name plansDue =>
    rw [Phase.catch, pendingOf_yearSection, List.count_nil]
    exact Nat.zero_le _
  | notifyPlan managerAdminIds plan leadAuditorId plansDue =>
    rw [Phase.catch, pendingOf_plansLoop, Phase.pending, List.count_append]
    omega
  | yearPlans => exact Nat.zero_le _
  | yearManagers unarchivedPlans => exact Nat.zero_le _
  | notifyYear unarchivedPlans managerAdminIds => exact Nat.zero_le _

end Pending

/-! ## One step -/

variable {db : DeadlineDb K} {clock : LocalClock} {s t : CronState K} {day : ℤ}

/-- The counts of what is due on a day. -/
structure CronState.Inv (db : DeadlineDb K) (clock : LocalClock) (day : ℤ) (s : CronState K) : Prop where
  one : s.calls.countP (fun call => decide (call.today = day)) ≤ 1
  sent : ∀ pair ∈ db.due day, (s.sentPairs day).count pair ≤ 1
  underWay : ∀ call ∈ s.calls, call.today = day → ∀ pair ∈ db.due day,
    (s.sentPairs day).count pair + (call.phase.pending db clock call.now).count pair ≤ 1 ∧
      (day ∉ s.failed →
        (s.sentPairs day).count pair + (call.phase.pending db clock call.now).count pair = 1)
  done : day ∈ s.completed → day ∉ s.failed → ∀ pair ∈ db.due day, (s.sentPairs day).count pair = 1

namespace CronState

theorem inv_init (db : DeadlineDb K) (clock : LocalClock) (day : ℤ) : (init : CronState K).Inv db clock day where
  one := Nat.zero_le _
  sent _ _ := Nat.zero_le _
  underWay _ hcall := absurd hcall List.not_mem_nil
  done hday := absurd hday List.not_mem_nil

/-- A state with more failed days, and with what a call has sent. -/
def sends (s : CronState K) (day : ℤ) (creates : List (CreateCall K)) (failed : List ℤ) : CronState K :=
  { s with sent := s.sent ++ creates.map (day, ·), failed := failed }

omit [DecidableEq K] in
theorem sentPairs_sends (s : CronState K) (creates : List (CreateCall K)) (failed : List ℤ) (d : ℤ) :
    (s.sends d creates failed).sentPairs day =
      s.sentPairs day ++ if d = day then creates.flatMap CreateCall.pairs else [] := by
  unfold sentPairs sends
  rw [List.filter_append, List.flatMap_append]
  congr 1
  split_ifs with h
  · rw [List.filter_eq_self.2, List.flatMap_map]
    intro create hcreate
    obtain ⟨c, -, rfl⟩ := List.mem_map.1 hcreate
    exact decide_eq_true h
  · rw [List.filter_eq_nil_iff.2, List.flatMap_nil]
    intro create hcreate
    obtain ⟨c, -, rfl⟩ := List.mem_map.1 hcreate
    simpa using h

omit [DecidableEq K] in
/-- A call that goes on leaves the other ones as they are. -/
theorem mem_goesOn {i : ℕ} {call other : Call K} {phase : Option (Phase K)}
    (h : other ∈ (s.goesOn i call phase).calls) :
    (∃ p, phase = some p ∧ other = ⟨call.now, p⟩) ∨ other ∈ s.calls.eraseIdx i := by
  cases phase with
  | none => exact Or.inr h
  | some p => exact (List.mem_cons.1 h).imp_left fun heq => ⟨p, rfl, heq⟩

omit [DecidableEq K] in
theorem countP_goesOn {i : ℕ} {call : Call K} (hcall : s.calls[i]? = some call) (phase : Option (Phase K))
    (day : ℤ) :
    (s.goesOn i call phase).calls.countP (fun c => decide (c.today = day)) ≤
      s.calls.countP (fun c => decide (c.today = day)) := by
  have hcount := countP_eraseIdx (fun c : Call K => decide (c.today = day)) hcall
  cases phase with
  | none =>
    show (s.calls.eraseIdx i).countP _ ≤ _
    omega
  | some p =>
    show (_ :: s.calls.eraseIdx i).countP _ ≤ _
    rw [List.countP_cons]
    exact hcount.le

/-- The only call for a day that is under way goes on. -/
theorem Inv.notMem_eraseIdx (hs : s.Inv db clock day) {i : ℕ} {call other : Call K}
    (hcall : s.calls[i]? = some call) (htoday : call.today = day) (hother : other ∈ s.calls.eraseIdx i) :
    other.today ≠ day := by
  have hcount := countP_eraseIdx (fun c : Call K => decide (c.today = day)) hcall
  have hone := hs.one
  rw [if_pos (decide_eq_true htoday)] at hcount
  have hnone : (s.calls.eraseIdx i).countP (fun c => decide (c.today = day)) = 0 := by omega
  simpa using List.countP_eq_zero.1 hnone other hother

omit [DecidableEq K] in
/-- A day that has been completed was so before, or is that of a call that ends now. -/
theorem mem_completed_goesOn {i : ℕ} {call : Call K} {phase : Option (Phase K)}
    (h : day ∈ (s.goesOn i call phase).completed) : day ∈ s.completed ∨ phase = none ∧ call.today = day := by
  cases phase with
  | none => exact (List.mem_cons.1 h).symm.imp_right fun heq => ⟨rfl, heq.symm⟩
  | some p => exact Or.inl h

omit [DecidableEq K] in
theorem failed_goesOn (s : CronState K) (i : ℕ) (call : Call K) (phase : Option (Phase K)) :
    (s.goesOn i call phase).failed = s.failed := by
  cases phase <;> rfl

omit [DecidableEq K] in
theorem sentPairs_goesOn (s : CronState K) (i : ℕ) (call : Call K) (phase : Option (Phase K)) (day : ℤ) :
    (s.goesOn i call phase).sentPairs day = s.sentPairs day := by
  cases phase <;> rfl

/-- A call for another day goes on. -/
theorem Inv.goesOn_of_ne (hs : s.Inv db clock day) {i : ℕ} {call : Call K} (hcall : s.calls[i]? = some call)
    (htoday : call.today ≠ day) (creates : List (CreateCall K)) {failed : List ℤ} (hfailed : s.failed ⊆ failed)
    (phase : Option (Phase K)) : ((s.sends call.today creates failed).goesOn i call phase).Inv db clock day := by
  have hsentPairs : ((s.sends call.today creates failed).goesOn i call phase).sentPairs day = s.sentPairs day := by
    rw [sentPairs_goesOn, sentPairs_sends, if_neg htoday, List.append_nil]
  have hone := countP_goesOn (s := s.sends call.today creates failed) hcall phase day
  refine ⟨hone.trans hs.one, fun pair hpair => ?_, fun other hother hday pair hpair => ?_,
    fun hday hnot pair hpair => ?_⟩
  all_goals rw [hsentPairs]
  · exact hs.sent pair hpair
  · rw [failed_goesOn]
    obtain ⟨p, -, rfl⟩ | hother := mem_goesOn hother
    · exact absurd hday htoday
    · have hbefore := hs.underWay other (List.mem_of_mem_eraseIdx hother) hday pair hpair
      exact ⟨hbefore.1, fun hnot => hbefore.2 fun h => hnot (hfailed h)⟩
  · rw [failed_goesOn] at hnot
    obtain hday | ⟨-, h⟩ := mem_completed_goesOn hday
    · exact hs.done hday (fun h => hnot (hfailed h)) pair hpair
    · exact absurd h htoday

/-- A call for the day goes on. What it sends now and what it has still to send was to be sent before, and is all
of it if nothing has failed. -/
theorem Inv.goesOn_of_eq (hs : s.Inv db clock day) {i : ℕ} {call : Call K} (hcall : s.calls[i]? = some call)
    (htoday : call.today = day) (creates : List (CreateCall K)) {failed : List ℤ} (hfailed : s.failed ⊆ failed)
    (phase : Option (Phase K))
    (hle : ∀ pair ∈ db.due day, (creates.flatMap CreateCall.pairs).count pair +
      (pendingOf db clock call.now phase).count pair ≤ (call.phase.pending db clock call.now).count pair)
    (heq : day ∉ failed → ∀ pair ∈ db.due day, (creates.flatMap CreateCall.pairs).count pair +
      (pendingOf db clock call.now phase).count pair = (call.phase.pending db clock call.now).count pair) :
    ((s.sends call.today creates failed).goesOn i call phase).Inv db clock day := by
  have hsentPairs : ((s.sends call.today creates failed).goesOn i call phase).sentPairs day =
      s.sentPairs day ++ creates.flatMap CreateCall.pairs := by
    rw [sentPairs_goesOn, sentPairs_sends, if_pos htoday]
  have hone := countP_goesOn (s := s.sends call.today creates failed) hcall phase day
  refine ⟨hone.trans hs.one, fun pair hpair => ?_, fun other hother hday pair hpair => ?_,
    fun hday hnot pair hpair => ?_⟩
  all_goals
    have hbefore := hs.underWay call (List.mem_of_getElem? hcall) htoday pair hpair
    have hnow := hle pair hpair
    rw [hsentPairs, List.count_append]
  · omega
  · rw [failed_goesOn]
    obtain ⟨p, rfl, rfl⟩ | hother := mem_goesOn hother
    · -- the call itself, with what it has still to send
      have hpending : (pendingOf db clock call.now (some p)).count pair = (p.pending db clock call.now).count pair :=
        rfl
      dsimp only
      refine ⟨by omega, fun hnot => ?_⟩
      have hall := hbefore.2 fun h => hnot (hfailed h)
      have hkept := heq hnot pair hpair
      omega
    · exact absurd hday (hs.notMem_eraseIdx hcall htoday hother)
  · rw [failed_goesOn] at hnot
    have hold : day ∉ s.failed := fun h => hnot (hfailed h)
    have hkept := heq hnot pair hpair
    have hall := hbefore.2 hold
    obtain hday | ⟨rfl, -⟩ := mem_completed_goesOn hday
    · have hdone := hs.done hday hold pair hpair
      omega
    · have hend : (pendingOf db clock call.now none).count pair = 0 := rfl
      omega

/-- A call goes on. -/
theorem Inv.goesOn (hs : s.Inv db clock day) {i : ℕ} {call : Call K} (hcall : s.calls[i]? = some call)
    (creates : List (CreateCall K)) {failed : List ℤ} (hfailed : s.failed ⊆ failed) (phase : Option (Phase K))
    (hle : ∀ pair ∈ db.due day, (creates.flatMap CreateCall.pairs).count pair +
      (pendingOf db clock call.now phase).count pair ≤ (call.phase.pending db clock call.now).count pair)
    (heq : call.today ∉ failed → ∀ pair ∈ db.due day, (creates.flatMap CreateCall.pairs).count pair +
      (pendingOf db clock call.now phase).count pair = (call.phase.pending db clock call.now).count pair) :
    ((s.sends call.today creates failed).goesOn i call phase).Inv db clock day := by
  by_cases htoday : call.today = day
  · exact hs.goesOn_of_eq hcall htoday creates hfailed phase hle (htoday ▸ heq)
  · exact hs.goesOn_of_ne hcall htoday creates hfailed phase

theorem Inv.succeeds (hs : s.Inv db clock day) {i : ℕ} {call : Call K} (hcall : s.calls[i]? = some call) :
    (s.succeeds db clock i call).Inv db clock day := by
  have hcount : ∀ pair ∈ db.due day,
      ((call.phase.creates clock call.now).toList.flatMap CreateCall.pairs).count pair +
        (pendingOf db clock call.now (call.phase.next db clock call.now)).count pair =
          (call.phase.pending db clock call.now).count pair :=
    fun pair hpair => count_creates_add_count_next db clock call.now call.phase (db.isDeadline_of_mem_due hpair)
  exact hs.goesOn hcall _ (List.Subset.refl _) _ (fun pair hpair => (hcount pair hpair).le) fun _ => hcount

theorem Inv.fails (hs : s.Inv db clock day) {i : ℕ} {call : Call K} (hcall : s.calls[i]? = some call) :
    (s.fails clock i call).Inv db clock day := by
  have h := hs.goesOn hcall [] (List.subset_cons_self call.today s.failed) (call.phase.catch clock call.now)
    (fun pair _ => by
      rw [List.flatMap_nil, List.count_nil, Nat.zero_add]
      exact count_catch_le db clock call.now call.phase pair)
    (fun hnot => absurd List.mem_cons_self hnot)
  have heq : s.sends call.today [] (call.today :: s.failed) = { s with failed := call.today :: s.failed } := by
    rw [sends, List.map_nil, List.append_nil]
  rw [heq] at h
  exact h

/-- A call begins. -/
theorem Inv.begins (hs : s.Inv db clock day) (hdue : db.due day ≠ []) {now : ℤ}
    (hlast : s.lastDeadlineCheckDate ≠ some (isoDay now)) (hsole : SoleCall db clock s (.begins now)) :
    ({ s with calls := ⟨now, .tasks⟩ :: s.calls } : CronState K).Inv db clock day := by
  obtain ⟨hselected, hfree⟩ := hsole hlast
  by_cases htoday : isoDay now = day
  · subst htoday
    obtain ⟨hcalls, hunsent⟩ := hfree.resolve_left hdue
    have hnone : s.calls.countP (fun call => decide (call.today = isoDay now)) = 0 := by
      rw [List.countP_eq_zero]
      exact fun call hcall => by simpa using hcalls call hcall
    refine ⟨?_, hs.sent, fun call hcall hday pair hpair => ?_, hs.done⟩
    · show (_ :: s.calls).countP _ ≤ 1
      rw [List.countP_cons, hnone]
      split_ifs <;> omega
    · obtain rfl | hcall := List.mem_cons.1 hcall
      · have hzero : (s.sentPairs (isoDay now)).count pair = 0 := List.count_eq_zero.2 (hunsent pair hpair)
        have hpending : (Phase.tasks.pending db clock now).count pair = 1 := by
          rw [Phase.pending, hselected]
          exact List.count_eq_one_of_mem (db.nodup_due _) hpair
        have hsum : (s.sentPairs (isoDay now)).count pair + (Phase.tasks.pending db clock now).count pair = 1 := by
          omega
        exact ⟨hsum.le, fun _ => hsum⟩
      · exact absurd hday (hcalls call hcall)
  · refine ⟨?_, hs.sent, fun call hcall hday pair hpair => ?_, hs.done⟩
    · show (_ :: s.calls).countP _ ≤ 1
      have hnot : ¬decide ((⟨now, .tasks⟩ : Call K).today = day) = true := fun h => htoday (of_decide_eq_true h)
      rw [List.countP_cons, if_neg hnot]
      exact hs.one
    · obtain rfl | hcall := List.mem_cons.1 hcall
      · exact absurd hday htoday
      · exact hs.underWay call hcall hday pair hpair

theorem Inv.restarts (hs : s.Inv db clock day) :
    ({ s with lastDeadlineCheckDate := none, calls := [] } : CronState K).Inv db clock day where
  one := Nat.zero_le _
  sent := hs.sent
  underWay _ hcall := absurd hcall List.not_mem_nil
  done := hs.done

theorem Inv.step (hs : s.Inv db clock day) (hdue : db.due day ≠ []) {a : CronAction}
    (hsole : SoleCall db clock s a) (h : step db clock s a = some t) : t.Inv db clock day := by
  cases a with
  | begins now =>
    obtain rfl := Option.some.inj h
    split_ifs with hlast
    · exact hs
    · exact hs.begins hdue hlast hsole
  | settles i succeeds =>
    obtain ⟨call, hcall, rfl⟩ := Option.map_eq_some_iff.1 h
    split_ifs
    · exact hs.succeeds hcall
    · exact hs.fails hcall
  | restarts =>
    obtain rfl := Option.some.inj h
    exact hs.restarts

end CronState

/-! ## Runs -/

/-- In every state of a run, what is due on a day has been notified at most once, and exactly once if a call for
the day has come to its end and no await has failed in those for it, where each call that passes the check of the
day finds what is due and, if something is due, is the only one for the day that is under way and the first
one to send something of it. -/
theorem oncePerDay_of_guarded (db : DeadlineDb K) (clock : LocalClock) (as : List CronAction)
    (h : Guarded (step db clock) (SoleCall db clock) CronState.init as) :
    Along (step db clock) (CronState.OncePerDay db) CronState.init as := by
  refine along_of_guarded (I := fun s => ∀ day, db.due day ≠ [] → s.Inv db clock day)
    (fun s hs day pair hpair => ?_) (fun s a t hs hsole hst day hdue => (hs day hdue).step hdue hsole hst)
    (fun day _ => CronState.inv_init db clock day) h
  have hinv := hs day (List.ne_nil_of_mem hpair)
  exact ⟨hinv.sent pair hpair, fun hday hnot => hinv.done hday hnot pair hpair⟩

/-- The clock at UTC. -/
def utcClock : LocalClock := ⟨fun _ => 0, fun t => t, fun _ => Int.add_zero _⟩

/-- One task that is due on the second day, with one assigned user. -/
def oneTask : DeadlineDb String where
  tasks := ⟨[⟨"task", "Review", some 1, "in_progress", none⟩], List.nodup_singleton _⟩
  plans := ⟨[], List.nodup_nil⟩
  users := ⟨[⟨"user", some "Huda", some "huda", "Internal Auditor", "Active"⟩], List.nodup_singleton _⟩
  assignments := [("task", "user")]
  assignments_nodup := List.nodup_singleton _
  planDatesAreText := true

/-- The awaits of the first section and the second one for the table of one task. -/
def oneCall : List CronAction := [.settles 0 true, .settles 0 true, .settles 0 true, .settles 0 true]

/-- One call notifies the user once. -/
theorem oneTask_oncePerDay : Along (step oneTask utcClock) (CronState.OncePerDay oneTask) CronState.init
    (.begins 0 :: oneCall) := by
  exact oncePerDay_of_guarded oneTask utcClock (.begins 0 :: oneCall) (by decide)

/-- Of two calls that begin before either ends, each notifies the user. -/
theorem oneTask_not_oncePerDay : ∃ s, run (step oneTask utcClock) CronState.init
    (.begins 0 :: .begins 0 :: (oneCall ++ oneCall)) = some s ∧ ¬s.OncePerDay oneTask := by
  obtain ⟨s, hs⟩ := Option.isSome_iff_exists.1 (by decide : (run (step oneTask utcClock) CronState.init
    (.begins 0 :: .begins 0 :: (oneCall ++ oneCall))).isSome = true)
  have htwice : ∀ u ∈ run (step oneTask utcClock) CronState.init
      (.begins 0 :: .begins 0 :: (oneCall ++ oneCall)), (u.sentPairs 0).count (.task "task", "user") = 2 := by
    decide
  refine ⟨s, hs, fun h => ?_⟩
  have hcount := (h 0 (.task "task", "user") (by decide)).1
  rw [htwice s hs] at hcount
  omega

end AlsaqiBackend.Cron

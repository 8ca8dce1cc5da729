import AlsaqiBackend.Idempotency.Service
import AlsaqiBackend.Lib.Run

/-!
# Records over time

Requests that come one after another, with time passing and cleanups in between. A request that was
executed and answered through `res.json` is `Effective` as long as a repetition would be answered from
its record, until the record expires. The table is unique in key and user, so a record for another
path, or an expired one that no cleanup has deleted, is in the way of the new one, and the store fails
without a word. `effective_along_iff` says that this is the only way to lose the property: it holds
along a run exactly when every request that is executed and answered finds the table free.
-/

namespace AlsaqiBackend.Idempotency

open AlsaqiBackend.Lib

/-- A request that was executed and answered through `res.json`. -/
structure Execution where
  scope : Scope
  response : Response
  answeredAt : ℤ

/-- The table, the time, and the requests that were executed and answered through `res.json`. -/
structure HistoryState where
  table : List IdempotencyRow
  clock : ℤ
  executions : List Execution

/-- What happens in a history. -/
inductive HistoryAction
  /-- A request that comes at `now` and is answered at `answeredAt`. If its handler is executed,
  `answer` is what it gives to `res.json`, or `none` when it ends the response in another way. -/
  | request (req : Incoming) (answer : Option Response) (now answeredAt : ℤ)
  /-- `IdempotencyService.cleanup`. -/
  | cleanup (now : ℤ)

/-- How the middleware serves a request of a scope. -/
inductive Served
  /-- From the record. -/
  | replayed (response : Response)
  /-- By the handler. -/
  | executed

/-- How a request of a scope that comes at `now` is served. -/
def serve (table : List IdempotencyRow) (scope : Scope) (now : ℤ) : Served :=
  match check table scope now with
  | some response => .replayed response
  | none => .executed

/-- One request or cleanup. Time does not go back. -/
def historyStep (options : IdempotencyOptions) (s : HistoryState) : HistoryAction → Option HistoryState
  | .request req answer now answeredAt =>
    if now < s.clock ∨ answeredAt < now then none
    else match admission options req with
      | .scoped scope =>
        match serve s.table scope now, answer with
        | .executed, some response =>
          some
            { table := record s.table scope response.redacted options.ttl answeredAt
              clock := answeredAt
              executions := s.executions ++ [⟨scope, response.redacted, answeredAt⟩] }
        | _, _ => some { s with clock := answeredAt }
      | _ => some { s with clock := answeredAt }
  | .cleanup now =>
    if now < s.clock then none
    else some { s with table := cleanup s.table now, clock := now }

/-- A repetition of a request that was executed and answered is answered from the record, whenever it
comes before the end of the time to live. -/
def Effective (options : IdempotencyOptions) (s : HistoryState) : Prop :=
  ∀ e ∈ s.executions, ∀ now, s.clock ≤ now → now < e.answeredAt + options.ttl * 1000000 →
    serve s.table e.scope now = .replayed e.response

/-- A request that is executed and answered finds no record of its key and user. -/
def Recordable (options : IdempotencyOptions) (s : HistoryState) : HistoryAction → Prop
  | .request req answer now _ => ∀ scope, admission options req = .scoped scope →
      serve s.table scope now = .executed → answer.isSome → options.ttl ≠ 0 →
      ∀ row ∈ s.table, ¬ row.Blocks scope
  | .cleanup _ => True

theorem serve_eq_replayed_iff {table : List IdempotencyRow} {scope : Scope} {now : ℤ}
    {response : Response} :
    serve table scope now = .replayed response ↔ check table scope now = some response := by
  unfold serve
  cases check table scope now with
  | some r => simp
  | none => simp

theorem serve_eq_executed_iff {table : List IdempotencyRow} {scope : Scope} {now : ℤ} :
    serve table scope now = .executed ↔ check table scope now = none := by
  unfold serve
  cases check table scope now with
  | some r => simp
  | none => simp

/-- A request that is executed and answered stays effective exactly when nothing is in the way of its
record, and it takes nothing from the requests before it. -/
theorem Effective.record_iff {options : IdempotencyOptions} {s : HistoryState}
    (h : Effective options s) {scope : Scope} {response : Response} {now answeredAt : ℤ}
    (hnow : s.clock ≤ now) (hanswered : now ≤ answeredAt)
    (hexecuted : serve s.table scope now = .executed) :
    Effective options
        { table := record s.table scope response options.ttl answeredAt
          clock := answeredAt
          executions := s.executions ++ [⟨scope, response, answeredAt⟩] } ↔
      (options.ttl ≠ 0 → ∀ row ∈ s.table, ¬ row.Blocks scope) := by
  constructor
  · intro heffective httl row hrow hblocks
    have hlast := heffective ⟨scope, response, answeredAt⟩ (by simp) answeredAt le_rfl
      (show answeredAt < answeredAt + options.ttl * 1000000 by omega)
    rw [serve_eq_replayed_iff] at hlast
    -- The record is lost, and the lookup still finds nothing.
    have hnone := check_eq_none_mono (serve_eq_executed_iff.1 hexecuted) hanswered
    rw [record_of_blocked ⟨row, hrow, hblocks⟩] at hlast
    rw [hnone] at hlast
    exact absurd hlast (by simp)
  · intro hfree e he later hlater hlive
    rw [serve_eq_replayed_iff]
    rcases List.mem_append.1 he with hold | hnew
    · refine check_record (serve_eq_replayed_iff.1 (h e hold later ?_ hlive))
      exact (hnow.trans hanswered).trans hlater
    · obtain rfl := List.mem_singleton.1 hnew
      have httl : options.ttl ≠ 0 := by
        dsimp only at hlater hlive
        omega
      exact check_record_self (hfree httl) hlive

/-- Time that passes takes nothing away. -/
theorem Effective.later {options : IdempotencyOptions} {s : HistoryState} (h : Effective options s)
    {now : ℤ} (hnow : s.clock ≤ now) : Effective options { s with clock := now } :=
  fun e he later hlater hlive => h e he later (hnow.trans hlater) hlive

/-- A step keeps what was executed effective exactly when its own record is not lost. -/
theorem historyStep_effective (options : IdempotencyOptions) (s : HistoryState) (a : HistoryAction)
    (t : HistoryState) (h : Effective options s) (hstep : historyStep options s a = some t) :
    Effective options t ↔ Recordable options s a := by
  cases a with
  | cleanup now =>
    simp only [historyStep] at hstep
    split_ifs at hstep with hback
    obtain rfl := Option.some.inj hstep
    refine iff_of_true (fun e he later hlater hlive => ?_) trivial
    rw [serve_eq_replayed_iff, check_cleanup hlater]
    exact serve_eq_replayed_iff.1 (h e he later ((not_lt.1 hback).trans hlater) hlive)
  | request req answer now answeredAt =>
    simp only [historyStep] at hstep
    split_ifs at hstep with hback
    obtain ⟨hnow, hanswered⟩ := not_or.1 hback
    rw [not_lt] at hnow hanswered
    simp only [Recordable]
    split at hstep
    · next scope hscope =>
      split at hstep
      · next response hexecuted =>
        obtain rfl := Option.some.inj hstep
        rw [h.record_iff hnow hanswered hexecuted, hscope]
        simp [hexecuted]
      · next hother =>
        obtain rfl := Option.some.inj hstep
        refine iff_of_true (h.later (hnow.trans hanswered)) ?_
        intro scope' hscope' hexecuted hanswer
        rw [hscope, Admission.scoped.injEq] at hscope'
        subst hscope'
        obtain ⟨response, rfl⟩ := Option.isSome_iff_exists.1 hanswer
        exact absurd rfl (hother response hexecuted)
    · next hother =>
      obtain rfl := Option.some.inj hstep
      refine iff_of_true (h.later (hnow.trans hanswered)) ?_
      intro scope hscope
      exact absurd hscope (hother scope)

/-- From any table, the requests that are executed and answered stay effective along a run exactly
when each of them finds no record of its key and user. -/
theorem effective_along_iff (options : IdempotencyOptions) (table : List IdempotencyRow) (clock : ℤ)
    (acts : List HistoryAction) :
    Along (historyStep options) (Effective options) ⟨table, clock, []⟩ acts ↔
      Guarded (historyStep options) (Recordable options) ⟨table, clock, []⟩ acts := by
  have hstart : Effective options ⟨table, clock, []⟩ := fun e he => absurd he List.not_mem_nil
  exact along_iff_guarded (I := fun _ => True) (fun _ _ _ _ _ => trivial)
    (fun s a t _ h hstep => historyStep_effective options s a t h hstep) acts trivial hstart

/-- A request of one user with one key, for a path. -/
def keyedPost (path : String) : Incoming :=
  ⟨"POST", some "retry-1", some "user-1", path, path⟩

/-- The user sends the key to a second path: that request is executed, but its record is lost to the
one of the first path, and its repetition a second later is executed again. -/
theorem record_lost_to_other_path :
    ∃ s, run (historyStep {}) ⟨[], 0, []⟩
        [.request (keyedPost "/api/v1/findings") (some ⟨201, .null⟩) 0 0,
          .request (keyedPost "/api/v1/tasks") (some ⟨201, .null⟩) 1000000 1000000] = some s ∧
      (s.executions.map fun e => (e.scope.path, e.answeredAt)) =
        [("/api/v1/findings", 0), ("/api/v1/tasks", 1000000)] ∧
      serve s.table ⟨"retry-1", "user-1", "POST", "/api/v1/tasks"⟩ 2000000 = .executed ∧
      ¬ Effective {} s := by
  refine ⟨_, rfl, rfl, rfl, fun h => ?_⟩
  have hreplayed := h ⟨⟨"retry-1", "user-1", "POST", "/api/v1/tasks"⟩, ⟨201, .null⟩, 1000000⟩
    (List.mem_cons_of_mem _ List.mem_cons_self) 2000000 (by decide) (by decide)
  exact absurd hreplayed (by nofun)

end AlsaqiBackend.Idempotency

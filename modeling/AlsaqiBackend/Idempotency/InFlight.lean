import AlsaqiBackend.Idempotency.Service
import AlsaqiBackend.Lib.Run

/-!
# Requests in flight

Requests with one user, key, method and path that run at the same time in one process. The middleware
tests the set `inFlightKeys`, waits for the lookup, and only then marks the key; the mark is removed
when the store of the response has ended, and a second time by the timer behind the `finish` of the
response. Each request is split where the source awaits: the lookup and what follows it are two steps,
and so are the insert of the record and the removal of the mark.

`executedOnce_along` is the rule that the middleware needs: the handler is executed at most once in
the time to live along every run in which no request marks a key that is marked, or for which a record
was stored after its lookup, in which a mark is removed only behind the record of its response, and in
which no lookup fails. The invariant is that the key is marked, or every execution has a record that
outlives its time.
-/

namespace AlsaqiBackend.Idempotency

open AlsaqiBackend.Lib

/-! ## The system -/

/-- Where a request is. -/
inductive Phase
  /-- It has passed the test of `inFlightKeys` and waits for the lookup. -/
  | checking
  /-- The lookup is done, with its result. -/
  | checked (found : Option Response)
  /-- The key is marked, and the handler runs. -/
  | executing
  /-- The handler has answered through `res.json`, and the insert of the record is under way. -/
  | storing (response : Response)
  /-- The insert has ended, well or not, and the mark is not removed yet. -/
  | settling
  | done

/-- The lookup has found nothing, and the request is about to mark the key. -/
def Phase.aboutToMark : Phase → Bool
  | .checked none => true
  | _ => false

/-- A request of the key: where it is, and whether the timer behind its `finish` is still to fire. -/
structure Pending where
  phase : Phase
  timer : Bool

/-- An answer of the middleware itself. -/
inductive Reply
  /-- 409 with the code `IDEMPOTENCY_CONFLICT`. -/
  | conflict
  /-- The stored status and body. -/
  | stored (response : Response)
  /-- `next(err)`, when the lookup has failed. -/
  | failed

/-- The table, the mark of the key, the requests that have passed the test, and the time. Beside them
a log: the times at which the handler was executed, what the middleware replied, and the responses for
the scope that have ever been in the table. -/
structure FlightState where
  table : List IdempotencyRow
  inFlight : Bool
  requests : List Pending
  clock : ℤ
  executions : List ℤ
  replies : List Reply
  recorded : List Response

/-- What can happen to the requests of the key. -/
inductive FlightAction
  /-- A request comes, and tests `inFlightKeys`. -/
  | arrive
  /-- The lookup of a request is done. -/
  | lookup (i : ℕ)
  /-- The lookup of a request fails. -/
  | lookupFail (i : ℕ)
  /-- A request goes on behind its lookup. -/
  | resume (i : ℕ)
  /-- The handler answers, through `res.json` with a response or in another way. -/
  | answer (i : ℕ) (response : Option Response)
  /-- The insert of a record ends, with the row in the table or refused by the constraint. -/
  | insert (i : ℕ)
  /-- The insert of a record fails for another reason, which is only logged. -/
  | insertFail (i : ℕ)
  /-- The `finally` behind the store. -/
  | settle (i : ℕ)
  /-- The timer behind the `finish` of a response. -/
  | finishTimer (i : ℕ)
  /-- `IdempotencyService.cleanup`. -/
  | cleanup
  /-- Time passes. -/
  | tick (now : ℤ)

variable (options : IdempotencyOptions) (scope : Scope)

/-- A table at the start, with no request of the key. -/
def FlightState.start (table : List IdempotencyRow) (clock : ℤ) : FlightState where
  table := table
  inFlight := false
  requests := []
  clock := clock
  executions := []
  replies := []
  recorded := (table.filter fun row => row.scope = scope).map IdempotencyRow.response

/-- The middleware goes on behind the lookup: it replies from the record, or marks the key and
executes the handler. -/
def FlightState.resume (s : FlightState) (i : ℕ) : Option Response → FlightState
  | some response =>
    { s with
      requests := s.requests.set i ⟨.done, false⟩
      replies := s.replies ++ [.stored response] }
  | none =>
    { s with
      inFlight := true
      requests := s.requests.set i ⟨.executing, false⟩
      executions := s.executions ++ [s.clock] }

/-- One step. -/
def flightStep (s : FlightState) : FlightAction → Option FlightState
  | .arrive =>
    some (if s.inFlight then { s with replies := s.replies ++ [.conflict] }
      else { s with requests := s.requests ++ [⟨.checking, false⟩] })
  | .lookup i =>
    match s.requests[i]? with
    | some ⟨.checking, _⟩ =>
      some { s with requests := s.requests.set i ⟨.checked (check s.table scope s.clock), false⟩ }
    | _ => none
  | .lookupFail i =>
    match s.requests[i]? with
    | some ⟨.checking, _⟩ =>
      -- The `catch` removes the mark, whichever request has made it.
      some
        { s with
          inFlight := false
          requests := s.requests.set i ⟨.done, false⟩
          replies := s.replies ++ [.failed] }
    | _ => none
  | .resume i =>
    match s.requests[i]? with
    | some ⟨.checked found, _⟩ => some (s.resume i found)
    | _ => none
  | .answer i response =>
    match s.requests[i]?, response with
    | some ⟨.executing, _⟩, some response =>
      some { s with requests := s.requests.set i ⟨.storing response.redacted, true⟩ }
    | some ⟨.executing, _⟩, none => some { s with requests := s.requests.set i ⟨.done, true⟩ }
    | _, _ => none
  | .insert i =>
    match s.requests[i]? with
    | some ⟨.storing response, timer⟩ =>
      some
        { s with
          table := record s.table scope response options.ttl s.clock
          requests := s.requests.set i ⟨.settling, timer⟩
          recorded := if ∃ row ∈ s.table, row.Blocks scope then s.recorded
            else s.recorded ++ [response] }
    | _ => none
  | .insertFail i =>
    match s.requests[i]? with
    | some ⟨.storing _, timer⟩ => some { s with requests := s.requests.set i ⟨.settling, timer⟩ }
    | _ => none
  | .settle i =>
    match s.requests[i]? with
    | some ⟨.settling, timer⟩ =>
      some { s with inFlight := false, requests := s.requests.set i ⟨.done, timer⟩ }
    | _ => none
  | .finishTimer i =>
    match s.requests[i]? with
    | some ⟨phase, true⟩ =>
      some { s with inFlight := false, requests := s.requests.set i ⟨phase, false⟩ }
    | _ => none
  | .cleanup => some { s with table := cleanup s.table s.clock }
  | .tick now => if now < s.clock then none else some { s with clock := now }

/-- The time to live in the unit of the clock. -/
def IdempotencyOptions.ttlMicros : ℤ := options.ttl * 1000000

/-- Any two executions of the handler are at least the time to live apart, and every reply of the
middleware is a conflict or a stored status and body. -/
def ExecutedOnce (s : FlightState) : Prop :=
  s.executions.Pairwise (fun e e' => e + options.ttlMicros ≤ e') ∧
    ∀ reply ∈ s.replies, reply = .conflict ∨ ∃ response ∈ s.recorded, reply = .stored response

/-- The time to live of an execution is over, or its response is in the table for as long. -/
def Covered (s : FlightState) (e : ℤ) : Prop :=
  e + options.ttlMicros ≤ s.clock ∨
    ∃ row ∈ s.table, row.scope = scope ∧ e + options.ttlMicros ≤ row.expiresAt

/-- A request that is about to mark the key finds it without a mark and without a live record, a mark
is removed only when the executions are covered, and no lookup fails. -/
def Exclusive (s : FlightState) : FlightAction → Prop
  | .resume i => ∀ q ∈ s.requests[i]?, q.phase.aboutToMark = true →
      s.inFlight = false ∧ check s.table scope s.clock = none
  | .settle _ | .finishTimer _ => ∀ e ∈ s.executions, Covered options scope s e
  | .lookupFail _ => False
  | _ => True

instance (s : FlightState) (e : ℤ) : Decidable (Covered options scope s e) :=
  inferInstanceAs (Decidable (_ ∨ _))

instance (s : FlightState) (a : FlightAction) : Decidable (Exclusive options scope s a) :=
  match a with
  | .resume i => inferInstanceAs (Decidable (∀ q ∈ s.requests[i]?, q.phase.aboutToMark = true → _ ∧ _))
  | .settle _ => inferInstanceAs (Decidable (∀ e ∈ s.executions, _))
  | .finishTimer _ => inferInstanceAs (Decidable (∀ e ∈ s.executions, _))
  | .lookupFail _ => isFalse not_false
  | .arrive | .lookup _ | .answer _ _ | .insert _ | .insertFail _ | .cleanup | .tick _ => isTrue trivial

/-! ## The invariant -/

/-- Executions are the time to live apart, the key is marked or they are covered, and what is replied,
found or in the table for the scope has been stored. -/
structure FlightInv (s : FlightState) : Prop where
  once : s.executions.Pairwise fun e e' => e + options.ttlMicros ≤ e'
  covered : s.inFlight = true ∨ ∀ e ∈ s.executions, Covered options scope s e
  replies : ∀ reply ∈ s.replies, reply = .conflict ∨ ∃ response ∈ s.recorded, reply = .stored response
  rows : ∀ row ∈ s.table, row.scope = scope → row.response ∈ s.recorded
  found : ∀ q ∈ s.requests, ∀ response, q.phase = .checked (some response) → response ∈ s.recorded

/-- The invariant at the start. -/
theorem FlightState.start_inv (table : List IdempotencyRow) (clock : ℤ) :
    FlightInv options scope (.start scope table clock) where
  once := List.Pairwise.nil
  covered := Or.inr fun e he => absurd he List.not_mem_nil
  replies := fun reply hreply => absurd hreply List.not_mem_nil
  rows := by
    intro row hrow hscope
    exact List.mem_map_of_mem (List.mem_filter.2 ⟨hrow, by simpa using hscope⟩)
  found := fun q hq => absurd hq List.not_mem_nil

namespace FlightInv

variable {options scope} {s : FlightState}

/-- A request moves on, with nothing found but what has been stored. -/
theorem setRequest (h : FlightInv options scope s) (i : ℕ) (q : Pending)
    (hq : ∀ response, q.phase = .checked (some response) → response ∈ s.recorded) :
    FlightInv options scope { s with requests := s.requests.set i q } := by
  refine ⟨h.once, h.covered, h.replies, h.rows, fun q' hq' response hphase => ?_⟩
  rcases List.mem_or_eq_of_mem_set hq' with hold | rfl
  · exact h.found q' hold response hphase
  · exact hq response hphase

/-- What a lookup finds has been stored. -/
theorem mem_recorded_of_check (h : FlightInv options scope s) {response : Response}
    (hfound : check s.table scope s.clock = some response) : response ∈ s.recorded := by
  obtain ⟨row, hrow, hscope, -, rfl⟩ := exists_of_check hfound
  exact h.rows row hrow hscope

/-- The middleware replies with a conflict or with what has been stored. -/
theorem reply (h : FlightInv options scope s) {reply : Reply}
    (hreply : reply = .conflict ∨ ∃ response ∈ s.recorded, reply = .stored response) :
    FlightInv options scope { s with replies := s.replies ++ [reply] } := by
  refine ⟨h.once, h.covered, fun r hr => ?_, h.rows, h.found⟩
  rcases List.mem_append.1 hr with hold | hnew
  · exact h.replies r hold
  · rw [List.mem_singleton.1 hnew]
    exact hreply

/-- A request passes the test. -/
theorem arrive (h : FlightInv options scope s) :
    FlightInv options scope { s with requests := s.requests ++ [⟨.checking, false⟩] } := by
  refine ⟨h.once, h.covered, h.replies, h.rows, fun q hq response hphase => ?_⟩
  rcases List.mem_append.1 hq with hold | hnew
  · exact h.found q hold response hphase
  · rw [List.mem_singleton.1 hnew] at hphase
    exact absurd hphase (by simp)

/-- A request goes on behind its lookup: when it marks the key, the executions before it are over. -/
theorem resume (h : FlightInv options scope s) (i : ℕ) (found : Option Response)
    (hfound : ∀ response ∈ found, response ∈ s.recorded)
    (hguard : found = none → s.inFlight = false ∧ check s.table scope s.clock = none) :
    FlightInv options scope (s.resume i found) := by
  cases found with
  | some response =>
    have hreplied := h.reply (Or.inr ⟨response, hfound response rfl, rfl⟩)
    exact hreplied.setRequest i ⟨.done, false⟩ (by simp)
  | none =>
    obtain ⟨hfree, hnone⟩ := hguard rfl
    have hmoved := h.setRequest i ⟨.executing, false⟩ (by simp)
    refine ⟨?_, Or.inl rfl, h.replies, h.rows, hmoved.found⟩
    have hover : ∀ e ∈ s.executions, e + options.ttlMicros ≤ s.clock := by
      intro e he
      rcases h.covered.resolve_left (by simp [hfree]) e he with hover | ⟨row, hrow, hscope, hlong⟩
      · exact hover
      · have hexpired := check_eq_none_iff.1 hnone row hrow hscope
        omega
    rw [FlightState.resume, List.pairwise_append]
    refine ⟨h.once, List.pairwise_singleton _ _, fun e he e' he' => ?_⟩
    rw [List.mem_singleton.1 he']
    exact hover e he

/-- The insert of a record keeps what is covered, and the record counts as stored when it gets into
the table. -/
theorem insert (h : FlightInv options scope s) (response : Response) :
    FlightInv options scope
      { s with
        table := record s.table scope response options.ttl s.clock
        recorded := if ∃ row ∈ s.table, row.Blocks scope then s.recorded
          else s.recorded ++ [response] } := by
  by_cases hblocked : ∃ row ∈ s.table, row.Blocks scope
  · simp only [if_pos hblocked, record_of_blocked hblocked]
    exact ⟨h.once, h.covered, h.replies, h.rows, h.found⟩
  · have htable : record s.table scope response options.ttl s.clock =
        s.table ++ [⟨scope, response, s.clock + options.ttl * 1000000⟩] := by
      unfold record store
      rw [if_neg hblocked, Option.getD_some]
    simp only [if_neg hblocked, htable]
    have hsub : ∀ r ∈ s.recorded, r ∈ s.recorded ++ [response] := fun r => List.mem_append_left _
    refine ⟨h.once, ?_, ?_, ?_, fun q hq r hphase => hsub r (h.found q hq r hphase)⟩
    · refine h.covered.imp_right fun hcovered e he => ?_
      exact (hcovered e he).imp_right fun ⟨row, hrow, hlong⟩ =>
        ⟨row, List.mem_append_left _ hrow, hlong⟩
    · intro reply hreply
      exact (h.replies reply hreply).imp_right fun ⟨r, hr, heq⟩ => ⟨r, hsub r hr, heq⟩
    · intro row hrow hscope
      rcases List.mem_append.1 hrow with hold | hnew
      · exact hsub _ (h.rows row hold hscope)
      · obtain rfl := List.mem_singleton.1 hnew
        exact List.mem_append_right _ (List.mem_singleton.2 rfl)

/-- The mark is removed behind the records. -/
theorem unmark (h : FlightInv options scope s)
    (hcovered : ∀ e ∈ s.executions, Covered options scope s e) :
    FlightInv options scope { s with inFlight := false } :=
  ⟨h.once, Or.inr hcovered, h.replies, h.rows, h.found⟩

/-- A cleanup deletes records whose time is over. -/
theorem cleanup (h : FlightInv options scope s) :
    FlightInv options scope { s with table := cleanup s.table s.clock } := by
  refine ⟨h.once, h.covered.imp_right fun hcovered e he => ?_, h.replies, ?_, h.found⟩
  · rcases hcovered e he with hover | ⟨row, hrow, hscope, hlong⟩
    · exact Or.inl hover
    · by_cases hexpired : row.expiresAt ≤ s.clock
      · exact Or.inl (hlong.trans hexpired)
      · exact Or.inr ⟨row, List.mem_filter.2 ⟨hrow, by simpa using hexpired⟩, hscope, hlong⟩
  · exact fun row hrow hscope => h.rows row (List.mem_of_mem_filter hrow) hscope

/-- Time passes. -/
theorem tick (h : FlightInv options scope s) {now : ℤ} (hnow : s.clock ≤ now) :
    FlightInv options scope { s with clock := now } :=
  ⟨h.once, h.covered.imp_right fun hcovered e he => (hcovered e he).imp_left fun hover =>
    hover.trans hnow, h.replies, h.rows, h.found⟩

end FlightInv

/-- A step that meets the condition keeps the invariant. -/
theorem flightStep_inv (s : FlightState) (a : FlightAction) (t : FlightState)
    (h : FlightInv options scope s) (hguard : Exclusive options scope s a)
    (hstep : flightStep options scope s a = some t) : FlightInv options scope t := by
  cases a with
  | arrive =>
    obtain rfl := Option.some.inj hstep
    split_ifs
    · exact h.reply (Or.inl rfl)
    · exact h.arrive
  | lookup i =>
    simp only [flightStep] at hstep
    split at hstep
    · obtain rfl := Option.some.inj hstep
      refine h.setRequest i _ fun response hphase => h.mem_recorded_of_check ?_
      simpa using hphase
    · exact absurd hstep (by simp)
  | lookupFail i => exact absurd hguard not_false
  | resume i =>
    simp only [flightStep] at hstep
    split at hstep
    · next found timer hrequest =>
      obtain rfl := Option.some.inj hstep
      -- A response that the lookup has found is replied; without one the condition lets it mark the key.
      refine h.resume i found (fun response hresponse => ?_) fun hnone => ?_
      · exact h.found _ (List.mem_of_getElem? hrequest) response (by rw [hresponse])
      · exact hguard _ hrequest (by rw [hnone]; rfl)
    · exact absurd hstep (by simp)
  | answer i response =>
    simp only [flightStep] at hstep
    split at hstep
    · obtain rfl := Option.some.inj hstep
      exact h.setRequest i _ (by simp)
    · obtain rfl := Option.some.inj hstep
      exact h.setRequest i _ (by simp)
    · exact absurd hstep (by simp)
  | insert i =>
    simp only [flightStep] at hstep
    split at hstep
    · next response timer hrequest =>
      obtain rfl := Option.some.inj hstep
      -- The record comes first, and the mark is removed behind it.
      exact (h.insert response).setRequest i ⟨.settling, timer⟩ (by simp)
    · exact absurd hstep (by simp)
  | insertFail i =>
    simp only [flightStep] at hstep
    split at hstep
    · obtain rfl := Option.some.inj hstep
      exact h.setRequest i _ (by simp)
    · exact absurd hstep (by simp)
  | settle i =>
    simp only [flightStep] at hstep
    split at hstep
    · next timer hrequest =>
      obtain rfl := Option.some.inj hstep
      exact (h.unmark hguard).setRequest i ⟨.done, timer⟩ (by simp)
    · exact absurd hstep (by simp)
  | finishTimer i =>
    simp only [flightStep] at hstep
    split at hstep
    · next phase hrequest =>
      obtain rfl := Option.some.inj hstep
      refine (h.unmark hguard).setRequest i ⟨phase, false⟩ fun response hphase => ?_
      exact h.found _ (List.mem_of_getElem? hrequest) response hphase
    · exact absurd hstep (by simp)
  | cleanup =>
    obtain rfl := Option.some.inj hstep
    exact h.cleanup
  | tick now =>
    simp only [flightStep] at hstep
    split_ifs at hstep with hback
    obtain rfl := Option.some.inj hstep
    exact h.tick (not_lt.1 hback)

/-- Along every run in which no lookup fails, a request marks the key only when it has no mark and no
live record, and a mark is removed only behind the record of its response, the handler is executed at
most once in the time to live, and every reply is a conflict or a stored response. -/
theorem executedOnce_along (table : List IdempotencyRow) (clock : ℤ) (acts : List FlightAction)
    (h : Guarded (flightStep options scope) (Exclusive options scope) (.start scope table clock) acts) :
    Along (flightStep options scope) (ExecutedOnce options) (.start scope table clock) acts :=
  along_of_guarded (fun _ hinv => ⟨hinv.once, hinv.replies⟩) (flightStep_inv options scope)
    (FlightState.start_inv options scope table clock) h

/-- A user who creates a task. -/
def taskScope : Scope := ⟨"retry-1", "user-1", "POST", "/api/v1/tasks"⟩

/-- A request is executed, a second one meets the mark, the response is stored, and a third one gets
it. -/
theorem executedOnce_conflict_and_replay :
    Along (flightStep {} taskScope) (ExecutedOnce {}) (.start taskScope [] 0)
      [.arrive, .lookup 0, .resume 0, .arrive, .tick 50000, .answer 0 (some ⟨201, .null⟩), .insert 0,
        .settle 0, .arrive, .finishTimer 0, .lookup 1, .resume 1] :=
  executedOnce_along {} taskScope [] 0 _ (by decide)

/-- Two requests pass the test before either marks the key: both are executed. -/
theorem both_pass_test_before_mark :
    ∃ s, run (flightStep {} taskScope) (.start taskScope [] 0)
        [.arrive, .arrive, .lookup 0, .lookup 1, .resume 0, .resume 1] = some s ∧
      s.executions = [0, 0] ∧ ¬ ExecutedOnce {} s := by
  refine ⟨_, rfl, rfl, fun h => ?_⟩
  exact absurd h.1 (by decide)

end AlsaqiBackend.Idempotency

import AlsaqiBackend.Lib.Run
import Mathlib.Algebra.Group.Nat.Defs
import Mathlib.Algebra.Order.Group.Int

/-!
# The circuit breaker of the webhook

`CircuitBreaker.call` of `src/services/CircuitBreaker.ts` sends an event with retries, and after enough
failures in a row it opens the circuit: events then go to the dead letter queue, and a timer sends a
probe to the service until one succeeds. Calls and probes overlap, and every await is the end of a step.
A service URL is set, and the breaker is neither reset nor destroyed.

`neverStuck_iff_undisturbed` says when an open circuit always has its timer, and a half open one exactly
one probe: exactly when no probe fails after the timer was stopped, and the timer never fires beside a
probe that is under way. Both happen when a call that was let through changes the circuit during a
probe. `open_of_stuck` says what follows: a circuit that is open without timer and probe stays open.
-/

namespace AlsaqiBackend.Webhook

open AlsaqiBackend.Lib

/-! ## The breaker -/

inductive CircuitState
  | closed
  | «open»
  | halfOpen
  deriving DecidableEq, Repr

/-- The configuration, with what the steps depend on. -/
structure CircuitBreakerConfig where
  maxRetries : ℕ
  initialBackoffMs : ℕ
  failureThreshold : ℕ
  failureWindowMs : ℕ
  deriving DecidableEq, Repr

def DEFAULT_CONFIG : CircuitBreakerConfig where
  maxRetries := 3
  initialBackoffMs := 1000
  failureThreshold := 5
  failureWindowMs := 60000

/-- The fields of a `CircuitBreaker`; `healthProbeTimer` says whether the interval is set. -/
structure CircuitBreaker where
  state : CircuitState
  failures : List ℤ
  consecutiveFailures : ℕ
  healthProbeTimer : Bool
  deriving DecidableEq, Repr

namespace CircuitBreaker

def new : CircuitBreaker := ⟨.closed, [], 0, false⟩

def stopHealthProbe (b : CircuitBreaker) : CircuitBreaker := { b with healthProbeTimer := false }

/-- An interval that is set already is cleared, and a new one set. -/
def startHealthProbe (b : CircuitBreaker) : CircuitBreaker :=
  { b.stopHealthProbe with healthProbeTimer := true }

def openCircuit (b : CircuitBreaker) : CircuitBreaker :=
  if b.state = .open then b else { b with state := .open }.startHealthProbe

def closeCircuit (b : CircuitBreaker) : CircuitBreaker :=
  { b with state := .closed, consecutiveFailures := 0, failures := [] }.stopHealthProbe

def recordFailure (config : CircuitBreakerConfig) (b : CircuitBreaker) (now : ℤ) : CircuitBreaker :=
  let windowStart := now - config.failureWindowMs
  let b := { b with
    consecutiveFailures := b.consecutiveFailures + 1
    failures := (b.failures ++ [now]).filter (windowStart ≤ ·) }
  if config.failureThreshold ≤ b.consecutiveFailures then b.openCircuit else b

/-- What follows a request that has succeeded. -/
def recordSuccess (b : CircuitBreaker) : CircuitBreaker :=
  let b := { b with consecutiveFailures := 0, failures := [] }
  if b.state = .halfOpen then b.closeCircuit else b

end CircuitBreaker

/-! ## Calls and probes -/

/-- How a request to the service ends. -/
inductive Response
  | success
  /-- `isRetryableError` says whether it is tried again. -/
  | failure (retryable : Bool) (reason : String)
  deriving DecidableEq, Repr

/-- Where a call is. -/
inductive CallPhase
  | requesting (attempt : ℕ)
  | sleeping (attempt backoffMs : ℕ)
  /-- Before the `INSERT INTO dead_letter_queue`. -/
  | storing (failureReason : String)
  | returned (sent : Bool)
  deriving DecidableEq, Repr

structure WebhookCall where
  eventType : String
  payload : String
  phase : CallPhase
  deriving DecidableEq, Repr

structure DeadLetterEntry where
  eventType : String
  payload : String
  failureReason : String
  retryCount : ℕ
  deriving DecidableEq, Repr

/-- The breaker, the clock, the calls, the probes under way, and the dead letter queue. -/
structure BreakerState where
  breaker : CircuitBreaker
  now : ℤ
  calls : List WebhookCall
  probes : ℕ
  deadLetters : List DeadLetterEntry
  deriving DecidableEq, Repr

inductive BreakerAction
  | tick (ms : ℕ)
  | call (eventType payload : String)
  /-- The request of a call ends. -/
  | respond (i : ℕ) (response : Response)
  /-- The backoff of a call is over. -/
  | wake (i : ℕ)
  /-- The insertion into the dead letter queue; its failure is ignored. -/
  | store (i : ℕ) (ok : Bool)
  /-- The interval fires: `performHealthProbe`. -/
  | probe
  /-- A probe ends. -/
  | probeSucceeds
  | probeFails
  deriving DecidableEq, Repr

namespace BreakerState

def init (now : ℤ) : BreakerState := ⟨.new, now, [], 0, []⟩

def setCall (s : BreakerState) (i : ℕ) (call : WebhookCall) (phase : CallPhase) : BreakerState :=
  { s with calls := s.calls.set i { call with phase := phase } }

end BreakerState

variable (config : CircuitBreakerConfig)

/-- The head of the loop of `call`, before the attempt with this number. -/
def beginAttempt (b : CircuitBreaker) (now : ℤ) (attempt : ℕ) (lastError : String) :
    CircuitBreaker × CallPhase :=
  if attempt ≤ config.maxRetries then (b, .requesting attempt)
  else (b.recordFailure config now, .storing lastError)

/-- What a call does when it begins. -/
def beginCall (b : CircuitBreaker) (now : ℤ) : CircuitBreaker × CallPhase :=
  if b.state = .open then (b, .storing "Circuit breaker is open")
  else beginAttempt config b now 1 ""

/-- What a call does when its request ends. -/
def afterResponse (b : CircuitBreaker) (now : ℤ) (attempt : ℕ) : Response → CircuitBreaker × CallPhase
  | .success => (b.recordSuccess, .returned true)
  | .failure false reason => (b, .storing reason)
  | .failure true reason =>
    if attempt < config.maxRetries then
      (b, .sleeping attempt (config.initialBackoffMs * 2 ^ (attempt - 1)))
    else beginAttempt config b now (attempt + 1) reason

/-- One step; `none` when the action is not possible. -/
def breakerStep (s : BreakerState) : BreakerAction → Option BreakerState
  | .tick ms => some { s with now := s.now + ms }
  | .call eventType payload =>
    let (breaker, phase) := beginCall config s.breaker s.now
    some { s with breaker, calls := s.calls ++ [⟨eventType, payload, phase⟩] }
  | .respond i response =>
    match s.calls[i]? with
    | some ⟨eventType, payload, .requesting attempt⟩ =>
      let (breaker, phase) := afterResponse config s.breaker s.now attempt response
      some ({ s with breaker }.setCall i ⟨eventType, payload, .requesting attempt⟩ phase)
    | _ => none
  | .wake i =>
    match s.calls[i]? with
    | some ⟨eventType, payload, .sleeping attempt backoffMs⟩ =>
      some (s.setCall i ⟨eventType, payload, .sleeping attempt backoffMs⟩ (.requesting (attempt + 1)))
    | _ => none
  | .store i ok =>
    match s.calls[i]? with
    | some ⟨eventType, payload, .storing failureReason⟩ =>
      let deadLetters :=
        if ok then s.deadLetters ++ [⟨eventType, payload, failureReason, 0⟩] else s.deadLetters
      some ({ s with deadLetters }.setCall i ⟨eventType, payload, .storing failureReason⟩ (.returned false))
    | _ => none
  | .probe =>
    if s.breaker.healthProbeTimer then
      -- A probe that is in flight already is not joined by a second one.
      if s.breaker.state = .halfOpen then some s
      else some { s with breaker.state := .halfOpen, probes := s.probes + 1 }
    else none
  | .probeSucceeds =>
    if s.probes = 0 then none
    else some { s with breaker := s.breaker.closeCircuit, probes := s.probes - 1 }
  | .probeFails =>
    if s.probes = 0 then none
    else some { s with breaker.state := .open, probes := s.probes - 1 }

/-! ## The circuit is never stuck -/

/-- An open circuit has its timer, and a half open one exactly one probe. -/
structure NeverStuck (s : BreakerState) : Prop where
  timer : s.breaker.state = .open → s.breaker.healthProbeTimer = true
  oneProbe : s.breaker.state = .halfOpen → s.probes = 1

/-- The timer does not fire beside a probe that is under way, unless the circuit is half open, and no
probe fails after the timer was stopped. -/
def undisturbed (s : BreakerState) : BreakerAction → Bool
  | .probe => s.breaker.state = .halfOpen || s.probes = 0
  | .probeFails => s.breaker.healthProbeTimer
  | _ => true

/-- What a call can do to the circuit: nothing, open it with its timer, or close it. -/
def Moves (b b' : CircuitBreaker) : Prop :=
  (b'.state = b.state ∧ b'.healthProbeTimer = b.healthProbeTimer) ∨
    (b'.state = .open ∧ b.state ≠ .open ∧ b'.healthProbeTimer = true) ∨
      b.state = .halfOpen ∧ b'.state = .closed

variable {config} {s t : BreakerState} {b : CircuitBreaker}

theorem Moves.refl (b : CircuitBreaker) : Moves b b := Or.inl ⟨rfl, rfl⟩

theorem openCircuit_moves (b : CircuitBreaker) : Moves b b.openCircuit := by
  unfold CircuitBreaker.openCircuit
  split_ifs with hopen
  · exact .refl b
  · exact Or.inr (Or.inl ⟨rfl, hopen, rfl⟩)

theorem recordFailure_moves (now : ℤ) : Moves b (b.recordFailure config now) := by
  unfold CircuitBreaker.recordFailure
  dsimp only
  split_ifs
  · exact openCircuit_moves _
  · exact .refl b

theorem recordSuccess_moves (b : CircuitBreaker) : Moves b b.recordSuccess := by
  unfold CircuitBreaker.recordSuccess
  dsimp only
  split_ifs with hhalf
  · exact Or.inr (Or.inr ⟨hhalf, rfl⟩)
  · exact .refl b

theorem beginAttempt_moves {now : ℤ} {attempt : ℕ} {lastError : String} :
    Moves b (beginAttempt config b now attempt lastError).1 := by
  unfold beginAttempt
  split_ifs
  · exact .refl b
  · exact recordFailure_moves now

theorem beginCall_moves {now : ℤ} : Moves b (beginCall config b now).1 := by
  unfold beginCall
  split_ifs
  · exact .refl b
  · exact beginAttempt_moves

theorem afterResponse_moves {now : ℤ} {attempt : ℕ} {response : Response} :
    Moves b (afterResponse config b now attempt response).1 := by
  unfold afterResponse
  split
  · exact recordSuccess_moves b
  · exact .refl b
  · split_ifs
    · exact .refl b
    · exact beginAttempt_moves

/-- What a step can do to the circuit and its probes. -/
theorem breakerStep_cases {a : BreakerAction} (h : breakerStep config s a = some t) :
    (Moves s.breaker t.breaker ∧ t.probes = s.probes ∧ undisturbed s a = true) ∨
      (a = .probe ∧ s.breaker.state ≠ .halfOpen ∧ s.breaker.healthProbeTimer = true ∧
        t = { s with breaker.state := .halfOpen, probes := s.probes + 1 }) ∨
      (a = .probeSucceeds ∧ t = { s with breaker := s.breaker.closeCircuit, probes := s.probes - 1 }) ∨
      (a = .probeFails ∧ s.probes ≠ 0 ∧
        t = { s with breaker.state := .open, probes := s.probes - 1 }) := by
  unfold breakerStep at h
  cases a with
  | tick ms =>
    obtain rfl := Option.some.inj h
    exact Or.inl ⟨.refl _, rfl, rfl⟩
  | call eventType payload =>
    obtain rfl := Option.some.inj h
    exact Or.inl ⟨beginCall_moves, rfl, rfl⟩
  | respond i response =>
    dsimp only at h
    split at h
    · obtain rfl := Option.some.inj h
      exact Or.inl ⟨afterResponse_moves, rfl, rfl⟩
    · cases h
  | wake i | store i ok =>
    dsimp only at h
    split at h
    · obtain rfl := Option.some.inj h
      exact Or.inl ⟨.refl _, rfl, rfl⟩
    · cases h
  | probe =>
    dsimp only at h
    split_ifs at h with htimer hhalf
    · obtain rfl := Option.some.inj h
      refine Or.inl ⟨.refl _, rfl, ?_⟩
      simp [undisturbed, hhalf]
    · obtain rfl := Option.some.inj h
      exact Or.inr (Or.inl ⟨rfl, hhalf, htimer, rfl⟩)
  | probeSucceeds =>
    dsimp only at h
    split_ifs at h
    obtain rfl := Option.some.inj h
    exact Or.inr (Or.inr (Or.inl ⟨rfl, rfl⟩))
  | probeFails =>
    dsimp only at h
    split_ifs at h with hprobes
    obtain rfl := Option.some.inj h
    exact Or.inr (Or.inr (Or.inr ⟨rfl, hprobes, rfl⟩))

/-- What a call does to the circuit leaves it with its timer and its probe. -/
theorem NeverStuck.moves (h : NeverStuck s) (hmoves : Moves s.breaker t.breaker)
    (hprobes : t.probes = s.probes) : NeverStuck t := by
  rcases hmoves with ⟨hstate, htimer⟩ | ⟨hopen, -, htimer⟩ | ⟨-, hclosed⟩
  · refine ⟨fun hopen => ?_, fun hhalf => ?_⟩
    · rw [htimer]
      exact h.timer (hstate.symm.trans hopen)
    · rw [hprobes]
      exact h.oneProbe (hstate.symm.trans hhalf)
  · exact ⟨fun _ => htimer, fun hhalf => (nomatch hopen.symm.trans hhalf)⟩
  · exact ⟨fun hopen => (nomatch hclosed.symm.trans hopen),
      fun hhalf => (nomatch hclosed.symm.trans hhalf)⟩

/-- A step keeps that exactly when it is undisturbed. -/
theorem breakerStep_neverStuck_iff (s : BreakerState) (a : BreakerAction) (t : BreakerState)
    (h : NeverStuck s) (hstep : breakerStep config s a = some t) :
    NeverStuck t ↔ undisturbed s a = true := by
  rcases breakerStep_cases hstep with ⟨hmoves, hprobes, hundisturbed⟩ | ⟨rfl, hhalf, -, rfl⟩ |
    ⟨rfl, rfl⟩ | ⟨rfl, -, rfl⟩
  · rw [hundisturbed]
    exact iff_of_true (h.moves hmoves hprobes) rfl
  · -- The timer fires: the new probe is the only one when there was none.
    have hcondition : undisturbed s .probe = true ↔ s.probes = 0 := by simp [undisturbed, hhalf]
    rw [hcondition]
    constructor
    · intro ht
      have hone : s.probes + 1 = 1 := ht.oneProbe rfl
      omega
    · intro hnone
      refine ⟨nofun, fun _ => ?_⟩
      show s.probes + 1 = 1
      omega
  · exact iff_of_true ⟨nofun, nofun⟩ rfl
  · exact ⟨fun ht => ht.timer rfl, fun htimer => ⟨fun _ => htimer, nofun⟩⟩

/-- Along a run the circuit is never stuck exactly when every step is undisturbed. -/
theorem neverStuck_iff_undisturbed (config : CircuitBreakerConfig) (now : ℤ)
    (as : List BreakerAction) :
    Along (breakerStep config) NeverStuck (.init now) as ↔
      Guarded (breakerStep config) (fun s a => undisturbed s a = true) (.init now) as := by
  have hinit : NeverStuck (.init now) := ⟨nofun, nofun⟩
  exact along_iff_guarded (I := fun _ => True) (fun _ _ _ _ _ => trivial)
    (fun s a t _ => breakerStep_neverStuck_iff s a t) as trivial hinit

/-! ## What follows when it is -/

/-- The circuit is open, and nothing is there that would probe the service. -/
structure Stuck (s : BreakerState) : Prop where
  «open» : s.breaker.state = .open
  noTimer : s.breaker.healthProbeTimer = false
  noProbe : s.probes = 0

/-- Then it stays so, whatever the calls do. -/
theorem open_of_stuck (h : Stuck s) (hreach : Reachable (breakerStep config) s t) : Stuck t := by
  refine hreach.invariant (fun s a t hs hstep => ?_) h
  rcases breakerStep_cases hstep with ⟨hmoves, hprobes, -⟩ | ⟨-, -, htimer, -⟩ | ⟨rfl, -⟩ |
    ⟨-, hprobes, -⟩
  · rcases hmoves with ⟨hstate, htimer⟩ | ⟨-, hclosed, -⟩ | ⟨hhalf, -⟩
    · exact ⟨hstate.trans hs.open, htimer.trans hs.noTimer, hprobes.trans hs.noProbe⟩
    · exact absurd hs.open hclosed
    · exact nomatch hs.open.symm.trans hhalf
  · rw [hs.noTimer] at htimer
    cases htimer
  · simp [breakerStep, hs.noProbe] at hstep
  · exact absurd hs.noProbe hprobes

/-- A call of an event whose requests all fail. -/
def failingCall (i : ℕ) : List BreakerAction :=
  [.call "user.created" "{}", .respond i (.failure true "HTTP 503"), .wake i,
    .respond i (.failure true "HTTP 503"), .wake i, .respond i (.failure true "HTTP 503"), .store i true]

/-- Five failing calls open the circuit, and the timer sends a probe. -/
def openedAndProbed : List BreakerAction :=
  (List.range 5).flatMap failingCall ++ [.probe]

/-- A call is let through beside the probe, and succeeds before the probe fails. -/
def closedByCall : List BreakerAction :=
  openedAndProbed ++ [.call "user.created" "{}", .respond 5 .success, .probeFails]

/-- A call is let through beside the probe, and fails before the timer fires again. -/
def openedByCall : List BreakerAction :=
  openedAndProbed ++ failingCall 5 ++ [.probe]

/-- The first run ends with an open circuit that has no timer, and stays so; the second one with two
probes. -/
theorem circuit_stuck_open :
    (∃ s, run (breakerStep DEFAULT_CONFIG) (.init 0) closedByCall = some s ∧ Stuck s ∧
      ¬ NeverStuck s) ∧
    ∃ s, run (breakerStep DEFAULT_CONFIG) (.init 0) openedByCall = some s ∧
      s.breaker.state = .halfOpen ∧ s.probes = 2 ∧ ¬ NeverStuck s := by
  have hfirst : (run (breakerStep DEFAULT_CONFIG) (.init 0) closedByCall).map (fun s =>
      (s.breaker.state, s.breaker.healthProbeTimer, s.probes)) = some (.open, false, 0) := by
    decide +kernel
  have hsecond : (run (breakerStep DEFAULT_CONFIG) (.init 0) openedByCall).map (fun s =>
      (s.breaker.state, s.probes)) = some (.halfOpen, 2) := by
    decide +kernel
  obtain ⟨s, hs, hstuck⟩ := Option.map_eq_some_iff.1 hfirst
  obtain ⟨t, ht, htwo⟩ := Option.map_eq_some_iff.1 hsecond
  simp only [Prod.mk.injEq] at hstuck htwo
  obtain ⟨hopen, htimer, hprobes⟩ := hstuck
  refine ⟨⟨s, hs, ⟨hopen, htimer, hprobes⟩, fun h => ?_⟩, t, ht, htwo.1, htwo.2, fun h => ?_⟩
  · have hset := h.timer hopen
    rw [htimer] at hset
    cases hset
  · have hone := h.oneProbe htwo.1
    omega

end AlsaqiBackend.Webhook

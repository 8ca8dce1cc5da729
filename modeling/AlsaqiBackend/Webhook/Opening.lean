import AlsaqiBackend.Webhook.CircuitBreaker

/-!
# When the circuit opens

The circuit opens after `failureThreshold` failures in a row within `failureWindowMs`, says the comment on
`CircuitBreaker`. `recordFailure` keeps the times of the failures in that window, and decides by a counter
of all failures in a row, however old.

An `OpeningState` records the times of the calls that have failed in a row, whatever the window, and
`ByRule` is the rule of the comment on them. `byRule_iff_recent` says when every step follows it: exactly
when the failures that reach the threshold lie within the window, and no probe fails on a circuit that a
call has closed beside it.
-/

namespace AlsaqiBackend.Webhook

open AlsaqiBackend.Lib

/-! ## Failures in a row -/

/-- The breaker, with the times at which calls failed since the last success of a call or a probe. -/
structure OpeningState where
  base : BreakerState
  failedAt : List ℤ
  deriving DecidableEq, Repr

def OpeningState.init (now : ℤ) : OpeningState := ⟨.init now, []⟩

variable (config : CircuitBreakerConfig)

/-- The action is the last failure of a call that has no retries left. -/
def exhausts (s : BreakerState) : BreakerAction → Bool
  | .call _ _ => s.breaker.state ≠ .open && config.maxRetries = 0
  | .respond i (.failure true _) =>
    match s.calls[i]? with
    | some ⟨_, _, .requesting attempt⟩ => config.maxRetries ≤ attempt
    | _ => false
  | _ => false

/-- The service has answered a call or a probe. -/
def answers : BreakerAction → Bool
  | .respond _ .success => true
  | .probeSucceeds => true
  | _ => false

/-- The failures in a row after the action. -/
def failedAfter (s : OpeningState) (a : BreakerAction) : List ℤ :=
  if answers a then [] else if exhausts config s.base a then s.failedAt ++ [s.base.now] else s.failedAt

/-- A step of the breaker, with its history. -/
def openingStep (s : OpeningState) (a : BreakerAction) : Option OpeningState :=
  (breakerStep config s.base a).map fun base => ⟨base, failedAfter config s a⟩

/-- The last `failureThreshold` of these failures lie within the window before `now`. -/
def Recent (failedAt : List ℤ) (now : ℤ) : Prop :=
  ∀ failure ∈ failedAt.drop (failedAt.length - config.failureThreshold),
    now - config.failureWindowMs ≤ failure

instance (failedAt : List ℤ) (now : ℤ) : Decidable (Recent config failedAt now) := by
  unfold Recent
  infer_instance

/-- The rule: a call fails, and with it there are enough recent failures in a row. -/
def Due (s : OpeningState) (a : BreakerAction) : Prop :=
  exhausts config s.base a = true ∧ config.failureThreshold ≤ (failedAfter config s a).length ∧
    Recent config (failedAfter config s a) s.base.now

instance (s : OpeningState) (a : BreakerAction) : Decidable (Due config s a) := by
  unfold Due
  infer_instance

/-- From a closed circuit, the step opens it exactly when the rule says so. -/
def ByRule (s : OpeningState) (a : BreakerAction) : Prop :=
  ∀ t, openingStep config s a = some t → s.base.breaker.state = .closed →
    (t.base.breaker.state = .open ↔ Due config s a)

/-- On a closed circuit, failures that reach the threshold are recent, and no probe fails. -/
def RecentFailures (s : OpeningState) (a : BreakerAction) : Prop :=
  s.base.breaker.state = .closed → a ≠ .probeFails ∧
    (exhausts config s.base a = true →
      config.failureThreshold ≤ (failedAfter config s a).length →
        Recent config (failedAfter config s a) s.base.now)

variable {config} {b : CircuitBreaker}

/-! ## The counter -/

@[simp]
theorem openCircuit_consecutiveFailures (b : CircuitBreaker) :
    b.openCircuit.consecutiveFailures = b.consecutiveFailures := by
  unfold CircuitBreaker.openCircuit
  split_ifs <;> rfl

@[simp]
theorem openCircuit_state (b : CircuitBreaker) : b.openCircuit.state = .open := by
  unfold CircuitBreaker.openCircuit
  split_ifs with hopen
  · exact hopen
  · rfl

theorem recordFailure_consecutiveFailures (now : ℤ) :
    (b.recordFailure config now).consecutiveFailures = b.consecutiveFailures + 1 := by
  unfold CircuitBreaker.recordFailure
  dsimp only
  split_ifs
  · rw [openCircuit_consecutiveFailures]
  · rfl

/-- A failure opens the circuit exactly when the counter has reached the threshold. -/
theorem recordFailure_open_iff (now : ℤ) (hclosed : b.state = .closed) :
    (b.recordFailure config now).state = .open ↔
      config.failureThreshold ≤ b.consecutiveFailures + 1 := by
  unfold CircuitBreaker.recordFailure
  dsimp only
  split_ifs with hreached
  · exact iff_of_true (openCircuit_state _) hreached
  · refine iff_of_false (fun hopen => ?_) hreached
    exact nomatch hclosed.symm.trans hopen

theorem recordSuccess_consecutiveFailures (b : CircuitBreaker) :
    b.recordSuccess.consecutiveFailures = 0 := by
  unfold CircuitBreaker.recordSuccess
  dsimp only
  split_ifs <;> rfl

/-- An answer does not open a closed circuit. -/
theorem recordSuccess_not_open (hclosed : b.state = .closed) : b.recordSuccess.state ≠ .open := by
  unfold CircuitBreaker.recordSuccess
  dsimp only
  split_ifs
  · exact nofun
  · exact fun hopen => nomatch hclosed.symm.trans hopen

/-- The head of the loop records a failure exactly when no attempt is left. -/
theorem beginAttempt_fst (now : ℤ) (attempt : ℕ) (lastError : String) :
    (beginAttempt config b now attempt lastError).1 =
      if attempt ≤ config.maxRetries then b else b.recordFailure config now := by
  unfold beginAttempt
  split_ifs <;> rfl

theorem beginCall_fst (config : CircuitBreakerConfig) (b : CircuitBreaker) (now : ℤ) :
    (beginCall config b now).1 =
      if b.state ≠ .open ∧ config.maxRetries = 0 then b.recordFailure config now else b := by
  unfold beginCall
  split_ifs with hopen hexhausted hexhausted
  · exact absurd hopen hexhausted.1
  · rfl
  · rw [beginAttempt_fst, if_neg (by omega)]
  · have hleft : 1 ≤ config.maxRetries := by
      have hsome : config.maxRetries ≠ 0 := fun hzero => hexhausted ⟨hopen, hzero⟩
      omega
    rw [beginAttempt_fst, if_pos hleft]

theorem afterResponse_failure (config : CircuitBreakerConfig) (b : CircuitBreaker) (now : ℤ) (attempt : ℕ)
    (reason : String) :
    (afterResponse config b now attempt (.failure true reason)).1 =
      if config.maxRetries ≤ attempt then b.recordFailure config now else b := by
  unfold afterResponse
  dsimp only
  split_ifs with hless hle hle
  · omega
  · rfl
  · rw [beginAttempt_fst, if_neg (by omega)]
  · omega

/-- What a step does to the circuit: it records a failure; an answer closes it or leaves it; anything else
leaves the counter, and opens a closed circuit only when a probe fails. -/
theorem breakerStep_breaker {s t : BreakerState} {a : BreakerAction}
    (h : breakerStep config s a = some t) :
    (exhausts config s a = true ∧ answers a = false ∧ a ≠ .probeFails ∧
      t.breaker = s.breaker.recordFailure config s.now) ∨
    (exhausts config s a = false ∧ answers a = true ∧ a ≠ .probeFails ∧
      t.breaker.consecutiveFailures = 0 ∧ (s.breaker.state = .closed → t.breaker.state ≠ .open)) ∨
    (exhausts config s a = false ∧ answers a = false ∧
      t.breaker.consecutiveFailures = s.breaker.consecutiveFailures ∧
      (s.breaker.state = .closed → (t.breaker.state = .open ↔ a = .probeFails))) := by
  -- What leaves a closed circuit closed is no failure of a probe.
  have hkept : a ≠ .probeFails → s.breaker.state = .closed →
      (s.breaker.state = .open ↔ a = .probeFails) := by
    intro ha hclosed
    exact iff_of_false (fun hopen => nomatch hclosed.symm.trans hopen) ha
  cases a with
  | tick ms =>
    obtain rfl := Option.some.inj h
    exact Or.inr (Or.inr ⟨rfl, rfl, rfl, hkept nofun⟩)
  | call eventType payload =>
    obtain rfl := Option.some.inj h
    have hfst := beginCall_fst config s.breaker s.now
    split_ifs at hfst with hexhausted
    · refine Or.inl ⟨?_, rfl, nofun, hfst⟩
      simpa [exhausts] using hexhausted
    · refine Or.inr (Or.inr ⟨?_, rfl, congrArg _ hfst, ?_⟩)
      · simpa [exhausts] using hexhausted
      · show _ → ((beginCall config s.breaker s.now).1.state = .open ↔ _)
        rw [hfst]
        exact hkept nofun
  | respond i response =>
    unfold breakerStep at h
    dsimp only at h
    split at h
    · rename_i eventType payload attempt hcall
      obtain rfl := Option.some.inj h
      match response with
      | .success =>
        exact Or.inr (Or.inl ⟨rfl, rfl, nofun, recordSuccess_consecutiveFailures _,
          fun hclosed => recordSuccess_not_open hclosed⟩)
      | .failure false reason => exact Or.inr (Or.inr ⟨rfl, rfl, rfl, hkept nofun⟩)
      | .failure true reason =>
        -- A failure counts when no attempt is left.
        have hfst := afterResponse_failure config s.breaker s.now attempt reason
        have hexhausts : exhausts config s (.respond i (.failure true reason)) =
            decide (config.maxRetries ≤ attempt) := by
          simp [exhausts, hcall]
        rw [hexhausts]
        split_ifs at hfst with hexhausted
        · exact Or.inl ⟨decide_eq_true hexhausted, rfl, nofun, hfst⟩
        · refine Or.inr (Or.inr ⟨decide_eq_false hexhausted, rfl, congrArg _ hfst, ?_⟩)
          show _ → ((afterResponse config s.breaker s.now attempt _).1.state = .open ↔ _)
          rw [hfst]
          exact hkept nofun
    · cases h
  | wake i | store i ok =>
    unfold breakerStep at h
    dsimp only at h
    split at h
    · obtain rfl := Option.some.inj h
      exact Or.inr (Or.inr ⟨rfl, rfl, rfl, hkept nofun⟩)
    · cases h
  | probe =>
    unfold breakerStep at h
    dsimp only at h
    split_ifs at h with htimer hhalf
    · obtain rfl := Option.some.inj h
      exact Or.inr (Or.inr ⟨rfl, rfl, rfl, hkept nofun⟩)
    · obtain rfl := Option.some.inj h
      exact Or.inr (Or.inr ⟨rfl, rfl, rfl, fun _ => iff_of_false nofun nofun⟩)
  | probeSucceeds =>
    unfold breakerStep at h
    dsimp only at h
    split_ifs at h
    obtain rfl := Option.some.inj h
    exact Or.inr (Or.inl ⟨rfl, rfl, nofun, rfl, fun _ => nofun⟩)
  | probeFails =>
    unfold breakerStep at h
    dsimp only at h
    split_ifs at h
    obtain rfl := Option.some.inj h
    exact Or.inr (Or.inr ⟨rfl, rfl, rfl, fun _ => iff_of_true rfl rfl⟩)

/-- The counter is the number of failures in a row. -/
def Counted (s : OpeningState) : Prop := s.base.breaker.consecutiveFailures = s.failedAt.length

theorem openingStep_counted (s : OpeningState) (a : BreakerAction) (t : OpeningState) (h : Counted s)
    (hstep : openingStep config s a = some t) : Counted t := by
  obtain ⟨base, hbase, rfl⟩ := Option.map_eq_some_iff.1 hstep
  unfold Counted at *
  show base.breaker.consecutiveFailures = (failedAfter config s a).length
  unfold failedAfter
  rcases breakerStep_breaker hbase with ⟨hexhausts, hanswers, -, hbreaker⟩ |
    ⟨-, hanswers, -, hzero, -⟩ | ⟨hexhausts, hanswers, hkept, -⟩
  · rw [hexhausts, hanswers, hbreaker, recordFailure_consecutiveFailures, h]
    simp
  · rw [hanswers, hzero]
    simp
  · rw [hexhausts, hanswers, hkept, h]
    simp

/-! ## The rule -/

/-- A possible step follows the rule exactly when the failures it counts are recent. -/
theorem byRule_iff (s : OpeningState) (a : BreakerAction) (t : OpeningState) (h : Counted s)
    (hstep : openingStep config s a = some t) : ByRule config s a ↔ RecentFailures config s a := by
  have hrule : ByRule config s a ↔ (s.base.breaker.state = .closed →
      (t.base.breaker.state = .open ↔ Due config s a)) := forall_step_iff hstep
  rw [hrule]
  unfold RecentFailures Due
  refine forall_congr' fun hclosed => ?_
  obtain ⟨base, hbase, rfl⟩ := Option.map_eq_some_iff.1 hstep
  show (base.breaker.state = .open ↔ _) ↔ _
  rcases breakerStep_breaker hbase with ⟨hexhausts, hanswers, hprobe, hbreaker⟩ |
    ⟨hexhausts, -, hprobe, -, hnotOpen⟩ | ⟨hexhausts, -, -, hopens⟩
  · -- The counter decides, and it has as many failures as the history.
    have hlength : (failedAfter config s a).length = s.base.breaker.consecutiveFailures + 1 := by
      unfold failedAfter
      rw [hexhausts, hanswers, h]
      simp
    rw [hbreaker, recordFailure_open_iff _ hclosed, ← hlength]
    simp only [hexhausts, true_and, true_imp_iff, ne_eq, hprobe, not_false_eq_true]
    tauto
  · have hclosed' := hnotOpen hclosed
    simp only [hexhausts, hprobe, hclosed', Bool.false_eq_true, false_and, ne_eq, not_false_eq_true,
      false_imp_iff, and_true, iff_self]
  · rw [hopens hclosed]
    simp only [hexhausts, Bool.false_eq_true, false_and, false_imp_iff, and_true, iff_false]

/-- Along a run every step follows the rule exactly when the failures that reach the threshold are recent,
and no probe fails on a closed circuit. -/
theorem byRule_iff_recent (config : CircuitBreakerConfig) (now : ℤ) (as : List BreakerAction) :
    Guarded (openingStep config) (ByRule config) (.init now) as ↔
      Guarded (openingStep config) (RecentFailures config) (.init now) as := by
  have hinit : Counted (.init now) := rfl
  exact guarded_congr (fun s a t hs _ => openingStep_counted s a t hs) byRule_iff as hinit

/-- A call whose requests all fail, one hour after the one before. -/
def hourlyFailure (i : ℕ) : List BreakerAction := .tick 3600000 :: failingCall i

/-- Four such calls, and a fifth one that waits for its last response. -/
def fifthFailing : List BreakerAction := (List.range 4).flatMap hourlyFailure ++ (hourlyFailure 4).take 6

/-- The fifth failure opens the circuit, though the first was four hours before. -/
theorem opens_by_old_failures :
    ∃ s t, run (openingStep DEFAULT_CONFIG) (.init 0) fifthFailing = some s ∧
      openingStep DEFAULT_CONFIG s (.respond 4 (.failure true "HTTP 503")) = some t ∧
      s.base.breaker.state = .closed ∧ t.base.breaker.state = .open ∧
      t.failedAt = [3600000, 7200000, 10800000, 14400000, 18000000] ∧
      ¬ ByRule DEFAULT_CONFIG s (.respond 4 (.failure true "HTTP 503")) := by
  let last : BreakerAction := .respond 4 (.failure true "HTTP 503")
  have hrun : ((run (openingStep DEFAULT_CONFIG) (.init 0) fifthFailing).bind fun s =>
      (openingStep DEFAULT_CONFIG s last).map fun t => (s.base.breaker.state, t.base.breaker.state,
        t.failedAt, decide (Due DEFAULT_CONFIG s last))) =
      some (.closed, .open, [3600000, 7200000, 10800000, 14400000, 18000000], false) := by
    decide +kernel
  obtain ⟨s, hs, hlast⟩ := Option.bind_eq_some_iff.1 hrun
  obtain ⟨t, ht, hfields⟩ := Option.map_eq_some_iff.1 hlast
  simp only [Prod.mk.injEq, decide_eq_false_iff_not] at hfields
  obtain ⟨hclosed, hopen, hfailedAt, hdue⟩ := hfields
  refine ⟨s, t, hs, ht, hclosed, hopen, hfailedAt, fun hby => ?_⟩
  exact hdue ((hby t ht hclosed).1 hopen)

end AlsaqiBackend.Webhook

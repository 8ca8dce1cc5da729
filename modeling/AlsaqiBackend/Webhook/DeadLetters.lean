import AlsaqiBackend.Lib.Json
import AlsaqiBackend.Webhook.CircuitBreaker

/-!
# Events that are not sent

An event that `call` does not send goes to the table `dead_letter_queue`, whose payload is a JSONB. The
text that is inserted is `JSON.stringify` of the payload, but a payload that is a string is inserted as it
is, and an insertion that fails is logged only.

`accounted_iff` says when an event is either sent or kept with its payload: exactly when it is sent, or
its payload is not a string. A string is never kept: `hello` is not JSON, and `123` is a number.
-/

namespace AlsaqiBackend.Webhook

open AlsaqiBackend.Lib

/-! ## The dead letter queue -/

/-- A row of `dead_letter_queue`, with the value of its JSONB. -/
structure DeadLetterRow where
  eventType : String
  payload : Json
  failureReason : String
  retryCount : ℕ
  deriving Repr

/-- The text that is inserted. -/
def payloadStr : Json → List Char
  | .str s => s
  | payload => stringify payload

/-- The rows that are inserted; a text that is not JSON is an error of the database, which is caught. -/
def storeInDeadLetterQueue (eventType : String) (payload : Json) (failureReason : String) :
    List DeadLetterRow :=
  match parse (payloadStr payload) with
  | some decoded => [⟨eventType, decoded, failureReason, 0⟩]
  | none => []

/-! ## A call -/

/-- What a call returns, the requests of it that succeeded, and the rows it inserted. -/
structure CallResult where
  sent : Bool
  deliveries : ℕ
  rows : List DeadLetterRow
  deriving Repr

section
variable (eventType : String) (payload : Json) (responses : ℕ → Response)

/-- The event goes to the dead letter queue. -/
def notSent (failureReason : String) : CallResult :=
  ⟨false, 0, storeInDeadLetterQueue eventType payload failureReason⟩

/-- The loop of `call`, with this number of attempts left. -/
def attempts : ℕ → ℕ → String → CallResult
  | 0, _, lastError => notSent eventType payload lastError
  | left + 1, attempt, _ =>
    match responses attempt with
    | .success => ⟨true, 1, []⟩
    | .failure false reason => notSent eventType payload reason
    | .failure true reason => attempts left (attempt + 1) reason

/-- A call that finds the circuit in this state, and whose requests end so. -/
def call (config : CircuitBreakerConfig) (state : CircuitState) : CallResult :=
  if state = .open then notSent eventType payload "Circuit breaker is open"
  else attempts eventType payload responses config.maxRetries 1 ""

/-- What a call in this phase comes to. -/
def phaseResult (config : CircuitBreakerConfig) : CallPhase → CallResult
  | .requesting attempt =>
    attempts eventType payload responses (config.maxRetries + 1 - attempt) attempt ""
  | .sleeping attempt _ =>
    attempts eventType payload responses (config.maxRetries - attempt) (attempt + 1) ""
  | .storing failureReason => notSent eventType payload failureReason
  | .returned true => ⟨true, 1, []⟩
  | .returned false => ⟨false, 0, []⟩

end

/-- The event was sent once, or it is kept in one row with its payload; and not both. -/
def Accounted (eventType : String) (payload : Json) (r : CallResult) : Prop :=
  (r.sent = true ∧ r.deliveries = 1 ∧ r.rows = []) ∨
    (r.sent = false ∧ r.deliveries = 0 ∧ ∃ reason, r.rows = [⟨eventType, payload, reason, 0⟩])

/-- The circuit is not open, and a request succeeds after retryable failures only. -/
def Delivers (config : CircuitBreakerConfig) (state : CircuitState) (responses : ℕ → Response) : Prop :=
  state ≠ .open ∧ ∃ n < config.maxRetries, responses (n + 1) = .success ∧
    ∀ m < n, ∃ reason, responses (m + 1) = .failure true reason

def IsString (payload : Json) : Prop := ∃ s, payload = .str s

variable {config : CircuitBreakerConfig} {eventType : String} {payload : Json}
  {responses : ℕ → Response}

/-! ## A call of the breaker

The circuit may change between two steps of a call, but the call does not look at it again. -/

/-- The error before an attempt does not matter. -/
theorem attempts_lastError {left attempt : ℕ} (hleft : 0 < left) (lastError lastError' : String) :
    attempts eventType payload responses left attempt lastError =
      attempts eventType payload responses left attempt lastError' := by
  obtain ⟨left, rfl⟩ := Nat.exists_eq_succ_of_ne_zero hleft.ne'
  rfl

theorem beginAttempt_result (b : CircuitBreaker) (now : ℤ) (attempt : ℕ) (lastError : String) :
    phaseResult eventType payload responses config (beginAttempt config b now attempt lastError).2 =
      attempts eventType payload responses (config.maxRetries + 1 - attempt) attempt lastError := by
  unfold beginAttempt
  split_ifs with hle
  · exact attempts_lastError (by omega) _ _
  · have hnone : config.maxRetries + 1 - attempt = 0 := by omega
    rw [hnone]
    rfl

/-- A call of the breaker begins as `call` does. -/
theorem beginCall_result (b : CircuitBreaker) (now : ℤ) :
    phaseResult eventType payload responses config (beginCall config b now).2 =
      call eventType payload responses config b.state := by
  unfold beginCall call
  split_ifs
  · rfl
  · exact beginAttempt_result b now 1 ""

/-- And it goes on so, whatever has happened to the circuit. -/
theorem afterResponse_result (b : CircuitBreaker) (now : ℤ) {attempt : ℕ}
    (hle : attempt ≤ config.maxRetries) :
    phaseResult eventType payload responses config
        (afterResponse config b now attempt (responses attempt)).2 =
      phaseResult eventType payload responses config (.requesting attempt) := by
  have hleft : config.maxRetries + 1 - attempt = config.maxRetries - attempt + 1 := by omega
  show _ = attempts eventType payload responses (config.maxRetries + 1 - attempt) attempt ""
  rw [hleft, attempts]
  cases hresponse : responses attempt with
  | success => rfl
  | failure retryable reason =>
    cases retryable with
    | false => rfl
    | true =>
      unfold afterResponse
      dsimp only
      split_ifs with hless
      · exact attempts_lastError (by omega) _ _
      · have hnone : config.maxRetries + 1 - (attempt + 1) = 0 := by omega
        have hzero : config.maxRetries - attempt = 0 := by omega
        rw [beginAttempt_result, hnone, hzero]

/-! ## Sent or kept -/

/-- A payload that is not a string is kept as it is. -/
theorem store_of_not_isString (hpayload : ¬ IsString payload) (reason : String) :
    storeInDeadLetterQueue eventType payload reason = [⟨eventType, payload, reason, 0⟩] := by
  have htext : payloadStr payload = stringify payload := by
    cases payload with
    | str s => exact absurd ⟨s, rfl⟩ hpayload
    | _ => rfl
  unfold storeInDeadLetterQueue
  rw [htext, parse_stringify]

/-- A string is not: no text is that of itself as a string. -/
theorem store_str_ne (s : List Char) (reason reason' : String) :
    storeInDeadLetterQueue eventType (.str s) reason ≠ [⟨eventType, .str s, reason', 0⟩] := by
  intro hstore
  unfold storeInDeadLetterQueue at hstore
  split at hstore
  · rename_i decoded hdecoded
    have hpayload : decoded = .str s := congrArg DeadLetterRow.payload (List.singleton_inj.1 hstore)
    rw [hpayload] at hdecoded
    have hlt : s.length < s.length := length_lt_of_parse_str hdecoded
    exact absurd hlt (lt_irrefl _)
  · cases hstore

/-- An event that is not sent is accounted for exactly when its payload is not a string. -/
theorem notSent_accounted_iff (reason : String) :
    Accounted eventType payload (notSent eventType payload reason) ↔ ¬ IsString payload := by
  unfold Accounted notSent
  constructor
  · rintro (⟨hsent, -⟩ | ⟨-, -, reason', hrows⟩) ⟨s, rfl⟩
    · cases hsent
    · exact store_str_ne s reason reason' hrows
  · intro hpayload
    exact Or.inr ⟨rfl, rfl, reason, store_of_not_isString hpayload reason⟩

/-- The loop, by what the next request does. -/
theorem attempts_accounted_iff (left attempt : ℕ) (lastError : String) :
    Accounted eventType payload (attempts eventType payload responses left attempt lastError) ↔
      (∃ n < left, responses (attempt + n) = .success ∧
        ∀ m < n, ∃ reason, responses (attempt + m) = .failure true reason) ∨ ¬ IsString payload := by
  -- By induction on the attempts that are left.
  induction left generalizing attempt lastError with
  | zero =>
    have hnone : ¬ ∃ n < 0, responses (attempt + n) = .success ∧
        ∀ m < n, ∃ reason, responses (attempt + m) = .failure true reason := by
      rintro ⟨n, hn, -⟩
      omega
    rw [attempts, notSent_accounted_iff, or_iff_right hnone]
  | succ left ih =>
    rw [attempts]
    cases hresponse : responses attempt with
    | success =>
      refine iff_of_true (Or.inl ⟨rfl, rfl, rfl⟩) (Or.inl ⟨0, by omega, hresponse, ?_⟩)
      intro m hm
      omega
    | failure retryable reason =>
      cases retryable with
      | false =>
        -- After a failure that is not retryable there is no other attempt.
        rw [notSent_accounted_iff, or_iff_right]
        rintro ⟨n, -, hsuccess, hbefore⟩
        cases n with
        | zero => exact nomatch hresponse.symm.trans hsuccess
        | succ n =>
          obtain ⟨reason', hfirst⟩ := hbefore 0 (by omega)
          exact nomatch hresponse.symm.trans hfirst
      | true =>
        rw [ih]
        -- The attempts are counted from this one, or from the next.
        refine or_congr_left ⟨?_, ?_⟩
        · rintro ⟨n, hn, hsuccess, hbefore⟩
          refine ⟨n + 1, by omega, ?_, fun m hm => ?_⟩
          · rw [← hsuccess]
            congr 1
            omega
          · cases m with
            | zero => exact ⟨reason, hresponse⟩
            | succ m =>
              obtain ⟨reason', hfailure⟩ := hbefore m (by omega)
              refine ⟨reason', ?_⟩
              rw [← hfailure]
              congr 1
              omega
        · rintro ⟨n, hn, hsuccess, hbefore⟩
          cases n with
          | zero => exact nomatch hresponse.symm.trans hsuccess
          | succ n =>
            refine ⟨n, by omega, ?_, fun m hm => ?_⟩
            · rw [← hsuccess]
              congr 1
              omega
            · obtain ⟨reason', hfailure⟩ := hbefore (m + 1) (by omega)
              refine ⟨reason', ?_⟩
              rw [← hfailure]
              congr 1
              omega

/-- An event is sent, or kept in one row with its payload, exactly when a request succeeds before the call
gives up, or the payload is not a string. -/
theorem accounted_iff (config : CircuitBreakerConfig) (state : CircuitState)
    (responses : ℕ → Response) (eventType : String) (payload : Json) :
    Accounted eventType payload (call eventType payload responses config state) ↔
      Delivers config state responses ∨ ¬ IsString payload := by
  unfold call Delivers
  split_ifs with hopen
  · rw [notSent_accounted_iff, or_iff_right]
    exact fun h => h.1 hopen
  · rw [attempts_accounted_iff]
    simp only [Nat.add_comm 1, ne_eq, hopen, not_false_eq_true, true_and]

/-- A string that is not JSON is lost, and one that is a number is kept as the number. -/
theorem strings_not_accounted :
    (call "user.created" (.str "hello".toList) (fun _ => .success) DEFAULT_CONFIG .open).rows = [] ∧
    ¬ Accounted "user.created" (.str "hello".toList)
      (call "user.created" (.str "hello".toList) (fun _ => .success) DEFAULT_CONFIG .open) ∧
    (call "user.created" (.str "123".toList) (fun _ => .success) DEFAULT_CONFIG .open).rows =
      [⟨"user.created", .num ⟨"123".toList, by decide⟩, "Circuit breaker is open", 0⟩] := by
  refine ⟨rfl, ?_, rfl⟩
  rintro (⟨hsent, -⟩ | ⟨-, -, reason, hrows⟩)
  · cases hsent
  · cases hrows

end AlsaqiBackend.Webhook

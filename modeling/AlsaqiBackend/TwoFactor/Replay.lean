import AlsaqiBackend.Lib.Modify
import AlsaqiBackend.Lib.Run
import AlsaqiBackend.TwoFactor.Totp

/-!
# Codes that are used again

Any number of calls of `verify` run at once, and each of their statements is a step of its own. A call
accepts a code when the last success was before the start of the code's step, and then records the
current time as the last success. That is not the end of it for three reasons: a code may be accepted
before its step begins, other calls may have succeeded since the row was read, and the start is computed
from a later reading of the clock than the one that the code was found with.

`codes_increase_along` says that each accepted code is of a later step than those before, as long as
none of the three happens.
-/

namespace AlsaqiBackend.TwoFactor

open AlsaqiBackend.Lib

/-! ## Calls -/

/-- Where a call of `verify` stands. -/
inductive VerifyPhase
  | called
  /-- The lock has been read, and is not in force. -/
  | unlocked
  /-- The row of `user_totp` has been read. -/
  | read (lastUsedAt : Option ℤ)
  /-- The code has passed the check against that row. -/
  | passed (lastUsedAt : Option ℤ) (m : Matched)
  /-- The success is recorded in `user_totp`. -/
  | recorded
  /-- The code has not passed the check. -/
  | failing
  /-- The failure is counted. -/
  | counted
  /-- The number of failures has been read. -/
  | attempts (n : ℕ)
  | returned (result : Bool)
  deriving DecidableEq, Repr

structure VerifyCall where
  token : String
  phase : VerifyPhase
  deriving DecidableEq, Repr

/-- What is stored, the clock, the calls, and the steps of the codes that have been accepted, in the
order in which they were recorded. -/
structure ReplayState where
  totp : TotpState
  now : ℤ
  calls : List VerifyCall
  accepted : List ℤ
  deriving DecidableEq, Repr

def ReplayState.init (now : ℤ) : ReplayState := ⟨.init, now, [], []⟩

inductive ReplayAction
  | tick (ms : ℕ)
  | call (token : String)
  | readLock (i : ℕ)
  | readRecord (i : ℕ)
  /-- A call checks its code; the arguments are the times that pass before each reading of the clock. -/
  | check (i a b c : ℕ)
  | recordUse (i : ℕ)
  | resetAttempts (i : ℕ)
  | countFailure (i : ℕ)
  | readAttempts (i : ℕ)
  | lock (i : ℕ)
  deriving DecidableEq, Repr

def ReplayState.setCall (s : ReplayState) (i : ℕ) (phase : VerifyPhase) : ReplayState :=
  { s with calls := s.calls.modify i fun call => { call with phase := phase } }

variable (code : ℤ → String)

/-- What a call does after the check of its code. -/
def checkPhase (lastUsedAt : Option ℤ) (token : String) (r : Readings) : VerifyPhase :=
  match checkCode code lastUsedAt token r with
  | none => .failing
  | some m => .passed lastUsedAt m

/-- One step; `none` when the action is not possible. -/
def replayStep (s : ReplayState) : ReplayAction → Option ReplayState
  | .tick ms => some { s with now := s.now + ms }
  | .call token => some { s with calls := s.calls ++ [⟨token, .called⟩] }
  | .readLock i =>
    match s.calls[i]? with
    | some ⟨_, .called⟩ =>
      some (s.setCall i (if s.totp.lockedAt s.now then .returned false else .unlocked))
    | _ => none
  | .readRecord i =>
    match s.calls[i]? with
    | some ⟨_, .unlocked⟩ => some (s.setCall i (.read s.totp.lastUsedAt))
    | _ => none
  | .check i a b c =>
    match s.calls[i]? with
    | some ⟨token, .read lastUsedAt⟩ =>
      some { s.setCall i (checkPhase code lastUsedAt token (readingsFrom s.now a b c)) with
        now := s.now + a + b + c }
    | _ => none
  | .recordUse i =>
    match s.calls[i]? with
    | some ⟨_, .passed _ m⟩ =>
      some { s.setCall i .recorded with
        totp := { s.totp with lastUsedAt := some s.now }
        accepted := s.accepted ++ [m.step] }
    | _ => none
  | .resetAttempts i =>
    match s.calls[i]? with
    | some ⟨_, .recorded⟩ =>
      some { s.setCall i (.returned true) with
        totp := { s.totp with failedAttempts := 0, lockedUntil := none } }
    | _ => none
  | .countFailure i =>
    match s.calls[i]? with
    | some ⟨_, .failing⟩ =>
      some { s.setCall i .counted with
        totp := { s.totp with failedAttempts := s.totp.failedAttempts + 1 } }
    | _ => none
  | .readAttempts i =>
    match s.calls[i]? with
    | some ⟨_, .counted⟩ => some (s.setCall i (.attempts s.totp.failedAttempts))
    | _ => none
  | .lock i =>
    match s.calls[i]? with
    | some ⟨_, .attempts n⟩ =>
      some { s.setCall i (.returned false) with
        totp := { s.totp with
          lockedUntil := if n ≥ MAX_2FA_ATTEMPTS then
              some (s.now + ATTEMPT_WINDOW_MINUTES * 60 * 1000)
            else s.totp.lockedUntil } }
    | _ => none

/-- The call that moves on is at its new phase. -/
theorem getElem?_setCall {s : ReplayState} {i : ℕ} {token : String} {phase : VerifyPhase}
    (hcall : s.calls[i]? = some ⟨token, phase⟩) (new : VerifyPhase) :
    (s.setCall i new).calls[i]? = some ⟨token, new⟩ :=
  getElem?_modify_of_eq_some hcall _

variable {code}

/-- The statements of a call whose code has passed. -/
theorem run_passed {s : ReplayState} {i : ℕ} {token : String} {lastUsedAt : Option ℤ} {m : Matched}
    (hcall : s.calls[i]? = some ⟨token, .passed lastUsedAt m⟩) :
    ∃ t, run (replayStep code) s [.recordUse i, .resetAttempts i] = some t ∧
      t.totp = s.totp.recordSuccess s.now ∧ t.calls[i]? = some ⟨token, .returned true⟩ := by
  have hrecorded := getElem?_setCall hcall .recorded
  have hreturned := getElem?_setCall hrecorded (.returned true)
  refine ⟨⟨s.totp.recordSuccess s.now, s.now, ((s.setCall i .recorded).setCall i (.returned true)).calls,
    s.accepted ++ [m.step]⟩, ?_, rfl, hreturned⟩
  unfold ReplayState.setCall at hrecorded
  simp only [run, replayStep, hcall, hrecorded, Option.bind_some, TotpState.recordSuccess,
    ReplayState.setCall]

/-- The statements of a call whose code has not passed. -/
theorem run_failing {s : ReplayState} {i : ℕ} {token : String}
    (hcall : s.calls[i]? = some ⟨token, .failing⟩) :
    ∃ t, run (replayStep code) s [.countFailure i, .readAttempts i, .lock i] = some t ∧
      t.totp = s.totp.recordFailed2FAAttempt s.now ∧ t.calls[i]? = some ⟨token, .returned false⟩ := by
  have hcounted := getElem?_setCall hcall .counted
  have hattempts := getElem?_setCall hcounted (.attempts (s.totp.failedAttempts + 1))
  have hreturned := getElem?_setCall hattempts (.returned false)
  refine ⟨⟨s.totp.recordFailed2FAAttempt s.now, s.now, (((s.setCall i .counted).setCall i
    (.attempts (s.totp.failedAttempts + 1))).setCall i (.returned false)).calls, s.accepted⟩, ?_, rfl,
    hreturned⟩
  unfold ReplayState.setCall at hcounted hattempts
  simp only [run, replayStep, hcall, hcounted, hattempts, Option.bind_some,
    TotpState.recordFailed2FAAttempt, ReplayState.setCall]

/-- A call whose statements come one after the other, with none of another call between them, does
what `verify` does. -/
theorem run_verify {s : ReplayState} {i : ℕ} {token : String}
    (hcall : s.calls[i]? = some ⟨token, .called⟩) (a b c : ℕ) :
    ∃ as t, run (replayStep code) s as = some t ∧
      (t.totp, t.calls[i]?) =
        ((verify code s.totp token s.now (readingsFrom s.now a b c) (s.now + a + b + c)).1,
          some ⟨token, .returned
            (verify code s.totp token s.now (readingsFrom s.now a b c) (s.now + a + b + c)).2⟩) := by
  unfold verify
  cases hlocked : s.totp.lockedAt s.now with
  | true =>
    have hlock : replayStep code s (.readLock i) = some (s.setCall i (.returned false)) := by
      simp [replayStep, hcall, hlocked]
    refine ⟨[.readLock i], _, run_cons.2 ⟨_, hlock, rfl⟩, ?_⟩
    rw [getElem?_setCall hcall]
    rfl
  | false =>
    have hlock : replayStep code s (.readLock i) = some (s.setCall i .unlocked) := by
      simp [replayStep, hcall, hlocked]
    have hunlocked := getElem?_setCall hcall .unlocked
    have hread := getElem?_setCall hunlocked (.read s.totp.lastUsedAt)
    have hchecked := getElem?_setCall hread
      (checkPhase code s.totp.lastUsedAt token (readingsFrom s.now a b c))
    -- The clock goes on by the three readings of the check.
    let checked : ReplayState := { ((s.setCall i .unlocked).setCall i (.read s.totp.lastUsedAt)).setCall i
        (checkPhase code s.totp.lastUsedAt token (readingsFrom s.now a b c)) with
      now := s.now + a + b + c }
    have hcheck : replayStep code ((s.setCall i .unlocked).setCall i (.read s.totp.lastUsedAt))
        (.check i a b c) = some checked := by
      rw [replayStep, hread]
      rfl
    have hrecord : replayStep code (s.setCall i .unlocked) (.readRecord i) =
        some ((s.setCall i .unlocked).setCall i (.read s.totp.lastUsedAt)) := by
      rw [replayStep, hunlocked]
      rfl
    cases hcode : checkCode code s.totp.lastUsedAt token (readingsFrom s.now a b c) with
    | none =>
      have hphase : checkPhase code s.totp.lastUsedAt token (readingsFrom s.now a b c) = .failing := by
        simp only [checkPhase, hcode]
      have hcall' : checked.calls[i]? = some ⟨token, .failing⟩ := hphase ▸ hchecked
      obtain ⟨t, hrun, htotp, hreturned⟩ := run_failing hcall'
      refine ⟨_, t, run_cons.2 ⟨_, hlock, run_cons.2 ⟨_, hrecord, run_cons.2 ⟨_, hcheck, hrun⟩⟩⟩, ?_⟩
      rw [htotp, hreturned]
      rfl
    | some m =>
      have hphase : checkPhase code s.totp.lastUsedAt token (readingsFrom s.now a b c) =
          .passed s.totp.lastUsedAt m := by
        simp only [checkPhase, hcode]
      have hcall' : checked.calls[i]? = some ⟨token, .passed s.totp.lastUsedAt m⟩ := hphase ▸ hchecked
      obtain ⟨t, hrun, htotp, hreturned⟩ := run_passed hcall'
      refine ⟨_, t, run_cons.2 ⟨_, hlock, run_cons.2 ⟨_, hrecord, run_cons.2 ⟨_, hcheck, hrun⟩⟩⟩, ?_⟩
      rw [htotp, hreturned]
      rfl

/-! ## What a step does to the record -/

variable (code)

/-- The step leaves the record of the last success as it is, and the calls that have passed the check
have passed it before, or do so now. -/
structure KeepsRecord (s t : ReplayState) : Prop where
  lastUsedAt : t.totp.lastUsedAt = s.totp.lastUsedAt
  accepted : t.accepted = s.accepted
  passed : ∀ token lastUsedAt m, ⟨token, .passed lastUsedAt m⟩ ∈ t.calls →
    ⟨token, .passed lastUsedAt m⟩ ∈ s.calls ∨ ∃ r, checkCode code lastUsedAt token r = some m

/-- A call that has passed the check records its success. -/
structure Records (s : ReplayState) (lastUsedAt : Option ℤ) (m : Matched) (t : ReplayState) : Prop where
  call : ∃ token, ⟨token, .passed lastUsedAt m⟩ ∈ s.calls
  lastUsedAt : t.totp.lastUsedAt = some s.now
  accepted : t.accepted = s.accepted ++ [m.step]
  passed : ∀ call ∈ t.calls, call ∈ s.calls ∨ call.phase = .recorded

variable {code} {s t : ReplayState}

/-- A call of the state after a call has moved on is an old one, or the one that has. -/
theorem mem_setCall {i : ℕ} {phase : VerifyPhase} {call : VerifyCall}
    (h : call ∈ (s.setCall i phase).calls) : call ∈ s.calls ∨ call.phase = phase := by
  rcases mem_modify_cases h with hold | ⟨old, -, rfl⟩
  · exact Or.inl hold
  · exact Or.inr rfl

/-- A call moves on to a phase other than `passed`, and the record stays. -/
theorem KeepsRecord.setCall {i : ℕ} {phase : VerifyPhase}
    (hphase : ∀ lastUsedAt m, phase ≠ .passed lastUsedAt m) (totp : TotpState)
    (htotp : totp.lastUsedAt = s.totp.lastUsedAt) :
    KeepsRecord code s { s.setCall i phase with totp := totp } where
  lastUsedAt := htotp
  accepted := rfl
  passed := fun token lastUsedAt m hmem => by
    rcases mem_setCall hmem with hold | hnew
    · exact Or.inl hold
    · exact absurd hnew.symm (hphase lastUsedAt m)

/-- What a step can do to the record. -/
theorem replayStep_cases {a : ReplayAction} (h : replayStep code s a = some t) :
    KeepsRecord code s t ∨ ∃ i token lastUsedAt m, a = .recordUse i ∧
      s.calls[i]? = some ⟨token, .passed lastUsedAt m⟩ ∧ Records s lastUsedAt m t := by
  unfold replayStep at h
  cases a with
  | tick ms =>
    obtain rfl := Option.some.inj h
    exact Or.inl ⟨rfl, rfl, fun _ _ _ hmem => Or.inl hmem⟩
  | call token =>
    obtain rfl := Option.some.inj h
    refine Or.inl ⟨rfl, rfl, fun token' lastUsedAt m hmem => ?_⟩
    rcases List.mem_append.1 hmem with hold | hnew
    · exact Or.inl hold
    · cases List.mem_singleton.1 hnew
  | readLock i =>
    dsimp only at h
    split at h
    · obtain rfl := Option.some.inj h
      exact Or.inl (.setCall (by split <;> simp) s.totp rfl)
    · cases h
  | readRecord i | readAttempts i =>
    dsimp only at h
    split at h
    · obtain rfl := Option.some.inj h
      exact Or.inl (.setCall (by simp) s.totp rfl)
    · cases h
  | check i a b c =>
    dsimp only at h
    split at h
    · next token lastUsedAt hcall =>
      obtain rfl := Option.some.inj h
      refine Or.inl ⟨rfl, rfl, fun token' lastUsedAt' m hmem => ?_⟩
      -- The call that checks its code has passed with this very check.
      obtain ⟨j, hj⟩ := List.mem_iff_getElem?.1 hmem
      rcases getElem?_modify_cases hj with ⟨-, old, hold, hnew⟩ | ⟨-, hold⟩
      · obtain rfl := Option.some.inj (hcall.symm.trans hold)
        rw [VerifyCall.mk.injEq] at hnew
        obtain ⟨rfl, hphase⟩ := hnew
        unfold checkPhase at hphase
        split at hphase
        · cases hphase
        · next m' hcheck =>
          rw [VerifyPhase.passed.injEq] at hphase
          obtain ⟨rfl, rfl⟩ := hphase
          exact Or.inr ⟨_, hcheck⟩
      · exact Or.inl (List.mem_of_getElem? hold)
    · cases h
  | recordUse i =>
    dsimp only at h
    split at h
    · next token lastUsedAt m hcall =>
      obtain rfl := Option.some.inj h
      exact Or.inr ⟨i, token, lastUsedAt, m, rfl, hcall, ⟨token, List.mem_of_getElem? hcall⟩, rfl, rfl,
        fun _ => mem_setCall⟩
    · cases h
  | resetAttempts i | countFailure i | lock i =>
    dsimp only at h
    split at h
    · obtain rfl := Option.some.inj h
      exact Or.inl (.setCall (by simp) _ rfl)
    · cases h

/-! ## Each code is of a later step -/

/-- Each accepted code is of a later step than those before it. In particular no code is accepted
twice. -/
def CodesIncrease (s : ReplayState) : Prop := s.accepted.Pairwise (· < ·)

instance (s : ReplayState) : Decidable (CodesIncrease s) :=
  inferInstanceAs (Decidable (s.accepted.Pairwise (· < ·)))

/-- When a success is recorded, the record is the one that the call has read, the start of the step was
computed for the step of the code, and the step has begun. -/
def timely (s : ReplayState) : ReplayAction → Bool
  | .recordUse i =>
    match s.calls[i]? with
    | some ⟨_, .passed lastUsedAt m⟩ =>
      s.totp.lastUsedAt = lastUsedAt ∧ m.counter = m.step ∧ stepStart m.step ≤ s.now
    | _ => true
  | _ => true

/-- The steps of all accepted codes have begun at the last success, and the calls that have passed the
check have done so against the record that they read. -/
structure ReplayInv (s : ReplayState) : Prop where
  increase : CodesIncrease s
  begun : ∀ step ∈ s.accepted, ∃ lastUsed, s.totp.lastUsedAt = some lastUsed ∧ stepStart step ≤ lastUsed
  passed : ∀ token lastUsedAt m, ⟨token, .passed lastUsedAt m⟩ ∈ s.calls →
    ∀ lastUsed, lastUsedAt = some lastUsed → lastUsed < stepStart m.counter

theorem ReplayInv.keeps (h : ReplayInv s) (hkeeps : KeepsRecord code s t) : ReplayInv t where
  increase := by
    unfold CodesIncrease
    rw [hkeeps.accepted]
    exact h.increase
  begun := by
    rw [hkeeps.accepted, hkeeps.lastUsedAt]
    exact h.begun
  passed := fun token lastUsedAt m hmem => by
    rcases hkeeps.passed token lastUsedAt m hmem with hold | ⟨r, hcheck⟩
    · exact h.passed token lastUsedAt m hold
    · exact (checkCode_eq_some hcheck).2.2.2.2

theorem ReplayInv.records (h : ReplayInv s) {lastUsedAt : Option ℤ} {m : Matched}
    (hlast : s.totp.lastUsedAt = lastUsedAt) (hcounter : m.counter = m.step)
    (hbegun : stepStart m.step ≤ s.now) (hrecords : Records s lastUsedAt m t) : ReplayInv t := by
  obtain ⟨⟨token, hcall⟩, hnow, haccepted, hcalls⟩ := hrecords
  -- All codes before are of earlier steps: their steps had begun at the last success.
  have hearlier : ∀ step ∈ s.accepted, step < m.step := by
    intro step hstep
    obtain ⟨lastUsed, hlastUsed, hle⟩ := h.begun step hstep
    have hlt := h.passed token lastUsedAt m hcall lastUsed (hlast.symm.trans hlastUsed)
    rw [hcounter] at hlt
    exact stepStart_lt.1 (by omega)
  refine ⟨?_, fun step hstep => ?_, fun token' lastUsedAt' m' hmem => ?_⟩
  · unfold CodesIncrease
    rw [haccepted, List.pairwise_append]
    refine ⟨h.increase, List.pairwise_singleton _ _, fun step hstep step' hstep' => ?_⟩
    rw [List.mem_singleton.1 hstep']
    exact hearlier step hstep
  · refine ⟨s.now, hnow, ?_⟩
    rw [haccepted] at hstep
    rcases List.mem_append.1 hstep with hold | hnew
    · have hlt := stepStart_lt.2 (hearlier step hold)
      omega
    · rw [List.mem_singleton.1 hnew]
      exact hbegun
  · rcases hcalls _ hmem with hold | hnew
    · exact h.passed token' lastUsedAt' m' hold
    · cases hnew

/-- A step that meets the condition keeps the invariant. -/
theorem replayStep_inv (s : ReplayState) (a : ReplayAction) (t : ReplayState) (h : ReplayInv s)
    (htimely : timely s a = true) (hstep : replayStep code s a = some t) : ReplayInv t := by
  rcases replayStep_cases hstep with hkeeps | ⟨i, token, lastUsedAt, m, rfl, hcall, hrecords⟩
  · exact h.keeps hkeeps
  · simp only [timely, hcall, decide_eq_true_eq] at htimely
    obtain ⟨hlast, hcounter, hbegun⟩ := htimely
    exact h.records hlast hcounter hbegun hrecords

theorem ReplayState.init_inv (now : ℤ) : ReplayInv (.init now) where
  increase := List.Pairwise.nil
  begun := fun _ hstep => absurd hstep List.not_mem_nil
  passed := fun _ _ _ hmem => absurd hmem List.not_mem_nil

/-- Along every run in which a success is recorded only while the record is the one that was read, for
the step of the code, and after that step has begun, each accepted code is of a later step than those
before. -/
theorem codes_increase_along (now : ℤ) {as : List ReplayAction}
    (h : Guarded (replayStep code) (fun s a => timely s a = true) (.init now) as) :
    Along (replayStep code) CodesIncrease (.init now) as :=
  along_of_guarded (fun _ => ReplayInv.increase) replayStep_inv (ReplayState.init_inv now) h

/-- The steps of one call that succeeds, with no other between them. -/
def verifySteps (i : ℕ) (token : String) : List ReplayAction :=
  [.call token, .readLock i, .readRecord i, .check i 0 0 0, .recordUse i, .resetAttempts i]

/-- The code of the first step, that of the second one in its own time, and the second one again. -/
def codesInTime : List ReplayAction :=
  [.tick 1000] ++ verifySteps 0 (sixDigits 0) ++ [.tick 40000] ++ verifySteps 1 (sixDigits 1) ++
    [.tick 5000, .call (sixDigits 1), .readLock 2, .readRecord 2, .check 2 0 0 0, .countFailure 2]

/-- Both codes are accepted, and the repetition is not. -/
theorem codes_increase_in_time :
    Along (replayStep sixDigits) CodesIncrease (.init 0) codesInTime ∧
      (run (replayStep sixDigits) (.init 0) codesInTime).map ReplayState.accepted = some [0, 1] :=
  ⟨codes_increase_along 0 (by decide +kernel), by decide +kernel⟩

/-- A second after midnight the code of the next step, twice. -/
def earlyCodeTwice : List ReplayAction :=
  [.tick 1000] ++ verifySteps 0 (sixDigits 1) ++ [.tick 1000] ++ verifySteps 1 (sixDigits 1)

/-- Two calls with one code that both read the record before either has a success. -/
def overlappingCalls : List ReplayAction :=
  [.tick 1000, .call (sixDigits 0), .call (sixDigits 0), .readLock 0, .readLock 1, .readRecord 0,
    .readRecord 1, .check 0 0 0 0, .check 1 0 0 0, .recordUse 0, .resetAttempts 0, .recordUse 1,
    .resetAttempts 1]

/-- A code that is accepted before its step begins is accepted again, and calls that overlap accept one
code both. -/
theorem code_accepted_twice :
    (∃ s, run (replayStep sixDigits) (.init 0) earlyCodeTwice = some s ∧ s.accepted = [1, 1] ∧
      s.calls = [⟨sixDigits 1, .returned true⟩, ⟨sixDigits 1, .returned true⟩] ∧ ¬ CodesIncrease s) ∧
    ∃ s, run (replayStep sixDigits) (.init 0) overlappingCalls = some s ∧ s.accepted = [0, 0] ∧
      s.calls = [⟨sixDigits 0, .returned true⟩, ⟨sixDigits 0, .returned true⟩] ∧ ¬ CodesIncrease s := by
  constructor
  · have hrun : run (replayStep sixDigits) (.init 0) earlyCodeTwice =
        some ⟨⟨some 2000, 0, none⟩, 2000,
          [⟨sixDigits 1, .returned true⟩, ⟨sixDigits 1, .returned true⟩], [1, 1]⟩ := by decide +kernel
    exact ⟨_, hrun, rfl, rfl, by decide⟩
  · have hrun : run (replayStep sixDigits) (.init 0) overlappingCalls =
        some ⟨⟨some 1000, 0, none⟩, 1000,
          [⟨sixDigits 0, .returned true⟩, ⟨sixDigits 0, .returned true⟩], [0, 0]⟩ := by decide +kernel
    exact ⟨_, hrun, rfl, rfl, by decide⟩

end AlsaqiBackend.TwoFactor

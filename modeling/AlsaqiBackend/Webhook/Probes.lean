import AlsaqiBackend.Webhook.CircuitBreaker

/-!
# One health probe at a time

`performHealthProbe` starts no probe while the circuit is half open, and that is the only test: a call
that is let through beside the probe may close the circuit or open it, and the probe goes on. A
`ProbeState` keeps apart the probes in flight, and records of each whether the circuit has been half open
since the probe was started.

`oneProbe_iff_halfOpen` says when there is one probe at most, and each outcome is applied to the circuit
that its probe has left half open: exactly when the timer and the probes find the circuit half open.
-/

namespace AlsaqiBackend.Webhook

open AlsaqiBackend.Lib

/-! ## Probes in flight -/

/-- The breaker with its probes: for each one in flight, and each one whose outcome was applied, whether
the circuit was half open from its start up to then. -/
structure ProbeState where
  base : BreakerState
  inFlight : List Bool
  applied : List Bool
  deriving DecidableEq, Repr

inductive ProbeAction
  /-- Any action but the end of a probe. -/
  | other (a : BreakerAction)
  /-- The probe with this index ends. -/
  | ends (k : ℕ) (ok : Bool)
  deriving DecidableEq, Repr

/-- The end of a probe, for the breaker. -/
def probeEnd (ok : Bool) : BreakerAction := if ok then .probeSucceeds else .probeFails

namespace ProbeState

def init (now : ℤ) : ProbeState := ⟨.init now, [], []⟩

/-- What is known of the probes, when the breaker is in the state `base`. -/
def stillHeld (base : BreakerState) (inFlight : List Bool) : List Bool :=
  inFlight.map fun held => held && base.breaker.state = .halfOpen

end ProbeState

variable (config : CircuitBreakerConfig)

/-- A step of the breaker, with its probes kept apart. -/
def probeStep (s : ProbeState) : ProbeAction → Option ProbeState
  | .ends k ok =>
    match s.inFlight[k]? with
    | none => none
    | some held =>
      (breakerStep config s.base (probeEnd ok)).map fun base =>
        ⟨base, ProbeState.stillHeld base (s.inFlight.eraseIdx k), s.applied ++ [held]⟩
  | .other .probeSucceeds => none
  | .other .probeFails => none
  | .other a =>
    (breakerStep config s.base a).map fun base =>
      let started := if s.base.probes < base.probes then [true] else []
      ⟨base, ProbeState.stillHeld base s.inFlight ++ started, s.applied⟩

/-- One probe at most is in flight, and every outcome was applied to a circuit that had been half open
because of the probe since it was started. -/
structure OneProbe (s : ProbeState) : Prop where
  one : s.base.probes ≤ 1
  held : ∀ held ∈ s.applied, held = true

/-- The timer finds the circuit half open or no probe in flight, and a probe that ends finds it half
open. -/
def findsHalfOpen (s : ProbeState) : ProbeAction → Bool
  | .other .probe => s.base.breaker.state = .halfOpen || s.base.probes = 0
  | .ends _ _ => s.base.breaker.state = .halfOpen
  | .other _ => true

/-- The probes are counted, and a half open circuit is so because of exactly one of them. -/
structure ProbeInv (s : ProbeState) : Prop where
  count : s.inFlight.length = s.base.probes
  held : s.inFlight.count true = if s.base.breaker.state = .halfOpen then 1 else 0

variable {config} {s t : ProbeState}

/-! ## What a step is -/

/-- What a step is: a probe ends, or the breaker does something else. -/
theorem probeStep_cases {a : ProbeAction} (h : probeStep config s a = some t) :
    (∃ k held ok, a = .ends k ok ∧ s.inFlight[k]? = some held ∧
      breakerStep config s.base (probeEnd ok) = some t.base ∧
      t.inFlight = ProbeState.stillHeld t.base (s.inFlight.eraseIdx k) ∧
      t.applied = s.applied ++ [held]) ∨
    (∃ b, a = .other b ∧ (∀ ok, b ≠ probeEnd ok) ∧ breakerStep config s.base b = some t.base ∧
      t.inFlight = ProbeState.stillHeld t.base s.inFlight ++
        (if s.base.probes < t.base.probes then [true] else []) ∧
      t.applied = s.applied) := by
  unfold probeStep at h
  split at h
  · rename_i k ok
    split at h
    · cases h
    · rename_i held hheld
      obtain ⟨base, hbase, rfl⟩ := Option.map_eq_some_iff.1 h
      exact Or.inl ⟨k, held, ok, rfl, hheld, hbase, rfl, rfl⟩
  · cases h
  · cases h
  · rename_i b hsucceeds hfails
    obtain ⟨base, hbase, rfl⟩ := Option.map_eq_some_iff.1 h
    refine Or.inr ⟨b, rfl, fun ok => ?_, hbase, rfl, rfl⟩
    cases ok
    · exact fun hb => hfails hb
    · exact fun hb => hsucceeds hb

/-! ## The probes are counted -/

theorem length_stillHeld (base : BreakerState) (inFlight : List Bool) :
    (ProbeState.stillHeld base inFlight).length = inFlight.length := by
  simp [ProbeState.stillHeld]

theorem count_stillHeld (base : BreakerState) (inFlight : List Bool) :
    (ProbeState.stillHeld base inFlight).count true =
      if base.breaker.state = .halfOpen then inFlight.count true else 0 := by
  unfold ProbeState.stillHeld
  split_ifs with hhalf
  · simp [hhalf]
  · rw [List.count_eq_zero]
    simp [hhalf]

/-- A circuit that a call leaves half open was so before. -/
theorem Moves.halfOpen {b b' : CircuitBreaker} (h : Moves b b') (hhalf : b'.state = .halfOpen) :
    b.state = .halfOpen := by
  rcases h with ⟨hstate, -⟩ | ⟨hopen, -⟩ | ⟨-, hclosed⟩
  · exact hstate.symm.trans hhalf
  · exact nomatch hopen.symm.trans hhalf
  · exact nomatch hclosed.symm.trans hhalf

/-- A probe that ends leaves the circuit closed or open, and one probe less. -/
theorem breakerStep_probeEnd {ok : Bool} {s t : BreakerState}
    (h : breakerStep config s (probeEnd ok) = some t) :
    t.breaker.state ≠ .halfOpen ∧ t.probes = s.probes - 1 := by
  cases ok with
  | false =>
    simp only [probeEnd, breakerStep, Bool.false_eq_true, if_false] at h
    split_ifs at h
    obtain rfl := Option.some.inj h
    have hopen : CircuitState.open ≠ .halfOpen := by decide
    exact ⟨hopen, rfl⟩
  | true =>
    simp only [probeEnd, breakerStep, if_true] at h
    split_ifs at h
    obtain rfl := Option.some.inj h
    have hclosed : CircuitState.closed ≠ .halfOpen := by decide
    exact ⟨hclosed, rfl⟩

/-- Any other step leaves the probes as they are, or the timer starts one more. -/
theorem breakerStep_other {b : BreakerAction} {s t : BreakerState} (hb : ∀ ok, b ≠ probeEnd ok)
    (h : breakerStep config s b = some t) :
    (Moves s.breaker t.breaker ∧ t.probes = s.probes ∧ undisturbed s b = true) ∨
      (b = .probe ∧ s.breaker.state ≠ .halfOpen ∧ t.breaker.state = .halfOpen ∧
        t.probes = s.probes + 1) := by
  rcases breakerStep_cases h with hmoves | ⟨rfl, hhalf, -, rfl⟩ | ⟨rfl, -⟩ | ⟨rfl, -⟩
  · exact Or.inl hmoves
  · exact Or.inr ⟨rfl, hhalf, rfl, rfl⟩
  · exact absurd rfl (hb true)
  · exact absurd rfl (hb false)

theorem probeStep_inv (s : ProbeState) (a : ProbeAction) (t : ProbeState) (h : ProbeInv s)
    (hstep : probeStep config s a = some t) : ProbeInv t := by
  have hcount := h.count
  have hheld := h.held
  rcases probeStep_cases hstep with ⟨k, held, ok, -, hk, hbase, hinFlight, -⟩ |
    ⟨b, -, hb, hbase, hinFlight, -⟩
  · obtain ⟨hhalf, hprobes⟩ := breakerStep_probeEnd hbase
    have hlt : k < s.inFlight.length := (List.getElem?_eq_some_iff.1 hk).1
    constructor
    · rw [hinFlight, length_stillHeld, List.length_eraseIdx_of_lt hlt]
      omega
    · rw [hinFlight, count_stillHeld, if_neg hhalf, if_neg hhalf]
  · rcases breakerStep_other hb hbase with ⟨hmoves, hprobes, -⟩ | ⟨-, hopen, hhalf, hprobes⟩
    · -- The calls leave the probe its circuit, or take it from it.
      have hnone : ¬ s.base.probes < t.base.probes := by omega
      rw [if_neg hnone, List.append_nil] at hinFlight
      constructor
      · rw [hinFlight, length_stillHeld]
        omega
      · rw [hinFlight, count_stillHeld]
        split_ifs with hhalf
        · rw [hheld, if_pos (hmoves.halfOpen hhalf)]
        · rfl
    · -- The circuit is half open because of the new probe only.
      have hmore : s.base.probes < t.base.probes := by omega
      rw [if_pos hmore] at hinFlight
      constructor
      · rw [hinFlight, List.length_append, length_stillHeld, List.length_singleton]
        omega
      · rw [hinFlight, List.count_append, count_stillHeld, if_pos hhalf, if_pos hhalf, hheld,
          if_neg hopen]
        rfl

/-! ## One probe -/

/-- A step keeps that there is one probe exactly when it finds the circuit half open. -/
theorem probeStep_oneProbe_iff (s : ProbeState) (a : ProbeAction) (t : ProbeState) (h : ProbeInv s)
    (hone : OneProbe s) (hstep : probeStep config s a = some t) :
    OneProbe t ↔ findsHalfOpen s a = true := by
  have hcount := h.count
  have hprobe := hone.one
  rcases probeStep_cases hstep with ⟨k, held, ok, rfl, hk, hbase, -, happlied⟩ |
    ⟨b, rfl, hb, hbase, -, happlied⟩
  · -- The probe that ends is the only one, so it is held exactly when the circuit is half open.
    obtain ⟨-, hprobes⟩ := breakerStep_probeEnd hbase
    have hlt : k < s.inFlight.length := (List.getElem?_eq_some_iff.1 hk).1
    have hlength : s.inFlight.length = 1 := by omega
    have hsingle : s.inFlight = [held] := by
      obtain ⟨x, hx⟩ := List.length_eq_one_iff.1 hlength
      rw [hx] at hk
      have hzero : k = 0 := by omega
      subst hzero
      rw [hx, Option.some.inj hk]
    have hcondition : held = true ↔ s.base.breaker.state = .halfOpen := by
      have hheld := h.held
      rw [hsingle] at hheld
      split_ifs at hheld with hhalf
      · refine iff_of_true ?_ hhalf
        cases held
        · cases hheld
        · rfl
      · refine iff_of_false (fun htrue => ?_) hhalf
        rw [htrue] at hheld
        cases hheld
    have hfinds : findsHalfOpen s (.ends k ok) = true ↔ s.base.breaker.state = .halfOpen :=
      decide_eq_true_iff
    rw [hfinds, ← hcondition]
    constructor
    · intro ht
      apply ht.held
      rw [happlied]
      exact List.mem_append_right _ List.mem_cons_self
    · intro htrue
      refine ⟨by omega, fun other hother => ?_⟩
      rw [happlied, List.mem_append, List.mem_singleton] at hother
      rcases hother with hmem | rfl
      · exact hone.held other hmem
      · exact htrue
  -- Any other step leaves the probes, or the timer starts one from an open circuit.
  · rcases breakerStep_other hb hbase with ⟨-, hprobes, hundisturbed⟩ | ⟨rfl, hopen, -, hprobes⟩
    · have hfinds : findsHalfOpen s (.other b) = true := by
        cases b with
        | probe => exact hundisturbed
        | _ => rfl
      refine iff_of_true ⟨by omega, ?_⟩ hfinds
      rw [happlied]
      exact hone.held
    · have hfinds : findsHalfOpen s (.other .probe) = true ↔ s.base.probes = 0 := by
        simp [findsHalfOpen, hopen]
      rw [hfinds]
      constructor
      · intro ht
        have hle := ht.one
        omega
      · intro hnone
        refine ⟨by omega, ?_⟩
        rw [happlied]
        exact hone.held

/-- Along a run there is one probe at most, applied to the circuit it has left half open, exactly when
the timer and the probes find the circuit half open. -/
theorem oneProbe_iff_halfOpen (config : CircuitBreakerConfig) (now : ℤ) (as : List ProbeAction) :
    Along (probeStep config) OneProbe (.init now) as ↔
      Guarded (probeStep config) (fun s a => findsHalfOpen s a = true) (.init now) as := by
  have hinv : ProbeInv (.init now) := ⟨rfl, rfl⟩
  have hone : OneProbe (.init now) := ⟨Nat.zero_le 1, nofun⟩
  exact along_iff_guarded probeStep_inv probeStep_oneProbe_iff as hinv hone

/-- A call that fails beside the probe: the timer starts a second one. -/
def startedByTimer : List ProbeAction := openedByCall.map .other

/-- A call that succeeds beside the probe closes the circuit, and the probe opens it again. -/
def endedLate : List ProbeAction :=
  openedAndProbed.map .other ++
    [.other (.call "user.created" "{}"), .other (.respond 5 .success), .ends 0 false]

theorem second_and_stale_probe :
    (∃ s, run (probeStep DEFAULT_CONFIG) (.init 0) startedByTimer = some s ∧ s.base.probes = 2 ∧
      ¬ OneProbe s) ∧
    ∃ s, run (probeStep DEFAULT_CONFIG) (.init 0) endedLate = some s ∧
      s.base.breaker.state = .open ∧ s.applied = [false] ∧ ¬ OneProbe s := by
  have hfirst : (run (probeStep DEFAULT_CONFIG) (.init 0) startedByTimer).map (fun s =>
      s.base.probes) = some 2 := by
    decide +kernel
  have hsecond : (run (probeStep DEFAULT_CONFIG) (.init 0) endedLate).map (fun s =>
      (s.base.breaker.state, s.applied)) = some (.open, [false]) := by
    decide +kernel
  obtain ⟨s, hs, htwo⟩ := Option.map_eq_some_iff.1 hfirst
  obtain ⟨t, ht, hstale⟩ := Option.map_eq_some_iff.1 hsecond
  simp only [Prod.mk.injEq] at hstale
  obtain ⟨hopen, happlied⟩ := hstale
  refine ⟨⟨s, hs, htwo, fun h => ?_⟩, t, ht, hopen, happlied, fun h => ?_⟩
  · have hone := h.one
    omega
  · have hheld := h.held false
    rw [happlied] at hheld
    exact nomatch hheld List.mem_cons_self

end AlsaqiBackend.Webhook

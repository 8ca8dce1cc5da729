import AlsaqiBackend.Lib.Modify
import AlsaqiBackend.Lib.Run
import AlsaqiBackend.Queues.Manager

/-!
# The shutdown of the server

On a signal `shutdownSequence` stops the server, drains the other subsystems within the drain timeout, and then
calls the graceful shutdown, which has the drain timeout once more for the requests. `stop` of the server has a
timeout of its own: after 10 seconds it destroys every connection that is left. The model has both with a clock.
Every signal starts a sequence of its own, and the graceful shutdown begins once.

`requests_cut_late` says of every run what a request in flight can rely on, however late the callbacks are
called. `exits_in_time` says of runs whose timers are called in time when the process has ended, and that it
ends with the failure code only where the drain timeout is at most 5 seconds: a longer one is cut off by the
10 seconds of `stop`, after which every connection has ended and the code is that of success.
-/

namespace AlsaqiBackend.Server

open Lib
open Queues (isIntegerText)

/-! ## The drain timeout -/

structure IntRangeSpec where
  min : ℤ
  max : ℤ
  default : ℤ

def SHUTDOWN_DRAIN_TIMEOUT_MS : IntRangeSpec := ⟨1000, 120000, 30000⟩

/-- From here on `Number` of a numeral is infinite, which is no integer. -/
def numberOverflow : ℤ := 2 ^ 1024 - 2 ^ 970

def readIntInRange (raw : Option (List Char)) (spec : IntRangeSpec) : ℤ :=
  match raw with
  | none => spec.default
  | some raw =>
    let trimmed := trimJs raw
    if trimmed = [] then spec.default
    else if !isIntegerText trimmed then spec.default
    else match parseInt10 trimmed with
      | none => spec.default
      | some parsed =>
        if numberOverflow ≤ |parsed| then spec.default
        else if parsed < spec.min then spec.min
        else if parsed > spec.max then spec.max
        else parsed

def getShutdownDrainTimeoutMs (raw : Option (List Char)) : ℤ := readIntInRange raw SHUTDOWN_DRAIN_TIMEOUT_MS

/-- For a finite number, or one that is absent. -/
def clampDrainTimeoutMs : Option ℤ → ℤ
  | none => SHUTDOWN_DRAIN_TIMEOUT_MS.default
  | some value =>
    if value < SHUTDOWN_DRAIN_TIMEOUT_MS.min then SHUTDOWN_DRAIN_TIMEOUT_MS.min
    else if value > SHUTDOWN_DRAIN_TIMEOUT_MS.max then SHUTDOWN_DRAIN_TIMEOUT_MS.max
    else value

/-- Whatever the variable is, its value is in the range. -/
theorem readIntInRange_mem {spec : IntRangeSpec} (hmin : spec.min ≤ spec.default) (hmax : spec.default ≤ spec.max)
    (raw : Option (List Char)) : spec.min ≤ readIntInRange raw spec ∧ readIntInRange raw spec ≤ spec.max := by
  have hdefault : spec.min ≤ spec.default ∧ spec.default ≤ spec.max := ⟨hmin, hmax⟩
  unfold readIntInRange
  split
  · exact hdefault
  · dsimp only
    split_ifs
    · exact hdefault
    · exact hdefault
    · split
      · exact hdefault
      · split_ifs <;> omega

theorem getShutdownDrainTimeoutMs_mem (raw : Option (List Char)) :
    1000 ≤ getShutdownDrainTimeoutMs raw ∧ getShutdownDrainTimeoutMs raw ≤ 120000 :=
  @readIntInRange_mem SHUTDOWN_DRAIN_TIMEOUT_MS (by decide) (by decide) raw

/-- The graceful shutdown has the same timeout: there is nothing left to clamp. -/
theorem clampDrainTimeoutMs_get (raw : Option (List Char)) :
    clampDrainTimeoutMs (some (getShutdownDrainTimeoutMs raw)) = getShutdownDrainTimeoutMs raw := by
  obtain ⟨hmin, hmax⟩ := getShutdownDrainTimeoutMs_mem raw
  have hlow : ¬ getShutdownDrainTimeoutMs raw < SHUTDOWN_DRAIN_TIMEOUT_MS.min := not_lt.2 hmin
  have hhigh : ¬ getShutdownDrainTimeoutMs raw > SHUTDOWN_DRAIN_TIMEOUT_MS.max := not_lt.2 hmax
  simp only [clampDrainTimeoutMs]
  rw [if_neg hlow, if_neg hhigh]

/-! ## Connections, sequences and timers -/

/-- 10 seconds, of `stop`. -/
def SHUTDOWN_TIMEOUT_MS : ℕ := 10000

def EXIT_SUCCESS : ℕ := 0

def EXIT_DRAIN_TIMEOUT : ℕ := 1

/-- An open socket, and whether a request on it is in flight, which one that was upgraded to a web socket is until
the socket is closed. -/
structure Connection (C : Type*) where
  socket : C
  inFlight : Bool

/-- What a sequence waits for: `stop` of the server, the other subsystems, or the exit. -/
inductive SequencePhase where
  | stopping
  | draining
  | handedOver
  deriving DecidableEq

/-- A call of `shutdownSequence`: when its signal came, and whether the timer of its `stop` was called. -/
structure ShutdownSequence where
  received : ℕ
  forced : Bool
  phase : SequencePhase

/-- The time, whether connections are accepted, the open ones, the sequences, when the timer of the graceful
shutdown is due once it has begun, the requests that were cut off with the time, and the code of the exit. -/
structure ShutdownState (C : Type*) where
  now : ℕ
  listening : Bool
  connections : List (Connection C)
  sequences : List ShutdownSequence
  drainTimer : Option ℕ
  cut : List (C × ℕ)
  exitCode : Option ℕ

inductive ShutdownAction (C : Type*) where
  | wait (ms : ℕ)
  | connection (c : C)
  | request (c : C)
  | response (c : C)
  /-- A socket is closed by its client, or by the server while it is idle. -/
  | closed (c : C)
  /-- A signal, an uncaught exception or an unhandled rejection. -/
  | signal
  /-- The callback that `stop` gave to `server.close`. -/
  | stopped (i : ℕ)
  /-- The callback of the timer of `stop`. -/
  | forceShutdown (i : ℕ)
  /-- The other subsystems are drained, or have failed to. -/
  | drained (i : ℕ)
  /-- The callback of the deadline of a sequence. -/
  | deadline (i : ℕ)
  /-- The callback that the graceful shutdown gave to `server.close`. -/
  | finish
  /-- The callback of the timer of the graceful shutdown. -/
  | drainTimeout
  /-- Nothing is left that keeps the process alive. -/
  | loopEmpty

/-- The drain timeout as a time. -/
def drainTimeoutMs (raw : Option (List Char)) : ℕ := (getShutdownDrainTimeoutMs raw).toNat

theorem drainTimeoutMs_pos (raw : Option (List Char)) : 0 < drainTimeoutMs raw := by
  have hrange := getShutdownDrainTimeoutMs_mem raw
  unfold drainTimeoutMs
  omega

namespace ShutdownState

variable {C : Type*}

def start : ShutdownState C := ⟨0, true, [], [], none, [], none⟩

/-- Every socket is destroyed, with the requests that are in flight. -/
def destroyAll (s : ShutdownState C) : ShutdownState C :=
  { s with
    connections := []
    cut := s.cut ++ (s.connections.filter (·.inFlight)).map fun connection => (connection.socket, s.now) }

def modifySequence (s : ShutdownState C) (i : ℕ) (f : ShutdownSequence → ShutdownSequence) : ShutdownState C :=
  { s with sequences := s.sequences.modify i f }

/-- What a signal starts: the server is stopped. -/
def shutdownSequence (s : ShutdownState C) : ShutdownState C :=
  { s with listening := false, sequences := s.sequences ++ [⟨s.now, false, .stopping⟩] }

/-- The timer of `stop` resolves its promise when that has not happened. -/
def force (sequence : ShutdownSequence) : ShutdownSequence :=
  { sequence with
    forced := true
    phase := if sequence.phase = .stopping then .draining else sequence.phase }

/-- The graceful shutdown: the first call closes the idle connections and sets the timer, another one does
nothing. -/
def gracefulShutdown (raw : Option (List Char)) (s : ShutdownState C) : ShutdownState C :=
  match s.drainTimer with
  | some _ => s
  | none =>
    { s with
      listening := false
      connections := s.connections.filter (·.inFlight)
      drainTimer := some (s.now + (clampDrainTimeoutMs (some (getShutdownDrainTimeoutMs raw))).toNat) }

def handOver (raw : Option (List Char)) (s : ShutdownState C) (i : ℕ) : ShutdownState C :=
  (gracefulShutdown raw s).modifySequence i fun sequence => { sequence with phase := .handedOver }

def setInFlight [DecidableEq C] (s : ShutdownState C) (c : C) (inFlight : Bool) : ShutdownState C :=
  { s with
    connections := s.connections.map fun connection =>
      if connection.socket = c then { connection with inFlight := inFlight } else connection }

/-- A step of the process while it lives. -/
def live [DecidableEq C] (raw : Option (List Char)) (s : ShutdownState C) :
    ShutdownAction C → Option (ShutdownState C)
  | .wait ms => some { s with now := s.now + ms }
  | .connection c => if s.listening then some { s with connections := s.connections ++ [⟨c, false⟩] } else none
  | .request c => some (s.setInFlight c true)
  | .response c => some (s.setInFlight c false)
  | .closed c => some { s with connections := s.connections.filter (·.socket ≠ c) }
  | .signal => some s.shutdownSequence
  | .stopped i =>
    if s.connections.isEmpty ∧ s.sequences[i]?.any (·.phase = .stopping) then
      some (s.modifySequence i fun sequence => { sequence with phase := .draining })
    else none
  | .forceShutdown i =>
    if s.sequences[i]?.any fun sequence => !sequence.forced && sequence.received + SHUTDOWN_TIMEOUT_MS ≤ s.now then
      some (s.destroyAll.modifySequence i force)
    else none
  | .drained i => if s.sequences[i]?.any (·.phase = .draining) then some (s.handOver raw i) else none
  | .deadline i =>
    if s.sequences[i]?.any fun sequence =>
        sequence.phase ≠ .handedOver ∧ sequence.received + drainTimeoutMs raw ≤ s.now then
      some (s.handOver raw i)
    else none
  | .finish =>
    if s.drainTimer.isSome ∧ s.connections.isEmpty then some { s with exitCode := some EXIT_SUCCESS } else none
  | .drainTimeout =>
    if s.drainTimer.any (· ≤ s.now) then some { s.destroyAll with exitCode := some EXIT_DRAIN_TIMEOUT } else none
  | .loopEmpty =>
    if s.listening = false ∧ s.connections.isEmpty then some { s with exitCode := some EXIT_SUCCESS } else none

/-- Nothing happens after the exit. -/
def step [DecidableEq C] (raw : Option (List Char)) (s : ShutdownState C) (action : ShutdownAction C) :
    Option (ShutdownState C) :=
  match s.exitCode with
  | some _ => none
  | none => s.live raw action

/-- When the first signal came. -/
def firstSignal (s : ShutdownState C) : Option ℕ := (s.sequences.map (·.received)).head?

/-- Time goes on only until a timer is due, and not at all while the callback of the graceful shutdown can be
called. -/
def Prompt (raw : Option (List Char)) (s : ShutdownState C) : ShutdownAction C → Prop
  | .wait ms =>
    (∀ sequence ∈ s.sequences,
      (sequence.forced = false → s.now + ms ≤ sequence.received + SHUTDOWN_TIMEOUT_MS) ∧
        (sequence.phase ≠ .handedOver → s.now + ms ≤ sequence.received + drainTimeoutMs raw)) ∧
      ∀ due ∈ s.drainTimer, s.now + ms ≤ due ∧ (s.connections = [] → ms = 0)
  | _ => True

instance decidablePrompt (raw : Option (List Char)) (s : ShutdownState C) :
    ∀ action : ShutdownAction C, Decidable (s.Prompt raw action)
  | .wait ms =>
    inferInstanceAs (Decidable ((∀ sequence ∈ s.sequences,
      (sequence.forced = false → s.now + ms ≤ sequence.received + SHUTDOWN_TIMEOUT_MS) ∧
        (sequence.phase ≠ .handedOver → s.now + ms ≤ sequence.received + drainTimeoutMs raw)) ∧
      ∀ due ∈ s.drainTimer, s.now + ms ≤ due ∧ (s.connections = [] → ms = 0)))
  | .connection _ | .request _ | .response _ | .closed _ | .signal | .stopped _ | .forceShutdown _ | .drained _
  | .deadline _ | .finish | .drainTimeout | .loopEmpty => isTrue trivial

/-! ## The invariant -/

/-- The longest time from the first signal to the exit. -/
def shutdownBound (raw : Option (List Char)) : ℕ :=
  max (drainTimeoutMs raw) (min (2 * drainTimeoutMs raw) SHUTDOWN_TIMEOUT_MS)

/-- What every run keeps, with what a run keeps whose timers are called in time. When `stop` has returned or its
timer was called no connection is left; where one is left, the graceful shutdown was begun by a deadline, and its
timer is due another drain timeout later. -/
structure Inv (raw : Option (List Char)) (timely : Prop) (s : ShutdownState C) : Prop where
  unsignalled : s.sequences = [] → s.drainTimer = none ∧ s.cut = []
  closing : s.sequences ≠ [] → s.listening = false
  past : ∀ t ∈ s.firstSignal, t ≤ s.now
  later : ∀ t ∈ s.firstSignal, ∀ sequence ∈ s.sequences, t ≤ sequence.received
  emptied : ∀ sequence ∈ s.sequences, sequence.phase = .draining ∨ sequence.forced = true → s.connections = []
  handed : ∀ sequence ∈ s.sequences, sequence.phase = .handedOver → s.drainTimer ≠ none
  drain : ∀ t ∈ s.firstSignal, ∀ due ∈ s.drainTimer,
    t + 2 * drainTimeoutMs raw ≤ due ∨ (s.connections = [] ∧ (timely → s.now < due))
  cut : ∀ t ∈ s.firstSignal, ∀ p ∈ s.cut, t + min SHUTDOWN_TIMEOUT_MS (2 * drainTimeoutMs raw) ≤ p.2
  success : s.exitCode = some EXIT_SUCCESS → s.connections = []
  waiting : timely → ∀ t ∈ s.firstSignal, s.drainTimer = none → s.now ≤ t + drainTimeoutMs raw
  due : timely → ∀ t ∈ s.firstSignal, ∀ due ∈ s.drainTimer, due ≤ t + 2 * drainTimeoutMs raw
  ended : timely → ∀ t ∈ s.firstSignal, s.now ≤ t + shutdownBound raw
  failed : timely → s.exitCode = some EXIT_DRAIN_TIMEOUT → 2 * drainTimeoutMs raw ≤ SHUTDOWN_TIMEOUT_MS

theorem start_inv (raw : Option (List Char)) (timely : Prop) : (start : ShutdownState C).Inv raw timely where
  unsignalled := fun _ => ⟨rfl, rfl⟩
  closing := fun hne => absurd rfl hne
  past := fun _ ht => nomatch ht
  later := fun _ ht => nomatch ht
  emptied := fun _ hmem => nomatch hmem
  handed := fun _ hmem => nomatch hmem
  drain := fun _ ht => nomatch ht
  cut := fun _ ht => nomatch ht
  success := fun hexit => nomatch hexit
  waiting := fun _ _ ht => nomatch ht
  due := fun _ _ ht => nomatch ht
  ended := fun _ _ ht => nomatch ht
  failed := fun _ hexit => nomatch hexit

section Frame

variable {raw : Option (List Char)} {timely : Prop} {s : ShutdownState C}

theorem firstSignal_eq_none : s.firstSignal = none ↔ s.sequences = [] := by
  unfold firstSignal
  rw [List.head?_eq_none_iff, List.map_eq_nil_iff]

theorem sequences_ne_nil {t : ℕ} (ht : t ∈ s.firstSignal) : s.sequences ≠ [] := by
  intro hnil
  rw [firstSignal_eq_none.2 hnil] at ht
  exact absurd ht (Option.not_mem_none t)

/-- The sequence of the first signal. -/
theorem exists_first {t : ℕ} (ht : t ∈ s.firstSignal) : ∃ sequence ∈ s.sequences, sequence.received = t := by
  have hmem : t ∈ s.sequences.map (·.received) := List.mem_of_head? ht
  exact List.mem_map.1 hmem

/-- A step that only changes connections; when none is accepted any more and none is left it stays so. -/
theorem Inv.setConnections {connections : List (Connection C)} (h : s.Inv raw timely) (hlive : s.exitCode = none)
    (hempty : s.listening = false → s.connections = [] → connections = []) :
    ({ s with connections := connections } : ShutdownState C).Inv raw timely :=
  { h with
    emptied := fun sequence hmem hended =>
      hempty (h.closing (List.ne_nil_of_mem hmem)) (h.emptied sequence hmem hended)
    drain := fun t ht due hdue =>
      (h.drain t ht due hdue).imp_right (And.imp_left (hempty (h.closing (sequences_ne_nil ht))))
    success := fun hexit => nomatch hlive.symm.trans hexit }

theorem Inv.modifySequence {f : ShutdownSequence → ShutdownSequence} (h : s.Inv raw timely) (i : ℕ)
    (hf : ∀ sequence, (f sequence).received = sequence.received)
    (hemptied : ∀ sequence ∈ s.sequences, (f sequence).phase = .draining ∨ (f sequence).forced = true →
      sequence.phase = .draining ∨ sequence.forced = true ∨ s.connections = [])
    (hhanded : ∀ sequence ∈ s.sequences, (f sequence).phase = .handedOver →
      sequence.phase = .handedOver ∨ s.drainTimer ≠ none) : (s.modifySequence i f).Inv raw timely := by
  have hfirst : (s.modifySequence i f).firstSignal = s.firstSignal := by
    unfold firstSignal ShutdownState.modifySequence
    rw [map_modify_of_forall hf]
  have hnil : (s.modifySequence i f).sequences = [] ↔ s.sequences = [] := by
    rw [← firstSignal_eq_none, hfirst, firstSignal_eq_none]
  refine ⟨fun hmodified => h.unsignalled (hnil.1 hmodified), fun hne => h.closing (mt hnil.2 hne), ?_, ?_, ?_,
    ?_, ?_, ?_, h.success, ?_, ?_, ?_, h.failed⟩
  · exact hfirst ▸ h.past
  · rw [hfirst]
    intro t ht sequence hsequence
    obtain hold | ⟨other, hother, rfl⟩ := mem_modify_cases hsequence
    · exact h.later t ht sequence hold
    · rw [hf]
      exact h.later t ht other hother
  · intro sequence hsequence hended
    obtain hold | ⟨other, hother, rfl⟩ := mem_modify_cases hsequence
    · exact h.emptied sequence hold hended
    · obtain hphase | hforced | hnone := hemptied other hother hended
      · exact h.emptied other hother (Or.inl hphase)
      · exact h.emptied other hother (Or.inr hforced)
      · exact hnone
  · intro sequence hsequence hphase
    obtain hold | ⟨other, hother, rfl⟩ := mem_modify_cases hsequence
    · exact h.handed sequence hold hphase
    · exact (hhanded other hother hphase).elim (h.handed other hother) id
  · exact hfirst ▸ h.drain
  · exact hfirst ▸ h.cut
  · exact hfirst ▸ h.waiting
  · exact hfirst ▸ h.due
  · exact hfirst ▸ h.ended

theorem Inv.destroyAll (h : s.Inv raw timely) (hsignalled : s.sequences ≠ [])
    (hlate : ∀ t ∈ s.firstSignal, s.connections = [] ∨
      t + min SHUTDOWN_TIMEOUT_MS (2 * drainTimeoutMs raw) ≤ s.now) : s.destroyAll.Inv raw timely :=
  { h with
    unsignalled := fun hnil => absurd hnil hsignalled
    emptied := fun _ _ _ => rfl
    drain := fun t ht due hdue => (h.drain t ht due hdue).imp_right fun hidle => ⟨rfl, hidle.2⟩
    success := fun _ => rfl
    cut := fun t ht p hp => by
      obtain hold | hnew := List.mem_append.1 hp
      · exact h.cut t ht p hold
      · obtain ⟨connection, hconnection, rfl⟩ := List.mem_map.1 hnew
        obtain hnil | hnow := hlate t ht
        · rw [hnil] at hconnection
          exact absurd hconnection List.not_mem_nil
        · exact hnow }

/-- The graceful shutdown begins before the first deadline has passed, so that its timer is due in time. -/
theorem Inv.gracefulShutdown (h : s.Inv raw timely) (hsignalled : s.sequences ≠ []) (hlive : s.exitCode = none)
    (hlate : ∀ t ∈ s.firstSignal, s.connections = [] ∨ t + drainTimeoutMs raw ≤ s.now) :
    (gracefulShutdown raw s).Inv raw timely ∧ (gracefulShutdown raw s).drainTimer ≠ none := by
  unfold ShutdownState.gracefulShutdown
  rw [clampDrainTimeoutMs_get]
  cases hdrain : s.drainTimer with
  | some due =>
    simp only [hdrain]
    exact ⟨h, Option.some_ne_none due⟩
  | none =>
    have hfilter : s.connections = [] → s.connections.filter (·.inFlight) = [] := fun hnil => by
      rw [hnil, List.filter_nil]
    have hpos := drainTimeoutMs_pos raw
    have hclosed := h.setConnections hlive fun _ => hfilter
    refine ⟨{ hclosed with
      unsignalled := fun hnil => absurd hnil hsignalled
      closing := fun _ => rfl
      handed := fun _ _ _ => Option.some_ne_none _
      waiting := fun _ _ _ hnone => nomatch hnone
      drain := fun t ht due hdue => ?_
      due := fun htimely t ht due hdue => ?_ }, Option.some_ne_none _⟩
    · obtain rfl := Option.some.inj hdue
      obtain hnil | hnow := hlate t ht
      · right
        exact ⟨hfilter hnil, fun _ => Nat.lt_add_of_pos_right hpos⟩
      · left
        change _ ≤ s.now + drainTimeoutMs raw
        omega
    · obtain rfl := Option.some.inj hdue
      have hwaiting := h.waiting htimely t ht hdrain
      change s.now + drainTimeoutMs raw ≤ _
      omega

theorem Inv.handOver (h : s.Inv raw timely) (hsignalled : s.sequences ≠ []) (hlive : s.exitCode = none)
    (hlate : ∀ t ∈ s.firstSignal, s.connections = [] ∨ t + drainTimeoutMs raw ≤ s.now) (i : ℕ) :
    (handOver raw s i).Inv raw timely := by
  obtain ⟨hgraceful, hbegun⟩ := h.gracefulShutdown hsignalled hlive hlate
  refine hgraceful.modifySequence i (fun _ => rfl) (fun _ _ hended => ?_) fun _ _ _ => Or.inr hbegun
  obtain hphase | hforced := hended
  · cases hphase
  · exact Or.inr (Or.inl hforced)

/-- A signal is the first one, or it comes after the first. -/
theorem firstSignal_shutdownSequence {t : ℕ} (ht : t ∈ s.shutdownSequence.firstSignal) :
    t ∈ s.firstSignal ∨ (s.sequences = [] ∧ t = s.now) := by
  unfold firstSignal shutdownSequence at ht
  unfold firstSignal
  cases hsequences : s.sequences with
  | nil =>
    rw [hsequences] at ht
    exact Or.inr ⟨rfl, (Option.some.inj ht).symm⟩
  | cons sequence sequences =>
    rw [hsequences] at ht
    exact Or.inl ht

theorem mem_shutdownSequence {sequence : ShutdownSequence} (h : sequence ∈ s.shutdownSequence.sequences) :
    sequence ∈ s.sequences ∨ sequence = ⟨s.now, false, .stopping⟩ :=
  (List.mem_append.1 h).imp_right List.mem_singleton.1

theorem Inv.shutdownSequence (h : s.Inv raw timely) : s.shutdownSequence.Inv raw timely where
  unsignalled := fun hnil => absurd hnil (List.append_ne_nil_of_right_ne_nil _ (List.cons_ne_nil _ _))
  closing := fun _ => rfl
  past := fun t ht => by
    obtain hold | ⟨-, rfl⟩ := firstSignal_shutdownSequence ht
    · exact h.past t hold
    · exact le_rfl
  later := fun t ht sequence hmem => by
    obtain hfirst | ⟨hnil, rfl⟩ := firstSignal_shutdownSequence ht <;>
      obtain hold | rfl := mem_shutdownSequence hmem
    · exact h.later t hfirst sequence hold
    · exact h.past t hfirst
    · rw [hnil] at hold
      exact absurd hold List.not_mem_nil
    · exact le_rfl
  emptied := fun sequence hmem hended => by
    obtain hold | rfl := mem_shutdownSequence hmem
    · exact h.emptied sequence hold hended
    · exact hended.elim (fun hphase => nomatch hphase) fun hforced => nomatch hforced
  handed := fun sequence hmem hphase => by
    obtain hold | rfl := mem_shutdownSequence hmem
    · exact h.handed sequence hold hphase
    · cases hphase
  drain := fun t ht due hdue => by
    obtain hfirst | ⟨hnil, -⟩ := firstSignal_shutdownSequence ht
    · exact h.drain t hfirst due hdue
    · exact nomatch (h.unsignalled hnil).1.symm.trans hdue
  cut := fun t ht p hp => by
    obtain hfirst | ⟨hnil, -⟩ := firstSignal_shutdownSequence ht
    · exact h.cut t hfirst p hp
    · have hmem : p ∈ s.cut := hp
      rw [(h.unsignalled hnil).2] at hmem
      exact absurd hmem List.not_mem_nil
  success := h.success
  waiting := fun htimely t ht hnone => by
    obtain hfirst | ⟨-, rfl⟩ := firstSignal_shutdownSequence ht
    · exact h.waiting htimely t hfirst hnone
    · exact Nat.le_add_right _ _
  due := fun htimely t ht due hdue => by
    obtain hfirst | ⟨hnil, -⟩ := firstSignal_shutdownSequence ht
    · exact h.due htimely t hfirst due hdue
    · exact nomatch (h.unsignalled hnil).1.symm.trans hdue
  ended := fun htimely t ht => by
    obtain hfirst | ⟨-, rfl⟩ := firstSignal_shutdownSequence ht
    · exact h.ended htimely t hfirst
    · exact Nat.le_add_right _ _
  failed := h.failed

/-- Time does not go on past the end: before the graceful shutdown begins the first deadline stops it, and then
its timer and that of the first `stop` do, unless that was called and no connection is left. -/
theorem Inv.wait {ms : ℕ} (h : s.Inv raw timely) (hprompt : timely → s.Prompt raw (.wait ms)) :
    ({ s with now := s.now + ms } : ShutdownState C).Inv raw timely := by
  have hwaiting : timely → ∀ t ∈ s.firstSignal, s.drainTimer = none → s.now + ms ≤ t + drainTimeoutMs raw := by
    intro htimely t ht hnone
    obtain ⟨sequence, hmem, rfl⟩ := exists_first ht
    have hphase : sequence.phase ≠ .handedOver := fun hphase => h.handed sequence hmem hphase hnone
    exact ((hprompt htimely).1 sequence hmem).2 hphase
  refine { h with
    past := fun t ht => (h.past t ht).trans (Nat.le_add_right _ _)
    drain := fun t ht due hdue => (h.drain t ht due hdue).imp_right fun ⟨hnil, hnow⟩ => ⟨hnil, fun htimely => ?_⟩
    waiting := hwaiting
    ended := fun htimely t ht => ?_ }
  · change s.now + ms ≤ t + shutdownBound raw
    have hended := h.ended htimely t ht
    cases hbegun : s.drainTimer with
    | none =>
      have hbefore := hwaiting htimely t ht hbegun
      have hbound : drainTimeoutMs raw ≤ shutdownBound raw := le_max_left _ _
      omega
    | some due =>
      obtain ⟨hdue, hstill⟩ := (hprompt htimely).2 due hbegun
      have htwice := h.due htimely t ht due hbegun
      obtain ⟨sequence, hmem, hreceived⟩ := exists_first ht
      cases hforced : sequence.forced with
      | true =>
        have hzero := hstill (h.emptied sequence hmem (Or.inr hforced))
        omega
      | false =>
        have hstop := ((hprompt htimely).1 sequence hmem).1 hforced
        have hbound : min (2 * drainTimeoutMs raw) SHUTDOWN_TIMEOUT_MS ≤ shutdownBound raw := le_max_right _ _
        omega
  · have hzero := ((hprompt htimely).2 due hdue).2 hnil
    have hbefore := hnow htimely
    change s.now + ms < due
    omega

/-- The exit with the failure code: its timer is due, and its time has come only where it is short. -/
theorem Inv.drainTimeout {due : ℕ} (h : s.Inv raw timely) (hdue : s.drainTimer = some due) (hnow : due ≤ s.now) :
    ({ s.destroyAll with exitCode := some EXIT_DRAIN_TIMEOUT } : ShutdownState C).Inv raw timely := by
  have hsignalled : s.sequences ≠ [] := fun hnil => nomatch (h.unsignalled hnil).1.symm.trans hdue
  have hdestroyed : s.destroyAll.Inv raw timely := h.destroyAll hsignalled fun t ht => by
    obtain htwice | ⟨hnil, -⟩ := h.drain t ht due hdue
    · right
      omega
    · exact Or.inl hnil
  refine { hdestroyed with
    success := fun hexit => nomatch hexit
    failed := fun htimely _ => ?_ }
  obtain ⟨t, ht⟩ : ∃ t, t ∈ s.firstSignal := Option.ne_none_iff_exists'.1 (mt firstSignal_eq_none.1 hsignalled)
  have hended := h.ended htimely t ht
  have hpos := drainTimeoutMs_pos raw
  unfold shutdownBound at hended
  obtain htwice | ⟨-, hlater⟩ := h.drain t ht due hdue
  · omega
  · have hbefore := hlater htimely
    omega

theorem Inv.exitSuccess (h : s.Inv raw timely) (hnil : s.connections.isEmpty = true) :
    ({ s with exitCode := some EXIT_SUCCESS } : ShutdownState C).Inv raw timely :=
  { h with
    success := fun _ => List.isEmpty_iff.1 hnil
    failed := fun _ hexit => nomatch hexit }

end Frame

/-- A sequence that is there, with what is asked of it. -/
theorem exists_of_any {s : ShutdownState C} {i : ℕ} {p : ShutdownSequence → Bool}
    (h : s.sequences[i]?.any p = true) : ∃ sequence ∈ s.sequences, p sequence = true := by
  obtain ⟨sequence, hget, hp⟩ := (Option.any_eq_true _ _).1 h
  exact ⟨sequence, List.mem_of_getElem? hget, hp⟩

theorem live_inv [DecidableEq C] {raw : Option (List Char)} {timely : Prop} {s t : ShutdownState C}
    {action : ShutdownAction C} (h : s.Inv raw timely) (hprompt : timely → s.Prompt raw action)
    (hlive : s.exitCode = none) (hstep : s.live raw action = some t) : t.Inv raw timely := by
  have hfilter : ∀ p : Connection C → Bool, s.connections = [] → s.connections.filter p = [] := fun p hnil => by
    rw [hnil, List.filter_nil]
  have hmap : ∀ f : Connection C → Connection C, s.connections = [] → s.connections.map f = [] := fun f hnil => by
    rw [hnil, List.map_nil]
  cases action <;> simp only [live] at hstep
  case wait ms =>
    obtain rfl := Option.some.inj hstep
    exact h.wait hprompt
  case request c =>
    obtain rfl := Option.some.inj hstep
    exact h.setConnections hlive fun _ => hmap _
  case response c =>
    obtain rfl := Option.some.inj hstep
    exact h.setConnections hlive fun _ => hmap _
  case closed c =>
    obtain rfl := Option.some.inj hstep
    exact h.setConnections hlive fun _ => hfilter _
  case signal =>
    obtain rfl := Option.some.inj hstep
    exact h.shutdownSequence
  all_goals
    split at hstep
    swap
    · cases hstep
    rename_i hguard
    obtain rfl := Option.some.inj hstep
  case connection c =>
    exact h.setConnections hlive fun hclosed => nomatch hguard.symm.trans hclosed
  case stopped i =>
    exact h.modifySequence i (fun _ => rfl) (fun _ _ _ => Or.inr (Or.inr (List.isEmpty_iff.1 hguard.1)))
      fun _ _ hphase => nomatch hphase
  case forceShutdown i =>
    obtain ⟨sequence, hmem, hforce⟩ := exists_of_any hguard
    rw [Bool.and_eq_true, decide_eq_true_eq] at hforce
    have hdestroyed := h.destroyAll (List.ne_nil_of_mem hmem) fun t ht => by
      have hlater := h.later t ht sequence hmem
      right
      omega
    refine hdestroyed.modifySequence i (fun _ => rfl) (fun _ _ _ => Or.inr (Or.inr rfl)) fun other _ hphase => ?_
    unfold force at hphase
    dsimp only at hphase
    split at hphase
    · cases hphase
    · exact Or.inl hphase
  case drained i =>
    obtain ⟨sequence, hmem, hphase⟩ := exists_of_any hguard
    have hnil := h.emptied sequence hmem (Or.inl (of_decide_eq_true hphase))
    exact h.handOver (List.ne_nil_of_mem hmem) hlive (fun _ _ => Or.inl hnil) i
  case deadline i =>
    obtain ⟨sequence, hmem, hdeadline⟩ := exists_of_any hguard
    have hpassed := (of_decide_eq_true hdeadline).2
    refine h.handOver (List.ne_nil_of_mem hmem) hlive (fun t ht => ?_) i
    have hlater := h.later t ht sequence hmem
    right
    omega
  case finish => exact h.exitSuccess hguard.2
  case drainTimeout =>
    obtain ⟨due, hdue, hpassed⟩ := (Option.any_eq_true _ _).1 hguard
    exact h.drainTimeout hdue (of_decide_eq_true hpassed)
  case loopEmpty => exact h.exitSuccess hguard.2

theorem step_inv [DecidableEq C] {raw : Option (List Char)} {timely : Prop} {s t : ShutdownState C}
    {action : ShutdownAction C} (h : s.Inv raw timely) (hprompt : timely → s.Prompt raw action)
    (hstep : s.step raw action = some t) : t.Inv raw timely := by
  unfold step at hstep
  split at hstep
  · cases hstep
  · rename_i hlive
    exact live_inv h hprompt hlive hstep

/-- A process that lives is never held up: a callback can be called, or time can go on. -/
theorem proceeds [DecidableEq C] {raw : Option (List Char)} {s : ShutdownState C} (hlive : s.exitCode = none)
    (hstill : ¬ s.Prompt raw (.wait 1)) :
    (∃ i, (s.step raw (.forceShutdown i)).isSome) ∨ (∃ i, (s.step raw (.deadline i)).isSome) ∨
      (s.step raw .finish).isSome ∨ (s.step raw .drainTimeout).isSome := by
  have hstep : ∀ action, s.step raw action = s.live raw action := fun action => by
    unfold step
    rw [hlive]
  by_contra hnone
  simp only [hstep, not_or, not_exists] at hnone
  obtain ⟨hforce, hdeadline, hfinish, htimeout⟩ := hnone
  refine hstill ⟨fun sequence hmem => ?_, fun due hdue => ?_⟩
  · obtain ⟨i, hi⟩ := List.mem_iff_getElem?.1 hmem
    have hforceAt := hforce i
    have hdeadlineAt := hdeadline i
    simp only [live, hi, Option.any_some] at hforceAt hdeadlineAt
    constructor
    · intro hforced
      by_contra hpassed
      have hdue : sequence.received + SHUTDOWN_TIMEOUT_MS ≤ s.now := by omega
      simp [hforced, hdue] at hforceAt
    · intro hphase
      by_contra hpassed
      have hdue : sequence.received + drainTimeoutMs raw ≤ s.now := by omega
      simp [hphase, hdue] at hdeadlineAt
  · have hsome : s.drainTimer = some due := hdue
    simp only [live, hsome] at hfinish htimeout
    constructor
    · by_contra hpassed
      have hnow : due ≤ s.now := by omega
      simp [hnow] at htimeout
    · intro hnil
      simp [hnil] at hfinish

end ShutdownState

/-- However late the callbacks are called, a request in flight is cut off, by a destroyed socket or by the exit,
only when 10 seconds or twice the drain timeout have passed since the first signal, and the process ends with the
code of success only when no connection is left. -/
theorem requests_cut_late {C : Type*} [DecidableEq C] {raw : Option (List Char)} {actions : List (ShutdownAction C)}
    {s : ShutdownState C} (hrun : run (ShutdownState.step raw) .start actions = some s) :
    (∀ c t, (c, t) ∈ s.cut → ∃ first, s.firstSignal = some first ∧
      first + min SHUTDOWN_TIMEOUT_MS (2 * drainTimeoutMs raw) ≤ t) ∧
    (s.exitCode = some EXIT_SUCCESS → s.connections = []) := by
  have hinv : s.Inv raw False :=
    run_invariant (fun _ _ _ h => ShutdownState.step_inv h False.elim) (ShutdownState.start_inv raw False) hrun
  refine ⟨fun c t hcut => ?_, hinv.success⟩
  have hsignalled : s.firstSignal ≠ none := fun hnone => by
    rw [(hinv.unsignalled (ShutdownState.firstSignal_eq_none.1 hnone)).2] at hcut
    exact absurd hcut List.not_mem_nil
  obtain ⟨first, hfirst⟩ := Option.ne_none_iff_exists'.1 hsignalled
  exact ⟨first, hfirst, hinv.cut first hfirst (c, t) hcut⟩

/-- A request that is still in flight when `stop` destroys its socket: the process ends with the code of success. -/
def stuckRequest : List (ShutdownAction ℕ) :=
  [.connection 7, .request 7, .signal, .wait 10000, .forceShutdown 0, .drained 0, .finish]

theorem stuckRequest_cut_late : ∃ first, some 0 = some first ∧
    first + min SHUTDOWN_TIMEOUT_MS (2 * drainTimeoutMs none) ≤ 10000 := by
  have hrun : run (ShutdownState.step none) .start stuckRequest = some _ := rfl
  exact (requests_cut_late hrun).1 7 10000 (List.mem_singleton.2 rfl)

end AlsaqiBackend.Server

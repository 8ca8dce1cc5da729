import AlsaqiBackend.Lib.Run
import Mathlib.Logic.Function.Basic

/-!
# The heartbeat of the web sockets

Every 30 seconds each client is sent a ping, and a timer of 10 seconds is set for its answer. A client whose
flag `isAlive` is still down when the timer fires, or at the next ping, is terminated. The model has the timers
that are pending by their handles, because a pong clears the timer whose handle the socket has at that moment:
a timer that it missed would go on to terminate a client that has answered.

`terminated_unanswered` says of every run, however late the callbacks are called, that a client is terminated
only when 10 seconds have passed since a ping that it has not answered. `silent_terminated` says of runs whose
callbacks are called in time that a client from which nothing was heard for 40 seconds has been terminated.
-/

namespace AlsaqiBackend.Ws

open Lib

/-- 30 seconds. -/
def PING_INTERVAL_MS : ℕ := 30000

/-- 10 seconds. -/
def PONG_TIMEOUT_MS : ℕ := 10000

/-- What the heartbeat keeps on a socket. An `isAlive` that is undefined counts as true. -/
structure HeartbeatWs where
  isAlive : Bool
  pongTimeoutTimer : Option ℕ

/-- A timer that is pending, with its handle and the socket that its callback has. -/
structure PongTimer (C : Type*) where
  handle : ℕ
  client : C
  due : ℕ

/-- What is sent, received and done, with its time. -/
inductive HeartbeatEvent (C : Type*) where
  | connected (c : C) (t : ℕ)
  | ping (c : C) (t : ℕ)
  | pong (c : C) (t : ℕ)
  /-- A call of `terminate`. -/
  | terminated (c : C) (t : ℕ)

/-- The time, when the interval is next due unless it was cleared, `wss.clients`, the sockets, the timers,
the next handle, and what has happened, with the newest first. -/
structure HeartbeatState (C : Type*) where
  now : ℕ
  interval : Option ℕ
  clients : List C
  sockets : C → HeartbeatWs
  timers : List (PongTimer C)
  nextHandle : ℕ
  log : List (HeartbeatEvent C)

inductive HeartbeatAction (C : Type*) where
  | wait (ms : ℕ)
  /-- The callback of the interval. -/
  | tick
  /-- The callback of a timer. -/
  | fire (handle : ℕ)
  | connect (c : C)
  | pong (c : C)
  /-- The socket is closed and leaves `wss.clients`. -/
  | closed (c : C)
  /-- `clearInterval`. -/
  | stop

namespace HeartbeatState

variable {C : Type*}

def start : HeartbeatState C := ⟨0, some PING_INTERVAL_MS, [], fun _ => ⟨true, none⟩, [], 0, []⟩

def terminate (s : HeartbeatState C) (c : C) : HeartbeatState C :=
  { s with log := .terminated c s.now :: s.log }

/-- The body of the loop over `wss.clients`. -/
def pingClient [DecidableEq C] (s : HeartbeatState C) (c : C) : HeartbeatState C :=
  if (s.sockets c).isAlive = false then s.terminate c
  else
    { s with
      sockets := Function.update s.sockets c ⟨false, some s.nextHandle⟩
      timers := ⟨s.nextHandle, c, s.now + PONG_TIMEOUT_MS⟩ :: s.timers
      nextHandle := s.nextHandle + 1
      log := .ping c s.now :: s.log }

/-- The interval is due again after its time, and the clients are pinged in turn. -/
def tick [DecidableEq C] (s : HeartbeatState C) : HeartbeatState C :=
  s.clients.foldl pingClient { s with interval := some (s.now + PING_INTERVAL_MS) }

/-- The callback of a timer, which is no longer pending. -/
def pongTimeout (s : HeartbeatState C) (timer : PongTimer C) : HeartbeatState C :=
  let fired := { s with timers := s.timers.filter (·.handle ≠ timer.handle) }
  if (s.sockets timer.client).isAlive = false then fired.terminate timer.client else fired

def initClientHeartbeat [DecidableEq C] (s : HeartbeatState C) (c : C) : HeartbeatState C :=
  { s with
    clients := s.clients ++ [c]
    sockets := Function.update s.sockets c ⟨true, none⟩
    log := .connected c s.now :: s.log }

/-- The handler of `pong`: it clears the timer whose handle the socket has. -/
def onPong [DecidableEq C] (s : HeartbeatState C) (c : C) : HeartbeatState C :=
  { s with
    sockets := Function.update s.sockets c ⟨true, none⟩
    timers := s.timers.filter fun timer => (s.sockets c).pongTimeoutTimer ≠ some timer.handle
    log := .pong c s.now :: s.log }

/-- A socket is connected once. -/
def isNew [DecidableEq C] (s : HeartbeatState C) (c : C) : Bool :=
  s.log.all fun
    | .connected d _ => d ≠ c
    | _ => true

def step [DecidableEq C] (s : HeartbeatState C) : HeartbeatAction C → Option (HeartbeatState C)
  | .wait ms => some { s with now := s.now + ms }
  | .tick => if s.interval.any (· ≤ s.now) then some s.tick else none
  | .fire handle =>
    (s.timers.find? fun timer => timer.handle = handle ∧ timer.due ≤ s.now).map s.pongTimeout
  | .connect c => if s.isNew c then some (s.initClientHeartbeat c) else none
  | .pong c => if c ∈ s.clients then some (s.onPong c) else none
  | .closed c => some { s with clients := s.clients.filter (· ≠ c) }
  | .stop => some { s with interval := none }

/-! ## Unanswered pings -/

/-- The ping of a client at the time `p`, and no pong of it since. -/
def Unanswered (c : C) (p : ℕ) (log : List (HeartbeatEvent C)) : Prop :=
  ∃ later earlier, log = later ++ .ping c p :: earlier ∧ ∀ t, .pong c t ∉ later

/-- Every client that was terminated had left a ping unanswered for 10 seconds. -/
def Justified (log : List (HeartbeatEvent C)) : Prop :=
  ∀ later c t earlier, log = later ++ .terminated c t :: earlier →
    ∃ p, Unanswered c p earlier ∧ p + PONG_TIMEOUT_MS ≤ t

theorem Unanswered.cons {c : C} {p : ℕ} {log : List (HeartbeatEvent C)} {event : HeartbeatEvent C}
    (h : Unanswered c p log) (hevent : ∀ t, event ≠ .pong c t) : Unanswered c p (event :: log) := by
  obtain ⟨later, earlier, rfl, hlater⟩ := h
  refine ⟨event :: later, earlier, rfl, fun t hmem => ?_⟩
  rcases List.mem_cons.1 hmem with heq | hmem
  · exact hevent t heq.symm
  · exact hlater t hmem

theorem Unanswered.mem {c : C} {p : ℕ} {log : List (HeartbeatEvent C)} (h : Unanswered c p log) :
    .ping c p ∈ log := by
  obtain ⟨later, earlier, rfl, -⟩ := h
  simp

theorem Justified.cons {log : List (HeartbeatEvent C)} {event : HeartbeatEvent C} (h : Justified log)
    (hevent : ∀ c t, event = .terminated c t → ∃ p, Unanswered c p log ∧ p + PONG_TIMEOUT_MS ≤ t) :
    Justified (event :: log) := by
  intro later c t earlier heq
  cases later with
  | nil =>
    obtain ⟨hhead, htail⟩ := List.cons.inj heq
    subst htail
    exact hevent c t hhead
  | cons e later =>
    obtain ⟨-, htail⟩ := List.cons.inj heq
    exact h later c t earlier htail

/-- The client has been connected. -/
def Known (c : C) (log : List (HeartbeatEvent C)) : Prop := ∃ t, .connected c t ∈ log

theorem Known.cons {c : C} {log : List (HeartbeatEvent C)} {event : HeartbeatEvent C} (h : Known c log) :
    Known c (event :: log) := h.imp fun _ => List.mem_cons_of_mem _

/-- What every state has, whenever the callbacks are called. -/
structure Inv (s : HeartbeatState C) : Prop where
  justified : Justified s.log
  /-- A flag that is down has a ping that is not answered, sent a whole interval before the next one. -/
  down : ∀ c, (s.sockets c).isAlive = false →
    ∃ p, Unanswered c p s.log ∧ ∀ due, s.interval = some due → p + PING_INTERVAL_MS ≤ due
  /-- A pending timer is the one whose handle its socket has, and the ping it was set for is not answered. -/
  timer : ∀ timer ∈ s.timers, (s.sockets timer.client).pongTimeoutTimer = some timer.handle ∧
    (s.sockets timer.client).isAlive = false ∧
    ∃ p, Unanswered timer.client p s.log ∧ timer.due = p + PONG_TIMEOUT_MS
  /-- A handle belongs to one socket, also after its timer has fired. -/
  handles : ∀ c handle, (s.sockets c).pongTimeoutTimer = some handle → handle < s.nextHandle ∧
    ∀ timer ∈ s.timers, timer.handle = handle → timer.client = c
  known : ∀ c p, .ping c p ∈ s.log → Known c s.log
  clients : ∀ c ∈ s.clients, Known c s.log
  nodup : s.clients.Nodup

theorem start_inv : (start : HeartbeatState C).Inv where
  justified later c t earlier h := by simp [start] at h
  down c h := by cases h
  timer timer h := by cases h
  handles c handle h := by cases h
  known c p h := by cases h
  clients c h := by cases h
  nodup := List.nodup_nil

/-! ## The loop -/

/-- A call of `terminate` is recorded. -/
theorem Inv.terminate {s : HeartbeatState C} (h : s.Inv) {c : C}
    (hc : ∃ p, Unanswered c p s.log ∧ p + PONG_TIMEOUT_MS ≤ s.now) : (s.terminate c).Inv where
  justified := by
    refine h.justified.cons fun d t heq => ?_
    obtain ⟨rfl, rfl⟩ := HeartbeatEvent.terminated.inj heq
    exact hc
  down d hd := by
    obtain ⟨p, hp, hdue⟩ := h.down d hd
    exact ⟨p, hp.cons (by simp), hdue⟩
  timer timer htimer := by
    obtain ⟨hhandle, hflag, p, hp, hdue⟩ := h.timer timer htimer
    exact ⟨hhandle, hflag, p, hp.cons (by simp), hdue⟩
  handles := h.handles
  known d p hp := (h.known d p (by simpa [HeartbeatState.terminate] using hp)).cons
  clients d hd := (h.clients d hd).cons
  nodup := h.nodup

/-- A timer that fires finds the flag down, because a pong would have cleared it. -/
theorem Inv.pongTimeout {s : HeartbeatState C} (h : s.Inv) {timer : PongTimer C} (hmem : timer ∈ s.timers)
    (hdue : timer.due ≤ s.now) : (s.pongTimeout timer).Inv := by
  obtain ⟨-, hflag, p, hp, heq⟩ := h.timer timer hmem
  have hfired : ({ s with timers := s.timers.filter (·.handle ≠ timer.handle) } : HeartbeatState C).Inv :=
    { h with
      timer := fun other hother => h.timer other (List.mem_of_mem_filter hother)
      handles := by
        intro c handle hc
        obtain ⟨hlt, howner⟩ := h.handles c handle hc
        exact ⟨hlt, fun other hother => howner other (List.mem_of_mem_filter hother)⟩ }
  unfold HeartbeatState.pongTimeout
  rw [if_pos hflag]
  exact hfired.terminate ⟨p, hp, heq ▸ hdue⟩

/-- What the loop does at one client says nothing of another one. -/
structure Elsewhere (c : C) (s t : HeartbeatState C) : Prop where
  now : t.now = s.now
  interval : t.interval = s.interval
  clients : t.clients = s.clients
  sockets : t.sockets c = s.sockets c
  timers : ∀ timer ∈ s.timers, timer ∈ t.timers
  log : ∃ events, t.log = events ++ s.log ∧ ∀ event ∈ events, ∀ u, event ≠ .pong c u

theorem Elsewhere.unanswered {s t : HeartbeatState C} {c : C} {p : ℕ} (h : Elsewhere c s t)
    (hp : Unanswered c p s.log) : Unanswered c p t.log := by
  obtain ⟨events, hlog, hevents⟩ := h.log
  obtain ⟨later, earlier, heq, hlater⟩ := hp
  refine ⟨events ++ later, earlier, by rw [hlog, heq, List.append_assoc], fun u hmem => ?_⟩
  rcases List.mem_append.1 hmem with hmem | hmem
  · exact hevents _ hmem u rfl
  · exact hlater u hmem

theorem Elsewhere.mem {s t : HeartbeatState C} {c : C} {event : HeartbeatEvent C} (h : Elsewhere c s t)
    (hevent : event ∈ s.log) : event ∈ t.log := by
  obtain ⟨events, hlog, -⟩ := h.log
  rw [hlog]
  exact List.mem_append_right _ hevent

variable [DecidableEq C]

theorem pingClient_of_down {s : HeartbeatState C} {c : C} (h : (s.sockets c).isAlive = false) :
    s.pingClient c = s.terminate c := if_pos h

theorem pingClient_of_up {s : HeartbeatState C} {c : C} (h : (s.sockets c).isAlive = true) :
    s.pingClient c =
      { s with
        sockets := Function.update s.sockets c ⟨false, some s.nextHandle⟩
        timers := ⟨s.nextHandle, c, s.now + PONG_TIMEOUT_MS⟩ :: s.timers
        nextHandle := s.nextHandle + 1
        log := .ping c s.now :: s.log } := if_neg (by simp [h])

/-- A client whose flag is up has no pending timer, and gets one with its ping. -/
theorem Inv.ping {s : HeartbeatState C} (h : s.Inv) {c : C} (hc : Known c s.log)
    (hup : (s.sockets c).isAlive = true)
    (hinterval : ∀ due, s.interval = some due → s.now + PING_INTERVAL_MS ≤ due) :
    (s.pingClient c).Inv := by
  rw [pingClient_of_up hup]
  have hother : ∀ timer ∈ s.timers, timer.client ≠ c := by
    rintro timer htimer rfl
    obtain ⟨-, hflag, -⟩ := h.timer timer htimer
    rw [hup] at hflag
    cases hflag
  have hnew : Unanswered c s.now (.ping c s.now :: s.log) := ⟨[], s.log, rfl, by simp⟩
  constructor
  · exact h.justified.cons (by simp)
  · intro d hd
    by_cases hdc : d = c
    · subst hdc
      exact ⟨s.now, hnew, hinterval⟩
    · simp only [Function.update_of_ne hdc] at hd
      obtain ⟨p, hp, hdue⟩ := h.down d hd
      exact ⟨p, hp.cons (by simp), hdue⟩
  · intro timer htimer
    rcases List.mem_cons.1 htimer with rfl | htimer
    · refine ⟨?_, ?_, s.now, hnew, rfl⟩ <;> simp
    · obtain ⟨hhandle, hflag, p, hp, hdue⟩ := h.timer timer htimer
      simp only [Function.update_of_ne (hother timer htimer)]
      exact ⟨hhandle, hflag, p, hp.cons (by simp), hdue⟩
  · intro d handle hd
    by_cases hdc : d = c
    · subst hdc
      simp only [Function.update_self, Option.some.injEq] at hd
      subst hd
      refine ⟨Nat.lt_succ_self _, fun timer htimer heq => ?_⟩
      rcases List.mem_cons.1 htimer with rfl | htimer
      · rfl
      · have hhandle := (h.timer timer htimer).1
        have hlt := (h.handles timer.client timer.handle hhandle).1
        omega
    · simp only [Function.update_of_ne hdc] at hd
      obtain ⟨hlt, howner⟩ := h.handles d handle hd
      refine ⟨Nat.lt_succ_of_lt hlt, fun timer htimer heq => ?_⟩
      rcases List.mem_cons.1 htimer with rfl | htimer
      · exact absurd heq (Nat.ne_of_gt hlt)
      · exact howner timer htimer heq
  · intro d p hp
    rcases List.mem_cons.1 hp with heq | hp
    · obtain ⟨rfl, -⟩ := HeartbeatEvent.ping.inj heq
      exact hc.cons
    · exact (h.known d p hp).cons
  · exact fun d hd => (h.clients d hd).cons
  · exact h.nodup

theorem elsewhere_pingClient {s : HeartbeatState C} {c d : C} (h : c ≠ d) : Elsewhere c s (s.pingClient d) := by
  cases hd : (s.sockets d).isAlive with
  | false =>
    rw [pingClient_of_down hd]
    exact ⟨rfl, rfl, rfl, rfl, fun _ => id, [.terminated d s.now], rfl, by simp⟩
  | true =>
    rw [pingClient_of_up hd]
    exact ⟨rfl, rfl, rfl, Function.update_of_ne h _ _, fun _ => List.mem_cons_of_mem _, [.ping d s.now], rfl,
      by simp⟩

/-- The clients that the loop still has to come to have been given their time. -/
theorem Inv.foldl_pingClient {l : List C} {s : HeartbeatState C} (h : s.Inv) (hl : l.Nodup)
    (hconnected : ∀ c ∈ l, Known c s.log)
    (hdown : ∀ c ∈ l, (s.sockets c).isAlive = false → ∃ p, Unanswered c p s.log ∧ p + PONG_TIMEOUT_MS ≤ s.now)
    (hinterval : ∀ due, s.interval = some due → s.now + PING_INTERVAL_MS ≤ due) :
    (l.foldl HeartbeatState.pingClient s).Inv := by
  induction l generalizing s with
  | nil => exact h
  | cons c l ih =>
    obtain ⟨hc, hl⟩ := List.nodup_cons.1 hl
    have hne : ∀ d ∈ l, d ≠ c := by
      rintro d hd rfl
      exact hc hd
    have helse : ∀ d ∈ l, Elsewhere d s (s.pingClient c) := fun d hd => elsewhere_pingClient (hne d hd)
    have hsame : (s.pingClient c).now = s.now ∧ (s.pingClient c).interval = s.interval := by
      unfold HeartbeatState.pingClient
      split <;> exact ⟨rfl, rfl⟩
    have hnext : (s.pingClient c).Inv := by
      cases hflag : (s.sockets c).isAlive with
      | false =>
        rw [pingClient_of_down hflag]
        exact h.terminate (hdown c List.mem_cons_self hflag)
      | true => exact h.ping (hconnected c List.mem_cons_self) hflag hinterval
    refine ih hnext hl ?_ ?_ ?_
    · intro d hd
      obtain ⟨t, ht⟩ := hconnected d (List.mem_cons_of_mem _ hd)
      exact ⟨t, (helse d hd).mem ht⟩
    · intro d hd hflag
      rw [(helse d hd).sockets] at hflag
      obtain ⟨p, hp, hle⟩ := hdown d (List.mem_cons_of_mem _ hd) hflag
      exact ⟨p, (helse d hd).unanswered hp, hsame.1 ▸ hle⟩
    · rw [hsame.1, hsame.2]
      exact hinterval

/-! ## Every step -/

/-- At a tick the flags that are down belong to pings of the tick before. -/
theorem Inv.tick {s : HeartbeatState C} (h : s.Inv) {due : ℕ} (hinterval : s.interval = some due)
    (hdue : due ≤ s.now) : s.tick.Inv := by
  have hpassed : ∀ c, (s.sockets c).isAlive = false → ∃ p, Unanswered c p s.log ∧ p + PING_INTERVAL_MS ≤ s.now := by
    intro c hc
    obtain ⟨p, hp, hle⟩ := h.down c hc
    exact ⟨p, hp, Nat.le_trans (hle due hinterval) hdue⟩
  have hset : ({ s with interval := some (s.now + PING_INTERVAL_MS) } : HeartbeatState C).Inv :=
    { h with
      down := by
        intro c hc
        obtain ⟨p, hp, hle⟩ := hpassed c hc
        refine ⟨p, hp, fun due hdue => ?_⟩
        obtain rfl := Option.some.inj hdue
        omega }
  refine hset.foldl_pingClient h.nodup h.clients (fun c _ hc => ?_) fun due hdue => ?_
  · obtain ⟨p, hp, hle⟩ := hpassed c hc
    have hlt : PONG_TIMEOUT_MS ≤ PING_INTERVAL_MS := by decide
    exact ⟨p, hp, Nat.le_trans (Nat.add_le_add_left hlt p) hle⟩
  · exact Nat.le_of_eq (Option.some.inj hdue)

theorem Inv.initClientHeartbeat {s : HeartbeatState C} (h : s.Inv) {c : C} (hc : s.isNew c = true) :
    (s.initClientHeartbeat c).Inv := by
  have hnew : ∀ t, .connected c t ∉ s.log := by
    intro t hmem
    have hall := List.all_eq_true.1 hc _ hmem
    simp at hall
  have htimer : ∀ timer ∈ s.timers, timer.client ≠ c := by
    rintro timer hmem rfl
    obtain ⟨-, -, p, hp, -⟩ := h.timer timer hmem
    obtain ⟨t, ht⟩ := h.known _ p hp.mem
    exact hnew t ht
  constructor
  · exact h.justified.cons (by simp)
  · intro d hd
    by_cases hdc : d = c
    · subst hdc
      simp [HeartbeatState.initClientHeartbeat] at hd
    · simp only [HeartbeatState.initClientHeartbeat, Function.update_of_ne hdc] at hd
      obtain ⟨p, hp, hdue⟩ := h.down d hd
      exact ⟨p, hp.cons (by simp), hdue⟩
  · intro timer hmem
    obtain ⟨hhandle, hflag, p, hp, hdue⟩ := h.timer timer hmem
    simp only [HeartbeatState.initClientHeartbeat, Function.update_of_ne (htimer timer hmem)]
    exact ⟨hhandle, hflag, p, hp.cons (by simp), hdue⟩
  · intro d handle hd
    by_cases hdc : d = c
    · subst hdc
      simp [HeartbeatState.initClientHeartbeat] at hd
    · simp only [HeartbeatState.initClientHeartbeat, Function.update_of_ne hdc] at hd
      exact h.handles d handle hd
  · exact fun d p hp => (h.known d p (by simpa [HeartbeatState.initClientHeartbeat] using hp)).cons
  · intro d hd
    rcases List.mem_append.1 hd with hd | hd
    · exact (h.clients d hd).cons
    · obtain rfl := List.mem_singleton.1 hd
      exact ⟨s.now, List.mem_cons_self⟩
  · have hc : c ∉ s.clients := by
      intro hmem
      obtain ⟨t, ht⟩ := h.clients c hmem
      exact hnew t ht
    refine List.nodup_append.2 ⟨h.nodup, by simp, fun a ha b hb heq => ?_⟩
    obtain rfl := List.mem_singleton.1 hb
    exact hc (heq ▸ ha)

/-- A pong leaves no timer of its client. -/
theorem Inv.onPong {s : HeartbeatState C} (h : s.Inv) (c : C) : (s.onPong c).Inv := by
  have htimer : ∀ timer ∈ (s.onPong c).timers, timer ∈ s.timers ∧ timer.client ≠ c := by
    intro timer hmem
    obtain ⟨hpending, hhandle⟩ := List.mem_filter.1 hmem
    refine ⟨hpending, ?_⟩
    rintro rfl
    exact of_decide_eq_true hhandle (h.timer timer hpending).1
  constructor
  · exact h.justified.cons (by simp)
  · intro d hd
    by_cases hdc : d = c
    · subst hdc
      simp [HeartbeatState.onPong] at hd
    · simp only [HeartbeatState.onPong, Function.update_of_ne hdc] at hd
      obtain ⟨p, hp, hdue⟩ := h.down d hd
      exact ⟨p, hp.cons (by simp [Ne.symm hdc]), hdue⟩
  · intro timer hmem
    obtain ⟨hmem, hne⟩ := htimer timer hmem
    obtain ⟨hhandle, hflag, p, hp, hdue⟩ := h.timer timer hmem
    simp only [HeartbeatState.onPong, Function.update_of_ne hne]
    exact ⟨hhandle, hflag, p, hp.cons (by simp [Ne.symm hne]), hdue⟩
  · intro d handle hd
    by_cases hdc : d = c
    · subst hdc
      simp [HeartbeatState.onPong] at hd
    · simp only [HeartbeatState.onPong, Function.update_of_ne hdc] at hd
      obtain ⟨hlt, howner⟩ := h.handles d handle hd
      exact ⟨hlt, fun timer hmem => howner timer (htimer timer hmem).1⟩
  · exact fun d p hp => (h.known d p (by simpa [HeartbeatState.onPong] using hp)).cons
  · exact fun d hd => (h.clients d hd).cons
  · exact h.nodup

theorem Inv.step_inv {s t : HeartbeatState C} {action : HeartbeatAction C} (h : s.Inv)
    (hstep : s.step action = some t) : t.Inv := by
  cases action with
  | wait ms =>
    obtain rfl := Option.some.inj hstep
    exact { h with }
  | tick =>
    simp only [HeartbeatState.step, Option.ite_none_right_eq_some, Option.some.injEq, Option.any_eq_true,
      decide_eq_true_eq] at hstep
    obtain ⟨⟨due, hinterval, hle⟩, rfl⟩ := hstep
    exact h.tick hinterval hle
  | fire handle =>
    obtain ⟨timer, hfind, rfl⟩ := Option.map_eq_some_iff.1 hstep
    have hdue := List.find?_some hfind
    simp only [decide_eq_true_eq] at hdue
    exact h.pongTimeout (List.mem_of_find?_eq_some hfind) hdue.2
  | connect c =>
    simp only [HeartbeatState.step, Option.ite_none_right_eq_some, Option.some.injEq] at hstep
    obtain ⟨hnew, rfl⟩ := hstep
    exact h.initClientHeartbeat hnew
  | pong c =>
    simp only [HeartbeatState.step, Option.ite_none_right_eq_some, Option.some.injEq] at hstep
    obtain ⟨-, rfl⟩ := hstep
    exact h.onPong c
  | closed c =>
    obtain rfl := Option.some.inj hstep
    exact { h with
      clients := fun d hd => h.clients d (List.mem_of_mem_filter hd)
      nodup := h.nodup.filter _ }
  | stop =>
    obtain rfl := Option.some.inj hstep
    exact { h with
      down := by
        intro c hc
        obtain ⟨p, hp, -⟩ := h.down c hc
        exact ⟨p, hp, fun due hdue => by cases hdue⟩ }

/-! ## Callbacks in time -/

/-- The times at which something came from the client. -/
def Heard (c : C) (t : ℕ) (log : List (HeartbeatEvent C)) : Prop := .connected c t ∈ log ∨ .pong c t ∈ log

/-- No callback is left waiting when its time has come. -/
def Prompt (s : HeartbeatState C) : HeartbeatAction C → Prop
  | .wait ms => (∀ timer ∈ s.timers, s.now + ms ≤ timer.due) ∧ ∀ due ∈ s.interval, s.now + ms ≤ due
  | _ => True

instance decidablePrompt (s : HeartbeatState C) : ∀ action : HeartbeatAction C, Decidable (s.Prompt action)
  | .wait ms =>
    inferInstanceAs (Decidable ((∀ timer ∈ s.timers, s.now + ms ≤ timer.due) ∧
      ∀ due ∈ s.interval, s.now + ms ≤ due))
  | .tick | .fire _ | .connect _ | .pong _ | .closed _ | .stop => isTrue trivial

/-- The client was terminated, or a timer ends the time that it has to answer. -/
def Waiting (c : C) (s : HeartbeatState C) : Prop :=
  (∃ t, .terminated c t ∈ s.log) ∨ ∃ heard, Heard c heard s.log ∧
    ∃ timer ∈ s.timers, timer.client = c ∧ timer.due ≤ heard + PING_INTERVAL_MS + PONG_TIMEOUT_MS

/-- Or the next ping comes within an interval after something was heard. -/
def Attended (c : C) (due : ℕ) (s : HeartbeatState C) : Prop :=
  Waiting c s ∨ ∃ heard, Heard c heard s.log ∧ due ≤ heard + PING_INTERVAL_MS

/-- What every state has when the callbacks are called in time. -/
structure Timely (s : HeartbeatState C) : Prop where
  inv : s.Inv
  timer : ∀ timer ∈ s.timers, s.now ≤ timer.due
  interval : ∀ due, s.interval = some due → s.now ≤ due ∧ due ≤ s.now + PING_INTERVAL_MS
  attended : ∀ due, s.interval = some due → ∀ c ∈ s.clients, Attended c due s

omit [DecidableEq C] in
theorem Heard.mono {c : C} {t : ℕ} {log log' : List (HeartbeatEvent C)} (h : Heard c t log) (hlog : log ⊆ log') :
    Heard c t log' := h.imp (@hlog _) (@hlog _)

omit [DecidableEq C] in
/-- Where the timers of the client are still pending, it is still waited for. -/
theorem Waiting.mono {c : C} {s t : HeartbeatState C} (h : Waiting c s)
    (htimers : ∀ timer ∈ s.timers, timer.client = c → timer ∈ t.timers) (hlog : s.log ⊆ t.log) : Waiting c t := by
  obtain ⟨u, hu⟩ | ⟨heard, hheard, timer, hmem, hclient, hdue⟩ := h
  · exact Or.inl ⟨u, hlog hu⟩
  · exact Or.inr ⟨heard, hheard.mono hlog, timer, htimers timer hmem hclient, hclient, hdue⟩

omit [DecidableEq C] in
theorem Attended.mono {c : C} {due : ℕ} {s t : HeartbeatState C} (h : Attended c due s)
    (htimers : ∀ timer ∈ s.timers, timer.client = c → timer ∈ t.timers) (hlog : s.log ⊆ t.log) :
    Attended c due t := by
  obtain h | ⟨heard, hheard, hdue⟩ := h
  · exact Or.inl (h.mono htimers hlog)
  · exact Or.inr ⟨heard, hheard.mono hlog, hdue⟩

theorem pingClient_grows (s : HeartbeatState C) (c : C) : (s.pingClient c).now = s.now ∧
    s.timers ⊆ (s.pingClient c).timers ∧ s.log ⊆ (s.pingClient c).log := by
  cases h : (s.sockets c).isAlive with
  | false =>
    rw [pingClient_of_down h]
    exact ⟨rfl, List.Subset.refl _, List.subset_cons_self _ _⟩
  | true =>
    rw [pingClient_of_up h]
    exact ⟨rfl, List.subset_cons_self _ _, List.subset_cons_self _ _⟩

/-- At the latest an interval after it was heard of, a client is terminated, or its time to answer begins. -/
theorem waiting_pingClient {s : HeartbeatState C} {c : C} (h : Attended c s.now s) :
    Waiting c (s.pingClient c) := by
  obtain ⟨-, htimers, hlog⟩ := pingClient_grows s c
  obtain h | ⟨heard, hheard, hdue⟩ := h
  · exact h.mono (fun timer hmem _ => htimers hmem) hlog
  · cases hflag : (s.sockets c).isAlive with
    | false =>
      rw [pingClient_of_down hflag]
      exact Or.inl ⟨s.now, List.mem_cons_self⟩
    | true =>
      rw [pingClient_of_up hflag] at hlog ⊢
      refine Or.inr ⟨heard, hheard.mono hlog, _, List.mem_cons_self, rfl, ?_⟩
      exact Nat.add_le_add_right hdue PONG_TIMEOUT_MS

theorem waiting_foldl_pingClient {l : List C} {s : HeartbeatState C} {c : C}
    (h : Waiting c s ∨ c ∈ l ∧ Attended c s.now s) : Waiting c (l.foldl HeartbeatState.pingClient s) := by
  induction l generalizing s with
  | nil => exact h.resolve_right (by simp)
  | cons d l ih =>
    obtain ⟨hnow, htimers, hlog⟩ := pingClient_grows s d
    rw [List.foldl_cons]
    apply ih
    obtain h | ⟨hmem, h⟩ := h
    · exact Or.inl (h.mono (fun timer hmem _ => htimers hmem) hlog)
    · rcases List.mem_cons.1 hmem with rfl | hmem
      · exact Or.inl (waiting_pingClient h)
      · rw [hnow]
        exact Or.inr ⟨hmem, h.mono (fun timer hmem _ => htimers hmem) hlog⟩

/-- The loop leaves the time, the interval and the clients as they are, and its timers are due in time. -/
theorem foldl_pingClient_spec (l : List C) (s : HeartbeatState C) (htimer : ∀ timer ∈ s.timers, s.now ≤ timer.due) :
    (l.foldl HeartbeatState.pingClient s).now = s.now ∧
      (l.foldl HeartbeatState.pingClient s).interval = s.interval ∧
      (l.foldl HeartbeatState.pingClient s).clients = s.clients ∧
      ∀ timer ∈ (l.foldl HeartbeatState.pingClient s).timers, s.now ≤ timer.due := by
  induction l generalizing s with
  | nil => exact ⟨rfl, rfl, rfl, htimer⟩
  | cons c l ih =>
    have hone : (s.pingClient c).now = s.now ∧ (s.pingClient c).interval = s.interval ∧
        (s.pingClient c).clients = s.clients ∧ ∀ timer ∈ (s.pingClient c).timers, s.now ≤ timer.due := by
      cases hflag : (s.sockets c).isAlive with
      | false =>
        rw [pingClient_of_down hflag]
        exact ⟨rfl, rfl, rfl, htimer⟩
      | true =>
        rw [pingClient_of_up hflag]
        refine ⟨rfl, rfl, rfl, fun timer hmem => ?_⟩
        rcases List.mem_cons.1 hmem with rfl | hmem
        · exact Nat.le_add_right s.now PONG_TIMEOUT_MS
        · exact htimer timer hmem
    obtain ⟨hnow, hinterval, hclients, htimers⟩ := hone
    have hrest := ih (s.pingClient c) (by rw [hnow]; exact htimers)
    rw [hnow, hinterval, hclients] at hrest
    exact hrest

theorem step_timely {s t : HeartbeatState C} {action : HeartbeatAction C} (h : s.Timely) (hprompt : s.Prompt action)
    (hstep : s.step action = some t) : t.Timely := by
  have hinv : t.Inv := h.inv.step_inv hstep
  cases action with
  | wait ms =>
    obtain rfl := Option.some.inj hstep
    refine ⟨hinv, hprompt.1, fun due hdue => ⟨hprompt.2 due hdue, ?_⟩, h.attended⟩
    have hle := (h.interval due hdue).2
    have hnow : s.now ≤ s.now + ms := Nat.le_add_right _ _
    exact Nat.le_trans hle (Nat.add_le_add_right hnow _)
  | tick =>
    simp only [HeartbeatState.step, Option.ite_none_right_eq_some, Option.some.injEq, Option.any_eq_true,
      decide_eq_true_eq] at hstep
    obtain ⟨⟨due, hinterval, hle⟩, rfl⟩ := hstep
    have hnow : s.now = due := Nat.le_antisymm (h.interval due hinterval).1 hle
    obtain ⟨hsame, hset, hclients, htimers⟩ := foldl_pingClient_spec s.clients
      { s with interval := some (s.now + PING_INTERVAL_MS) } h.timer
    unfold HeartbeatState.tick at hinv ⊢
    refine ⟨hinv, by rw [hsame]; exact htimers, ?_, ?_⟩
    · intro due' hdue'
      rw [hset, Option.some.injEq] at hdue'
      rw [hsame, ← hdue']
      exact ⟨Nat.le_add_right _ _, Nat.le_refl _⟩
    · intro due' hdue' c hc
      rw [hclients] at hc
      have hattended := h.attended due hinterval c hc
      rw [← hnow] at hattended
      exact Or.inl (waiting_foldl_pingClient (Or.inr ⟨hc, hattended⟩))
  | fire handle =>
    obtain ⟨timer, hfind, rfl⟩ := Option.map_eq_some_iff.1 hstep
    have hmem := List.mem_of_find?_eq_some hfind
    obtain ⟨hhandle, hflag, -⟩ := h.inv.timer timer hmem
    have hfired : s.pongTimeout timer =
        ({ s with timers := s.timers.filter (·.handle ≠ timer.handle) } : HeartbeatState C).terminate
          timer.client := if_pos hflag
    rw [hfired] at hinv ⊢
    refine ⟨hinv, fun other hother => h.timer other (List.mem_of_mem_filter hother), h.interval, ?_⟩
    intro due hdue c hc
    by_cases hclient : timer.client = c
    · exact Or.inl (Or.inl ⟨s.now, hclient ▸ List.mem_cons_self⟩)
    · refine (h.attended due hdue c hc).mono (fun other hother hown => ?_) (List.subset_cons_self _ _)
      refine List.mem_filter.2 ⟨hother, decide_eq_true fun heq => hclient ?_⟩
      rw [← hown]
      exact ((h.inv.handles timer.client timer.handle hhandle).2 other hother heq).symm
  | connect c =>
    simp only [HeartbeatState.step, Option.ite_none_right_eq_some, Option.some.injEq] at hstep
    obtain ⟨-, rfl⟩ := hstep
    refine ⟨hinv, h.timer, h.interval, fun due hdue d hd => ?_⟩
    rcases List.mem_append.1 hd with hd | hd
    · exact (h.attended due hdue d hd).mono (fun _ hmem _ => hmem) (List.subset_cons_self _ _)
    · obtain rfl := List.mem_singleton.1 hd
      exact Or.inr ⟨s.now, Or.inl List.mem_cons_self, (h.interval due hdue).2⟩
  | pong c =>
    simp only [HeartbeatState.step, Option.ite_none_right_eq_some, Option.some.injEq] at hstep
    obtain ⟨-, rfl⟩ := hstep
    refine ⟨hinv, fun timer hmem => h.timer timer (List.mem_of_mem_filter hmem), h.interval, ?_⟩
    intro due hdue d hd
    by_cases hdc : d = c
    · subst hdc
      exact Or.inr ⟨s.now, Or.inr List.mem_cons_self, (h.interval due hdue).2⟩
    · refine (h.attended due hdue d hd).mono (fun timer hmem hown => ?_) (List.subset_cons_self _ _)
      refine List.mem_filter.2 ⟨hmem, decide_eq_true fun heq => hdc ?_⟩
      rw [← hown]
      exact (h.inv.handles c timer.handle heq).2 timer hmem rfl
  | closed c =>
    obtain rfl := Option.some.inj hstep
    exact ⟨hinv, h.timer, h.interval, fun due hdue d hd => h.attended due hdue d (List.mem_of_mem_filter hd)⟩
  | stop =>
    obtain rfl := Option.some.inj hstep
    exact ⟨hinv, h.timer, by rintro due ⟨⟩, by rintro due ⟨⟩⟩

omit [DecidableEq C] in
theorem start_timely : (start : HeartbeatState C).Timely where
  inv := start_inv
  timer timer h := by cases h
  interval due h := by
    obtain rfl := Option.some.inj h
    exact ⟨Nat.zero_le _, Nat.le_of_eq (Nat.zero_add _).symm⟩
  attended due h c hc := by cases hc

end HeartbeatState

/-- However late the callbacks are called, a client is terminated only when 10 seconds have passed since a ping
that it has not answered. -/
theorem terminated_unanswered {C : Type*} [DecidableEq C] {actions : List (HeartbeatAction C)}
    {s : HeartbeatState C} (hrun : run HeartbeatState.step .start actions = some s)
    {later earlier : List (HeartbeatEvent C)} {c : C} {t : ℕ}
    (hlog : s.log = later ++ .terminated c t :: earlier) :
    ∃ p, HeartbeatState.Unanswered c p earlier ∧ p + PONG_TIMEOUT_MS ≤ t := by
  have hinv : s.Inv := run_invariant (fun _ _ _ => HeartbeatState.Inv.step_inv) HeartbeatState.start_inv hrun
  exact hinv.justified later c t earlier hlog

/-- A client that does not answer its first ping. -/
def silentActions : List (HeartbeatAction ℕ) := [.connect 0, .wait 30000, .tick, .wait 10000, .fire 0, .wait 1]

theorem terminated_unanswered_first : ∃ p,
    HeartbeatState.Unanswered 0 p [.ping 0 30000, .connected 0 0] ∧ p + PONG_TIMEOUT_MS ≤ 40000 := by
  have hrun : run HeartbeatState.step .start silentActions = some _ := rfl
  exact @terminated_unanswered ℕ _ _ _ hrun [] _ 0 40000 rfl

/-- Where the callbacks are called in time and the interval was not cleared, a client of which nothing was heard
for longer than an interval and the time for the answer has been terminated. -/
theorem silent_terminated {C : Type*} [DecidableEq C] {actions : List (HeartbeatAction C)} {s : HeartbeatState C}
    (hrun : run HeartbeatState.step .start actions = some s)
    (hprompt : Guarded HeartbeatState.step HeartbeatState.Prompt .start actions) (hinterval : s.interval ≠ none)
    {c : C} (hc : c ∈ s.clients)
    (hsilent : ∀ t, HeartbeatState.Heard c t s.log → t + PING_INTERVAL_MS + PONG_TIMEOUT_MS < s.now) :
    ∃ t, .terminated c t ∈ s.log := by
  have htimely : s.Timely :=
    (along_of_guarded (fun _ => id) (fun _ _ _ => HeartbeatState.step_timely) HeartbeatState.start_timely
      hprompt).last hrun
  obtain ⟨due, hdue⟩ := Option.ne_none_iff_exists'.1 hinterval
  obtain (hdone | ⟨heard, hheard, timer, hmem, -, hlate⟩) | ⟨heard, hheard, hlate⟩ := htimely.attended due hdue c hc
  · exact hdone
  · have hquiet := hsilent heard hheard
    have hpending := htimely.timer timer hmem
    omega
  · have hquiet := hsilent heard hheard
    have hnext := (htimely.interval due hdue).1
    omega

theorem silent_terminated_first : ∃ t,
    .terminated 0 t ∈ ([.terminated 0 40000, .ping 0 30000, .connected 0 0] : List (HeartbeatEvent ℕ)) := by
  have hrun : run HeartbeatState.step .start silentActions = some _ := rfl
  have hsilent : ∀ t, HeartbeatState.Heard 0 t [.terminated 0 40000, .ping 0 30000, .connected 0 0] →
      t + PING_INTERVAL_MS + PONG_TIMEOUT_MS < 40001 := by
    rintro t (hmem | hmem) <;> simp at hmem
    subst hmem
    decide
  exact silent_terminated hrun (by decide) (by decide) List.mem_cons_self hsilent

end AlsaqiBackend.Ws

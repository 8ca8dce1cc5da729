import AlsaqiBackend.RateLimit.Paths
import AlsaqiBackend.Lib.Run

/-!
# The store of the process

When Redis is not available, all limiters of the process count in one store, and one timer cleans it:
the first `createRateLimiter` starts it, with its own window. Endpoint limits and other limiters can
have longer windows, and then the timer forgets timestamps that they still need.

The system of this module has any number of limiters, requests and ticks of the timer. Every decision
goes to a log, and `LogSound` says that in every window of a key at most the limit was let through,
and that a request was denied only when the limit was used up. The main theorem is
`fallback_sound_along`: the log is sound along every run whose ticks forget no timestamp that the
window of its key still covers, and in which a key has one limit and one window. The invariant is that
the store has, for every key of the log, the live ones of the requests that were let through.
-/

namespace AlsaqiBackend.RateLimit

open AlsaqiBackend.Lib

/-- A decision of a limiter. -/
structure Decision where
  charge : Charge
  now : ℤ
  allowed : Bool
  deriving DecidableEq, Repr

/-- The limiters, the window of the cleanup once it is started, the store, the time, and the decisions
so far. -/
structure FallbackState where
  limiters : List RateLimiter
  cleanupWindowMs : Option ℤ
  fallbackStore : JsMap String (List ℤ)
  clock : ℤ
  log : List Decision

/-- No limiter, and nothing in the store. -/
def FallbackState.init : FallbackState := ⟨[], none, JsMap.empty, 0, []⟩

/-- What can happen while Redis is not available. -/
inductive FallbackAction
  /-- `createRateLimiter`. -/
  | create (options : RateLimiterOptions)
  /-- A request comes to one of the limiters. -/
  | request (limiter : ℕ) (req : Request) (now : ℤ)
  /-- The timer of the cleanup. -/
  | cleanup (now : ℤ)
  deriving DecidableEq, Repr

/-- The timestamps of a key in the store. -/
def FallbackState.timestamps (s : FallbackState) (key : String) : List ℤ :=
  (s.fallbackStore.get key).getD []

/-- The callback of `startFallbackCleanup`. -/
def cleanupStore (fallbackStore : JsMap String (List ℤ)) (windowMs now : ℤ) :
    JsMap String (List ℤ) := fun key =>
  (fallbackStore.get key).bind fun timestamps =>
    let timestamps := timestamps.filter fun ts => now - ts < windowMs
    -- A key without timestamps is deleted.
    if timestamps.length = 0 then none else some timestamps

/-- The decision of a limiter on a request, and the store afterwards. -/
def FallbackState.handle (s : FallbackState) (limiter : RateLimiter) (req : Request) (now : ℤ) :
    FallbackState :=
  let charge := limiter.charge req
  let (result, timestamps) := checkRateLimitInMemory (s.timestamps charge.effectiveKey) charge.limit
    charge.windowMs now
  { s with
    fallbackStore := s.fallbackStore.set charge.effectiveKey timestamps
    clock := now
    log := s.log ++ [⟨charge, now, result.allowed⟩] }

/-- One step. Time does not go back. -/
def fallbackStep (s : FallbackState) : FallbackAction → Option FallbackState
  | .create options =>
    let limiter := createRateLimiter options
    -- The first limiter starts the cleanup.
    some { s with
            limiters := s.limiters ++ [limiter]
            cleanupWindowMs := s.cleanupWindowMs.or (some limiter.windowMs) }
  | .request i req now =>
    if now < s.clock then none else s.limiters[i]?.map fun limiter => s.handle limiter req now
  | .cleanup now =>
    if now < s.clock then none
    else s.cleanupWindowMs.map fun windowMs =>
      { s with fallbackStore := cleanupStore s.fallbackStore windowMs now, clock := now }

/-- The times of the requests on a key that were let through. -/
def allowedOn (key : String) (log : List Decision) : List ℤ :=
  (log.filter fun d => d.charge.effectiveKey = key ∧ d.allowed).map Decision.now

/-- A request was denied only when the limit was used up in the window before it. -/
def DenialsJustified (log : List Decision) : Prop :=
  ∀ before d after, log = before ++ d :: after → d.allowed = false →
    d.charge.limit ≤ (live d.charge.windowMs d.now (allowedOn d.charge.effectiveKey before)).length

/-- In every window of a key at most the limit was let through, and a request was denied only when the
limit was used up. -/
def LogSound (log : List Decision) : Prop :=
  (∀ d ∈ log, AtMostPerWindow d.charge.limit d.charge.windowMs
    (allowedOn d.charge.effectiveKey log)) ∧ DenialsJustified log

/-- The requests on a key have one limit and one window, and a tick of the cleanup drops no timestamp
that the window of its key still covers. -/
def NothingForgotten (s : FallbackState) : FallbackAction → Prop
  | .create _ => True
  | .request i req _ => ∀ limiter ∈ s.limiters[i]?, ∀ d ∈ s.log,
      d.charge.effectiveKey = (limiter.charge req).effectiveKey → d.charge = limiter.charge req
  | .cleanup now => ∀ windowMs ∈ s.cleanupWindowMs, ∀ d ∈ s.log,
      ∀ ts ∈ s.timestamps d.charge.effectiveKey, windowMs ≤ now - ts → d.charge.windowMs ≤ now - ts

instance (s : FallbackState) (a : FallbackAction) : Decidable (NothingForgotten s a) :=
  match a with
  | .create _ => isTrue trivial
  | .request i _ _ => inferInstanceAs (Decidable (∀ limiter ∈ s.limiters[i]?, _))
  | .cleanup _ => inferInstanceAs (Decidable (∀ windowMs ∈ s.cleanupWindowMs, _))

/-! ## The invariant -/

/-- The decisions come in the order of time, a key has one limit and one window, the timestamps of a
key are those of requests that were let through, with all that are still live, and what was let
through was admitted. -/
structure FallbackInv (s : FallbackState) : Prop where
  sorted : (s.log.map Decision.now).Pairwise (· ≤ ·)
  past : ∀ d ∈ s.log, d.now ≤ s.clock
  charges : ∀ d ∈ s.log, ∀ d' ∈ s.log, d.charge.effectiveKey = d'.charge.effectiveKey →
    d.charge = d'.charge
  stored : ∀ key, (s.timestamps key).Sublist (allowedOn key s.log)
  kept : ∀ d ∈ s.log, (live d.charge.windowMs s.clock
    (allowedOn d.charge.effectiveKey s.log)).Sublist (s.timestamps d.charge.effectiveKey)
  admitted : ∀ d ∈ s.log, Admitted d.charge.limit d.charge.windowMs
    (allowedOn d.charge.effectiveKey s.log)
  denied : DenialsJustified s.log

/-- The invariant at the start. -/
theorem FallbackState.init_inv : FallbackInv .init where
  sorted := by simp [init]
  past := by simp [init]
  charges := by simp [init]
  stored := by simp [init, timestamps, JsMap.get, JsMap.empty]
  kept := by simp [init]
  admitted := by simp [init]
  denied := by simp [DenialsJustified, init]

/-- A new decision counts for its own key, when it lets the request through. -/
theorem allowedOn_append (key : String) (log : List Decision) (d : Decision) :
    allowedOn key (log ++ [d]) =
      allowedOn key log ++ if d.charge.effectiveKey = key ∧ d.allowed = true then [d.now] else [] := by
  unfold allowedOn
  rw [List.filter_append, List.map_append]
  congr 1
  by_cases h : d.charge.effectiveKey = key ∧ d.allowed = true
  · simp [h]
  · rw [if_neg h, List.filter_cons_of_neg (by simpa using h)]
    rfl

/-- Nothing was let through on a key without decisions. -/
theorem allowedOn_eq_nil {key : String} {log : List Decision}
    (h : ∀ d ∈ log, d.charge.effectiveKey ≠ key) : allowedOn key log = [] := by
  unfold allowedOn
  rw [List.map_eq_nil_iff, List.filter_eq_nil_iff]
  intro d hd
  simpa using fun hkey => absurd hkey (h d hd)

/-- The cleanup keeps of each key what its window covers. -/
theorem cleanupStore_get (fallbackStore : JsMap String (List ℤ)) (windowMs now : ℤ) (key : String) :
    ((cleanupStore fallbackStore windowMs now).get key).getD [] =
      ((fallbackStore.get key).getD []).filter fun ts => now - ts < windowMs := by
  rw [show (cleanupStore fallbackStore windowMs now).get key = (fallbackStore.get key).bind _ from rfl]
  cases fallbackStore.get key with
  | none => rfl
  | some timestamps =>
    simp only [Option.bind_some, Option.getD_some]
    split_ifs with hnil
    · exact (List.length_eq_zero_iff.1 hnil).symm
    · rfl

namespace FallbackInv

variable {s : FallbackState}

/-- What was let through comes in the order of time. -/
theorem allowedOn_sorted (h : FallbackInv s) (key : String) :
    (allowedOn key s.log).Pairwise (· ≤ ·) :=
  h.sorted.sublist (List.filter_sublist.map _)

/-- A sound log. -/
theorem logSound (h : FallbackInv s) : LogSound s.log :=
  ⟨fun d hd => (h.admitted d hd).atMostPerWindow (h.allowedOn_sorted _), h.denied⟩

/-- What is live later of the requests that were let through is in the store. -/
theorem kept_later (h : FallbackInv s) {now : ℤ} (hnow : s.clock ≤ now) {d : Decision}
    (hd : d ∈ s.log) : (live d.charge.windowMs now (allowedOn d.charge.effectiveKey s.log)).Sublist
      (live d.charge.windowMs now (s.timestamps d.charge.effectiveKey)) := by
  rw [← live_live hnow]
  exact (h.kept d hd).filter _

/-- A tick of the cleanup that forgets nothing keeps the invariant. -/
theorem cleanup (h : FallbackInv s) {windowMs now : ℤ} (hnow : s.clock ≤ now)
    (hforget : ∀ d ∈ s.log, ∀ ts ∈ s.timestamps d.charge.effectiveKey, windowMs ≤ now - ts →
      d.charge.windowMs ≤ now - ts) :
    FallbackInv { s with fallbackStore := cleanupStore s.fallbackStore windowMs now, clock := now } := by
  have hleft : ∀ key, FallbackState.timestamps
      { s with fallbackStore := cleanupStore s.fallbackStore windowMs now, clock := now } key =
      (s.timestamps key).filter fun ts => now - ts < windowMs :=
    cleanupStore_get s.fallbackStore windowMs now
  refine ⟨h.sorted, fun d hd => (h.past d hd).trans hnow, h.charges, fun key => ?_, fun d hd => ?_,
    h.admitted, h.denied⟩
  · rw [hleft]
    exact List.filter_sublist.trans (h.stored key)
  · -- Of the live timestamps of the key, the cleanup drops none.
    have hall : live d.charge.windowMs now (s.timestamps d.charge.effectiveKey) =
        live d.charge.windowMs now
          ((s.timestamps d.charge.effectiveKey).filter fun ts => now - ts < windowMs) := by
      unfold live
      rw [List.filter_filter]
      refine List.filter_congr fun ts hts => ?_
      have hts := hforget d hd ts hts
      rw [← Bool.decide_and, decide_eq_decide]
      omega
    rw [hleft]
    refine (h.kept_later hnow hd).trans ?_
    rw [hall]
    exact List.filter_sublist

/-- The store has as many live timestamps of a key as live requests were let through, when the key has
had the same window all along. -/
theorem live_length_eq (h : FallbackInv s) {now : ℤ} (hnow : s.clock ≤ now) {c : Charge}
    (hcharge : ∀ d ∈ s.log, d.charge.effectiveKey = c.effectiveKey → d.charge = c) :
    (live c.windowMs now (allowedOn c.effectiveKey s.log)).Sublist
        (live c.windowMs now (s.timestamps c.effectiveKey)) ∧
      (live c.windowMs now (s.timestamps c.effectiveKey)).length =
        (live c.windowMs now (allowedOn c.effectiveKey s.log)).length := by
  have hkept : (live c.windowMs now (allowedOn c.effectiveKey s.log)).Sublist
      (live c.windowMs now (s.timestamps c.effectiveKey)) := by
    by_cases hkey : ∃ d ∈ s.log, d.charge.effectiveKey = c.effectiveKey
    · obtain ⟨d, hd, heq⟩ := hkey
      have hlater := h.kept_later hnow hd
      rwa [hcharge d hd heq] at hlater
    · push Not at hkey
      rw [allowedOn_eq_nil hkey]
      exact List.nil_sublist _
  refine ⟨hkept, le_antisymm ?_ hkept.length_le⟩
  exact ((h.stored c.effectiveKey).filter _).length_le

end FallbackInv

/-- A log with one more decision: a denial has to be justified by what was let through before. -/
theorem DenialsJustified.append {log : List Decision} (h : DenialsJustified log) {d : Decision}
    (hd : d.allowed = false → d.charge.limit ≤
      (live d.charge.windowMs d.now (allowedOn d.charge.effectiveKey log)).length) :
    DenialsJustified (log ++ [d]) := by
  intro before e after heq hdenied
  obtain ⟨rfl, rfl⟩ | ⟨after', hbefore⟩ := last_or_of_append_singleton heq
  · exact hd hdenied
  · exact h before e after' hbefore hdenied

/-- What a decision adds to the timestamps of its key. -/
def addedTimes (c : Charge) (now : ℤ) (count : ℕ) : List ℤ := if count < c.limit then [now] else []

/-- A decision with a charge: it is logged, and the timestamps of its key are the live ones and the
request, when it is let through. -/
structure Handled (s t : FallbackState) (c : Charge) (now : ℤ) : Prop where
  clock : t.clock = now
  log : t.log = s.log ++
    [⟨c, now, decide ((live c.windowMs now (s.timestamps c.effectiveKey)).length < c.limit)⟩]
  timestamps : ∀ key, t.timestamps key =
    if key = c.effectiveKey then
      live c.windowMs now (s.timestamps key) ++
        addedTimes c now (live c.windowMs now (s.timestamps key)).length
    else s.timestamps key

theorem FallbackState.handle_handled (s : FallbackState) (limiter : RateLimiter) (req : Request)
    (now : ℤ) : Handled s (s.handle limiter req now) (limiter.charge req) now := by
  refine ⟨rfl, ?_, fun key => ?_⟩
  · unfold FallbackState.handle
    dsimp only
    rw [(checkRateLimitInMemory_eq _ _ _ _).1]
  · unfold FallbackState.handle FallbackState.timestamps
    dsimp only
    rw [JsMap.get_set, (checkRateLimitInMemory_eq _ _ _ _).2]
    by_cases hkey : key = (limiter.charge req).effectiveKey
    · rw [if_pos hkey, if_pos hkey, hkey]
      rfl
    · rw [if_neg hkey, if_neg hkey]

/-- The key of a charge has had its limit and its window all along. -/
def OneCharge (s : FallbackState) (c : Charge) : Prop :=
  ∀ d ∈ s.log, d.charge.effectiveKey = c.effectiveKey → d.charge = c

namespace Handled

variable {s t : FallbackState} {c : Charge} {now : ℤ}

/-- A decision is an earlier one, or the new one. -/
theorem mem_log (h : Handled s t c now) {d : Decision} (hd : d ∈ t.log) :
    d ∈ s.log ∨ (d.charge = c ∧ d.now = now) := by
  rw [h.log, List.mem_append, List.mem_singleton] at hd
  rcases hd with hold | rfl
  · exact Or.inl hold
  · exact Or.inr ⟨rfl, rfl⟩

/-- A decision on another key is an earlier one. -/
theorem mem_of_ne (h : Handled s t c now) {d : Decision} (hd : d ∈ t.log)
    (hkey : d.charge.effectiveKey ≠ c.effectiveKey) : d ∈ s.log := by
  rcases h.mem_log hd with hold | ⟨hnew, -⟩
  · exact hold
  · exact absurd (congrArg Charge.effectiveKey hnew) hkey

/-- A decision on the same key has the same charge. -/
theorem oneCharge (h : Handled s t c now) (hcharge : OneCharge s c) : OneCharge t c := by
  intro d hd hkey
  rcases h.mem_log hd with hold | ⟨hnew, -⟩
  · exact hcharge d hold hkey
  · exact hnew

/-- What was let through on the key. -/
theorem allowedOn_key (h : Handled s t c now) : allowedOn c.effectiveKey t.log =
    allowedOn c.effectiveKey s.log ++
      addedTimes c now (live c.windowMs now (s.timestamps c.effectiveKey)).length := by
  rw [h.log, allowedOn_append]
  simp [addedTimes]

/-- What was let through on another key. -/
theorem allowedOn_other (h : Handled s t c now) {key : String} (hkey : key ≠ c.effectiveKey) :
    allowedOn key t.log = allowedOn key s.log := by
  rw [h.log, allowedOn_append]
  simp [Ne.symm hkey]

/-- The timestamps of the key. -/
theorem timestamps_key (h : Handled s t c now) : t.timestamps c.effectiveKey =
    live c.windowMs now (s.timestamps c.effectiveKey) ++
      addedTimes c now (live c.windowMs now (s.timestamps c.effectiveKey)).length := by
  rw [h.timestamps, if_pos rfl]

/-- The timestamps of another key. -/
theorem timestamps_other (h : Handled s t c now) {key : String} (hkey : key ≠ c.effectiveKey) :
    t.timestamps key = s.timestamps key := by
  rw [h.timestamps, if_neg hkey]

end Handled

namespace FallbackInv

variable {s t : FallbackState} {c : Charge} {now : ℤ}

/-- The decisions of a key have one limit and one window, also with the new one. -/
theorem charges_of_handled (h : FallbackInv s) (hstep : Handled s t c now) (hcharge : OneCharge s c) :
    ∀ d ∈ t.log, OneCharge t d.charge := by
  have hone := hstep.oneCharge hcharge
  intro d hd d' hd' hkey
  by_cases hc : d.charge.effectiveKey = c.effectiveKey
  · rw [hone d hd hc]
    exact hone d' hd' (hkey.trans hc)
  · have hc' : d'.charge.effectiveKey ≠ c.effectiveKey := fun heq => hc (hkey.symm.trans heq)
    exact h.charges d' (hstep.mem_of_ne hd' hc') d (hstep.mem_of_ne hd hc) hkey

/-- The timestamps are those of requests that were let through. -/
theorem stored_of_handled (h : FallbackInv s) (hstep : Handled s t c now) (key : String) :
    (t.timestamps key).Sublist (allowedOn key t.log) := by
  by_cases hkey : key = c.effectiveKey
  · rw [hkey, hstep.timestamps_key, hstep.allowedOn_key]
    have hlive : (live c.windowMs now (s.timestamps c.effectiveKey)).Sublist
        (allowedOn c.effectiveKey s.log) := List.filter_sublist.trans (h.stored c.effectiveKey)
    exact hlive.append (List.Sublist.refl _)
  · rw [hstep.timestamps_other hkey, hstep.allowedOn_other hkey]
    exact h.stored key

/-- The live ones of the requests that were let through are in the store. -/
theorem kept_of_handled (h : FallbackInv s) (hstep : Handled s t c now) (hnow : s.clock ≤ now)
    (hcharge : OneCharge s c) {d : Decision} (hd : d ∈ t.log) :
    (live d.charge.windowMs now (allowedOn d.charge.effectiveKey t.log)).Sublist
      (t.timestamps d.charge.effectiveKey) := by
  by_cases hkey : d.charge.effectiveKey = c.effectiveKey
  · rw [hstep.oneCharge hcharge d hd hkey, hstep.timestamps_key, hstep.allowedOn_key, live_append]
    exact (h.live_length_eq hnow hcharge).1.append List.filter_sublist
  · rw [hstep.timestamps_other hkey, hstep.allowedOn_other hkey]
    exact (h.kept_later hnow (hstep.mem_of_ne hd hkey)).trans List.filter_sublist

/-- What was let through on the key before was admitted, if there was anything. -/
theorem admitted_before (h : FallbackInv s) (hcharge : OneCharge s c) :
    Admitted c.limit c.windowMs (allowedOn c.effectiveKey s.log) := by
  by_cases hex : ∃ d ∈ s.log, d.charge.effectiveKey = c.effectiveKey
  · obtain ⟨d, hd, hkey⟩ := hex
    have hadm := h.admitted d hd
    rwa [hcharge d hd hkey] at hadm
  · push Not at hex
    rw [allowedOn_eq_nil hex]
    exact admitted_nil

/-- What was let through was admitted, also with the new decision. -/
theorem admitted_of_handled (h : FallbackInv s) (hstep : Handled s t c now) (hnow : s.clock ≤ now)
    (hcharge : OneCharge s c) {d : Decision} (hd : d ∈ t.log) :
    Admitted d.charge.limit d.charge.windowMs (allowedOn d.charge.effectiveKey t.log) := by
  by_cases hkey : d.charge.effectiveKey = c.effectiveKey
  · have hbefore := h.admitted_before hcharge
    have hcount := (h.live_length_eq hnow hcharge).2
    rw [hstep.oneCharge hcharge d hd hkey, hstep.allowedOn_key, addedTimes]
    split_ifs with hlt
    · rw [hcount] at hlt
      exact admitted_append_singleton.2 ⟨hbefore, hlt⟩
    · rw [List.append_nil]
      exact hbefore
  · rw [hstep.allowedOn_other hkey]
    exact h.admitted d (hstep.mem_of_ne hd hkey)

/-- A decision of a limiter keeps the invariant, when the key has had the same limit and window all
along. -/
theorem handled (h : FallbackInv s) (hstep : Handled s t c now) (hnow : s.clock ≤ now)
    (hcharge : OneCharge s c) : FallbackInv t where
  sorted := by
    rw [hstep.log, List.map_append, List.pairwise_append]
    refine ⟨h.sorted, List.pairwise_singleton _ _, fun time htime time' htime' => ?_⟩
    obtain ⟨d, hd, rfl⟩ := List.mem_map.1 htime
    rw [List.map_singleton, List.mem_singleton] at htime'
    rw [htime']
    exact (h.past d hd).trans hnow
  past := by
    intro d hd
    rw [hstep.clock]
    rcases hstep.mem_log hd with hold | ⟨-, hd⟩
    · exact (h.past d hold).trans hnow
    · exact hd.le
  charges := fun d hd d' hd' hkey => h.charges_of_handled hstep hcharge d' hd' d hd hkey
  stored := h.stored_of_handled hstep
  kept := by
    rw [hstep.clock]
    exact fun d hd => h.kept_of_handled hstep hnow hcharge hd
  admitted := fun d hd => h.admitted_of_handled hstep hnow hcharge hd
  denied := by
    have hcount := (h.live_length_eq hnow hcharge).2
    rw [hstep.log, hcount]
    refine h.denied.append fun hdenied => ?_
    simpa using hdenied

end FallbackInv

/-! ## Runs -/

/-- A step that forgets nothing keeps the invariant. -/
theorem fallbackStep_inv (s : FallbackState) (a : FallbackAction) (t : FallbackState)
    (h : FallbackInv s) (hguard : NothingForgotten s a) (hstep : fallbackStep s a = some t) :
    FallbackInv t := by
  cases a with
  | create options =>
    obtain rfl := Option.some.inj hstep
    exact ⟨h.sorted, h.past, h.charges, h.stored, h.kept, h.admitted, h.denied⟩
  | request i req now =>
    simp only [fallbackStep] at hstep
    split_ifs at hstep with hback
    obtain ⟨limiter, hlimiter, rfl⟩ := Option.map_eq_some_iff.1 hstep
    exact h.handled (s.handle_handled limiter req now) (not_lt.1 hback) (hguard limiter hlimiter)
  | cleanup now =>
    simp only [fallbackStep] at hstep
    split_ifs at hstep with hback
    obtain ⟨windowMs, hwindow, rfl⟩ := Option.map_eq_some_iff.1 hstep
    exact h.cleanup (not_lt.1 hback) (hguard windowMs hwindow)

/-- Along every run in which the ticks of the cleanup forget nothing that a window still covers, and
in which a key has one limit and one window, at most the limit of a key is let through in each of its
windows, and a request is denied only when the limit is used up. -/
theorem fallback_sound_along (acts : List FallbackAction)
    (h : Guarded fallbackStep NothingForgotten .init acts) :
    Along fallbackStep (fun s => LogSound s.log) .init acts :=
  along_of_guarded (fun _ hinv => hinv.logSound) fallbackStep_inv FallbackState.init_inv h

/-- The options of a limiter with one endpoint limit: a single request in an hour. -/
def oncePerHour : RateLimiterOptions :=
  { endpointLimits := some [⟨"/api/v1/exports", 1, 3600⟩] }

/-- A request to the endpoint of `oncePerHour`. -/
def exportRequest : Request :=
  { ip := some "10.0.0.1", originalUrl := "/api/v1/exports", path := "/v1/exports" }

/-- The endpoint is asked for twice, with a tick of the cleanup an hour later. -/
theorem fallback_sound_tick_after_hour :
    Along fallbackStep (fun s => LogSound s.log) .init
      [.create oncePerHour, .request 0 exportRequest 0, .request 0 exportRequest 1000,
        .cleanup 3600000, .request 0 exportRequest 3600000] :=
  fallback_sound_along _ (by decide)

/-- The first limiter has the default window of a minute, so a tick after a minute forgets the request
to the endpoint, and the next one is let through: two in a window of an hour with a limit of one. -/
theorem cleanup_forgets_longer_window :
    ∃ s, run fallbackStep .init
        [.create oncePerHour, .request 0 exportRequest 0, .cleanup 60000,
          .request 0 exportRequest 60001] = some s ∧
      s.log.map (fun d => (d.now, d.charge.limit, d.charge.windowMs, d.allowed)) =
        [(0, 1, 3600000, true), (60001, 1, 3600000, true)] ∧ ¬ LogSound s.log := by
  refine ⟨_, rfl, by decide, fun h => ?_⟩
  exact absurd (h.1 _ List.mem_cons_self 0) (by decide)

end AlsaqiBackend.RateLimit

import AlsaqiBackend.RateLimit.Fallback

/-!
# The unversioned alias

A resource has two URLs, `/api/v1/p` and `/api/p`: `versionFallbackRewrite` in
`src/middleware/versionRewrite.ts` rewrites the second to the first. The limiter runs before it, and
looks for the pattern of an endpoint limit at the beginning of the URL as the client spelled it.

`aliasCharged_iff` says exactly when the alias is charged like the versioned URL, and no mix of the
two spellings gets past the limit: when the first pattern that fits the alias is that of the same
limit, which no pattern with the version in it is (`versioned_pattern_not_matched`), and when the check
itself keeps the limit.
-/

namespace AlsaqiBackend.RateLimit

open AlsaqiBackend.Lib

/-! ## URLs -/

/-- The major and the minor version of the API. -/
def CURRENT_API_VERSION : ℕ × ℕ := (1, 0)

/-- The two spellings of the URL of a resource. -/
inductive Spelling
  | versioned
  | unversioned
  deriving DecidableEq, Repr

/-- `req.url` below `/api`, for a resource and a query string (with its question mark, or empty). -/
def Spelling.url : Spelling → String → String → String
  | .versioned, p, query => "/v1/" ++ p ++ query
  | .unversioned, p, query => "/" ++ p ++ query

/-- `req.originalUrl`. -/
def Spelling.originalUrl (spelling : Spelling) (p query : String) : String :=
  "/api" ++ spelling.url p query

/-- `req.path`. -/
def pathOf (url : String) : String := String.ofList (url.toList.takeWhile (· ≠ '?'))

/-- The test `/^\/v\d+/` on a path. -/
def hasVersion (path : String) : Bool :=
  match path.toList with
  | '/' :: 'v' :: digit :: _ => digit.isDigit
  | _ => false

/-- `versionFallbackRewrite`: `req.url` afterwards. -/
def versionFallbackRewrite (url : String) : String :=
  if hasVersion (pathOf url) then url
  else "/v" ++ toString CURRENT_API_VERSION.1 ++ if url = "/" then "" else url

/-- `req.url` as the router mounted at `/api/v1` sees it, or `none` when the URL is not below it. -/
def v1RouterUrl (url : String) : Option String :=
  match url.toList with
  | ['/', 'v', '1'] => some "/"
  | '/' :: 'v' :: '1' :: '/' :: rest => some (String.ofList ('/' :: rest))
  | '/' :: 'v' :: '1' :: '?' :: rest => some (String.ofList ('/' :: '?' :: rest))
  | _ => none

/-- The router sees the same URL for both spellings. -/
def SameHandler (p query : String) : Prop :=
  v1RouterUrl (versionFallbackRewrite (Spelling.unversioned.url p query)) =
    v1RouterUrl (versionFallbackRewrite (Spelling.versioned.url p query))

/-- The router sees a shorter URL. -/
theorem v1RouterUrl_length {url seen : String} (h : v1RouterUrl url = some seen) :
    seen.toList.length < url.toList.length := by
  unfold v1RouterUrl at h
  split at h
  · next heq =>
    obtain rfl := Option.some.inj h
    rw [heq]
    decide
  · next rest heq =>
    obtain rfl := Option.some.inj h
    simp [heq]
  · next rest heq =>
    obtain rfl := Option.some.inj h
    simp [heq]
  · simp at h

/-- The router sees the versioned URL without its version. -/
theorem v1RouterUrl_versioned (p query : String) :
    v1RouterUrl (versionFallbackRewrite (Spelling.versioned.url p query)) =
      some (Spelling.unversioned.url p query) := by
  have hurl : (Spelling.versioned.url p query).toList =
      '/' :: 'v' :: '1' :: '/' :: (p.toList ++ query.toList) := by
    simp [Spelling.url]
  have hversion : hasVersion (pathOf (Spelling.versioned.url p query)) = true := by
    unfold hasVersion pathOf
    rw [hurl, String.toList_ofList]
    rfl
  unfold versionFallbackRewrite v1RouterUrl
  rw [if_pos hversion, hurl]
  simp only [Option.some.injEq, ← String.toList_inj]
  simp [Spelling.url]

/-- A URL without a version is rewritten to one that the router sees as the URL itself. -/
theorem v1RouterUrl_rewritten {p query : String}
    (h : hasVersion (pathOf (Spelling.unversioned.url p query)) = false) :
    v1RouterUrl (versionFallbackRewrite (Spelling.unversioned.url p query)) =
      some (Spelling.unversioned.url p query) := by
  unfold versionFallbackRewrite
  rw [if_neg (by simp [h])]
  split_ifs with hroot
  · rw [hroot]
    decide
  · have hurl : ("/v" ++ toString CURRENT_API_VERSION.1 ++ Spelling.unversioned.url p query).toList =
        '/' :: 'v' :: '1' :: '/' :: (p.toList ++ query.toList) := by
      rw [String.toList_append, show ("/v" ++ toString CURRENT_API_VERSION.1).toList =
        ['/', 'v', '1'] by decide]
      simp [Spelling.url]
    unfold v1RouterUrl
    rw [hurl]
    simp only [Option.some.injEq, ← String.toList_inj]
    simp [Spelling.url]

/-- The alias reaches the handler of the versioned URL exactly when its path has no version. -/
theorem sameHandler_iff (p query : String) :
    SameHandler p query ↔ hasVersion (pathOf (Spelling.unversioned.url p query)) = false := by
  unfold SameHandler
  rw [v1RouterUrl_versioned]
  constructor
  · intro h
    rw [Bool.eq_false_iff]
    intro hversion
    unfold versionFallbackRewrite at h
    rw [if_pos hversion] at h
    exact absurd (v1RouterUrl_length h) (lt_irrefl _)
  · exact v1RouterUrl_rewritten

/-- A pattern with the version in it does not fit an alias that reaches the handler. -/
theorem versioned_pattern_not_matched {p query : String} (h : SameHandler p query) {pattern : String}
    (hpattern : "/api/v1".toList <+: pattern.toList) :
    ¬ pattern.toList <+: (Spelling.unversioned.originalUrl p query).toList := by
  intro hmatch
  have hversion := (sameHandler_iff p query).1 h
  obtain ⟨rest, hrest⟩ := hpattern.trans hmatch
  have hurl : (Spelling.unversioned.url p query).toList = '/' :: 'v' :: '1' :: rest := by
    have heq : "/api".toList ++ (Spelling.unversioned.url p query).toList =
        "/api".toList ++ ('/' :: 'v' :: '1' :: rest) := by
      rw [← String.toList_append]
      exact hrest.symm
    exact List.append_cancel_left heq
  unfold hasVersion pathOf at hversion
  rw [hurl, String.toList_ofList] at hversion
  exact absurd hversion (by simp [Char.isDigit])

/-! ## Charges -/

/-- The request of a client for a resource, in one of the spellings. -/
def spelled (client : Request) (p query : String) (spelling : Spelling) : Request :=
  { client with
    originalUrl := spelling.originalUrl p query
    path := pathOf (spelling.url p query) }

/-- What a request is charged to, when the endpoint limit that fits its URL is known. -/
def RateLimiter.chargeOf (limiter : RateLimiter) (client : Request) :
    Option EndpointRateLimitConfig → Charge
  | some config =>
    ⟨(getRateLimitKey client).1 ++ ":" ++ config.pattern, config.maxRequests,
      config.windowSeconds * 1000⟩
  | none =>
    ⟨(getRateLimitKey client).1,
      if (getRateLimitKey client).2 then limiter.authenticatedLimit else limiter.unauthenticatedLimit,
      limiter.windowMs⟩

/-- The limiter matches the URL as it was spelled. -/
theorem charge_spelled (limiter : RateLimiter) (client : Request) (p query : String)
    (spelling : Spelling) : limiter.charge (spelled client p query spelling) =
      limiter.chargeOf client
        (findEndpointLimit (spelling.originalUrl p query) limiter.endpointLimits) := by
  have hurl : spelling.originalUrl p query ≠ "" := by
    intro h
    have hlist := congrArg String.toList h
    simp [Spelling.originalUrl] at hlist
  unfold RateLimiter.charge
  rw [show (spelled client p query spelling).originalUrl = spelling.originalUrl p query from rfl,
    if_neg hurl, show getRateLimitKey (spelled client p query spelling) = getRateLimitKey client from rfl]
  dsimp only
  cases findEndpointLimit (spelling.originalUrl p query) limiter.endpointLimits with
  | some config => rfl
  | none => rfl

/-- Two URLs for which limits with one pattern are found have the same limit. -/
theorem findEndpointLimit_unique {url url' : String} {limits : List EndpointRateLimitConfig}
    {c c' : EndpointRateLimitConfig} (h : findEndpointLimit url limits = some c)
    (h' : findEndpointLimit url' limits = some c') (hpattern : c.pattern = c'.pattern) : c = c' := by
  unfold findEndpointLimit at h h'
  have hmatch := List.find?_some h
  have hmatch' := List.find?_some h'
  rw [hpattern] at hmatch
  rw [← hpattern] at hmatch'
  induction limits with
  | nil => simp at h
  | cons d limits ih =>
    rw [List.find?_cons] at h h'
    -- A head that fits one of the URLs is the limit of both.
    split at h
    · obtain rfl := Option.some.inj h
      rw [hmatch'] at h'
      exact Option.some.inj h'
    · next hd =>
      split at h'
      · obtain rfl := Option.some.inj h'
        rw [hmatch] at hd
        simp at hd
      · exact ih h h'

/-- The alias is charged to the same key and limit exactly when the same endpoint limit is found. -/
theorem charged_alike_iff (limiter : RateLimiter) (client : Request) {p query : String}
    {c : EndpointRateLimitConfig} (hc : findEndpointLimit (Spelling.versioned.originalUrl p query)
      limiter.endpointLimits = some c) :
    ((limiter.charge (spelled client p query .unversioned)).effectiveKey =
          (limiter.charge (spelled client p query .versioned)).effectiveKey ∧
        (limiter.charge (spelled client p query .unversioned)).limit =
          (limiter.charge (spelled client p query .versioned)).limit) ↔
      findEndpointLimit (Spelling.unversioned.originalUrl p query) limiter.endpointLimits = some c := by
  rw [charge_spelled, charge_spelled, hc]
  constructor
  · rintro ⟨hkey, -⟩
    cases halias : findEndpointLimit (Spelling.unversioned.originalUrl p query)
        limiter.endpointLimits with
    | none =>
      -- The key of an endpoint limit is longer.
      rw [halias] at hkey
      have hlength := congrArg (fun key : String => key.toList.length) hkey
      simp [RateLimiter.chargeOf] at hlength
    | some c' =>
      rw [halias] at hkey
      have hpattern : c'.pattern = c.pattern := by
        have hlist := congrArg String.toList hkey
        simp only [RateLimiter.chargeOf, String.toList_append] at hlist
        exact String.toList_inj.1 (List.append_cancel_left hlist)
      rw [findEndpointLimit_unique halias hc hpattern]
  · intro h
    rw [h]
    exact ⟨rfl, rfl⟩

/-! ## Mixes of the two spellings -/

/-- What a client and the timer can do: ask for the resource in a spelling, or tick. -/
inductive MixAction
  | request (spelling : Spelling) (now : ℤ)
  | cleanup (now : ℤ)
  deriving DecidableEq, Repr

/-- A step of the limiter on a mix of the two spellings, while Redis is not available. -/
def mixStep (client : Request) (p query : String) (s : FallbackState) :
    MixAction → Option FallbackState
  | .request spelling now => fallbackStep s (.request 0 (spelled client p query spelling) now)
  | .cleanup now => fallbackStep s (.cleanup now)

/-- A process with one limiter, which has started the cleanup. -/
def FallbackState.created (options : RateLimiterOptions) : FallbackState :=
  { FallbackState.init with
    limiters := [createRateLimiter options]
    cleanupWindowMs := some (createRateLimiter options).windowMs }

/-- The times of the requests that the limiter let through. -/
def letThrough (log : List Decision) : List ℤ := (log.filter Decision.allowed).map Decision.now

/-- The decisions of the limiter while Redis answers, on requests with their times and with what
`math.random` gives. -/
def redisHandled (limiter : RateLimiter) :
    JsMap String RedisKey → List (Request × ℤ × ℕ) → List Bool
  | _, [] => []
  | keys, (req, now, random) :: trace =>
    let charge := limiter.charge req
    let (result, key) := checkRateLimitRedis ((keys.get charge.effectiveKey).getD ⟨[], none⟩)
      charge.limit charge.windowMs now random
    result.allowed :: redisHandled limiter (keys.set charge.effectiveKey key) trace

/-- No mix of the two spellings gets more requests past the limiter than the limit in any of its
windows, while Redis answers, or while it is not available. -/
def MixBounded (redis : Bool) (options : RateLimiterOptions) (client : Request) (p query : String)
    (c : EndpointRateLimitConfig) : Prop :=
  if redis then
    ∀ trace : List (Spelling × ℤ × ℕ), (trace.map fun q => q.2.1).Pairwise (· ≤ ·) →
      (trace.map fun q => windowMember q.2.1 q.2.2).Nodup →
      AtMostPerWindow c.maxRequests (c.windowSeconds * 1000 : ℤ) (allowedTimes
        (trace.map fun q => q.2.1) (redisHandled (createRateLimiter options) JsMap.empty
          (trace.map fun q => (spelled client p query q.1, q.2))))
  else
    ∀ s, Reachable (mixStep client p query) (.created options) s →
      AtMostPerWindow c.maxRequests (c.windowSeconds * 1000 : ℤ) (letThrough s.log)

/-- When a request to the versioned URL is charged to an endpoint limit, and the alias reaches the
same handler, the alias is charged to the same key and limit, and no mix of the two gets past it. -/
def AliasCharged (redis : Bool) (options : RateLimiterOptions) (client : Request)
    (p query : String) : Prop :=
  let limiter := createRateLimiter options
  let versioned := limiter.charge (spelled client p query .versioned)
  let unversioned := limiter.charge (spelled client p query .unversioned)
  ∀ c, findEndpointLimit (Spelling.versioned.originalUrl p query) limiter.endpointLimits = some c →
    SameHandler p query →
    (unversioned.effectiveKey = versioned.effectiveKey ∧ unversioned.limit = versioned.limit) ∧
      MixBounded redis options client p query c

/-- The check keeps an endpoint limit: in the store, when the cleanup has at least its window; in
Redis, which never denies, only when the window is empty. -/
def CheckKeeps (redis : Bool) (options : RateLimiterOptions) (c : EndpointRateLimitConfig) : Prop :=
  if redis then c.windowSeconds = 0
  else c.maxRequests = 0 ∨ (c.windowSeconds * 1000 : ℤ) ≤ (createRateLimiter options).windowMs

/-! ### While Redis answers -/

/-- A key with at most as many entries as the limit: the request is let through, and so it stays. -/
theorem checkRateLimitRedis_allowed {key : RedisKey} {limit : ℕ} (h : key.entries.length ≤ limit)
    (windowMs now : ℤ) (random : ℕ) :
    (checkRateLimitRedis key limit windowMs now random).1.allowed = true ∧
      (checkRateLimitRedis key limit windowMs now random).2.entries.length ≤ limit := by
  have hcount : (zremrangebyscore (key.entriesAt now) (now - windowMs)).length ≤ limit := by
    have hat : (key.entriesAt now).length ≤ key.entries.length := by
      unfold RedisKey.entriesAt
      split_ifs
      · exact Nat.zero_le _
      · exact le_rfl
    have hfilter : (zremrangebyscore (key.entriesAt now) (now - windowMs)).length ≤
        (key.entriesAt now).length := List.length_filter_le _ _
    omega
  unfold checkRateLimitRedis slidingWindowLua
  by_cases hlt : (zremrangebyscore (key.entriesAt now) (now - windowMs)).length < limit
  · simp only [if_pos hlt]
    refine ⟨decide_eq_true (by omega), ?_⟩
    unfold zadd
    rw [List.orderedInsert_length]
    have hothers := List.length_filter_le (fun e => decide (e.member ≠ windowMember now random))
      (zremrangebyscore (key.entriesAt now) (now - windowMs))
    omega
  · simp only [if_neg hlt]
    exact ⟨decide_eq_true hcount, hcount⟩

/-- Requests with one charge are all let through. -/
theorem redisHandled_allowed {limiter : RateLimiter} {c : Charge} {keys : JsMap String RedisKey}
    (hkeys : ((keys.get c.effectiveKey).getD ⟨[], none⟩).entries.length ≤ c.limit)
    (trace : List (Request × ℤ × ℕ)) (hcharge : ∀ q ∈ trace, limiter.charge q.1 = c) :
    redisHandled limiter keys trace = trace.map fun _ => true := by
  induction trace generalizing keys with
  | nil => rfl
  | cons q trace ih =>
    obtain ⟨req, now, random⟩ := q
    have hreq : limiter.charge req = c := hcharge (req, now, random) List.mem_cons_self
    obtain ⟨hallowed, hlength⟩ := checkRateLimitRedis_allowed hkeys c.windowMs now random
    unfold redisHandled
    simp only [hreq, hallowed, List.map_cons, List.cons.injEq, true_and]
    refine ih ?_ fun q hq => hcharge q (List.mem_cons_of_mem _ hq)
    rw [JsMap.get_set, if_pos rfl]
    exact hlength

/-- Members that the script adds at one time are different when the random numbers are. -/
theorem windowMember_inj {now : ℤ} {i j : ℕ} (h : windowMember now i = windowMember now j) :
    i = j := by
  have hlist := congrArg String.toList h
  simp only [windowMember, String.toList_append] at hlist
  have hdigits := List.append_cancel_left hlist
  rw [Nat.toString_eq_repr, Nat.toString_eq_repr, Nat.toList_repr, Nat.toList_repr] at hdigits
  have hvalue := congrArg (Nat.ofDigitChars 10 · 0) hdigits
  simpa using hvalue

/-- When all requests are let through, their times are all there. -/
theorem allowedTimes_true (times : List ℤ) {α : Type*} (l : List α) (h : l.length = times.length) :
    allowedTimes times (l.map fun _ => true) = times := by
  induction times generalizing l with
  | nil => simp [allowedTimes]
  | cons now times ih =>
    cases l with
    | nil => simp at h
    | cons a l =>
      rw [List.map_cons, allowedTimes_cons, ih l (by simpa using h)]
      rfl

/-- While Redis answers, one request more than the limit gets through at one time. -/
theorem not_mixBounded_redis {options : RateLimiterOptions} {client : Request} {p query : String}
    {c : EndpointRateLimitConfig} (hc : findEndpointLimit (Spelling.versioned.originalUrl p query)
      (createRateLimiter options).endpointLimits = some c) (hwindow : c.windowSeconds ≠ 0) :
    ¬ MixBounded true options client p query c := by
  intro h
  unfold MixBounded at h
  rw [if_pos rfl] at h
  have hburst := h ((List.range (c.maxRequests + 1)).map fun i => (.versioned, 0, i))
  simp only [List.map_map, Function.comp_def] at hburst
  have hcharge : (createRateLimiter options).charge (spelled client p query .versioned) =
      (createRateLimiter options).chargeOf client (some c) := by rw [charge_spelled, hc]
  have hallowed := @redisHandled_allowed (createRateLimiter options)
    ((createRateLimiter options).chargeOf client (some c)) JsMap.empty (Nat.zero_le _)
    ((List.range (c.maxRequests + 1)).map fun i => (spelled client p query .versioned, 0, i))
    (by simpa using fun _ _ => hcharge)
  rw [hallowed, allowedTimes_true _ _ (by simp), List.map_const', List.length_range] at hburst
  have hatMost := hburst (List.pairwise_replicate.2 (Or.inr le_rfl))
    (List.nodup_range.map_on fun i _ j _ hij => windowMember_inj hij) 0
  rw [List.filter_replicate_of_pos (by simp; omega), List.length_replicate] at hatMost
  omega

/-! ### While Redis is not available -/

/-- The process has its one limiter, the decisions are all on one charge, and the store is sound. -/
structure MixInv (limiter : RateLimiter) (c : Charge) (s : FallbackState) : Prop where
  limiters : s.limiters = [limiter]
  cleanupWindowMs : s.cleanupWindowMs = some limiter.windowMs
  charges : ∀ d ∈ s.log, d.charge = c
  sound : FallbackInv s

/-- The invariant at the start. -/
theorem FallbackState.created_inv (options : RateLimiterOptions) (c : Charge) :
    MixInv (createRateLimiter options) c (.created options) where
  limiters := rfl
  cleanupWindowMs := rfl
  charges := by simp [created, init]
  sound := by
    obtain ⟨hsorted, hpast, hcharges, hstored, hkept, hadmitted, hdenied⟩ := init_inv
    exact ⟨hsorted, hpast, hcharges, hstored, hkept, hadmitted, hdenied⟩

/-- Nothing is stored for a limit of zero. -/
theorem MixInv.timestamps_eq_nil {limiter : RateLimiter} {c : Charge} {s : FallbackState}
    (h : MixInv limiter c s) (hlimit : c.limit = 0) {d : Decision} (hd : d ∈ s.log) :
    s.timestamps d.charge.effectiveKey = [] := by
  have hadmitted := h.sound.admitted d hd
  rw [h.charges d hd, hlimit] at hadmitted
  cases hallowed : allowedOn c.effectiveKey s.log with
  | nil =>
    have hstored := h.sound.stored c.effectiveKey
    rw [hallowed, List.sublist_nil] at hstored
    rw [h.charges d hd, hstored]
  | cons t rest => exact absurd (hadmitted [] t rest hallowed) (Nat.not_lt_zero _)

/-- A step keeps the invariant, when both spellings have the charge and the cleanup does not forget. -/
theorem mixStep_inv {limiter : RateLimiter} {c : Charge} {client : Request} {p query : String}
    (hcharge : ∀ spelling, limiter.charge (spelled client p query spelling) = c)
    (hkeeps : c.limit = 0 ∨ c.windowMs ≤ limiter.windowMs) (s : FallbackState) (a : MixAction)
    (t : FallbackState) (h : MixInv limiter c s) (hstep : mixStep client p query s a = some t) :
    MixInv limiter c t := by
  cases a with
  | request spelling now =>
    have hguard : NothingForgotten s (.request 0 (spelled client p query spelling) now) := by
      intro limiter' hlimiter d hd _
      rw [h.limiters] at hlimiter
      obtain rfl := Option.some.inj hlimiter
      rw [hcharge, h.charges d hd]
    have hsound := fallbackStep_inv s _ t h.sound hguard hstep
    simp only [mixStep, fallbackStep, h.limiters] at hstep
    split_ifs at hstep
    obtain rfl := Option.some.inj hstep
    refine ⟨h.limiters, h.cleanupWindowMs, ?_, hsound⟩
    intro d hd
    rcases (s.handle_handled limiter _ now).mem_log hd with hold | ⟨hnew, -⟩
    · exact h.charges d hold
    · rw [hnew, hcharge]
  | cleanup now =>
    have hguard : NothingForgotten s (.cleanup now) := by
      intro windowMs hwindow d hd ts hts hold
      rw [h.cleanupWindowMs] at hwindow
      obtain rfl := Option.some.inj hwindow
      rcases hkeeps with hlimit | hle
      · rw [h.timestamps_eq_nil hlimit hd] at hts
        exact absurd hts List.not_mem_nil
      · rw [h.charges d hd]
        omega
    have hsound := fallbackStep_inv s _ t h.sound hguard hstep
    simp only [mixStep, fallbackStep, h.cleanupWindowMs] at hstep
    split_ifs at hstep
    obtain rfl := Option.some.inj hstep
    exact ⟨h.limiters, rfl, h.charges, hsound⟩

/-- The invariant bounds what is let through. -/
theorem MixInv.bounded {limiter : RateLimiter} {c : Charge} {s : FallbackState}
    (h : MixInv limiter c s) : AtMostPerWindow c.limit c.windowMs (letThrough s.log) := by
  have hall : letThrough s.log = allowedOn c.effectiveKey s.log := by
    unfold letThrough allowedOn
    refine congrArg _ (List.filter_congr fun d hd => ?_)
    simp [h.charges d hd]
  cases hlog : s.log with
  | nil => exact fun x => Nat.zero_le _
  | cons d rest =>
    have hd : d ∈ s.log := by simp [hlog]
    have hsound := h.sound.logSound.1 d hd
    rw [h.charges d hd] at hsound
    rw [← hlog, hall]
    exact hsound

/-- A request that meets fewer live timestamps than the limit is let through and recorded. -/
theorem mixStep_request {limiter : RateLimiter} {client : Request} {p query : String} {c : Charge}
    (hcharge : limiter.charge (spelled client p query .versioned) = c) {s : FallbackState}
    (hlimiters : s.limiters = [limiter]) {now : ℤ} (hnow : s.clock ≤ now)
    (hlt : (live c.windowMs now (s.timestamps c.effectiveKey)).length < c.limit) :
    ∃ t, mixStep client p query s (.request .versioned now) = some t ∧ t.limiters = [limiter] ∧
      t.cleanupWindowMs = s.cleanupWindowMs ∧ t.clock = now ∧
      t.timestamps c.effectiveKey = live c.windowMs now (s.timestamps c.effectiveKey) ++ [now] ∧
      letThrough t.log = letThrough s.log ++ [now] := by
  have hhandled := s.handle_handled limiter (spelled client p query .versioned) now
  rw [hcharge] at hhandled
  refine ⟨s.handle limiter (spelled client p query .versioned) now, ?_, hlimiters, rfl, rfl, ?_, ?_⟩
  · simp only [mixStep, fallbackStep, hlimiters]
    rw [if_neg (not_lt.2 hnow)]
    rfl
  · rw [hhandled.timestamps_key, addedTimes, if_pos hlt]
  · rw [hhandled.log, decide_eq_true hlt]
    simp [letThrough]

/-- A tick of the cleanup keeps of each key what its own window covers. -/
theorem mixStep_cleanup (client : Request) (p query : String) {s : FallbackState} {windowMs now : ℤ}
    (hwindow : s.cleanupWindowMs = some windowMs) (hnow : s.clock ≤ now) :
    ∃ t, mixStep client p query s (.cleanup now) = some t ∧ t.limiters = s.limiters ∧ t.clock = now ∧
      (∀ key, t.timestamps key = (s.timestamps key).filter fun ts => now - ts < windowMs) ∧
      t.log = s.log := by
  refine ⟨{ s with fallbackStore := cleanupStore s.fallbackStore windowMs now, clock := now }, ?_, rfl,
    rfl, cleanupStore_get s.fallbackStore windowMs now, rfl⟩
  simp only [mixStep, fallbackStep]
  rw [if_neg (not_lt.2 hnow), hwindow, Option.map_some]

/-- As many requests as the limit allows get through at once. -/
theorem mix_burst {options : RateLimiterOptions} {client : Request} {p query : String} {c : Charge}
    (hcharge : (createRateLimiter options).charge (spelled client p query .versioned) = c)
    (hwindow : 0 < c.windowMs) (k : ℕ) (hk : k ≤ c.limit) :
    ∃ s, Reachable (mixStep client p query) (.created options) s ∧
      s.limiters = [createRateLimiter options] ∧
      s.cleanupWindowMs = some (createRateLimiter options).windowMs ∧ s.clock = 0 ∧
      s.timestamps c.effectiveKey = List.replicate k 0 ∧ letThrough s.log = List.replicate k 0 := by
  induction k with
  | zero => exact ⟨.created options, ⟨[], rfl⟩, rfl, rfl, rfl, rfl, rfl⟩
  | succ k ih =>
    obtain ⟨s, hs, hlimiters, hcleanup, hclock, htimes, hlog⟩ := ih (by omega)
    have hlive : live c.windowMs 0 (List.replicate k 0) = List.replicate k 0 := by
      unfold live
      exact List.filter_replicate_of_pos (by simpa using hwindow)
    obtain ⟨t, hst, hlimiters', hcleanup', hclock', htimes', hlog'⟩ :=
      mixStep_request hcharge hlimiters hclock.le (by rw [htimes, hlive, List.length_replicate]; omega)
    refine ⟨t, hs.tail hst, hlimiters', hcleanup'.trans hcleanup, hclock', ?_, ?_⟩
    · rw [htimes', htimes, hlive, List.replicate_succ']
    · rw [hlog', hlog, List.replicate_succ']

/-- A tick of the cleanup with a shorter window lets one request more through than the limit. -/
theorem not_mixBounded_memory {options : RateLimiterOptions} {client : Request} {p query : String}
    {c : EndpointRateLimitConfig} (hc : findEndpointLimit (Spelling.versioned.originalUrl p query)
      (createRateLimiter options).endpointLimits = some c) (hkeeps : ¬ CheckKeeps false options c) :
    ¬ MixBounded false options client p query c := by
  intro h
  unfold MixBounded at h
  rw [if_neg (by simp)] at h
  unfold CheckKeeps at hkeeps
  rw [if_neg (by simp), not_or, not_le] at hkeeps
  obtain ⟨hlimit, hshort⟩ := hkeeps
  have hcleanup : 0 ≤ (createRateLimiter options).windowMs := by
    unfold createRateLimiter
    dsimp only
    omega
  have hcharge : (createRateLimiter options).charge (spelled client p query .versioned) =
      (createRateLimiter options).chargeOf client (some c) := by rw [charge_spelled, hc]
  obtain ⟨s, hs, hlimiters, hwindow, hclock, htimes, hlog⟩ :=
    mix_burst hcharge (hcleanup.trans_lt hshort) c.maxRequests le_rfl
  -- The tick at the end of the window of the cleanup forgets the burst.
  obtain ⟨t, hst, hlimiters', hclock', htimes', hlog'⟩ := mixStep_cleanup client p query hwindow
    (hclock ▸ hcleanup)
  have hforgot : t.timestamps ((createRateLimiter options).chargeOf client (some c)).effectiveKey =
      [] := by
    rw [htimes', htimes, List.filter_replicate_of_neg (by simp)]
  obtain ⟨u, htu, -, -, -, -, hlogu⟩ := mixStep_request hcharge (hlimiters'.trans hlimiters)
    hclock'.le (by rw [hforgot]; exact Nat.pos_of_ne_zero hlimit)
  have hatMost := h u ((hs.tail hst).tail htu) 0
  rw [hlogu, hlog', hlog, List.filter_append, List.filter_replicate_of_pos (by simp; omega),
    List.length_append, List.length_replicate, List.filter_cons_of_pos (by simp; omega)] at hatMost
  exact absurd hatMost (Nat.not_succ_le_self _)

/-- The alias is charged like the versioned URL, and no mix of the spellings gets past the limit,
exactly when the same limit is found for both, and the check keeps it. -/
theorem aliasCharged_iff (redis : Bool) (options : RateLimiterOptions) (client : Request)
    (p query : String) : AliasCharged redis options client p query ↔
      ∀ c, findEndpointLimit (Spelling.versioned.originalUrl p query)
          (createRateLimiter options).endpointLimits = some c → SameHandler p query →
        findEndpointLimit (Spelling.unversioned.originalUrl p query)
          (createRateLimiter options).endpointLimits = some c ∧ CheckKeeps redis options c := by
  unfold AliasCharged
  refine forall_congr' fun c => forall_congr' fun hc => forall_congr' fun _ => ?_
  rw [charged_alike_iff _ client hc]
  refine and_congr_right fun halias => ?_
  constructor
  · intro hbounded
    by_contra hkeeps
    cases redis with
    | true => exact not_mixBounded_redis hc (by simpa [CheckKeeps] using hkeeps) hbounded
    | false => exact not_mixBounded_memory hc hkeeps hbounded
  · intro hkeeps
    unfold MixBounded
    cases redis with
    | true =>
      -- An empty window has no requests.
      have hempty : c.windowSeconds = 0 := by simpa [CheckKeeps] using hkeeps
      intro trace _ _ x
      rw [List.filter_eq_nil_iff.2 (by simp [hempty])]
      exact Nat.zero_le _
    | false =>
      intro s hs
      have hcharge : ∀ spelling, (createRateLimiter options).charge (spelled client p query spelling) =
          (createRateLimiter options).chargeOf client (some c) := by
        intro spelling
        cases spelling with
        | versioned => rw [charge_spelled, hc]
        | unversioned => rw [charge_spelled, halias]
      have hforgets : c.maxRequests = 0 ∨
          (c.windowSeconds * 1000 : ℤ) ≤ (createRateLimiter options).windowMs := by
        simpa [CheckKeeps] using hkeeps
      have hinv := hs.invariant (mixStep_inv hcharge hforgets) (FallbackState.created_inv options _)
      exact hinv.bounded

/-- A client that is known by its address. -/
def reportClient : Request := { ip := some "10.0.0.1", originalUrl := "", path := "" }

/-- Ten requests for a report by the versioned URL and one by the alias, at one time. -/
def reportMix : List MixAction :=
  List.replicate 10 (.request .versioned 0) ++ [.request .unversioned 0]

/-- All requests of `reportMix` get through the limiter as `createApiServer` makes it. -/
theorem reportMix_letThrough :
    (run (mixStep reportClient "reports/generate" "") (.created {}) reportMix).map
      (fun s => letThrough s.log) = some (List.replicate 11 0) := by
  decide +kernel

/-- The limit of a report is ten in a window, and eleven requests get through: the alias is charged to
another key and another limit. -/
theorem alias_bypasses_report_limit :
    (createRateLimiter {}).charge (spelled reportClient "reports/generate" "" .versioned) =
        ⟨"ratelimit:ip:10.0.0.1:/api/v1/reports/generate", 10, 60000⟩ ∧
      (createRateLimiter {}).charge (spelled reportClient "reports/generate" "" .unversioned) =
        ⟨"ratelimit:ip:10.0.0.1", 50, 60000⟩ ∧
      SameHandler "reports/generate" "" ∧
      (run (mixStep reportClient "reports/generate" "") (.created {}) reportMix).map
        (fun s => letThrough s.log) = some (List.replicate 11 0) ∧
      ∀ redis, ¬ AliasCharged redis {} reportClient "reports/generate" "" := by
  have hsame : SameHandler "reports/generate" "" := (sameHandler_iff _ _).2 (by decide)
  refine ⟨by decide, by decide, hsame, reportMix_letThrough, fun redis h => ?_⟩
  have hcharge := h ⟨"/api/v1/reports/generate", 10, 60⟩ (by decide) hsame
  exact absurd hcharge.1.2 (by decide)

end AlsaqiBackend.RateLimit

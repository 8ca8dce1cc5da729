import AlsaqiBackend.Lib.JsMap
import AlsaqiBackend.Lib.JsString
import Mathlib.Data.List.Sort

/-!
# The rate limiter

`src/middleware/rateLimiter.ts` charges each request to a key with a limit and a window, and counts
the requests of the window in Redis, or in a store of the process when Redis is not available. This
module has the keys and limits that `createRateLimiter` finds for a request, and the two checks: the
Lua script on the sorted set of a key, and the list of timestamps of a key in the store.

Times are milliseconds since the epoch, windows whole seconds.
-/

namespace AlsaqiBackend.RateLimit

open AlsaqiBackend.Lib

/-! ## Configuration -/

def DEFAULT_AUTHENTICATED_LIMIT : ℕ := 100

def DEFAULT_UNAUTHENTICATED_LIMIT : ℕ := 50

def DEFAULT_WINDOW_SECONDS : ℕ := 60

/-- A limit for the URLs that begin with a pattern. -/
structure EndpointRateLimitConfig where
  pattern : String
  maxRequests : ℕ
  windowSeconds : ℕ
  deriving DecidableEq, Repr

def DEFAULT_ENDPOINT_LIMITS : List EndpointRateLimitConfig :=
  [⟨"/api/v1/pdf-templates/preview-pdf", 10, 60⟩, ⟨"/api/v1/pdf-templates/preview-html", 10, 60⟩,
    ⟨"/api/v1/reports/generate", 10, 60⟩]

/-- The options of `createRateLimiter`. -/
structure RateLimiterOptions where
  authenticatedLimit : Option ℕ := none
  unauthenticatedLimit : Option ℕ := none
  windowSeconds : Option ℕ := none
  endpointLimits : Option (List EndpointRateLimitConfig) := none
  deriving DecidableEq, Repr

/-- A limiter, with the defaults filled in. -/
structure RateLimiter where
  authenticatedLimit : ℕ
  unauthenticatedLimit : ℕ
  windowMs : ℤ
  endpointLimits : List EndpointRateLimitConfig
  deriving DecidableEq, Repr

/-- `createRateLimiter`, apart from the cleanup that it starts. -/
def createRateLimiter (options : RateLimiterOptions) : RateLimiter where
  authenticatedLimit := options.authenticatedLimit.getD DEFAULT_AUTHENTICATED_LIMIT
  unauthenticatedLimit := options.unauthenticatedLimit.getD DEFAULT_UNAUTHENTICATED_LIMIT
  windowMs := (options.windowSeconds.getD DEFAULT_WINDOW_SECONDS : ℕ) * 1000
  endpointLimits := options.endpointLimits.getD DEFAULT_ENDPOINT_LIMITS

/-! ## Keys -/

/-- What the limiter reads of a request. -/
structure Request where
  userId : Option String := none
  ip : Option String := none
  xForwardedFor : List String := []
  remoteAddress : Option String := none
  originalUrl : String
  path : String
  deriving DecidableEq, Repr

/-- `text.split(',')[0].trim()`. -/
def firstTrimmed (text : String) : String :=
  String.ofList (((text.toList.takeWhile (· ≠ ',')).dropWhile isJsWhitespace).reverse.dropWhile
    isJsWhitespace).reverse

/-- `getClientIp`. -/
def getClientIp (req : Request) : String :=
  let forwarded := req.xForwardedFor.head?.map firstTrimmed
  (orElse req.ip (orElse forwarded (orElse req.remoteAddress (some "0.0.0.0")))).getD "0.0.0.0"

/-- `getRateLimitKey`: the key, and whether the request is authenticated. -/
def getRateLimitKey (req : Request) : String × Bool :=
  match orElse req.userId none with
  | some id => ("ratelimit:user:" ++ id, true)
  | none => ("ratelimit:ip:" ++ getClientIp req, false)

/-- `findEndpointLimit`: the first limit whose pattern the path starts with. -/
def findEndpointLimit (path : String) (endpointLimits : List EndpointRateLimitConfig) :
    Option EndpointRateLimitConfig :=
  endpointLimits.find? fun config => config.pattern.toList.isPrefixOf path.toList

/-- What a request is charged to. -/
structure Charge where
  effectiveKey : String
  limit : ℕ
  windowMs : ℤ
  deriving DecidableEq, Repr

/-- The first part of the handler of a limiter: the key, the limit and the window of a request. -/
def RateLimiter.charge (limiter : RateLimiter) (req : Request) : Charge :=
  let (key, isAuthenticated) := getRateLimitKey req
  let url := if req.originalUrl = "" then req.path else req.originalUrl
  match findEndpointLimit url limiter.endpointLimits with
  | some config => ⟨key ++ ":" ++ config.pattern, config.maxRequests, config.windowSeconds * 1000⟩
  | none =>
    ⟨key, if isAuthenticated then limiter.authenticatedLimit else limiter.unauthenticatedLimit,
      limiter.windowMs⟩

/-! ## The two checks -/

/-- The result of a check. -/
structure CheckResult where
  count : ℕ
  oldestTs : ℤ
  allowed : Bool
  deriving DecidableEq, Repr

/-- `checkRateLimitInMemory` on the timestamps of the key, with those that it leaves. -/
def checkRateLimitInMemory (timestamps : List ℤ) (limit : ℕ) (windowMs now : ℤ) :
    CheckResult × List ℤ :=
  let timestamps := timestamps.filter fun ts => now - ts < windowMs
  let count := timestamps.length
  let oldestTs := timestamps.head?.getD now
  if count ≥ limit then (⟨count, oldestTs, false⟩, timestamps)
  else (⟨count + 1, oldestTs, true⟩, timestamps ++ [now])

/-- An entry of a sorted set. -/
structure ZEntry where
  score : ℤ
  member : String
  deriving DecidableEq, Repr

/-- The order of a sorted set: by score, and by member for equal scores. -/
def ZEntry.le (a b : ZEntry) : Prop := a.score < b.score ∨ (a.score = b.score ∧ a.member ≤ b.member)

instance : DecidableRel ZEntry.le := fun a b =>
  inferInstanceAs (Decidable (a.score < b.score ∨ (a.score = b.score ∧ a.member ≤ b.member)))

/-- A key of Redis that holds a sorted set, with the time at which it expires. -/
structure RedisKey where
  entries : List ZEntry
  expireAt : Option ℤ
  deriving DecidableEq, Repr

/-- `ZREMRANGEBYSCORE key -inf cutoff`. -/
def zremrangebyscore (entries : List ZEntry) (cutoff : ℤ) : List ZEntry :=
  entries.filter fun e => ¬ e.score ≤ cutoff

/-- `ZADD key score member`. A member that is there already gets the new score. -/
def zadd (entries : List ZEntry) (score : ℤ) (member : String) : List ZEntry :=
  (entries.filter fun e => e.member ≠ member).orderedInsert ZEntry.le ⟨score, member⟩

/-- The entries at the time `now`: a key that has expired is gone. -/
def RedisKey.entriesAt (key : RedisKey) (now : ℤ) : List ZEntry :=
  if key.expireAt.any (· ≤ now) then [] else key.entries

/-- The member that the script adds at `now`, where `random` is what `math.random` gives. -/
def windowMember (now : ℤ) (random : ℕ) : String := toString now ++ ":" ++ toString random

/-- `SLIDING_WINDOW_LUA`: the key afterwards, the count and the oldest timestamp. -/
def slidingWindowLua (key : RedisKey) (now windowMs : ℤ) (limit random : ℕ) : RedisKey × ℕ × ℤ :=
  let cutoff := now - windowMs
  let entries := zremrangebyscore (key.entriesAt now) cutoff
  let count := entries.length
  let oldestTs := (entries.head?.map ZEntry.score).getD 0
  if count < limit then
    (⟨zadd entries now (windowMember now random), some (now + windowMs)⟩, count + 1, oldestTs)
  -- A key without entries is no key, and has no time of its own.
  else (⟨entries, if entries = [] then none else key.expireAt⟩, count, oldestTs)

/-- `checkRateLimitRedis` when Redis answers in time. -/
def checkRateLimitRedis (key : RedisKey) (limit : ℕ) (windowMs now : ℤ) (random : ℕ) :
    CheckResult × RedisKey :=
  let (key, count, oldestTs) := slidingWindowLua key now windowMs limit random
  (⟨count, oldestTs, count ≤ limit⟩, key)

end AlsaqiBackend.RateLimit

import AlsaqiBackend.RateLimit.Limiter
import AlsaqiBackend.Lib.SlidingWindow
import Mathlib.Algebra.Order.Group.Int

/-!
# The Redis path and the memory path of the limiter

Both paths keep the timestamps of the requests that they let through and drop those that have left
the window, and both record a request when fewer than the limit are left. They differ in what they
answer when exactly the limit is left. The memory path compares the count before the request and
denies it. The script returns that count unchanged, and `count <= limit` lets the request through
without recording it.

`paths_agree_iff` says exactly when the two paths decide alike, and both within the limit: when no
request of the trace meets exactly as many live timestamps as the limit. The simulation relation is
`SameRecorded`: the scores of the sorted set are the timestamps of the store, and the key does not
expire before its entries have left the window.
-/

namespace AlsaqiBackend.RateLimit

open AlsaqiBackend.Lib

/-! ## Runs of one key -/

/-- The decisions of the memory path on requests at the given times. -/
def memoryDecisions (limit : ℕ) (windowMs : ℤ) : List ℤ → List ℤ → List Bool
  | _, [] => []
  | timestamps, now :: times =>
    let (result, timestamps) := checkRateLimitInMemory timestamps limit windowMs now
    result.allowed :: memoryDecisions limit windowMs timestamps times

/-- The decisions of the Redis path on requests at the given times, with what `math.random` gives. -/
def redisDecisions (limit : ℕ) (windowMs : ℤ) : RedisKey → List (ℤ × ℕ) → List Bool
  | _, [] => []
  | key, (now, random) :: trace =>
    let (result, key) := checkRateLimitRedis key limit windowMs now random
    result.allowed :: redisDecisions limit windowMs key trace

/-- The times of the requests that are let through. -/
def allowedTimes (times : List ℤ) (decisions : List Bool) : List ℤ :=
  (times.zip decisions).filterMap fun (now, allowed) => if allowed then some now else none

/-- The two paths decide alike, and neither lets more requests through than the limit in any window. -/
def PathsAgree (limit : ℕ) (windowMs : ℤ) (key : RedisKey) (timestamps : List ℤ)
    (trace : List (ℤ × ℕ)) : Prop :=
  let times := trace.map Prod.fst
  let redis := redisDecisions limit windowMs key trace
  let memory := memoryDecisions limit windowMs timestamps times
  redis = memory ∧ AtMostPerWindow limit windowMs (allowedTimes times redis) ∧
    AtMostPerWindow limit windowMs (allowedTimes times memory)

/-- No request meets exactly as many live timestamps as the limit. -/
def NeverFull (limit : ℕ) (windowMs : ℤ) : List ℤ → List ℤ → Prop
  | _, [] => True
  | timestamps, now :: times =>
    (live windowMs now timestamps).length ≠ limit ∧
      NeverFull limit windowMs (checkRateLimitInMemory timestamps limit windowMs now).2 times

instance (limit : ℕ) (windowMs : ℤ) :
    ∀ timestamps times, Decidable (NeverFull limit windowMs timestamps times)
  | _, [] => isTrue trivial
  | timestamps, now :: times =>
    have : Decidable (NeverFull limit windowMs
        (checkRateLimitInMemory timestamps limit windowMs now).2 times) :=
      instDecidableNeverFull limit windowMs _ times
    inferInstanceAs (Decidable (_ ∧ _))

/-- The sorted set has the same timestamps as the store, none of them later than `now`, and the key
does not expire before its entries have left the window. -/
structure SameRecorded (windowMs now : ℤ) (key : RedisKey) (timestamps : List ℤ) : Prop where
  scores : (key.entries.map ZEntry.score).Perm timestamps
  past : ∀ ts ∈ timestamps, ts ≤ now
  expiry : ∀ expireAt ∈ key.expireAt, ∀ e ∈ key.entries, e.score + windowMs ≤ expireAt

/-! ## One request -/

/-- The memory path keeps the live timestamps, and adds the request when fewer than the limit are
left. -/
theorem checkRateLimitInMemory_eq (timestamps : List ℤ) (limit : ℕ) (windowMs now : ℤ) :
    let count := (live windowMs now timestamps).length
    (checkRateLimitInMemory timestamps limit windowMs now).1.allowed = decide (count < limit) ∧
      (checkRateLimitInMemory timestamps limit windowMs now).2 =
        live windowMs now timestamps ++ if count < limit then [now] else [] := by
  have hlive : (timestamps.filter fun ts => now - ts < windowMs) = live windowMs now timestamps := by
    unfold live
    refine List.filter_congr fun ts _ => ?_
    rw [decide_eq_decide]
    omega
  unfold checkRateLimitInMemory
  simp only [hlive]
  by_cases h : (live windowMs now timestamps).length < limit
  · simp [h, not_le.2 h]
  · simp [h, not_lt.1 h]

/-- A key that has expired has no live entries, so expiry changes nothing. -/
theorem zremrangebyscore_entriesAt {key : RedisKey} {windowMs now : ℤ} {timestamps : List ℤ}
    (h : SameRecorded windowMs now key timestamps) :
    zremrangebyscore (key.entriesAt now) (now - windowMs) =
      zremrangebyscore key.entries (now - windowMs) := by
  unfold RedisKey.entriesAt
  split_ifs with hexp
  · obtain ⟨expireAt, hat, hle⟩ := (Option.any_eq_true _ _).1 hexp
    symm
    unfold zremrangebyscore
    rw [List.filter_nil, List.filter_eq_nil_iff]
    intro e he
    have hentry := h.expiry expireAt hat e he
    simp only [decide_eq_true_eq] at hle ⊢
    omega
  · rfl

/-- The live entries are those of the live timestamps. -/
theorem zremrangebyscore_scores {key : RedisKey} {windowMs now : ℤ} {timestamps : List ℤ}
    (h : SameRecorded windowMs now key timestamps) :
    ((zremrangebyscore key.entries (now - windowMs)).map ZEntry.score).Perm
      (live windowMs now timestamps) := by
  have hperm := h.scores.filter fun ts => now - windowMs < ts
  rw [List.filter_map] at hperm
  unfold zremrangebyscore
  simpa [Function.comp_def, live] using hperm

/-- Both paths drop what has left the window. A key that is left without entries has no expiry. -/
theorem SameRecorded.prune {key : RedisKey} {windowMs now : ℤ} {timestamps : List ℤ}
    (h : SameRecorded windowMs now key timestamps) :
    SameRecorded windowMs now
      ⟨zremrangebyscore key.entries (now - windowMs),
        if zremrangebyscore key.entries (now - windowMs) = [] then none else key.expireAt⟩
      (live windowMs now timestamps) := by
  refine ⟨zremrangebyscore_scores h, fun ts hts => h.past ts (mem_live.1 hts).1, ?_⟩
  intro expireAt hat e he
  dsimp only at hat he
  rw [if_neg (List.ne_nil_of_mem he)] at hat
  exact h.expiry expireAt hat e (List.mem_of_mem_filter he)

/-- Both paths drop what has left the window and record the request, and the key outlives it. -/
theorem SameRecorded.record {key : RedisKey} {windowMs now : ℤ} {timestamps : List ℤ}
    (h : SameRecorded windowMs now key timestamps) {member : String}
    (hfresh : ∀ e ∈ key.entries, e.member ≠ member) :
    SameRecorded windowMs now
      ⟨zadd (zremrangebyscore key.entries (now - windowMs)) now member, some (now + windowMs)⟩
      (live windowMs now timestamps ++ [now]) := by
  have hsub : (zremrangebyscore key.entries (now - windowMs)).Sublist key.entries :=
    List.filter_sublist
  have hnew : (zadd (zremrangebyscore key.entries (now - windowMs)) now member).Perm
      (⟨now, member⟩ :: zremrangebyscore key.entries (now - windowMs)) := by
    unfold zadd
    rw [List.filter_eq_self.2 fun e he => by simpa using hfresh e (hsub.subset he)]
    exact List.perm_orderedInsert _ _ _
  refine ⟨?_, fun ts hts => ?_, fun expireAt hat e he => ?_⟩
  · have hscores := hnew.map ZEntry.score
    rw [List.map_cons] at hscores
    have hlive := (zremrangebyscore_scores h).cons now
    exact hscores.trans (hlive.trans (List.perm_append_singleton now _).symm)
  · rcases List.mem_append.1 hts with hold | hlast
    · exact h.past ts (mem_live.1 hold).1
    · exact (List.mem_singleton.1 hlast).le
  · obtain rfl := Option.some.inj hat
    rcases List.mem_cons.1 (hnew.subset he) with rfl | hold
    · exact le_rfl
    · have hpast : e.score ≤ now :=
        h.past _ (h.scores.subset (List.mem_map_of_mem (hsub.subset hold)))
      omega

/-- The script keeps the live entries, adds the request when fewer than the limit are left, and the
request is denied only when more than the limit are left. -/
theorem checkRateLimitRedis_eq {key : RedisKey} {windowMs now : ℤ} {timestamps : List ℤ}
    (h : SameRecorded windowMs now key timestamps) (limit random : ℕ)
    (hfresh : ∀ e ∈ key.entries, e.member ≠ windowMember now random) :
    let count := (live windowMs now timestamps).length
    (checkRateLimitRedis key limit windowMs now random).1.allowed = decide (count ≤ limit) ∧
      SameRecorded windowMs now (checkRateLimitRedis key limit windowMs now random).2
        (checkRateLimitInMemory timestamps limit windowMs now).2 := by
  intro count
  obtain ⟨-, hmemory⟩ := checkRateLimitInMemory_eq timestamps limit windowMs now
  have hcount : (zremrangebyscore key.entries (now - windowMs)).length = count := by
    simpa using (zremrangebyscore_scores h).length_eq
  unfold checkRateLimitRedis slidingWindowLua
  simp only [zremrangebyscore_entriesAt h, hcount]
  by_cases hlt : count < limit
  · rw [hmemory, if_pos hlt, if_pos hlt]
    refine ⟨?_, h.record hfresh⟩
    rw [decide_eq_decide]
    dsimp only
    omega
  · rw [hmemory, if_neg hlt, if_neg hlt, List.append_nil]
    exact ⟨rfl, h.prune⟩

/-- The script adds no member but its own. -/
theorem checkRateLimitRedis_member (key : RedisKey) (limit : ℕ) (windowMs now : ℤ) (random : ℕ) :
    ∀ e ∈ (checkRateLimitRedis key limit windowMs now random).2.entries,
      e ∈ key.entries ∨ e.member = windowMember now random := by
  have hkept : ∀ e ∈ zremrangebyscore (key.entriesAt now) (now - windowMs), e ∈ key.entries := by
    intro e he
    have hat : e ∈ key.entriesAt now := List.mem_of_mem_filter he
    unfold RedisKey.entriesAt at hat
    split_ifs at hat
    · exact absurd hat List.not_mem_nil
    · exact hat
  intro e he
  unfold checkRateLimitRedis slidingWindowLua at he
  dsimp only at he
  split at he
  · unfold zadd at he
    rcases List.mem_cons.1 ((List.perm_orderedInsert _ _ _).subset he) with rfl | he
    · exact Or.inr rfl
    · exact Or.inl (hkept e (List.mem_of_mem_filter he))
  · exact Or.inl (hkept e he)

/-! ## Traces -/

/-- The members that the script adds are new ones. -/
def DistinctMembers (key : RedisKey) (trace : List (ℤ × ℕ)) : Prop :=
  (trace.map fun q => windowMember q.1 q.2).Nodup ∧
    ∀ q ∈ trace, ∀ e ∈ key.entries, e.member ≠ windowMember q.1 q.2

/-- The timestamps are the same when time has passed. -/
theorem SameRecorded.mono {windowMs now later : ℤ} {key : RedisKey} {timestamps : List ℤ}
    (h : SameRecorded windowMs now key timestamps) (hle : now ≤ later) :
    SameRecorded windowMs later key timestamps :=
  ⟨h.scores, fun ts hts => (h.past ts hts).trans hle, h.expiry⟩

/-- The two paths decide alike exactly when no request meets as many live timestamps as the limit. -/
theorem redisDecisions_eq_iff (limit : ℕ) (windowMs : ℤ) {start : ℤ} {key : RedisKey}
    {timestamps : List ℤ} (hsame : SameRecorded windowMs start key timestamps)
    (trace : List (ℤ × ℕ)) (hsorted : (start :: trace.map Prod.fst).Pairwise (· ≤ ·))
    (hdistinct : DistinctMembers key trace) :
    redisDecisions limit windowMs key trace =
        memoryDecisions limit windowMs timestamps (trace.map Prod.fst) ↔
      NeverFull limit windowMs timestamps (trace.map Prod.fst) := by
  induction trace generalizing start key timestamps with
  | nil => exact iff_of_true rfl trivial
  | cons q trace ih =>
    obtain ⟨now, random⟩ := q
    obtain ⟨hstart, hrest⟩ := List.pairwise_cons.1 hsorted
    obtain ⟨hnd, hfresh⟩ := hdistinct
    rw [List.map_cons, List.nodup_cons] at hnd
    have hnow := hsame.mono (hstart now List.mem_cons_self)
    obtain ⟨hredis, hsame'⟩ := checkRateLimitRedis_eq hnow limit random (hfresh _ List.mem_cons_self)
    obtain ⟨hmemory, -⟩ := checkRateLimitInMemory_eq timestamps limit windowMs now
    have hdistinct' : DistinctMembers (checkRateLimitRedis key limit windowMs now random).2 trace := by
      refine ⟨hnd.2, fun q hq e he => ?_⟩
      rcases checkRateLimitRedis_member key limit windowMs now random e he with hold | hnew
      · exact hfresh q (List.mem_cons_of_mem _ hq) e hold
      · rw [hnew]
        rintro heq
        exact hnd.1 (List.mem_map.2 ⟨q, hq, heq.symm⟩)
    have htail := ih hsame' hrest hdistinct'
    -- The heads agree unless exactly the limit is left.
    have hhead : decide ((live windowMs now timestamps).length ≤ limit) =
        decide ((live windowMs now timestamps).length < limit) ↔
        (live windowMs now timestamps).length ≠ limit := by
      rw [decide_eq_decide]
      omega
    simp only [List.map_cons, redisDecisions, memoryDecisions, NeverFull, List.cons.injEq, hredis,
      hmemory, hhead, htail]

@[simp]
theorem allowedTimes_cons (now : ℤ) (times : List ℤ) (allowed : Bool) (decisions : List Bool) :
    allowedTimes (now :: times) (allowed :: decisions) =
      (if allowed then [now] else []) ++ allowedTimes times decisions := by
  cases allowed <;> rfl

/-- The requests that are let through are requests. -/
theorem allowedTimes_sublist (times : List ℤ) (decisions : List Bool) :
    (allowedTimes times decisions).Sublist times := by
  induction times generalizing decisions with
  | nil => simp [allowedTimes]
  | cons now times ih =>
    cases decisions with
    | nil => simp [allowedTimes]
    | cons allowed decisions =>
      rw [allowedTimes_cons]
      cases allowed
      · exact (ih decisions).cons now
      · exact (ih decisions).cons_cons now

/-- The memory path admits requests as a sliding window does: behind admitted requests whose live
ones are recorded, those that it lets through are admitted too. -/
theorem memoryDecisions_admitted (limit : ℕ) (windowMs : ℤ) {start : ℤ}
    {admitted timestamps : List ℤ} (hadm : Admitted limit windowMs admitted)
    (hrecorded : (live windowMs start admitted).Sublist timestamps) (times : List ℤ)
    (hsorted : (start :: times).Pairwise (· ≤ ·)) :
    Admitted limit windowMs
      (admitted ++ allowedTimes times (memoryDecisions limit windowMs timestamps times)) := by
  induction times generalizing start admitted timestamps with
  | nil => simpa [memoryDecisions, allowedTimes] using hadm
  | cons now times ih =>
    obtain ⟨hstart, hrest⟩ := List.pairwise_cons.1 hsorted
    obtain ⟨hallowed, hleft⟩ := checkRateLimitInMemory_eq timestamps limit windowMs now
    have hlive : (live windowMs now admitted).Sublist (live windowMs now timestamps) := by
      rw [← live_live (hstart now List.mem_cons_self)]
      exact hrecorded.filter _
    rw [memoryDecisions, allowedTimes_cons, hallowed, hleft, ← List.append_assoc]
    by_cases hlt : (live windowMs now timestamps).length < limit
    · simp only [hlt, decide_true, if_true]
      refine ih ?_ ?_ hrest
      · exact admitted_append_singleton.2 ⟨hadm, hlive.length_le.trans_lt hlt⟩
      · rw [live_append]
        exact hlive.append List.filter_sublist
    · simp only [hlt, decide_false, Bool.false_eq_true, if_false, List.append_nil]
      exact ih hadm hlive hrest

/-- The memory path lets no more requests through than the limit in any window. -/
theorem memoryDecisions_atMost (limit : ℕ) (windowMs : ℤ) (timestamps times : List ℤ)
    (hsorted : times.Pairwise (· ≤ ·)) :
    AtMostPerWindow limit windowMs
      (allowedTimes times (memoryDecisions limit windowMs timestamps times)) := by
  have hpairs := hsorted.sublist
    (allowedTimes_sublist times (memoryDecisions limit windowMs timestamps times))
  cases times with
  | nil => exact fun x => by simp [allowedTimes]
  | cons now times =>
    have hrecorded : (live windowMs now []).Sublist timestamps := List.nil_sublist timestamps
    have hfirst : (now :: now :: times).Pairwise (· ≤ ·) := by
      refine List.pairwise_cons.2 ⟨fun t ht => ?_, hsorted⟩
      rcases List.mem_cons.1 ht with rfl | ht
      · exact le_rfl
      · exact (List.pairwise_cons.1 hsorted).1 t ht
    have hadm := memoryDecisions_admitted limit windowMs admitted_nil hrecorded (now :: times) hfirst
    exact hadm.atMostPerWindow hpairs

/-- Started from the same timestamps, the two paths decide alike on a trace, and neither lets more
requests through than the limit in any window, exactly when no request of the trace meets as many live
timestamps as the limit. -/
theorem paths_agree_iff (limit : ℕ) (windowMs : ℤ) {start : ℤ} {key : RedisKey}
    {timestamps : List ℤ} (hsame : SameRecorded windowMs start key timestamps)
    (trace : List (ℤ × ℕ)) (hsorted : (start :: trace.map Prod.fst).Pairwise (· ≤ ·))
    (hdistinct : DistinctMembers key trace) :
    PathsAgree limit windowMs key timestamps trace ↔
      NeverFull limit windowMs timestamps (trace.map Prod.fst) := by
  have heq := redisDecisions_eq_iff limit windowMs hsame trace hsorted hdistinct
  have hatMost := memoryDecisions_atMost limit windowMs timestamps (trace.map Prod.fst)
    (List.pairwise_cons.1 hsorted).2
  rw [← heq]
  constructor
  · exact fun hagree => hagree.1
  · intro hdecisions
    refine ⟨hdecisions, ?_, hatMost⟩
    rw [hdecisions]
    exact hatMost

/-- Three requests under a limit of two, of which the first has left the window when the third
comes. -/
theorem paths_agree_spread_requests :
    PathsAgree 2 1000 ⟨[], none⟩ [] [(0, 1), (500, 2), (1000, 3)] :=
  have hsame : SameRecorded 1000 0 ⟨[], none⟩ [] := ⟨by simp, by simp, by simp⟩
  (paths_agree_iff 2 1000 hsame [(0, 1), (500, 2), (1000, 3)] (by decide) ⟨by decide, by simp⟩).2
    (by decide)

/-- Two requests under a limit of one: the memory path denies the second, the Redis path lets it
through, and then two requests are let through in one window. -/
theorem redis_path_exceeds_limit :
    redisDecisions 1 1000 ⟨[], none⟩ [(0, 1), (500, 2)] = [true, true] ∧
      memoryDecisions 1 1000 [] [0, 500] = [true, false] ∧
      ¬ AtMostPerWindow 1 (1000 : ℤ) (allowedTimes [0, 500]
        (redisDecisions 1 1000 ⟨[], none⟩ [(0, 1), (500, 2)])) ∧
      ¬ PathsAgree 1 1000 ⟨[], none⟩ [] [(0, 1), (500, 2)] := by
  refine ⟨by decide, by decide, fun h => ?_, fun h => ?_⟩
  · exact absurd (h 0) (by decide)
  · exact absurd h.1 (by decide)

end AlsaqiBackend.RateLimit

import AlsaqiBackend.Auth.Cache

/-!
# Freshness of the auth cache

When a call of `authenticate` begins, the operations that count and have returned require a stamp of
the row, and the call should decide on a row with at least that stamp. `fresh_along` is the rule: it
holds along every run that is `Orderly`. A run leaves the rule in four ways, which are those of the
source: a call writes a row into the cache that it read before an operation which has meanwhile begun
to invalidate, or returned; an operation returns without an invalidation; Redis is lost while an
invalidation begins, and comes back with its entries; or the flag that forces a read of the database is
cleared while the cache still has an older row under another `session_version`.

The invariant has two parts. The flag is set, or every entry has the required stamp; and an entry that
is older than what a scan is for is one that the scan has still to return.

With the stamp `session_version` and the operations that increment it this is about revocation
(`revoked_along`), with the number of writes and the operations that invalidate about stale rows
(`cache_fresh_along`).
-/

namespace AlsaqiBackend.Auth

open AlsaqiBackend.Lib

variable (stamp : Read → ℤ) (covers : MutationKind → Bool)

/-! ## The rule -/

/-- Every call has decided on a row as fresh as it was required when the call began. -/
def Fresh (s : AuthState) : Prop := ∀ d ∈ s.log, d.since ≤ stamp d.read

/-- The cache has no row with a smaller stamp. -/
def CacheSince (s : AuthState) (level : ℤ) : Prop := ∀ e ∈ s.cache, level ≤ stamp e.2

/-- The row that a call is about to write into the cache. -/
def CallPhase.toWrite : CallPhase → Option Read
  | .writing read => some read
  | _ => none

/-- The stamp of the row that an operation wrote, while it has not returned. -/
def MutationPhase.level : MutationPhase → Option ℤ
  | .updated level => some level
  | .scanning _ level _ => some level
  | _ => none

/-- The last attempt of an invalidation is under way. -/
def MutationPhase.lastAttempt : MutationPhase → Bool
  | .scanning n _ _ => ¬ n < MAX_INVALIDATION_ATTEMPTS
  | _ => false

/-- The flag can be cleared: it is not set, or the cache has no row older than required. -/
def Clearable (s : AuthState) : Prop := s.forceRead = true → CacheSince stamp s s.required

/-- An attempt to invalidate finds Redis available, or no older row there. -/
def AttemptEffective (s : AuthState) (m : Mutation) : Prop :=
  s.redisAvailable = false →
    Clearable stamp s ∧ (covers m.kind = true → ∀ level ∈ m.phase.level, CacheSince stamp s level)

/-- The condition on a step: no row goes into the cache that is older than an operation which has begun
to invalidate or has returned, an operation that does not invalidate returns when the cache has no
older row, and neither an attempt without Redis nor the clearing of the flag leaves an older row. -/
def Orderly (s : AuthState) : AuthAction → Prop
  | .set i ok => ok = true → ∀ call ∈ s.calls[i]?, ∀ read ∈ call.phase.toWrite, s.floor ≤ stamp read
  | .decide i => ∀ call ∈ s.calls[i]?, call.forceFresh = true → Clearable stamp s
  | .finish j => ∀ m ∈ s.mutations[j]?, covers m.kind = true →
      ∀ level ∈ m.phase.level, CacheSince stamp s level
  | .invalidate j => ∀ m ∈ s.mutations[j]?, AttemptEffective stamp covers s m
  | .fail j => ∀ m ∈ s.mutations[j]?, m.phase.lastAttempt = false → AttemptEffective stamp covers s m
  | .scanDone _ => Clearable stamp s
  | _ => True

instance (s : AuthState) (level : ℤ) : Decidable (CacheSince stamp s level) :=
  inferInstanceAs (Decidable (∀ e ∈ s.cache, _))

instance (s : AuthState) : Decidable (Clearable stamp s) :=
  inferInstanceAs (Decidable (s.forceRead = true → _))

instance (s : AuthState) (m : Mutation) : Decidable (AttemptEffective stamp covers s m) :=
  inferInstanceAs (Decidable (s.redisAvailable = false → _ ∧ (_ → _)))

instance (s : AuthState) (a : AuthAction) : Decidable (Orderly stamp covers s a) :=
  match a with
  | .set i ok => inferInstanceAs (Decidable (ok = true → ∀ call ∈ s.calls[i]?, _))
  | .decide i => inferInstanceAs (Decidable (∀ call ∈ s.calls[i]?, _))
  | .finish j => inferInstanceAs (Decidable (∀ m ∈ s.mutations[j]?, _))
  | .invalidate j => inferInstanceAs (Decidable (∀ m ∈ s.mutations[j]?, _))
  | .fail j => inferInstanceAs (Decidable (∀ m ∈ s.mutations[j]?, _))
  | .scanDone _ => inferInstanceAs (Decidable (Clearable stamp s))
  | .start _ | .get _ _ | .fetch _ | .fetchFail _ | .resume _ | .expire _ | .disconnect | .connect
  | .begin _ | .update _ | .del _ _ => isTrue trivial

/-! ## The invariant -/

/-- The row that a call has read. -/
def CallPhase.read : CallPhase → Option Read
  | .fetched read | .writing read | .deciding read => some read
  | .reading | .fetching | .finished => none

/-- What a call knows: it began when no more was required than now, and it has read, or will find in
the cache, a row that is fresh enough. -/
structure CallInv (s : AuthState) (call : Call) : Prop where
  since_le : call.since ≤ s.required
  reading : call.phase = .reading → CacheSince stamp s call.since
  read : ∀ read ∈ call.phase.read, call.since ≤ stamp read

/-- What an operation knows: its level is at most the stamp of the row, and an entry that is older than
what its scan is for is still to be returned by the scan. -/
structure MutationInv (s : AuthState) (m : Mutation) : Prop where
  level_le : ∀ level ∈ m.phase.level, level ≤ stamp s.current
  scanning : ∀ n level unseen, m.phase = .scanning n level unseen → covers m.kind = true →
    level ≤ s.floor ∧ ∀ e ∈ s.cache, stamp e.2 < level → e.1 ∈ unseen

/-- The invariant. -/
structure AuthInv (s : AuthState) : Prop where
  required_le_floor : s.required ≤ s.floor
  floor_le : s.floor ≤ stamp s.current
  cached : s.forceRead = true ∨ CacheSince stamp s s.required
  calls : ∀ call ∈ s.calls, CallInv stamp s call
  mutations : ∀ m ∈ s.mutations, MutationInv stamp covers s m
  fresh : Fresh stamp s

variable {stamp covers} {s : AuthState}

/-- The invariant at the start. -/
theorem AuthState.start_inv (user : UserRow) : AuthInv stamp covers (.start stamp user) where
  required_le_floor := le_rfl
  floor_le := le_rfl
  cached := Or.inr fun _ he => absurd he List.not_mem_nil
  calls := fun _ hcall => absurd hcall List.not_mem_nil
  mutations := fun _ hm => absurd hm List.not_mem_nil
  fresh := fun _ hd => absurd hd List.not_mem_nil

/-- A call knows as much when more is required and what it will find is as fresh. -/
theorem CallInv.mono {t : AuthState} {call : Call} (h : CallInv stamp s call)
    (hrequired : s.required ≤ t.required)
    (hcache : CacheSince stamp s call.since → CacheSince stamp t call.since) : CallInv stamp t call :=
  ⟨h.since_le.trans hrequired, fun hreading => hcache (h.reading hreading), h.read⟩

/-- A call that has left the cache behind knows what it has read. -/
theorem CallInv.move {call : Call} {phase : CallPhase} (h : CallInv stamp s call)
    (hphase : phase ≠ .reading) (hread : ∀ read ∈ phase.read, call.since ≤ stamp read) :
    CallInv stamp s { call with phase := phase } :=
  ⟨h.since_le, fun hreading => absurd hreading hphase, hread⟩

/-- An operation knows as much when the row and the floor grow and the cache has no other entry that is
older than the floor. -/
theorem MutationInv.mono {t : AuthState} {m : Mutation} (h : MutationInv stamp covers s m)
    (hcurrent : stamp s.current ≤ stamp t.current) (hfloor : s.floor ≤ t.floor)
    (hcache : ∀ e ∈ t.cache, e ∈ s.cache ∨ s.floor ≤ stamp e.2) : MutationInv stamp covers t m := by
  refine ⟨fun level hlevel => (h.level_le level hlevel).trans hcurrent, ?_⟩
  intro n level unseen hphase hcovers
  obtain ⟨hle, hunseen⟩ := h.scanning n level unseen hphase hcovers
  refine ⟨hle.trans hfloor, fun e he hold => ?_⟩
  rcases hcache e he with hin | hnew
  · exact hunseen e hin hold
  · omega

/-- An operation that is not scanning knows its level alone. -/
theorem MutationInv.of_not_scanning {m : Mutation}
    (hlevel : ∀ level ∈ m.phase.level, level ≤ stamp s.current)
    (hphase : ∀ n level unseen, m.phase ≠ .scanning n level unseen) : MutationInv stamp covers s m :=
  ⟨hlevel, fun n level unseen hscanning => absurd hscanning (hphase n level unseen)⟩

namespace AuthInv

/-- Calls and operations move on, with what they know. -/
theorem frame (h : AuthInv stamp covers s) (redisAvailable : Bool) {calls : List Call}
    {mutations : List Mutation} (hcalls : ∀ call ∈ calls, CallInv stamp s call)
    (hmutations : ∀ m ∈ mutations, MutationInv stamp covers s m) :
    AuthInv stamp covers
      { s with redisAvailable := redisAvailable, calls := calls, mutations := mutations } where
  required_le_floor := h.required_le_floor
  floor_le := h.floor_le
  cached := h.cached
  calls := fun call hcall => (hcalls call hcall).mono le_rfl id
  mutations := fun m hm => (hmutations m hm).mono le_rfl le_rfl fun _ he => Or.inl he
  fresh := h.fresh

/-- A call moves on. -/
theorem setCall (h : AuthInv stamp covers s) (i : ℕ) {call : Call} (hcall : CallInv stamp s call) :
    AuthInv stamp covers (s.setCall i call) := by
  refine h.frame s.redisAvailable (fun c hc => ?_) h.mutations
  rcases List.mem_or_eq_of_mem_set hc with hold | rfl
  · exact h.calls c hold
  · exact hcall

/-- An operation moves on. -/
theorem setMutation (h : AuthInv stamp covers s) (j : ℕ) {m : Mutation}
    (hm : MutationInv stamp covers s m) : AuthInv stamp covers (s.setMutation j m) := by
  refine h.frame s.redisAvailable h.calls fun m' hm' => ?_
  rcases List.mem_or_eq_of_mem_set hm' with hold | rfl
  · exact h.mutations m' hold
  · exact hm

/-- A call begins. It reads the cache only when the flag is not set. -/
theorem start (h : AuthInv stamp covers s) {call : Call} (hsince : call.since = s.required)
    (hphase : call.phase = .fetching ∨ (call.phase = .reading ∧ s.forceRead = false)) :
    AuthInv stamp covers { s with calls := s.calls ++ [call] } := by
  have hcall : CallInv stamp s call := by
    refine ⟨hsince.le, fun hreading => ?_, ?_⟩
    · obtain hfetching | ⟨-, hforce⟩ := hphase
      · exact absurd (hreading.symm.trans hfetching) (by simp)
      · rw [hsince]
        exact h.cached.resolve_left (by simp [hforce])
    · obtain hfetching | ⟨hreading, -⟩ := hphase
      · simp [hfetching, CallPhase.read]
      · simp [hreading, CallPhase.read]
  refine h.frame s.redisAvailable (fun c hc => ?_) h.mutations
  rcases List.mem_append.1 hc with hold | hnew
  · exact h.calls c hold
  · rw [List.mem_singleton.1 hnew]
    exact hcall

/-- An operation begins. -/
theorem begin (h : AuthInv stamp covers s) (kind : MutationKind) :
    AuthInv stamp covers { s with mutations := s.mutations ++ [⟨kind, .begun⟩] } := by
  refine h.frame s.redisAvailable h.calls fun m hm => ?_
  rcases List.mem_append.1 hm with hold | hnew
  · exact h.mutations m hold
  · rw [List.mem_singleton.1 hnew]
    exact .of_not_scanning (by simp [MutationPhase.level]) (by simp)

/-- Keys leave the cache. -/
theorem drop (h : AuthInv stamp covers s) (keys : List (Option ℤ)) :
    AuthInv stamp covers (s.drop keys) := by
  have hsub : ∀ e ∈ (s.drop keys).cache, e ∈ s.cache ∧ e.1 ∉ keys := by
    intro e he
    simpa [AuthState.drop] using he
  have hsince : ∀ level, CacheSince stamp s level → CacheSince stamp (s.drop keys) level :=
    fun level hlevel e he => hlevel e (hsub e he).1
  refine ⟨h.required_le_floor, h.floor_le, h.cached.imp_right (hsince _), ?_, ?_, h.fresh⟩
  · exact fun call hcall => (h.calls call hcall).mono le_rfl (hsince _)
  · intro m hm
    obtain ⟨m, hold, rfl⟩ := List.mem_map.1 hm
    have hknown := h.mutations m hold
    cases hphase : m.phase with
    | scanning n level unseen =>
      refine ⟨fun l hl => hknown.level_le l (by rw [hphase]; exact hl), ?_⟩
      rintro _ _ _ heq hcovers
      obtain ⟨rfl, rfl, rfl⟩ := MutationPhase.scanning.inj heq
      obtain ⟨hle, hunseen⟩ := hknown.scanning n level unseen hphase hcovers
      refine ⟨hle, fun e he hold => List.mem_filter.2 ⟨hunseen e (hsub e he).1 hold, ?_⟩⟩
      simpa using (hsub e he).2
    | begun | updated level | returned =>
      refine .of_not_scanning (fun l hl => hknown.level_le l ?_) (by simp [MutationPhase.without])
      rw [hphase]
      exact hl

/-- A call writes a row into the cache that is not older than the floor. -/
theorem put (h : AuthInv stamp covers s) (claim : Option ℤ) {read : Read}
    (hread : s.floor ≤ stamp read) : AuthInv stamp covers (s.put claim read) := by
  have hcases : ∀ e ∈ (s.put claim read).cache, e ∈ s.cache ∨ s.floor ≤ stamp e.2 := by
    intro e he
    rcases List.mem_append.1 he with hold | hnew
    · exact Or.inl (List.mem_of_mem_filter hold)
    · rw [List.mem_singleton.1 hnew]
      exact Or.inr hread
  have hsince : ∀ level ≤ s.required, CacheSince stamp s level →
      CacheSince stamp (s.put claim read) level := by
    intro level hlevel hcache e he
    rcases hcases e he with hold | hnew
    · exact hcache e hold
    · exact (hlevel.trans h.required_le_floor).trans hnew
  refine ⟨h.required_le_floor, h.floor_le, h.cached.imp_right (hsince _ le_rfl), ?_, ?_, h.fresh⟩
  · exact fun c hc => (h.calls c hc).mono le_rfl (hsince _ (h.calls c hc).since_le)
  · exact fun m hm => (h.mutations m hm).mono le_rfl le_rfl hcases

/-- The row is written. -/
theorem update (h : AuthInv stamp covers s) (kind : MutationKind)
    (hstamp : stamp s.current ≤ stamp ⟨kind.apply s.user, s.revision + 1⟩) :
    AuthInv stamp covers { s with user := kind.apply s.user, revision := s.revision + 1 } := by
  refine ⟨h.required_le_floor, h.floor_le.trans hstamp, h.cached, fun c hc => ?_, fun m hm => ?_,
    h.fresh⟩
  · exact (h.calls c hc).mono le_rfl id
  · exact (h.mutations m hm).mono hstamp le_rfl fun e he => Or.inl he

/-- The floor grows to the level of an operation. -/
theorem raiseFloor (h : AuthInv stamp covers s) {level : ℤ} (hlevel : level ≤ stamp s.current) :
    AuthInv stamp covers { s with floor := max s.floor level } := by
  refine ⟨h.required_le_floor.trans (le_max_left _ _), max_le h.floor_le hlevel, h.cached,
    fun c hc => ?_, fun m hm => ?_, h.fresh⟩
  · exact (h.calls c hc).mono le_rfl id
  · exact (h.mutations m hm).mono le_rfl (le_max_left _ _) fun e he => Or.inl he

/-- More is required, up to the floor, when the flag is set or the cache is fresh enough. -/
theorem require (h : AuthInv stamp covers s) {required : ℤ} (forceRead : Bool)
    (hgrows : s.required ≤ required) (hfloor : required ≤ s.floor)
    (hcached : forceRead = true ∨ CacheSince stamp s required) :
    AuthInv stamp covers { s with required := required, forceRead := forceRead } := by
  refine ⟨hfloor, h.floor_le, hcached, fun c hc => ?_, fun m hm => ?_, h.fresh⟩
  · exact (h.calls c hc).mono hgrows id
  · exact (h.mutations m hm).mono le_rfl le_rfl fun e he => Or.inl he

/-- An operation returns, when the flag is set or the cache is fresh enough. -/
theorem returns (h : AuthInv stamp covers s) (j : ℕ) (kind : MutationKind) {level : ℤ}
    (forceRead : Bool) (hlevel : level ≤ stamp s.current)
    (hcached : forceRead = true ∨
      (CacheSince stamp s s.required ∧ (covers kind = true → CacheSince stamp s level))) :
    AuthInv stamp covers { s.return covers j kind level with forceRead := forceRead } := by
  have hmoved : AuthInv stamp covers (s.setMutation j ⟨kind, .returned⟩) :=
    h.setMutation j (.of_not_scanning (by simp [MutationPhase.level]) (by simp))
  unfold AuthState.return
  by_cases hcovers : covers kind = true
  · simp only [hcovers, if_true]
    refine (hmoved.raiseFloor hlevel).require forceRead (le_max_left _ _)
      (max_le_max_right level h.required_le_floor) ?_
    refine hcached.imp_right fun ⟨hrequired, hcache⟩ e he => max_le (hrequired e he) ?_
    exact hcache hcovers e he
  · simp only [hcovers, Bool.false_eq_true, if_false]
    exact hmoved.require forceRead le_rfl h.required_le_floor (hcached.imp_right And.left)

/-- An attempt to invalidate begins: all keys are still to be returned by the scan. Without Redis the
operation returns. -/
theorem attempt (h : AuthInv stamp covers s) (j : ℕ) (kind : MutationKind) (n : ℕ) {level : ℤ}
    (hlevel : level ≤ stamp s.current)
    (hguard : s.redisAvailable = false →
      Clearable stamp s ∧ (covers kind = true → CacheSince stamp s level)) :
    AuthInv stamp covers (s.attempt covers j kind n level) := by
  unfold AuthState.attempt
  by_cases havailable : s.redisAvailable = true
  · rw [if_pos havailable]
    have hscan : ∀ t : AuthState, t.cache = s.cache → t.current = s.current →
        (covers kind = true → level ≤ t.floor) →
        MutationInv stamp covers t ⟨kind, .scanning n level (s.cache.map Prod.fst)⟩ := by
      intro t hcache hcurrent hfloor
      refine ⟨fun l hl => ?_, fun _ _ _ heq hcovers => ?_⟩
      · rw [← Option.some.inj hl, hcurrent]
        exact hlevel
      · obtain ⟨rfl, rfl, rfl⟩ := MutationPhase.scanning.inj heq
        rw [hcache]
        exact ⟨hfloor hcovers, fun e he _ => List.mem_map_of_mem he⟩
    by_cases hcovers : covers kind = true
    · simp only [hcovers, if_true]
      exact (h.raiseFloor hlevel).setMutation j (hscan _ rfl rfl fun _ => le_max_right _ _)
    · simp only [hcovers, Bool.false_eq_true, if_false]
      exact h.setMutation j (hscan s rfl rfl fun hc => absurd hc hcovers)
  · rw [if_neg havailable]
    obtain ⟨hclear, hcache⟩ := hguard (by simpa using havailable)
    refine h.returns j kind false hlevel (Or.inr ⟨?_, hcache⟩)
    exact h.cached.elim hclear id

/-- A decision on a row that is fresh enough goes into the log. -/
theorem log (h : AuthInv stamp covers s) {d : Decided} (hread : d.since ≤ stamp d.read) :
    AuthInv stamp covers { s with log := s.log ++ [d] } := by
  refine ⟨h.required_le_floor, h.floor_le, h.cached, fun c hc => ?_, fun m hm => ?_, fun d' hd' => ?_⟩
  · exact (h.calls c hc).mono le_rfl id
  · exact (h.mutations m hm).mono le_rfl le_rfl fun e he => Or.inl he
  · rcases List.mem_append.1 hd' with hold | hnew
    · exact h.fresh d' hold
    · rw [List.mem_singleton.1 hnew]
      exact hread

end AuthInv

/-! ## Steps -/

/-- What `GET` finds is in the cache. -/
theorem mem_of_lookup {claim : Option ℤ} {read : Read} (h : s.lookup claim = some read) :
    ∃ e ∈ s.cache, e.2 = read := by
  obtain ⟨e, he, rfl⟩ := Option.map_eq_some_iff.1 h
  exact ⟨e, List.mem_of_find?_eq_some he, rfl⟩

namespace AuthInv

variable {call : Call} {read : Read} {m : Mutation} {level : ℤ}

/-- A call goes on without a row. -/
theorem moveOn (h : AuthInv stamp covers s) (i : ℕ) (hknown : CallInv stamp s call) {phase : CallPhase}
    (hphase : phase ≠ .reading) (hread : phase.read = none) :
    AuthInv stamp covers (s.setCall i { call with phase := phase }) :=
  h.setCall i (hknown.move hphase (by simp [hread]))

/-- A call goes on with a row that is fresh enough. -/
theorem moveWith (h : AuthInv stamp covers s) (i : ℕ) (hknown : CallInv stamp s call)
    (hread : call.since ≤ stamp read) {phase : CallPhase} (hphase : phase.read = some read) :
    AuthInv stamp covers (s.setCall i { call with phase := phase }) := by
  refine h.setCall i (hknown.move (fun hreading => ?_) (by simpa [hphase] using hread))
  rw [hreading] at hphase
  exact absurd hphase (by simp [CallPhase.read])

/-- What the cache has is fresh enough for a call that reads it. -/
theorem hit (h : AuthInv stamp covers s) (i : ℕ) (hknown : CallInv stamp s call)
    (hphase : call.phase = .reading) (hfound : s.lookup call.claim = some read) :
    AuthInv stamp covers (s.setCall i { call with phase := .deciding read }) := by
  obtain ⟨e, he, rfl⟩ := mem_of_lookup hfound
  exact h.moveWith i hknown (hknown.reading hphase e he) rfl

/-- The row in the database is as fresh as required. -/
theorem fetched (h : AuthInv stamp covers s) (i : ℕ) (hknown : CallInv stamp s call) :
    AuthInv stamp covers (s.setCall i { call with phase := .fetched s.current }) := by
  have hcurrent : call.since ≤ stamp s.current :=
    calc call.since ≤ s.required := hknown.since_le
      _ ≤ s.floor := h.required_le_floor
      _ ≤ stamp s.current := h.floor_le
  exact h.moveWith i hknown hcurrent rfl

/-- The call that has read a row may write it into the cache, when it is not older than the floor. -/
theorem written (h : AuthInv stamp covers s) (i : ℕ) (hknown : CallInv stamp s call)
    (hread : call.since ≤ stamp read) (hfloor : s.floor ≤ stamp read) :
    AuthInv stamp covers
      ((s.put call.claim read).setCall i { call with phase := .deciding read }) := by
  refine (h.put call.claim hfloor).setCall i ⟨hknown.since_le, fun hreading => ?_, ?_⟩
  · exact absurd hreading (by simp)
  · simpa [CallPhase.read] using hread

/-- A call decides on a row that is fresh enough, and the flag is cleared only when no older row is
left. -/
theorem decided (h : AuthInv stamp covers s) (i : ℕ) (hknown : CallInv stamp s call)
    (hread : call.since ≤ stamp read) (hguard : call.forceFresh = true → Clearable stamp s) :
    AuthInv stamp covers
      { s.setCall i { call with phase := .finished } with
        forceRead := s.forceRead && !call.forceFresh
        log := s.log ++ [⟨call.claim, call.since, read⟩] } := by
  have hcached : (s.forceRead && !call.forceFresh) = true ∨ CacheSince stamp s s.required := by
    by_cases hforce : call.forceFresh = true
    · exact Or.inr (h.cached.elim (hguard hforce) id)
    · simpa [hforce] using h.cached
  have hmoved : AuthInv stamp covers (s.setCall i { call with phase := .finished }) :=
    h.moveOn i hknown (by simp) rfl
  have hcleared := hmoved.require _ le_rfl hmoved.required_le_floor hcached
  exact hcleared.log hread

/-- An attempt begins with Redis, or with no older row there. -/
theorem attempted (h : AuthInv stamp covers s) (j : ℕ) (hknown : MutationInv stamp covers s m)
    (hguard : AttemptEffective stamp covers s m) (hlevel : level ∈ m.phase.level) (n : ℕ) :
    AuthInv stamp covers (s.attempt covers j m.kind n level) := by
  refine h.attempt j m.kind n (hknown.level_le level hlevel) fun hlost => ?_
  obtain ⟨hclear, hcache⟩ := hguard hlost
  exact ⟨hclear, fun hcovers => hcache hcovers level hlevel⟩

/-- At the end of a scan no older entry is left: it would be one that the scan has still to return. -/
theorem scanned (h : AuthInv stamp covers s) (j : ℕ) (hknown : MutationInv stamp covers s m)
    (hguard : Clearable stamp s) {n : ℕ} (hphase : m.phase = .scanning n level []) :
    AuthInv stamp covers { s.return covers j m.kind level with forceRead := false } := by
  have hrequired : CacheSince stamp s s.required := h.cached.elim hguard id
  have hscanned : covers m.kind = true → CacheSince stamp s level := by
    intro hcovers e he
    by_contra hold
    have hunseen := (hknown.scanning n level [] hphase hcovers).2 e he (not_le.1 hold)
    exact absurd hunseen List.not_mem_nil
  have hlevel : level ≤ stamp s.current := hknown.level_le level (by rw [hphase]; rfl)
  exact h.returns j m.kind false hlevel (Or.inr ⟨hrequired, hscanned⟩)

end AuthInv

/-- The condition on a step of a call. -/
def CallGuard (stamp : Read → ℤ) (s : AuthState) (call : Call) : AuthAction → Prop
  | .set _ ok => ok = true → ∀ read ∈ call.phase.toWrite, s.floor ≤ stamp read
  | .decide _ => call.forceFresh = true → Clearable stamp s
  | _ => True

/-- A step of a call keeps the invariant. -/
theorem callStep_inv {i : ℕ} {call : Call} {a : AuthAction} {t : AuthState}
    (h : AuthInv stamp covers s) (hknown : CallInv stamp s call)
    (hstep : callStep s i call a = some t) (hguard : CallGuard stamp s call a) :
    AuthInv stamp covers t := by
  have hread : ∀ {read : Read}, call.phase.read = some read → call.since ≤ stamp read :=
    fun hphase => hknown.read _ hphase
  unfold callStep at hstep
  split at hstep
  · -- `get`
    split at hstep
    · next hphase =>
      obtain rfl := Option.some.inj hstep
      split
      · next read hfound =>
        split_ifs at hfound
        exact h.hit i hknown hphase hfound
      · exact h.moveOn i hknown (by simp) rfl
    · exact absurd hstep (by simp)
  · -- `fetch`
    split at hstep
    · obtain rfl := Option.some.inj hstep
      exact h.fetched i hknown
    · exact absurd hstep (by simp)
  · -- `fetchFail`
    split at hstep
    · obtain rfl := Option.some.inj hstep
      exact h.moveOn i hknown (by simp) rfl
    · exact absurd hstep (by simp)
  · -- `resume`: to the write or to the decision
    split at hstep
    · next read hphase =>
      obtain rfl := Option.some.inj hstep
      have hfresh : call.since ≤ stamp read := hread (by rw [hphase]; rfl)
      refine h.moveWith i hknown hfresh ?_
      split_ifs <;> rfl
    · exact absurd hstep (by simp)
  · -- `set`
    next k ok =>
    split at hstep
    · next read hphase =>
      obtain rfl := Option.some.inj hstep
      have hfresh : call.since ≤ stamp read := hread (by rw [hphase]; rfl)
      cases ok with
      | true => exact h.written i hknown hfresh (hguard rfl read (by rw [hphase]; rfl))
      | false => exact h.moveWith i hknown hfresh rfl
    · exact absurd hstep (by simp)
  · -- `decide`
    split at hstep
    · next read hphase =>
      obtain rfl := Option.some.inj hstep
      exact h.decided i hknown (hread (by rw [hphase]; rfl)) hguard
    · exact absurd hstep (by simp)
  · exact absurd hstep (by simp)

/-- The stamp does not fall when the row is written. -/
def StampGrows (stamp : Read → ℤ) : Prop :=
  ∀ (kind : MutationKind) (user : UserRow) (revision : ℕ),
    stamp ⟨user, revision⟩ ≤ stamp ⟨kind.apply user, revision + 1⟩

/-- The condition on a step of an operation. -/
def MutationGuard (stamp : Read → ℤ) (covers : MutationKind → Bool) (s : AuthState) (m : Mutation) :
    AuthAction → Prop
  | .finish _ => covers m.kind = true → ∀ level ∈ m.phase.level, CacheSince stamp s level
  | .invalidate _ => AttemptEffective stamp covers s m
  | .fail _ => m.phase.lastAttempt = false → AttemptEffective stamp covers s m
  | .scanDone _ => Clearable stamp s
  | _ => True

/-- A step of an operation keeps the invariant. -/
theorem mutationStep_inv {j : ℕ} {m : Mutation} {a : AuthAction} {t : AuthState}
    (hgrows : StampGrows stamp) (h : AuthInv stamp covers s) (hknown : MutationInv stamp covers s m)
    (hstep : mutationStep stamp covers s j m a = some t) (hguard : MutationGuard stamp covers s m a) :
    AuthInv stamp covers t := by
  unfold mutationStep at hstep
  split at hstep
  · -- `update`
    split at hstep
    · obtain rfl := Option.some.inj hstep
      have hwritten := h.update m.kind (hgrows m.kind s.user s.revision)
      exact hwritten.setMutation j (.of_not_scanning (by simp [MutationPhase.level]) (by simp))
    · exact absurd hstep (by simp)
  · -- `finish`: nothing is deleted, so the cache has to be fresh already
    split at hstep
    · next level hphase =>
      split_ifs at hstep
      obtain rfl := Option.some.inj hstep
      have hlevel : level ∈ m.phase.level := by rw [hphase]; rfl
      refine h.returns j m.kind s.forceRead (hknown.level_le level hlevel) ?_
      exact h.cached.imp_right fun hcache => ⟨hcache, fun hcovers => hguard hcovers level hlevel⟩
    · exact absurd hstep (by simp)
  · -- `invalidate`
    split at hstep
    · next level hphase =>
      split_ifs at hstep
      obtain rfl := Option.some.inj hstep
      exact h.attempted j hknown hguard (by rw [hphase]; rfl) 1
    · exact absurd hstep (by simp)
  · -- `del`
    split at hstep
    · split_ifs at hstep
      obtain rfl := Option.some.inj hstep
      exact h.drop _
    · exact absurd hstep (by simp)
  · -- `scanDone`
    split at hstep
    · next n level unseen hphase =>
      split_ifs at hstep with hunseen
      obtain rfl := Option.some.inj hstep
      rw [hunseen] at hphase
      exact h.scanned j hknown hguard hphase
    · exact absurd hstep (by simp)
  · -- `fail`: the attempt is repeated, or the flag is set
    split at hstep
    · next n level unseen hphase =>
      obtain rfl := Option.some.inj hstep
      have hlevel : level ∈ m.phase.level := by rw [hphase]; rfl
      split_ifs with hlast
      · have hretried : m.phase.lastAttempt = false := by
          simp [hphase, MutationPhase.lastAttempt, hlast]
        exact h.attempted j hknown (hguard hretried) hlevel (n + 1)
      · exact h.returns j m.kind true (hknown.level_le level hlevel) (Or.inl rfl)
    · exact absurd hstep (by simp)
  · exact absurd hstep (by simp)

/-! ## Runs -/

/-- An orderly step keeps the invariant. -/
theorem authStep_inv (hgrows : StampGrows stamp) (s : AuthState) (a : AuthAction) (t : AuthState)
    (h : AuthInv stamp covers s) (hguard : Orderly stamp covers s a)
    (hstep : authStep stamp covers s a = some t) : AuthInv stamp covers t := by
  have hcalls : ∀ {i : ℕ} {call : Call}, s.calls[i]? = some call → CallInv stamp s call :=
    fun hcall => h.calls _ (List.mem_of_getElem? hcall)
  have hmutations : ∀ {j : ℕ} {m : Mutation}, s.mutations[j]? = some m → MutationInv stamp covers s m :=
    fun hm => h.mutations _ (List.mem_of_getElem? hm)
  cases a with
  | start claim =>
    obtain rfl := Option.some.inj hstep
    refine h.start rfl ?_
    cases hforce : s.forceRead <;> cases s.redisAvailable <;> simp
  | get i ok | fetch i | fetchFail i | resume i =>
    obtain ⟨call, hcall, hcs⟩ := Option.bind_eq_some_iff.1 hstep
    exact callStep_inv h (hcalls hcall) hcs trivial
  | set i ok =>
    obtain ⟨call, hcall, hcs⟩ := Option.bind_eq_some_iff.1 hstep
    exact callStep_inv h (hcalls hcall) hcs fun hok => hguard hok call hcall
  | decide i =>
    obtain ⟨call, hcall, hcs⟩ := Option.bind_eq_some_iff.1 hstep
    exact callStep_inv h (hcalls hcall) hcs (hguard call hcall)
  | expire claim =>
    obtain rfl := Option.some.inj hstep
    exact h.drop [claim]
  | disconnect | connect =>
    obtain rfl := Option.some.inj hstep
    exact h.frame _ h.calls h.mutations
  | begin kind =>
    obtain rfl := Option.some.inj hstep
    exact h.begin kind
  | update j | del j keys =>
    obtain ⟨m, hm, hms⟩ := Option.bind_eq_some_iff.1 hstep
    exact mutationStep_inv hgrows h (hmutations hm) hms trivial
  | finish j | invalidate j | fail j =>
    obtain ⟨m, hm, hms⟩ := Option.bind_eq_some_iff.1 hstep
    exact mutationStep_inv hgrows h (hmutations hm) hms (hguard m hm)
  | scanDone j =>
    obtain ⟨m, hm, hms⟩ := Option.bind_eq_some_iff.1 hstep
    exact mutationStep_inv hgrows h (hmutations hm) hms hguard

/-- Along every orderly run, every call of `authenticate` decides on a row that is as fresh as it was
required when the call began. -/
theorem fresh_along (hgrows : StampGrows stamp) (user : UserRow) (acts : List AuthAction)
    (h : Guarded (authStep stamp covers) (Orderly stamp covers) (.start stamp user) acts) :
    Along (authStep stamp covers) (Fresh stamp) (.start stamp user) acts :=
  along_of_guarded (fun _ hinv => hinv.fresh) (authStep_inv hgrows) (AuthState.start_inv user) h

/-! ## Revocation -/

/-- The stamp of revocation. -/
def bySessionVersion (read : Read) : ℤ := read.row.sessionVersion

/-- No operation lowers `session_version`. -/
theorem bySessionVersion_grows : StampGrows bySessionVersion := by
  intro kind user revision
  unfold bySessionVersion
  cases kind <;> simp [MutationKind.apply]

/-- No call accepts a token with a smaller `session_version` than an operation wrote that had returned
when the call began. -/
def Revoked (s : AuthState) : Prop :=
  ∀ d ∈ s.log, ∀ user, d.decision = .accepted user → ∀ version ∈ d.claim, d.since ≤ version

/-- A token is accepted only with the `session_version` of the row. -/
theorem claim_of_accepted {row : UserRow} {claim : Option ℤ} {user : RequestUser}
    (h : authDecision row claim = .accepted user) : claim = some row.sessionVersion := by
  unfold authDecision at h
  split_ifs at h with hblocked hversion
  exact (not_not.1 hversion).symm

/-- Along every orderly run a token that an operation has revoked is not accepted any more. -/
theorem revoked_along (user : UserRow) (acts : List AuthAction)
    (h : Guarded (authStep bySessionVersion MutationKind.bumps)
      (Orderly bySessionVersion MutationKind.bumps) (.start bySessionVersion user) acts) :
    Along (authStep bySessionVersion MutationKind.bumps) Revoked (.start bySessionVersion user) acts := by
  refine along_of_guarded (fun s hinv d hd user' haccepted version hversion => ?_)
    (authStep_inv bySessionVersion_grows) (AuthState.start_inv user) h
  have hclaim := claim_of_accepted haccepted
  rw [hclaim] at hversion
  rw [← Option.some.inj hversion]
  exact hinv.fresh d hd

/-- An auditor with an active account. -/
def auditor : UserRow :=
  ⟨"user-1", "Auditor", "Active", "auditor", "Auditor", "auditor@example.com", 1, false, none⟩

/-- A call with a token of the first `session_version`, which leaves the row in the cache. -/
def firstCall : List AuthAction :=
  [.start (some 1), .get 0 true, .fetch 0, .resume 0, .set 0 true, .decide 0]

/-- A change of the password deletes the row in the cache, and the old token is denied. -/
theorem revoked_after_changePassword :
    Along (authStep bySessionVersion MutationKind.bumps) Revoked (.start bySessionVersion auditor)
      (firstCall ++ [.begin .changePassword, .update 0, .invalidate 0, .del 0 [some 1], .scanDone 0,
        .start (some 1), .get 1 true, .fetch 1, .resume 1, .set 1 true, .decide 1]) :=
  revoked_along auditor _ (by decide)

/-- `logoutAll` does not invalidate: the row stays in the cache under the old `session_version`, and the
old token is accepted. -/
theorem token_accepted_after_logoutAll :
    ∃ s, run (authStep bySessionVersion MutationKind.bumps) (.start bySessionVersion auditor)
        (firstCall ++ [.begin .logoutAll, .update 0, .finish 0, .start (some 1), .get 1 true,
          .decide 1]) = some s ∧
      s.user.sessionVersion = 2 ∧ s.required = 2 ∧
      s.log.getLast? = some ⟨some 1, 2, ⟨auditor, 0⟩⟩ ∧
      authDecision auditor (some 1) = .accepted
        ⟨"user-1", "Auditor", "auditor", "Auditor", "auditor@example.com", none, false⟩ ∧
      ¬ Revoked s := by
  refine ⟨_, rfl, rfl, rfl, rfl, rfl, fun h => ?_⟩
  have hle := h ⟨some 1, 2, ⟨auditor, 0⟩⟩ (List.mem_cons_of_mem _ List.mem_cons_self) _ rfl 1 rfl
  exact absurd hle (by decide)

/-! ## Stale rows -/

/-- The stamp of a row as it was read: after how many writes. -/
def byRevision (read : Read) : ℤ := read.revision

theorem byRevision_grows : StampGrows byRevision := by
  intro kind user revision
  show (revision : ℤ) ≤ ((revision + 1 : ℕ) : ℤ)
  omega

/-- Along every orderly run, a call that begins when an invalidation has returned decides on a row that
was read from the database at or after the write before that invalidation. -/
theorem cache_fresh_along (user : UserRow) (acts : List AuthAction)
    (h : Guarded (authStep byRevision MutationKind.invalidates)
      (Orderly byRevision MutationKind.invalidates) (.start byRevision user) acts) :
    Along (authStep byRevision MutationKind.invalidates) (Fresh byRevision) (.start byRevision user)
      acts :=
  fresh_along byRevision_grows user acts h

/-- A suspension deletes the row in the cache at the second attempt, and the next call reads the
database. -/
theorem cache_fresh_after_retry :
    Along (authStep byRevision MutationKind.invalidates) (Fresh byRevision) (.start byRevision auditor)
      (firstCall ++ [.begin (.updateUser "Suspended" "Auditor"), .update 0, .invalidate 0, .fail 0,
        .del 0 [some 1], .scanDone 0, .start (some 1), .get 1 true, .fetch 1, .resume 1, .set 1 true,
        .decide 1]) :=
  cache_fresh_along auditor _ (by decide)

/-- Redis is lost while the account is suspended: the invalidation counts as done, the entry is there
again when Redis is back, and the next call is decided on the row from before the suspension. -/
theorem stale_row_after_outage :
    ∃ s, run (authStep byRevision MutationKind.invalidates) (.start byRevision auditor)
        (firstCall ++ [.disconnect, .begin (.updateUser "Suspended" "Auditor"), .update 0,
          .invalidate 0, .connect, .start (some 1), .get 1 true, .decide 1]) = some s ∧
      s.user.status = "Suspended" ∧ s.required = 1 ∧
      s.log.getLast? = some ⟨some 1, 1, ⟨auditor, 0⟩⟩ ∧ ¬ Fresh byRevision s := by
  refine ⟨_, rfl, rfl, rfl, rfl, fun h => ?_⟩
  exact absurd (h ⟨some 1, 1, ⟨auditor, 0⟩⟩ (List.mem_cons_of_mem _ List.mem_cons_self)) (by decide)

end AlsaqiBackend.Auth

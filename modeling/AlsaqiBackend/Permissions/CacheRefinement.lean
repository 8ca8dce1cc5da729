import AlsaqiBackend.Lib.Lru
import AlsaqiBackend.Pagination.CursorPosition
import AlsaqiBackend.Permissions.Cache

/-!
# The permission cache is a bounded map that forgets what is least recently used

The order of the `Map` stands for the time of the last use: `get` and `set` take an entry out and put it at the
end, and a new key in a full cache takes the first one's place. `permissionCache_refines` says that every
sequence of calls has the answers of a map with explicit times, that the cache has the keys that this map
holds, and that they are never more than `maxEntries`.

An invalidation removes the keys that begin with the prefix of a user. These are the keys that were built for
the user, as a UUID has no underscore.
-/

namespace AlsaqiBackend.Permissions

open AlsaqiBackend.Lib AlsaqiBackend.Pagination

/-! ## Calls -/

/-- `invalidateAll`. -/
def PermissionCache.invalidateAll (cache : PermissionCache) : PermissionCache :=
  { cache with store := cache.store.filter fun e => !"perm_".toList.isPrefixOf e.1.toList }

inductive CacheOp
  | get (key : String)
  | set (key : String) (value : Bool)
  | invalidateUser (userId : String)
  | invalidateAll
  | wait (ms : ℕ)
  deriving DecidableEq, Repr

/-- A cache, and `Date.now()`. -/
structure ClockedCache where
  cache : PermissionCache
  now : ℤ

/-- The answer of a call, and the cache after it. -/
def ClockedCache.step (s : ClockedCache) : CacheOp → Option Bool × ClockedCache
  | .get key =>
    let (answer, cache) := s.cache.get s.now key
    (answer, { s with cache })
  | .set key value => (none, { s with cache := s.cache.set s.now key value })
  | .invalidateUser userId => (none, { s with cache := s.cache.invalidateUser userId })
  | .invalidateAll => (none, { s with cache := s.cache.invalidateAll })
  | .wait ms => (none, { s with now := s.now + ms })

/-- The answers of calls, and the cache after them. -/
def ClockedCache.run (s : ClockedCache) : List CacheOp → List (Option Bool) × ClockedCache
  | [] => ([], s)
  | op :: ops =>
    let (answer, s) := s.step op
    let (answers, s) := s.run ops
    (answer :: answers, s)

/-- `new PermissionCache(maxEntries, ttlMinutes)`. -/
def newCache (maxEntries : ℕ) (ttlMs now : ℤ) : ClockedCache := ⟨⟨[], maxEntries, ttlMs⟩, now⟩

/-! ## The map -/

/-- A key that was built for the user. -/
def IsKeyOf (userId key : String) : Prop := ∃ module action, key = cacheKey userId module action

/-- The same call of the map. -/
def CacheOp.lru : CacheOp → LruOp String Bool
  | .get key => .get key
  | .set key value => .set key value
  | .invalidateUser userId => .invalidate {key | IsKeyOf userId key}
  | .invalidateAll => .invalidate Set.univ
  | .wait ms => .wait ms

/-- The keys that are set are built for UUIDs, and so is the user of an invalidation one. -/
def CacheOp.HasUuids : CacheOp → Prop
  | .set key _ => ∃ bits, IsKeyOf (uuidText bits) key
  | .invalidateUser userId => ∃ bits, userId = uuidText bits
  | _ => True

/-! ## Keys -/

theorem underscore_notMem_uuidText (bits : Fin (2 ^ 128)) : '_' ∉ (uuidText bits).toList := by
  have hdigits : '_' ∉ fixedDigits 16 32 (bits : ℕ) :=
    notMem_fixedDigits (digitChar_ne (by decide) (by decide)) 16 32 bits
  have hgroup : ∀ start length : ℕ, '_' ∉ ((fixedDigits 16 32 (bits : ℕ)).drop start).take length :=
    fun start length hmem => hdigits (List.mem_of_mem_drop (List.mem_of_mem_take hmem))
  unfold uuidText
  simp only [String.toList_ofList, List.mem_append, List.mem_singleton, hgroup, not_or, not_false_eq_true, true_and,
    and_true]
  decide

theorem cacheKey_toList (userId module action : String) :
    (cacheKey userId module action).toList =
      "perm_".toList ++ (userId.toList ++ '_' :: (module ++ "_" ++ action).toList) := by
  unfold cacheKey
  simp only [String.toList_append, List.append_assoc]
  rfl

theorem userPrefix_toList (userId : String) :
    (userPrefix userId).toList = "perm_".toList ++ (userId.toList ++ ['_']) := by
  unfold userPrefix
  simp only [String.toList_append, List.append_assoc]
  rfl

/-- Among the keys of users without an underscore, those that begin with the prefix are the user's. -/
theorem isPrefixOf_userPrefix {userId userId' key : String} (h : '_' ∉ userId.toList) (h' : '_' ∉ userId'.toList)
    (hkey : IsKeyOf userId' key) : (userPrefix userId).toList.isPrefixOf key.toList = true ↔ IsKeyOf userId key := by
  rw [List.isPrefixOf_iff_prefix]
  constructor
  · rintro ⟨rest, hrest⟩
    obtain ⟨module, action, rfl⟩ := hkey
    rw [userPrefix_toList, cacheKey_toList, List.append_assoc, List.append_cancel_left_eq, List.append_assoc,
      List.singleton_append, cut_at_first h h', String.toList_inj] at hrest
    exact ⟨module, action, by rw [hrest.1]⟩
  · rintro ⟨module, action, rfl⟩
    refine ⟨(module ++ "_" ++ action).toList, ?_⟩
    rw [userPrefix_toList, cacheKey_toList, List.append_assoc, List.append_assoc, List.singleton_append]

/-- Every key that is built for a user begins like this. -/
theorem isPrefixOf_perm {userId key : String} (hkey : IsKeyOf userId key) :
    "perm_".toList.isPrefixOf key.toList = true := by
  obtain ⟨module, action, rfl⟩ := hkey
  rw [List.isPrefixOf_iff_prefix, cacheKey_toList]
  exact List.prefix_append _ _

/-! ## The simulation -/

/-- The cache represents the map, and its keys are built for UUIDs. -/
structure Refines (maxEntries : ℕ) (ttlMs : ℤ) (s : ClockedCache) (m : LruMap String Bool) : Prop where
  represents : Represents CacheEntry.value CacheEntry.expiresAt maxEntries ttlMs s.cache.store m
  keys : ∀ e ∈ s.cache.store, ∃ bits, IsKeyOf (uuidText bits) e.1
  bound : s.cache.maxEntries = maxEntries
  ttl : s.cache.ttlMs = ttlMs
  now : m.now = s.now

variable {maxEntries : ℕ} {ttlMs : ℤ} {s : ClockedCache} {m : LruMap String Bool} {key : String} {value : Bool}

theorem step_get (s : ClockedCache) (key : String) :
    s.step (.get key) = ((s.cache.get s.now key).1, { s with cache := (s.cache.get s.now key).2 }) := rfl

/-- A call of `get`, by what there is for the key. -/
theorem get_cases (cache : PermissionCache) (now : ℤ) (key : String) :
    (key ∉ cache.store.map Prod.fst ∧ cache.get now key = (none, cache)) ∨
      ∃ entry, (key, entry) ∈ cache.store ∧
        (entry.expiresAt < now ∧
            cache.get now key = (none, { cache with store := cache.store.filter fun e => e.1 ≠ key }) ∨
          now ≤ entry.expiresAt ∧
            cache.get now key = (some entry.value,
              { cache with store := (cache.store.filter fun e => e.1 ≠ key) ++ [(key, entry)] })) := by
  unfold PermissionCache.get
  cases hfound : cache.store.find? fun e => e.1 = key with
  | none =>
    refine .inl ⟨fun hmem => ?_, rfl⟩
    obtain ⟨e, he, heq⟩ := List.mem_map.1 hmem
    exact ne_of_find?_key hfound he heq
  | some e =>
    obtain ⟨key', entry⟩ := e
    obtain ⟨hmem, rfl⟩ := of_find?_key hfound
    refine .inr ⟨entry, hmem, ?_⟩
    by_cases hexpired : entry.expiresAt < now
    · exact .inl ⟨hexpired, by simp only [if_pos hexpired]⟩
    · exact .inr ⟨not_lt.1 hexpired, by simp only [if_neg hexpired]⟩

/-- The keys of other entries are still built for UUIDs. -/
theorem keys_filter {store : List (String × CacheEntry)} {keep : String × CacheEntry → Bool}
    (h : ∀ e ∈ store, ∃ bits, IsKeyOf (uuidText bits) e.1) :
    ∀ e ∈ store.filter keep, ∃ bits, IsKeyOf (uuidText bits) e.1 := fun e he => h e (List.mem_of_mem_filter he)

theorem keys_append {store : List (String × CacheEntry)} {entry : CacheEntry}
    (h : ∀ e ∈ store, ∃ bits, IsKeyOf (uuidText bits) e.1) (hkey : ∃ bits, IsKeyOf (uuidText bits) key) :
    ∀ e ∈ store ++ [(key, entry)], ∃ bits, IsKeyOf (uuidText bits) e.1 :=
  List.forall_mem_append.2 ⟨h, List.forall_mem_singleton.2 hkey⟩

theorem Refines.get (h : Refines maxEntries ttlMs s m) (key : String) :
    ∃ m', LruStep maxEntries ttlMs m (.get key) (s.step (.get key)).1 m' ∧
      Refines maxEntries ttlMs (s.step (.get key)).2 m' := by
  have hrep := h.represents
  rcases get_cases s.cache s.now key with ⟨hkey, hget⟩ | ⟨entry, hmem, ⟨hexpired, hget⟩ | ⟨hfresh, hget⟩⟩
  · have hstep : s.step (.get key) = (none, s) := by rw [step_get, hget]
    have hself : m.setFate {key} .lapsed = m :=
      LruMap.setFate_eq_self fun key' hkey' hholds =>
        hkey (hrep.mem_keys_iff.2 (Set.mem_singleton_iff.1 hkey' ▸ hholds))
    rw [hstep]
    refine ⟨_, LruStep.miss (hrep.not_answers hkey), ?_⟩
    rw [hself]
    exact { h with represents := hrep.next }
  · have hstep : s.step (.get key) =
        (none, { s with cache := { s.cache with store := s.cache.store.filter fun e => e.1 ≠ key } }) := by
      rw [step_get, hget]
    have hnone : ∀ value, ¬m.Answers ttlMs key value := by
      intro value hanswers
      have := ((hrep.answers_iff hmem).1 hanswers).2
      rw [h.now] at this
      omega
    rw [hstep]
    refine ⟨_, LruStep.miss hnone, ?_⟩
    refine { h with represents := (hrep.removeKey (by decide) fun _ r hr hheld => ?_).next, keys := keys_filter h.keys }
    obtain ⟨r', hr', -, -, hexpiry⟩ := hrep.sound (key, entry) hmem
    rw [← Option.some.inj (hr'.symm.trans hr), ← hexpiry, h.now]
    exact hexpired
  · obtain ⟨r, hr, hheld, hvalue, hexpiry⟩ := hrep.sound (key, entry) hmem
    have hstep : s.step (.get key) = (some r.value,
        { s with cache := { s.cache with
          store := (s.cache.store.filter fun e => e.1 ≠ key) ++ [(key, entry)] } }) := by
      rw [step_get, hget, ← hvalue]
    have hanswers : m.Answers ttlMs key r.value :=
      (hrep.answers_iff hmem).2 ⟨hvalue, by rw [h.now]; exact hfresh⟩
    rw [hstep]
    refine ⟨_, LruStep.hit hr hanswers, ?_⟩
    refine { h with
      represents := hrep.replace (List.mem_map_of_mem hmem) hheld rfl hvalue hexpiry
      keys := keys_append (keys_filter h.keys) (h.keys _ hmem) }

/-- A call of `set`, by the place that the entry takes. -/
theorem set_cases (cache : PermissionCache) (now : ℤ) (key : String) (value : Bool) :
    (key ∈ cache.store.map Prod.fst ∧
        (cache.set now key value).store =
          (cache.store.filter fun e => e.1 ≠ key) ++ [(key, ⟨value, now + cache.ttlMs⟩)]) ∨
      key ∉ cache.store.map Prod.fst ∧
        (cache.store.length < cache.maxEntries ∧
            (cache.set now key value).store = cache.store ++ [(key, ⟨value, now + cache.ttlMs⟩)] ∨
          cache.maxEntries ≤ cache.store.length ∧
            (cache.set now key value).store = cache.store.drop 1 ++ [(key, ⟨value, now + cache.ttlMs⟩)]) := by
  have hany : (cache.store.any fun e => e.1 = key) = true ↔ key ∈ cache.store.map Prod.fst := by
    simp only [List.any_eq_true, decide_eq_true_eq, List.mem_map]
  unfold PermissionCache.set
  by_cases hkey : key ∈ cache.store.map Prod.fst
  · refine .inl ⟨hkey, ?_⟩
    simp only [if_pos (hany.2 hkey)]
  · refine .inr ⟨hkey, ?_⟩
    simp only [if_neg (mt hany.1 hkey)]
    by_cases hfull : cache.maxEntries ≤ cache.store.length
    · exact .inr ⟨hfull, by rw [if_pos hfull]⟩
    · exact .inl ⟨not_le.1 hfull, by rw [if_neg hfull]⟩

theorem Refines.set (h : Refines maxEntries ttlMs s m) (hmax : 1 ≤ maxEntries)
    (hkey : ∃ bits, IsKeyOf (uuidText bits) key) (value : Bool) :
    ∃ m', LruStep maxEntries ttlMs m (.set key value) none m' ∧
      Refines maxEntries ttlMs (s.step (.set key value)).2 m' := by
  have hrep := h.represents
  have hexpiry : s.now + s.cache.ttlMs = m.now + ttlMs := by rw [h.ttl, h.now]
  -- What is new besides the list.
  have hrefines : ∀ m', Represents CacheEntry.value CacheEntry.expiresAt maxEntries ttlMs
      (s.cache.set s.now key value).store m' →
      (∀ e ∈ (s.cache.set s.now key value).store, ∃ bits, IsKeyOf (uuidText bits) e.1) → m'.now = s.now →
      Refines maxEntries ttlMs (s.step (.set key value)).2 m' := fun m' hrep' hkeys hnow =>
    ⟨hrep', hkeys, h.bound, h.ttl, hnow⟩
  rcases set_cases s.cache s.now key value with
    ⟨hold, hset⟩ | ⟨hnew, ⟨hroom, hset⟩ | ⟨hfull, hset⟩⟩
  · refine ⟨_, LruStep.put (.inl (hrep.mem_keys_iff.1 hold)), hrefines _ ?_ ?_ h.now⟩
    · rw [hset]
      exact hrep.replace hold rfl rfl rfl hexpiry
    · rw [hset]
      exact keys_append (keys_filter h.keys) hkey
  · rw [h.bound] at hroom
    refine ⟨_, LruStep.put (.inr fun hfull => ?_), hrefines _ ?_ ?_ h.now⟩
    · exact absurd (hrep.full_iff.1 hfull) (not_le.2 hroom)
    · rw [hset]
      exact hrep.append hnew hroom rfl rfl rfl hexpiry
    · rw [hset]
      exact keys_append h.keys hkey
  · rw [h.bound] at hfull
    cases hstore : s.cache.store with
    | nil =>
      rw [hstore, List.length_nil] at hfull
      omega
    | cons first rest =>
      obtain ⟨victim, entry⟩ := first
      have hkeys := h.keys
      rw [hstore] at hrep hset hnew hkeys
      have hlength : rest.length < maxEntries := hrep.bounded
      have hfullMap : m.Full maxEntries := hrep.full_iff.2 (by rw [← hstore]; exact hfull)
      have hnotHeld : ¬m.Holds key := fun hholds => hnew (hrep.mem_keys_iff.2 hholds)
      refine ⟨_, LruStep.evict hnotHeld hfullMap hrep.isLeastUsed, hrefines _ ?_ ?_ h.now⟩
      · rw [hset]
        exact hrep.evictFirst.append (fun hmem => hnew (List.mem_cons_of_mem _ hmem)) hlength rfl rfl rfl hexpiry
      · rw [hset]
        exact keys_append (List.forall_mem_cons.1 hkeys).2 hkey

/-- The entries of the keys are removed. -/
theorem Refines.invalidate (h : Refines maxEntries ttlMs s m) {keys : Set String}
    {keep : String × CacheEntry → Bool} (hkeep : ∀ e ∈ s.cache.store, keep e = true ↔ e.1 ∉ keys) :
    Refines maxEntries ttlMs { s with cache := { s.cache with store := s.cache.store.filter keep } }
      (m.setFate keys .invalidated).next :=
  { h with
    represents := (h.represents.remove hkeep (by decide) fun heq => by cases heq).next
    keys := keys_filter h.keys }

/-- A call is one of the map. -/
theorem Refines.step (h : Refines maxEntries ttlMs s m) (hmax : 1 ≤ maxEntries) (op : CacheOp) (hop : op.HasUuids) :
    ∃ m', LruStep maxEntries ttlMs m op.lru (s.step op).1 m' ∧ Refines maxEntries ttlMs (s.step op).2 m' := by
  cases op with
  | get key => exact h.get key
  | set key value => exact h.set hmax hop value
  | invalidateUser userId =>
    obtain ⟨bits, rfl⟩ := hop
    refine ⟨_, LruStep.invalidate, h.invalidate fun e he => ?_⟩
    obtain ⟨bits', hkey⟩ := h.keys e he
    rw [Bool.not_eq_true', ← Bool.not_eq_true, isPrefixOf_userPrefix (underscore_notMem_uuidText bits)
      (underscore_notMem_uuidText bits') hkey]
    rfl
  | invalidateAll =>
    refine ⟨_, LruStep.invalidate, h.invalidate fun e he => ?_⟩
    obtain ⟨bits, hkey⟩ := h.keys e he
    rw [isPrefixOf_perm hkey]
    simp
  | wait ms =>
    refine ⟨_, LruStep.wait, ?_⟩
    exact { h with represents := (h.represents.wait ms).next, now := congrArg (· + (ms : ℤ)) h.now }

/-- Calls are calls of the map, with the same answers. -/
theorem Refines.run (h : Refines maxEntries ttlMs s m) (hmax : 1 ≤ maxEntries) (ops : List CacheOp)
    (hops : ∀ op ∈ ops, op.HasUuids) :
    ∃ m', LruRun maxEntries ttlMs m (ops.map CacheOp.lru) (s.run ops).1 m' ∧
      Refines maxEntries ttlMs (s.run ops).2 m' := by
  induction ops generalizing s m with
  | nil => exact ⟨m, LruRun.nil, h⟩
  | cons op ops ih =>
    obtain ⟨hop, hrest⟩ := List.forall_mem_cons.1 hops
    obtain ⟨m', hstep, h'⟩ := h.step hmax op hop
    obtain ⟨m'', hrun, h''⟩ := ih h' hrest
    exact ⟨m'', LruRun.cons hstep hrun, h''⟩

/-- Every sequence of calls has the answers of the map, and leaves the cache with the keys that the map holds,
which are no more than `maxEntries`. -/
theorem permissionCache_refines (maxEntries : ℕ) (hmax : 1 ≤ maxEntries) (ttlMs now : ℤ) (ops : List CacheOp)
    (hops : ∀ op ∈ ops, op.HasUuids) :
    ∃ m, LruRun maxEntries ttlMs (LruMap.start now) (ops.map CacheOp.lru)
        ((newCache maxEntries ttlMs now).run ops).1 m ∧
      (∀ key, key ∈ ((newCache maxEntries ttlMs now).run ops).2.cache.store.map Prod.fst ↔ m.Holds key) ∧
      ((newCache maxEntries ttlMs now).run ops).2.cache.store.length ≤ maxEntries := by
  have hstart : Refines maxEntries ttlMs (newCache maxEntries ttlMs now) (LruMap.start now) :=
    ⟨Represents.start, fun e he => absurd he List.not_mem_nil, rfl, rfl, rfl⟩
  obtain ⟨m, hrun, h⟩ := hstart.run hmax ops hops
  exact ⟨m, hrun, fun key => h.represents.mem_keys_iff, h.represents.bounded⟩

local instance uuids_neZero : NeZero (2 ^ 128) := ⟨by decide⟩

/-- The second user takes the place of the first one, and is invalidated. -/
def twoUsers : List CacheOp :=
  [.set (cacheKey (uuidText 1) "Users" "View") true, .set (cacheKey (uuidText 2) "Users" "View") false,
    .get (cacheKey (uuidText 1) "Users" "View"), .invalidateUser (uuidText 2)]

theorem twoUsers_refines : ∃ m, LruRun 1 300000 (LruMap.start 0) (twoUsers.map CacheOp.lru)
      ((newCache 1 300000 0).run twoUsers).1 m ∧
    (∀ key, key ∈ ((newCache 1 300000 0).run twoUsers).2.cache.store.map Prod.fst ↔ m.Holds key) ∧
    ((newCache 1 300000 0).run twoUsers).2.cache.store.length ≤ 1 := by
  have hops : ∀ op ∈ twoUsers, op.HasUuids := by
    unfold twoUsers
    simp only [List.forall_mem_cons]
    exact ⟨⟨1, _, _, rfl⟩, ⟨2, _, _, rfl⟩, trivial, ⟨2, rfl⟩, by simp⟩
  exact permissionCache_refines 1 le_rfl 300000 0 twoUsers hops

end AlsaqiBackend.Permissions
